import CodeToolKit.HwbrapSqlite.Handle
import CodeToolKit.HwbrapSqlite.RuleSelect
import CodeToolKit.Lib.Transition
import CodeToolKit.Lib.Upsert

/-!
# Setting a rule

`SetRuleInfo` looks for rows with the channel and the types of the rule, and updates them or inserts
a row.  Both statements write the same values (`setRuleInfo_cases`), so that on a table whose rules
have different keys the call is an insertion or update by the key (`setRuleInfo_upserts`).
-/

namespace CodeToolKit.HwbrapSqlite

open CodeToolKit.SQL CodeToolKit.Lib

/-- `SetRuleInfo` on an open connection. -/
def setRuleInfo (db : Database) (nChanId : Int32) (pChan : LinkData) : Option (Database × ℤ) :=
  if 0 > nChanId then some (db, -1)
  else
    findRuleSql nChanId pChan >>= sqliteSearch db >>= fun res ↦
      setRuleInfoSql nChanId (0 < res.nRow) pChan >>= sqliteExec db

/-- The steps of `SetRuleInfo` alone. -/
theorem CDBManage.run_setRuleInfo {h : Handle} (nChanId : Int32) (pChan : LinkData) :
    ((setRuleInfo nChanId (some pChan)).run Handle.step h).map tables =
      (HwbrapSqlite.setRuleInfo h.db nChanId pChan).map fun r ↦ (r.1, .status r.2) := by
  rw [setRuleInfo, run_entered, HwbrapSqlite.setRuleInfo]
  by_cases hn : 0 > nChanId
  · rw [if_pos (decide_eq_true hn), if_pos hn]
    rfl
  · rw [if_neg (by simpa using hn), if_neg hn, run_updated, map_bind]

/-! ## What it stores -/

/-- The values of a row in the columns of the key of a rule. -/
def keyOf (r : Row) : List Value := r.cells.take 3

/-- The key of a rule of a channel. -/
def ruleKeyValues (nChanId : Int32) (p : LinkData) : List Value :=
  [.int nChanId.toInt, .int p.nAnaMainType.toInt, .int p.nAnaSubType.toInt]

/-- The values of a rule after its id. -/
def ruleValues (nChanId : Int32) (p : LinkData) : List Value :=
  (ruleData nChanId p).map Datum.value

/-- The record of a rule. -/
def ruleRecord (id nChanId : Int32) (p : LinkData) : LinkData :=
  { LinkData.zero with
    id
    nAnaChannel := nChanId
    nAnaMainType := p.nAnaMainType
    nAnaSubType := p.nAnaSubType
    nLineNum := p.nLineNum
    szBZSLineType := p.szBZSLineType
    szBZSLineType_2 := p.szBZSLineType_2
    szAlarmDirect := p.szAlarmDirect
    nHLimit := p.nHLimit }

/-- A row with these values is read as the rule. -/
theorem ruleOf_ruleValues {r : Row} {id nChanId : Int32} {p : LinkData} (hid : r.id = id.toInt)
    (hcells : r.cells = ruleValues nChanId p) :
    ruleOf (cellOf r) = some (ruleRecord id nChanId p) := by
  have hint : ∀ j (z : Int32), (ruleValues nChanId p)[j]? = some (.int z.toInt) →
      (cellOf r (j + 1) >>= atoi) = some z := by
    intro j z hj
    exact atoi_cellOf_int (by rw [hcells, hj])
  have hstrings : ∀ (j : ℕ) (f : Fin 5 → CharArray 256),
      (∀ i : Fin 5, (ruleValues nChanId p)[j + i]? = some (.text (f i).chars)) →
      stringsOf (cellOf r) (j + 1) = some f := by
    intro j f hf
    refine stringsOf_eq_some.mpr fun i ↦ ?_
    rw [Nat.add_right_comm]
    exact cellOf_text (by rw [hcells, hf i])
  rw [ruleOf, atoi_cellOf_id hid, hint 0 nChanId rfl, hint 1 p.nAnaMainType rfl,
    hint 2 p.nAnaSubType rfl, hint 3 p.nLineNum rfl,
    hstrings 4 p.szBZSLineType (forall_five rfl rfl rfl rfl rfl),
    hstrings 9 p.szBZSLineType_2 (forall_five rfl rfl rfl rfl rfl),
    hstrings 14 p.szAlarmDirect (forall_five rfl rfl rfl rfl rfl), hint 19 p.nHLimit rfl]
  rfl

/-! ## The call -/

section

variable {db : Database} {t : Table} {nChanId : Int32} {p : LinkData}

/-- The conditions of the query and of the update ask for the key. -/
theorem all_ruleKeyFilter (h : HasColumns t ruleColumns) {r : Row} (hr : r ∈ t.rows) :
    ((ruleKeyFilter nChanId p).all fun c ↦ columnTest t rulePlace c r) =
      decide (keyOf r = ruleKeyValues nChanId p) := by
  have hlength : r.cells.length = 20 := by
    rw [t.full r hr, h.columns]
    rfl
  rw [ruleKeyFilter, List.all_cons, List.all_cons, List.all_cons, List.all_nil,
    columnTest_rule h .anachannel rfl, columnTest_rule h .anamaintype rfl,
    columnTest_rule h .anasubtype rfl, hasInt, hasInt, hasInt, keyOf, ruleKeyValues]
  generalize r.cells = cells at hlength
  rcases cells with _ | ⟨a, _ | ⟨b, _ | ⟨c, cells⟩⟩⟩
  · cases hlength
  · cases hlength
  · cases hlength
  · simp

theorem search_findRule (ht : db TBRULE = some t) (h : HasColumns t ruleColumns) :
    (findRuleSql nChanId p >>= sqliteSearch db) =
      some (getTable t (t.rows.filter fun r ↦ keyOf r = ruleKeyValues nChanId p)) := by
  rw [bind_sqliteSearch (parse_findRule nChanId p)
    (query_select ht (test_filter fun c _ ↦ find_rule h c.1)),
    List.filter_congr fun r hr ↦ all_ruleKeyFilter h hr]

/-- The call sends the update where the key has a row, and the insertion where it has none. -/
theorem setRuleInfo_eq (ht : db TBRULE = some t) (h : HasColumns t ruleColumns) (hn : nChanId > 0)
    {found : Bool} (hfound : found ↔ ∃ r ∈ t.rows, keyOf r = ruleKeyValues nChanId p) :
    setRuleInfo db nChanId p = setRuleInfoSql nChanId found p >>= sqliteExec db := by
  have hnot : ¬0 > nChanId := Int32.lt_asymm hn
  rw [setRuleInfo, if_neg hnot, search_findRule ht h, Option.bind_eq_bind, Option.bind_some,
    nRow_pos_filter hfound]

/-- The columns of the update are those after the key. -/
theorem places_ruleSets (h : HasColumns t ruleColumns) (nChanId : Int32) (p : LinkData) :
    t.places ((("linenum".toList, int32 p.nLineNum) :: ruleSets p).map fun s ↦ (s.1, s.2.literal)) =
      .ok ((List.range' 3 17).zip ((ruleValues nChanId p).drop 3)) := by
  have hnames : (("linenum".toList :: ruleStringColumns) ++ ["hlimit".toList]).map
      (Table.empty "id".toList ruleColumns).find =
      (List.range' 3 17).map fun i ↦ .ok (some i) := by
    decide +kernel
  have hplaces : List.Forall₂ t.Places (List.range' 3 17)
      (("linenum".toList, int32 p.nLineNum) :: ruleSets p) := by
    refine Table.forall₂_places ?_ ?_
    · rw [h.find_eq]
      exact hnames
    · rw [h.columns]
      rfl
  exact Table.places_eq hplaces

/-- The update writes the values of the rule into the rows of its key. -/
theorem assign_ruleSets (h : HasColumns t ruleColumns) {r : Row} (hr : r ∈ t.rows)
    (hkey : keyOf r = ruleKeyValues nChanId p) :
    Table.assign ((List.range' 3 17).zip ((ruleValues nChanId p).drop 3)) r =
      ⟨r.id, ruleValues nChanId p⟩ := by
  have hlength : r.cells.length = 3 + ((ruleValues nChanId p).drop 3).length := by
    rw [t.full r hr, h.columns]
    rfl
  have hcells := Table.foldl_set_range r.cells ((ruleValues nChanId p).drop 3) 3 hlength
  rw [Table.assign]
  refine congrArg (Row.mk r.id) (hcells.trans ?_)
  rw [show r.cells.take 3 = ruleKeyValues nChanId p from hkey]
  rfl

/-- The update changes the rows that meet the conditions on the key. -/
theorem exec_updateRule (ht : db TBRULE = some t) (h : HasColumns t ruleColumns) (nChanId : Int32)
    (p : LinkData) :
    exec db (.update TBRULE
        ((("linenum".toList, int32 p.nLineNum) :: ruleSets p).map fun s ↦ (s.1, s.2.literal))
        ((ruleKeyFilter nChanId p).map equation)) =
      .ok (Function.update db TBRULE (some (t.modify
        (fun r ↦ (ruleKeyFilter nChanId p).all fun c ↦ columnTest t rulePlace c r)
        ((List.range' 3 17).zip ((ruleValues nChanId p).drop 3))))) :=
  exec_update_eq ht (places_ruleSets h nChanId p) (test_filter fun c _ ↦ find_rule h c.1)

theorem affinity_ruleData (h : HasColumns t ruleColumns) :
    t.columns.map Column.affinity = (ruleData nChanId p).map Datum.affinity := by
  rw [h.columns]
  rfl

/-- A call succeeds if its statement fits into the buffer, and it finds a row or there is a key left
for a new one. -/
theorem setRuleInfo_ok {found : Bool} (ht : db TBRULE = some t) (h : HasColumns t ruleColumns)
    (hn : nChanId > 0) (hp : ∀ s ∈ p.ruleStrings, '\'' ∉ s.chars)
    (hfound : found ↔ ∃ r ∈ t.rows, keyOf r = ruleKeyValues nChanId p)
    (hsome : (setRuleInfoSql nChanId found p).isSome) (hleft : found = true ∨ t.seq ≠ maxRowid) :
    ∃ db', setRuleInfo db nChanId p = some (db', 0) := by
  rw [setRuleInfo_eq ht h hn hfound]
  cases found with
  | true =>
      have hparse := bind_parse (setRuleInfoSql_update nChanId p) hsome (parse_updateRule hp)
      exact ⟨_, bind_sqliteExec hparse (exec_updateRule ht h nChanId p)⟩
  | false =>
      have hseq : t.seq ≠ maxRowid := hleft.resolve_left Bool.false_ne_true
      have hparse := bind_parse (setRuleInfoSql_insert nChanId p) hsome (parse_insertRule hp)
      exact ⟨_, bind_sqliteExec hparse (exec_insert_eq ht (affinity_ruleData h) hseq)⟩

/-- **What a call can do: nothing, where there is no key left for a row, or an insertion or update
by the key.** -/
theorem setRuleInfo_cases {db' : Database} {lRet : ℤ} (ht : db TBRULE = some t)
    (h : HasColumns t ruleColumns) (hn : nChanId > 0) (hp : ∀ s ∈ p.ruleStrings, '\'' ∉ s.chars)
    (hset : setRuleInfo db nChanId p = some (db', lRet)) :
    lRet = -1 ∧ db' = db ∨
      lRet = 0 ∧ ∃ t', db' = Function.update db TBRULE (some t') ∧ HasColumns t' ruleColumns ∧
        t'.rows = upsert keyOf (ruleKeyValues nChanId p) (fun r ↦ ⟨r.id, ruleValues nChanId p⟩)
          ⟨t.seq + 1, ruleValues nChanId p⟩ t.rows ∧
        ((∃ r ∈ t.rows, keyOf r = ruleKeyValues nChanId p) → t'.seq = t.seq) := by
  by_cases hfound : ∃ r ∈ t.rows, keyOf r = ruleKeyValues nChanId p
  · rw [setRuleInfo_eq ht h hn (iff_of_true rfl hfound)] at hset
    obtain ⟨hlRet, hdb'⟩ := sent_ok (setRuleInfoSql_update nChanId p) (parse_updateRule hp)
      (exec_updateRule ht h nChanId p) hset
    refine .inr ⟨hlRet, _, hdb', ⟨h.key, h.columns⟩, ?_, fun _ ↦ rfl⟩
    rw [upsert_found hfound]
    refine List.map_congr_left fun r hr ↦ ?_
    beta_reduce
    rw [all_ruleKeyFilter h hr]
    by_cases hkey : keyOf r = ruleKeyValues nChanId p
    · rw [if_pos (decide_eq_true hkey), if_pos hkey, assign_ruleSets h hr hkey]
    · rw [if_neg (by simpa using hkey), if_neg hkey]
  · have hnone : ∀ r ∈ t.rows, keyOf r ≠ ruleKeyValues nChanId p :=
      fun r hr hkey ↦ hfound ⟨r, hr, hkey⟩
    rw [setRuleInfo_eq ht h hn (iff_of_false Bool.false_ne_true hfound)] at hset
    by_cases hseq : t.seq = maxRowid
    · exact .inl (sent_error (setRuleInfoSql_insert nChanId p) (parse_insertRule hp)
        (exec_insert_full ht hseq) hset)
    · obtain ⟨hlRet, hdb'⟩ := sent_ok (setRuleInfoSql_insert nChanId p) (parse_insertRule hp)
        (exec_insert_eq ht (affinity_ruleData h) hseq) hset
      refine .inr ⟨hlRet, _, hdb', ⟨h.key, h.columns⟩, ?_, fun h ↦ absurd h hfound⟩
      rw [upsert_added hnone]
      rfl

end

/-! ## Sequences of calls -/

/-- No two rules have the same key. -/
def UniqueRules (t : Table) : Prop := (t.rows.map keyOf).Nodup

/-- The rules of the database have different keys. -/
def HasUniqueRules (db : Database) : Prop :=
  ∃ t, db TBRULE = some t ∧ HasColumns t ruleColumns ∧ UniqueRules t

/-- A call that sets or deletes rules. -/
inductive RuleCall where
  | setRuleInfo (nChanId : Int32) (pChan : LinkData)
  | delRuleInfo (pInfo : LinkData)

namespace RuleCall

/-- The database after a call. -/
def next (db : Database) : RuleCall → Option Database
  | setRuleInfo nChanId pChan => (HwbrapSqlite.setRuleInfo db nChanId pChan).map Prod.fst
  | delRuleInfo pInfo => (HwbrapSqlite.delRuleInfo db pInfo).map Prod.fst

/-- A rule is set for a channel, and its strings have no single quote. -/
def Valid : RuleCall → Prop
  | setRuleInfo nChanId pChan => nChanId > 0 ∧ ∀ s ∈ pChan.ruleStrings, '\'' ∉ s.chars
  | delRuleInfo _ => True

end RuleCall

/-- Sequences of calls, from any rules with different keys. -/
def ruleCalls : System Database RuleCall where
  start := HasUniqueRules
  next := RuleCall.next

/-- The table `t'` is `t` with the rule under its key. -/
structure Upserts (nChanId : Int32) (p : LinkData) (t t' : Table) : Prop where
  /-- The key has one row.  It holds the rule, where `GetRuleInfo` reads it, and its id is that of
  the row that the key had. -/
  row : ∃ r', t'.rows.filter (keyOf · = ruleKeyValues nChanId p) = [r'] ∧
    r'.cells = ruleValues nChanId p ∧
    (∀ id : Int32, r'.id = id.toInt → ruleOf (cellOf r') = some (ruleRecord id nChanId p)) ∧
    ∀ r ∈ t.rows, keyOf r = ruleKeyValues nChanId p → r'.id = r.id
  /-- The rows with other keys are as they were. -/
  others : t'.rows.filter (keyOf · ≠ ruleKeyValues nChanId p) =
    t.rows.filter (keyOf · ≠ ruleKeyValues nChanId p)

section

variable {db : Database} {t : Table} {nChanId : Int32} {p : LinkData}

theorem keyOf_ruleValues (id : ℤ) :
    keyOf ⟨id, ruleValues nChanId p⟩ = ruleKeyValues nChanId p := rfl

theorem UniqueRules.upsert {t' : Table} (hunique : UniqueRules t)
    (hrows : t'.rows = Lib.upsert keyOf (ruleKeyValues nChanId p)
      (fun r ↦ ⟨r.id, ruleValues nChanId p⟩) ⟨t.seq + 1, ruleValues nChanId p⟩ t.rows) :
    UniqueRules t' := by
  rw [UniqueRules, hrows]
  refine nodup_upsert (fun r _ ↦ keyOf_ruleValues r.id) ?_ hunique
  intro hnone r hr
  rw [keyOf_ruleValues]
  exact hnone r hr

/-- An insertion or update by the key. -/
theorem upserts_of_rows {t' : Table} (hunique : UniqueRules t)
    (hrows : t'.rows = upsert keyOf (ruleKeyValues nChanId p)
      (fun r ↦ ⟨r.id, ruleValues nChanId p⟩) ⟨t.seq + 1, ruleValues nChanId p⟩ t.rows) :
    Upserts nChanId p t t' := by
  constructor
  · obtain ⟨r', hfilter, hr'⟩ := upsert_unique (k := ruleKeyValues nChanId p)
      (f := fun r ↦ ⟨r.id, ruleValues nChanId p⟩) (x := ⟨t.seq + 1, ruleValues nChanId p⟩)
      (fun r _ ↦ keyOf_ruleValues r.id) (keyOf_ruleValues _) hunique
    have hcells : r'.cells = ruleValues nChanId p := by
      rcases hr' with ⟨-, rfl⟩ | ⟨r, -, -, rfl⟩ <;> rfl
    refine ⟨r', ?_, hcells, fun id hid ↦ ruleOf_ruleValues hid hcells, ?_⟩
    · rw [hrows]
      exact hfilter
    · intro r hr hkey
      rcases hr' with ⟨hnone, -⟩ | ⟨r₀, hr₀, hkey₀, rfl⟩
      · exact absurd hkey (hnone r hr)
      · rw [List.inj_on_of_nodup_map hunique hr₀ hr (hkey₀.trans hkey.symm)]
  · rw [hrows]
    exact filter_ne_upsert (fun r _ ↦ keyOf_ruleValues r.id) (keyOf_ruleValues _)

/-- Setting the same rule again changes nothing. -/
theorem setRuleInfo_again {db' db'' : Database} {lRet : ℤ} (ht : db TBRULE = some t)
    (h : HasColumns t ruleColumns) (hn : nChanId > 0) (hp : ∀ s ∈ p.ruleStrings, '\'' ∉ s.chars)
    (hset : setRuleInfo db nChanId p = some (db', 0))
    (hagain : setRuleInfo db' nChanId p = some (db'', lRet)) : db'' = db' := by
  rcases setRuleInfo_cases ht h hn hp hset with ⟨hlRet, -⟩ | ⟨-, t', rfl, h', hrows, -⟩
  · cases hlRet
  · have ht' : Function.update db TBRULE (some t') TBRULE = some t' := Function.update_self _ _ _
    rcases setRuleInfo_cases ht' h' hn hp hagain with ⟨-, heq⟩ | ⟨-, t'', rfl, h'', hrows', hseq⟩
    · exact heq
    · have hsame : t''.rows = t'.rows := by
        rw [hrows', hrows]
        exact upsert_upsert (fun r _ ↦ keyOf_ruleValues r.id) (fun r _ ↦ rfl)
          (keyOf_ruleValues _) rfl
      have hfound : ∃ r ∈ t'.rows, keyOf r = ruleKeyValues nChanId p := by
        by_contra hnone
        have hadded := hrows'.trans (upsert_added fun r hr hkey ↦ hnone ⟨r, hr, hkey⟩)
        rw [hsame] at hadded
        simp at hadded
      have htable : t'' = t' := Table.ext (h''.key.trans h'.key.symm)
        (h''.columns.trans h'.columns.symm) hsame (hseq hfound)
      rw [htable, Function.update_idem]

end

/-- Every call keeps the keys different. -/
theorem HasUniqueRules.next {db db' : Database} {c : RuleCall} (hdb : HasUniqueRules db)
    (hc : c.Valid) (h : c.next db = some db') : HasUniqueRules db' := by
  obtain ⟨t, ht, hcolumns, hunique⟩ := hdb
  cases c with
  | setRuleInfo nChanId p =>
      obtain ⟨⟨db₁, lRet⟩, hset, rfl⟩ := Option.map_eq_some_iff.mp h
      rcases setRuleInfo_cases ht hcolumns hc.1 hc.2 hset with ⟨-, rfl⟩ | ⟨-, t', rfl, h', hrows, -⟩
      · exact ⟨t, ht, hcolumns, hunique⟩
      · exact ⟨t', Function.update_self TBRULE (some t') db, h', hunique.upsert hrows⟩
  | delRuleInfo pInfo =>
      obtain ⟨⟨db₁, lRet⟩, hdel, rfl⟩ := Option.map_eq_some_iff.mp h
      rw [delRuleInfo_eq ht hcolumns] at hdel
      cases hdel
      refine ⟨t.filter fun r ↦ !isDeleted t pInfo r, Function.update_self TBRULE _ db,
        ⟨hcolumns.key, hcolumns.columns⟩, ?_⟩
      exact hunique.sublist (List.filter_sublist.map keyOf)

/-- **After any calls the keys of the rules are different, and `SetRuleInfo` inserts or updates the
rule by its key.** -/
theorem setRuleInfo_upserts {db : Database}
    (hreach : ruleCalls.ReachableIf (fun _ c ↦ c.Valid) db) :
    ∃ t, db TBRULE = some t ∧ UniqueRules t ∧
      ∀ nChanId p db', (RuleCall.setRuleInfo nChanId p).Valid →
        setRuleInfo db nChanId p = some (db', 0) →
        (∃ t', db' TBRULE = some t' ∧ Upserts nChanId p t t') ∧
          (∀ name ≠ TBRULE, db' name = db name) ∧
          ∀ db'' lRet, setRuleInfo db' nChanId p = some (db'', lRet) → db'' = db' := by
  have hdb : HasUniqueRules db :=
    hreach.invariant (I := HasUniqueRules) (fun _ hs ↦ hs)
      fun _ _ _ hdb hc hnext ↦ hdb.next hc hnext
  obtain ⟨t, ht, hcolumns, hunique⟩ := hdb
  refine ⟨t, ht, hunique, fun nChanId p db' hvalid hset ↦ ?_⟩
  rcases setRuleInfo_cases ht hcolumns hvalid.1 hvalid.2 hset with
    ⟨hlRet, -⟩ | ⟨-, t', rfl, -, hrows, -⟩
  · cases hlRet
  · refine ⟨⟨t', Function.update_self _ _ _, upserts_of_rows hunique hrows⟩, ?_, ?_⟩
    · intro name hname
      exact Function.update_of_ne hname _ _
    · intro db'' lRet hagain
      exact setRuleInfo_again ht hcolumns hvalid.1 hvalid.2 hset hagain

/-- A rule with other values under the key of the rule of the test. -/
def changedRule : LinkData :=
  { testRule with nLineNum := 4, szAlarmDirect := fun _ ↦ ⟨['l', 'r'], by decide, by decide⟩ }

/-- The table with the rule of the test, and with one of another channel. -/
def twoRules : Table :=
  storedRule.push ([.int 2, .int 2, .int 3, .int 1] ++ List.replicate 15 (.text []) ++ [.int 0]) rfl

/-- The values of a rule are changed beside another rule. -/
theorem setRuleInfo_changedRule : ∃ db' t',
    setRuleInfo (ruleDatabase twoRules) 1 changedRule = some (db', 0) ∧
      db' TBRULE = some t' ∧ Upserts 1 changedRule twoRules t' := by
  have hstored : ruleDatabase twoRules TBRULE = some twoRules := rfl
  have hcolumns : HasColumns twoRules ruleColumns := ⟨rfl, rfl⟩
  have hquotes : ∀ s ∈ changedRule.ruleStrings, '\'' ∉ s.chars := by decide
  have hfound : ∃ r ∈ twoRules.rows, keyOf r = ruleKeyValues 1 changedRule :=
    ⟨_, List.mem_cons_self, rfl⟩
  have hsome : (setRuleInfoSql 1 true changedRule).isSome := by
    rw [setRuleInfoSql_update, composed_eq_some.mpr ⟨rfl, by decide +kernel⟩]
    rfl
  obtain ⟨db', hset⟩ := setRuleInfo_ok hstored hcolumns (by decide) hquotes
    (iff_of_true rfl hfound) hsome (.inl rfl)
  have hunique : (twoRules.rows.map keyOf).Nodup := by decide
  have hstart : HasUniqueRules (ruleDatabase twoRules) := ⟨twoRules, hstored, hcolumns, hunique⟩
  obtain ⟨t, ht, -, hcall⟩ := setRuleInfo_upserts (.start hstart)
  obtain ⟨⟨t', ht', hupserts⟩, -, -⟩ := hcall 1 changedRule db' ⟨by decide, hquotes⟩ hset
  cases ht
  exact ⟨db', t', hset, ht', hupserts⟩

end CodeToolKit.HwbrapSqlite
