import CodeToolKit.HwbrapSqlite.Changes

/-!
# Reading what was stored

After any sequence of changes the queries come to their ends (`readsBack_of_reachable`): the cells
that they read are no null pointers, and the texts fit into the fields that `strcpy_s` copies them
to.
-/

namespace CodeToolKit.HwbrapSqlite

open CodeToolKit.SQL CodeToolKit.Lib

/-! ## Cells -/

/-- What the loop of `GetLinkInfo` does with the cells of a row: `atoi`, or `strcpy_s` into a field
of this size. -/
def linkCells : List Kind :=
  [.int, .int, .text 64, .text 64, .int, .int, .text 32, .text 64, .text 64, .int, .int, .int]

/-- What the loop of `GetRuleInfo` does with the cells of a row. -/
def ruleCells : List Kind :=
  List.replicate 5 .int ++ List.replicate 15 (.text 256) ++ [.int]

/-- The cell is no null pointer, and its text fits into the field it is copied to. -/
def Readable : Kind → Option (List Char) → Prop
  | .int, data => ∃ s, data = some s
  | .text n, data => ∃ s, data = some s ∧ s.length < n

/-- The loop can read all rows of the result. -/
def ReadsAll (cells : List Kind) (res : ResultTable) : Prop :=
  ∀ i < res.nRow, ∀ j k, cells[j]? = some k → Readable k (res.getTableData j (i + 1))

section

variable {kinds : List Kind} {r : Row}

/-- A cell of integers. -/
theorem atoi_cellOf (h : Fits kinds r.cells) {j : ℕ} (hk : kinds[j]? = some .int) :
    ∃ z, (cellOf r (j + 1) >>= atoi) = some z := by
  obtain ⟨v, hv, hhas⟩ := h.getElem? hk
  rcases v with _ | z | s | s | s
  · cases hhas
  · rw [cellOf_succ, hv]
    exact ⟨_, atoi_decimal hhas⟩
  · cases hhas
  · cases hhas
  · cases hhas

/-- A cell of strings. -/
theorem ofList_cellOf (h : Fits kinds r.cells) {j n : ℕ} (hk : kinds[j]? = some (.text n)) :
    ∃ s, (cellOf r (j + 1) >>= CharArray.ofList? n) = some s := by
  obtain ⟨v, hv, hhas⟩ := h.getElem? hk
  rcases v with _ | z | s | s | s
  · cases hhas
  · cases hhas
  · cases hhas
  · have hbytes : s.all isByte := by
      rw [List.all_eq_true]
      intro c hc
      rw [isByte, Bool.and_eq_true, decide_eq_true_iff, decide_eq_true_iff]
      exact hhas.1 c hc
    have hchars : s.takeWhile (· ≠ '\x00') = s :=
      List.takeWhile_eq_self_iff.mpr fun c hc ↦ decide_eq_true (hhas.1 c hc).1
    rw [cellOf_succ, hv]
    show ∃ s', CharArray.ofList? n (s.takeWhile (· ≠ '\x00')) = some s'
    rw [hchars]
    exact ⟨_, dif_pos ⟨hbytes, hhas.2⟩⟩
  · cases hhas

/-- The cells of a row of the kinds. -/
theorem readable_cellOf (h : Fits kinds r.cells) {j : ℕ} {k : Kind}
    (hk : (.int :: kinds)[j]? = some k) : Readable k (cellOf r j) := by
  rcases j with _ | j
  · cases Option.some.inj hk
    exact ⟨_, rfl⟩
  · rw [List.getElem?_cons_succ] at hk
    rcases k with _ | n
    · obtain ⟨z, hz⟩ := atoi_cellOf h hk
      obtain ⟨s, hs, -⟩ := Option.bind_eq_some_iff.mp hz
      exact ⟨s, hs⟩
    · obtain ⟨s, hs⟩ := ofList_cellOf h hk
      obtain ⟨s', hs', hs⟩ := Option.bind_eq_some_iff.mp hs
      rw [CharArray.ofList?] at hs
      split at hs
      · exact ⟨s', hs', ‹s'.all isByte ∧ s'.length < n›.2⟩
      · cases hs

end

/-- The rows of a query of a table that keeps its schema. -/
theorem readsAll_getTable {s : Schema} {t : Table} (h : s.Keeps t)
    (hlength : s.kinds.length = s.columns.length) (p : Row → Bool) :
    ReadsAll (.int :: s.kinds) (getTable t (t.rows.filter p)) := by
  intro i hi j k hk
  have hfull : ∀ r ∈ t.rows.filter p, r.cells.length = t.columns.length :=
    fun r hr ↦ t.full r (List.mem_of_mem_filter hr)
  have hj : j < t.columns.length + 1 := by
    have hj := (List.getElem?_eq_some_iff.mp hk).1
    rw [List.length_cons, hlength] at hj
    rw [h.columns]
    exact hj
  have hi : i < (t.rows.filter p).length := by
    rw [getTable] at hi
    split at hi
    · exact absurd hi (Nat.not_lt_zero i)
    · exact hi
  have hr : (t.rows.filter p)[i]? = some (t.rows.filter p)[i] := List.getElem?_eq_getElem hi
  rw [getTableData_getTable hfull hr hj]
  exact readable_cellOf (h.holds _ (List.mem_of_mem_filter (List.getElem_mem hi))) hk

/-! ## Records -/

/-- The key of the row is an `int`. -/
def HasIntId (r : Row) : Prop := -2 ^ 31 ≤ r.id ∧ r.id < 2 ^ 31

theorem atoi_id {r : Row} (h : HasIntId r) : (cellOf r 0 >>= atoi) = some (Int32.ofInt r.id) :=
  atoi_decimal h

/-- A row of `table_channels` is a linkage record. -/
theorem exists_linkOf {r : Row} (hid : HasIntId r) (h : Fits channels.kinds r.cells) :
    ∃ info, linkOf (cellOf r) = some info := by
  obtain ⟨z₀, h₀⟩ := atoi_cellOf h (j := 0) rfl
  obtain ⟨s₁, h₁⟩ := ofList_cellOf h (j := 1) rfl
  obtain ⟨s₂, h₂⟩ := ofList_cellOf h (j := 2) rfl
  obtain ⟨z₃, h₃⟩ := atoi_cellOf h (j := 3) rfl
  obtain ⟨z₄, h₄⟩ := atoi_cellOf h (j := 4) rfl
  obtain ⟨s₅, h₅⟩ := ofList_cellOf h (j := 5) rfl
  obtain ⟨s₆, h₆⟩ := ofList_cellOf h (j := 6) rfl
  obtain ⟨s₇, h₇⟩ := ofList_cellOf h (j := 7) rfl
  obtain ⟨z₈, h₈⟩ := atoi_cellOf h (j := 8) rfl
  obtain ⟨z₉, h₉⟩ := atoi_cellOf h (j := 9) rfl
  obtain ⟨z₁₀, h₁₀⟩ := atoi_cellOf h (j := 10) rfl
  rw [linkOf, atoi_id hid, h₀, h₁, h₂, h₃, h₄, h₅, h₆, h₇, h₈, h₉, h₁₀]
  exact ⟨_, rfl⟩

/-- Five strings of a row. -/
theorem exists_stringsOf {r : Row} (h : Fits rules.kinds r.cells) {j : ℕ}
    (hj : ∀ i < 5, rules.kinds[j + i]? = some (.text 256)) :
    ∃ f, stringsOf (cellOf r) (j + 1) = some f := by
  obtain ⟨s₀, h₀⟩ := ofList_cellOf h (hj 0 (by decide))
  obtain ⟨s₁, h₁⟩ := ofList_cellOf h (hj 1 (by decide))
  obtain ⟨s₂, h₂⟩ := ofList_cellOf h (hj 2 (by decide))
  obtain ⟨s₃, h₃⟩ := ofList_cellOf h (hj 3 (by decide))
  obtain ⟨s₄, h₄⟩ := ofList_cellOf h (hj 4 (by decide))
  have hnext : ∀ i, j + 1 + i = j + i + 1 := fun i ↦ Nat.add_right_comm j 1 i
  rw [stringsOf, hnext, hnext, hnext, hnext, ← Nat.add_zero j, h₀, Nat.add_zero, h₁, h₂, h₃, h₄]
  exact ⟨_, rfl⟩

/-- A row of `table_rules` is a rule. -/
theorem exists_ruleOf {r : Row} (hid : HasIntId r) (h : Fits rules.kinds r.cells) :
    ∃ info, ruleOf (cellOf r) = some info := by
  obtain ⟨z₀, h₀⟩ := atoi_cellOf h (j := 0) rfl
  obtain ⟨z₁, h₁⟩ := atoi_cellOf h (j := 1) rfl
  obtain ⟨z₂, h₂⟩ := atoi_cellOf h (j := 2) rfl
  obtain ⟨z₃, h₃⟩ := atoi_cellOf h (j := 3) rfl
  obtain ⟨f₄, h₄⟩ := exists_stringsOf h (j := 4) (by decide)
  obtain ⟨f₉, h₉⟩ := exists_stringsOf h (j := 9) (by decide)
  obtain ⟨f₁₄, h₁₄⟩ := exists_stringsOf h (j := 14) (by decide)
  obtain ⟨z₁₉, h₁₉⟩ := atoi_cellOf h (j := 19) rfl
  rw [ruleOf, atoi_id hid, h₀, h₁, h₂, h₃, h₄, h₉, h₁₄, h₁₉]
  exact ⟨_, rfl⟩

/-! ## Queries -/

/-- The keys of a table are numbers that `atoi` can read. -/
def HasIntIds (db : Database) (name : List Char) : Prop :=
  ∀ t, db name = some t → ∀ r ∈ t.rows, HasIntId r

/-- The queries can read what is in the tables. -/
structure ReadsBack (h : Handle) : Prop where
  /-- The cells that `GetLinkInfo` reads. -/
  linkCells : ∀ pInfo, ∃ res, (getLinkInfoSql pInfo >>= sqliteSearch h.db) = some res ∧
    ReadsAll linkCells res
  /-- The cells that `GetRuleInfo` reads. -/
  ruleCells : ∀ pInfo, ∃ res, (getRuleInfoSql pInfo >>= sqliteSearch h.db) = some res ∧
    ReadsAll ruleCells res
  /-- `GetLinkInfo` returns. -/
  getLinkInfo : HasIntIds h.db TBCHAN → ∀ pInfo,
    ((CDBManage.getLinkInfo (some pInfo) false).run Handle.step h).isSome
  /-- `GetRuleInfo` returns. -/
  getRuleInfo : HasIntIds h.db TBRULE → ∀ pInfo,
    ((CDBManage.getRuleInfo (some pInfo) false).run Handle.step h).isSome

theorem Stored.readsBack {h : Handle} (hdb : Stored h.db) : ReadsBack h := by
  obtain ⟨t, ht, hkeeps⟩ := hdb channels mem_channels
  obtain ⟨t', ht', hkeeps'⟩ := hdb rules mem_rules
  refine ⟨?_, ?_, ?_, ?_⟩
  · intro pInfo
    exact ⟨_, bind_sqliteSearch (parse_getLinkInfo pInfo)
      (query_getLinkInfo ht hkeeps.toHasColumns pInfo), readsAll_getTable hkeeps rfl _⟩
  · intro pInfo
    exact ⟨_, bind_sqliteSearch (parse_getRuleInfo pInfo)
      (query_select ht' (test_filter fun c _ ↦ find_rule hkeeps'.toHasColumns c.1)),
      readsAll_getTable hkeeps' rfl _⟩
  · intro hids pInfo
    have hrows : ∀ r ∈ t.rows.filter (isReturned pInfo), (linkOf (cellOf r)).isSome := by
      intro r hr
      have hr := List.mem_of_mem_filter hr
      exact Option.isSome_iff_exists.mpr (exists_linkOf (hids t ht r hr) (hkeeps.holds r hr))
    obtain ⟨rs, hrs⟩ := exists_mapM_iff.mpr hrows
    have hrun := CDBManage.run_getLinkInfo (h := h) pInfo
    rw [getLinkInfo_eq ht hkeeps.toHasColumns, linkRows_eq ht hkeeps.toHasColumns,
      Option.bind_eq_bind, Option.bind_some, hrs] at hrun
    rw [← Option.isSome_map, hrun]
    rfl
  · intro hids pInfo
    have hrows : ∀ r ∈ t'.rows.filter (isSelected t' pInfo), (ruleOf (cellOf r)).isSome := by
      intro r hr
      have hr := List.mem_of_mem_filter hr
      exact Option.isSome_iff_exists.mpr (exists_ruleOf (hids t' ht' r hr) (hkeeps'.holds r hr))
    obtain ⟨rs, hrs⟩ := exists_mapM_iff.mpr hrows
    have hrun := CDBManage.run_getRuleInfo (h := h) pInfo
    rw [getRuleInfo_eq ht' hkeeps'.toHasColumns, hrs] at hrun
    rw [← Option.isSome_map, hrun]
    rfl

/-! ## Sequences of changes -/

/-- The connection to a database without the tables, after `CreateTable`. -/
def IsNew (h : Handle) : Prop :=
  ∃ h₀ : Handle, h₀.db TBCHAN = none ∧ h₀.db TBRULE = none ∧
    (CDBManage.createTable.run Handle.step h₀).map Prod.fst = some h

/-- The program of `CreateTable`, with any two statements. -/
theorem run_twoStatements {h : Handle} {channelsSql rulesSql : Option (List Char)}
    {db db' : Database} (hfirst : (channelsSql >>= sqliteExec h.db) = some (db, 0))
    (hsecond : (rulesSql >>= sqliteExec db) = some (db', 0)) :
    ((Program.lock <| .op (.setCommit false) fun _ ↦ .op .isNull fun isNull ↦
        if isNull then .unlock (.ret (.status (-1)))
        else do
          let szSql ← .ofOption channelsSql
          let _ ← CDBManage.act (.exec szSql)
          CDBManage.executed rulesSql fun lRet ↦ pure (.status lRet) : Prog Reply).run
      Handle.step h).map (fun s ↦ s.1.db) = some db' := by
  obtain ⟨szSql, rfl, hexec⟩ := Option.bind_eq_some_iff.mp hfirst
  show ((sqliteExec h.db szSql).map _ >>= _).map _ = _
  rw [hexec]
  refine (CDBManage.run_executed fun lRet h' ↦ ⟨.status lRet, rfl⟩).trans ?_
  exact congrArg (Option.map Prod.fst) hsecond

/-- `CreateTable` alone makes the tables. -/
theorem map_createTable {h : Handle} (hchannels : h.db TBCHAN = none)
    (hrules : h.db TBRULE = none) :
    (CDBManage.createTable.run Handle.step h).map (fun s ↦ s.1.db) = some (createdTables h.db) := by
  rw [CDBManage.createTable]
  refine run_twoStatements (bind_createChannels hchannels) (bind_createRules ?_)
  exact (Function.update_of_ne TBRULE_ne_TBCHAN _ _).trans hrules

/-- Calls that change records, one after the other. -/
def changes : System Handle Change where
  start := IsNew
  next := Change.next

theorem changes_next (h : Handle) (c : Change) : changes.next h c = c.next h := rfl

theorem stored_isNew {h : Handle} (hnew : IsNew h) : Stored h.db := by
  obtain ⟨h₀, hchannels, hrules, hrun⟩ := hnew
  have hmap := map_createTable hchannels hrules
  obtain ⟨⟨h', reply⟩, hrun', rfl⟩ := Option.map_eq_some_iff.mp hrun
  rw [hrun'] at hmap
  rw [show h'.db = createdTables h₀.db from Option.some.inj hmap]
  exact stored_createdTables h₀.db

/-- **What was stored can be read.**  On a new database, after any calls on records without quotes
whose statements fit into their buffers, the next such call comes to its end, and the queries can
read every row that they select. -/
theorem readsBack_of_reachable {h : Handle}
    (hreach : changes.ReachableIf (fun h c ↦ c.Fits h.db) h) :
    (∀ c : Change, c.Fits h.db → (c.next h).isSome) ∧ ReadsBack h := by
  have hstored : Stored h.db := by
    refine hreach.invariant (I := fun h ↦ Stored h.db) (fun h hnew ↦ stored_isNew hnew) ?_
    intro h c h' hdb hc hnext
    obtain ⟨h'', hh'', hstored⟩ := Change.stored_next hdb hc
    rw [← changes_next, hnext] at hh''
    rw [Option.some.inj hh'']
    exact hstored
  refine ⟨fun c hc ↦ ?_, hstored.readsBack⟩
  obtain ⟨h', hh', -⟩ := Change.stored_next hstored hc
  rw [hh']
  rfl

/-! ## A run -/

theorem quoteFree_testInfo : LinkData.testInfo.QuoteFree := by
  have hall : (LinkData.testInfo.linkStrings ++
      LinkData.testInfo.ruleStrings.map CharArray.chars).all fun s ↦ s.all (!isQuote ·) := by
    decide +kernel
  intro s hs c hc hquote
  have hfree := List.all_eq_true.mp (List.all_eq_true.mp hall s hs) c hc
  rw [hquote] at hfree
  cases hfree

theorem fits_addTestInfo (db : Database) : (Change.addLinkInfo .testInfo).Fits db := by
  refine ⟨quoteFree_testInfo, .inr ?_⟩
  show (addLinkInfoSql .testInfo).isSome
  rw [addLinkInfoSql_eq, composed_eq_some.mpr ⟨rfl, by decide +kernel⟩]
  rfl

theorem fits_setTestRule {db : Database} (hdb : Stored db) :
    (Change.setRuleInfo 1 testRule).Fits db := by
  obtain ⟨res, hres⟩ := exists_findRule hdb 1 testRule
  refine ⟨quoteFree_testRule, .inr ?_⟩
  rw [Change.sql, hres, Option.bind_eq_bind, Option.bind_some]
  rcases decide (0 < res.nRow) with _ | _
  · rw [setRuleInfoSql_insert, composed_eq_some.mpr ⟨rfl, by decide +kernel⟩]
    rfl
  · rw [setRuleInfoSql_update, composed_eq_some.mpr ⟨rfl, by decide +kernel⟩]
    rfl

/-- A connection to an empty database. -/
def emptyHandle : Handle := ⟨fun _ ↦ none, ⟨0, 0, []⟩, 0⟩

/-- The device of the test program and a rule for it are stored and can be read. -/
theorem readsBack_testInfo : ∃ h₀ h₁ h₂ : Handle, changes.start h₀ ∧
    changes.next h₀ (.addLinkInfo .testInfo) = some h₁ ∧
    changes.next h₁ (.setRuleInfo 1 testRule) = some h₂ ∧ ReadsBack h₂ := by
  obtain ⟨⟨h₀, reply⟩, hrun, -⟩ := Option.map_eq_some_iff.mp
    (map_createTable (h := emptyHandle) rfl rfl)
  have hstart : changes.start h₀ := by
    refine ⟨emptyHandle, rfl, rfl, ?_⟩
    rw [hrun]
    rfl
  have hadd := fits_addTestInfo h₀.db
  obtain ⟨h₁, hh₁, hstored⟩ := Change.stored_next (stored_isNew hstart) hadd
  have hset := fits_setTestRule hstored
  obtain ⟨h₂, hh₂, -⟩ := Change.stored_next hstored hset
  rw [← changes_next] at hh₁ hh₂
  have hreach₁ : changes.ReachableIf (fun h c ↦ c.Fits h.db) h₁ :=
    .step (.start hstart) hadd hh₁
  have hreach₂ : changes.ReachableIf (fun h c ↦ c.Fits h.db) h₂ :=
    .step hreach₁ hset hh₂
  exact ⟨h₀, h₁, h₂, hstart, hh₁, hh₂, (readsBack_of_reachable hreach₂).2⟩

end CodeToolKit.HwbrapSqlite
