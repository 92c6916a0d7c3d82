import CodeToolKit.HwbrapSqlite.Handle
import CodeToolKit.HwbrapSqlite.Stored
import CodeToolKit.Lib.Transition

/-!
# Sequences of changes

The six calls that change records, one after the other on a connection whose tables are those of
`CreateTable`.  If the records have no quotes, a call whose statement fits into its buffer comes to
its end, and the tables still hold what their columns are for (`stored_next`).
-/

namespace CodeToolKit.HwbrapSqlite

open CodeToolKit.SQL CodeToolKit.Lib

/-- A call that changes records. -/
inductive Change where
  | addLinkInfo (pChan : LinkData)
  | setLinkInfo (nChanId : Int32) (pChan : LinkData)
  | delLinkInfo (pInfo : LinkData)
  | addRuleInfo (pChan : LinkData)
  | setRuleInfo (nChanId : Int32) (pChan : LinkData)
  | delRuleInfo (pInfo : LinkData)

namespace Change

/-- The record that the call is given. -/
def record : Change → LinkData
  | addLinkInfo r | setLinkInfo _ r | delLinkInfo r | addRuleInfo r | setRuleInfo _ r
  | delRuleInfo r => r

/-- The call. -/
def request : Change → Request
  | addLinkInfo r => .addLinkInfo (some r)
  | setLinkInfo nChanId r => .setLinkInfo nChanId (some r)
  | delLinkInfo r => .delLinkInfo (some r)
  | addRuleInfo r => .addRuleInfo (some r)
  | setRuleInfo nChanId r => .setRuleInfo nChanId (some r)
  | delRuleInfo r => .delRuleInfo (some r)

/-- The call returns before it composes a statement. -/
def rejected : Change → Bool
  | setLinkInfo nChanId _ | setRuleInfo nChanId _ => 0 > nChanId
  | _ => false

/-- The statement that the call ends with; it depends on the rows that its query finds. -/
def sql (db : Database) : Change → Option (List Char)
  | addLinkInfo r => addLinkInfoSql r
  | setLinkInfo nChanId r =>
      findLinkSql nChanId r >>= sqliteSearch db >>= fun res ↦
        setLinkInfoSql nChanId (0 < res.nRow) r
  | delLinkInfo r => delLinkInfoSql r
  | addRuleInfo r => addRuleInfoSql r
  | setRuleInfo nChanId r =>
      findRuleSql nChanId r >>= sqliteSearch db >>= fun res ↦
        setRuleInfoSql nChanId (0 < res.nRow) r
  | delRuleInfo r => delRuleInfoSql r

/-- The strings have no quotes, and the statement fits into the buffer. -/
structure Fits (db : Database) (c : Change) : Prop where
  quoteFree : c.record.QuoteFree
  composes : c.rejected ∨ (c.sql db).isSome

/-- The connection after the call. -/
def next (h : Handle) (c : Change) : Option Handle :=
  (c.request.program.run Handle.step h).map Prod.fst

/-! ## The statement of a call -/

variable {h : Handle}

/-- The program of a call that looks for a row. -/
theorem run_lookup {nChanId : Int32} {r : LinkData} {find : LinkData → Option (List Char)}
    {szSql : LinkData → Bool → Option (List Char)} (hn : ¬0 > nChanId) :
    ((CDBManage.entered (some r) (0 > nChanId) (.status (-1)) fun pChan ↦
        CDBManage.updated (find pChan) (szSql pChan)).run Handle.step h).map (fun s ↦ s.1.db) =
      (find r >>= sqliteSearch h.db >>= (fun res ↦ szSql r (0 < res.nRow)) >>=
        sqliteExec h.db).map Prod.fst := by
  have hdb : ∀ x : Option (Handle × Reply),
      x.map (fun s ↦ s.1.db) = (x.map tables).map Prod.fst := by
    rintro (_ | s) <;> rfl
  rw [CDBManage.run_entered, if_neg (by simpa using hn), hdb, CDBManage.run_updated]
  rcases find r >>= sqliteSearch h.db with _ | res
  · rfl
  · show ((szSql r (0 < res.nRow) >>= sqliteExec h.db).map _).map Prod.fst =
      (szSql r (0 < res.nRow) >>= sqliteExec h.db).map Prod.fst
    rw [Option.map_map]
    rfl

/-- The program of a call that has one statement. -/
theorem run_single {r : LinkData} {szSql : LinkData → Option (List Char)} {failed : Reply}
    {reply : ℤ → Prog Reply}
    (hreply : ∀ lRet h', ∃ r, (reply lRet).run Handle.step h' = some (h', r)) :
    ((CDBManage.entered (some r) false failed fun pChan ↦
        CDBManage.executed (szSql pChan) reply).run Handle.step h).map (fun s ↦ s.1.db) =
      (szSql r >>= sqliteExec h.db).map Prod.fst := by
  rw [CDBManage.run_entered, if_neg Bool.false_ne_true]
  exact CDBManage.run_executed hreply

/-- A call that is not rejected does its statement. -/
theorem map_next (c : Change) (hc : c.rejected = false) :
    (c.next h).map Handle.db = (c.sql h.db >>= sqliteExec h.db).map Prod.fst := by
  have hmap : (c.next h).map Handle.db =
      (c.request.program.run Handle.step h).map fun s ↦ s.1.db := by
    rw [next, Option.map_map]
    rfl
  rw [hmap]
  rcases c with r | ⟨nChanId, r⟩ | r | r | ⟨nChanId, r⟩ | r
  · rw [request, Request.program, CDBManage.addLinkInfo, run_single fun _ _ ↦ ⟨_, rfl⟩, sql]
  · rw [request, Request.program, CDBManage.setLinkInfo, run_lookup (of_decide_eq_false hc), sql]
  · rw [request, Request.program, CDBManage.delLinkInfo, run_single fun _ _ ↦ ⟨_, rfl⟩, sql]
  · rw [request, Request.program, CDBManage.addRuleInfo, run_single fun _ _ ↦ ⟨_, rfl⟩, sql]
  · rw [request, Request.program, CDBManage.setRuleInfo, run_lookup (of_decide_eq_false hc), sql]
  · rw [request, Request.program, CDBManage.delRuleInfo, run_single fun _ _ ↦ ⟨_, rfl⟩, sql]

/-- A call that is rejected does nothing. -/
theorem next_rejected (c : Change) (hc : c.rejected) : c.next h = some h := by
  rcases c with r | ⟨nChanId, r⟩ | r | r | ⟨nChanId, r⟩ | r
  · cases hc
  · rw [next, request, Request.program, CDBManage.setLinkInfo, CDBManage.run_entered,
      if_pos (show decide (0 > nChanId) = true from hc)]
    rfl
  · cases hc
  · cases hc
  · rw [next, request, Request.program, CDBManage.setRuleInfo, CDBManage.run_entered,
      if_pos (show decide (0 > nChanId) = true from hc)]
    rfl
  · cases hc

end Change

/-! ## What a call stores -/

section

variable {db : Database}

theorem mem_channels : channels ∈ schemas := List.mem_cons_self

theorem mem_rules : rules ∈ schemas := List.mem_cons_of_mem _ List.mem_cons_self

/-- The conditions on channels. -/
theorem find_channel {t : Table} (h : HasColumns t channelColumns) (nChanId : Int32) :
    ∀ c ∈ ([(.anachannel, nChanId)] : Filter), t.find c.1.name.toList = .ok (linkPlace c.1) :=
  List.forall_mem_singleton.mpr (find_link h (.inr rfl))

theorem exists_findLink (hdb : Stored db) (nChanId : Int32) (r : LinkData) :
    ∃ res, (findLinkSql nChanId r >>= sqliteSearch db) = some res := by
  obtain ⟨t, ht, hkeeps⟩ := hdb channels mem_channels
  exact ⟨_, bind_sqliteSearch (parse_findLink nChanId r)
    (query_select ht (test_filter (find_channel hkeeps.toHasColumns nChanId)))⟩

theorem exists_findRule (hdb : Stored db) (nChanId : Int32) (r : LinkData) :
    ∃ res, (findRuleSql nChanId r >>= sqliteSearch db) = some res := by
  obtain ⟨t, ht, hkeeps⟩ := hdb rules mem_rules
  exact ⟨_, bind_sqliteSearch (parse_findRule nChanId r)
    (query_select ht (test_filter fun c _ ↦ find_rule hkeeps.toHasColumns c.1))⟩

/-- The insertion of a linkage record. -/
theorem maintains_insertLink (hdb : Stored db) (r : LinkData) :
    Maintains db (.insert TBCHAN (.null :: (linkData r).map Datum.literal)) :=
  maintains_insert hdb mem_channels rfl (fits_linkData r)

theorem stored_addLinkInfo (hdb : Stored db) {r : LinkData} (hr : r.QuoteFree)
    (hsome : (addLinkInfoSql r).isSome) :
    ∃ x, (addLinkInfoSql r >>= sqliteExec db) = some x ∧ Stored x.1 :=
  (maintains_insertLink hdb r).stored hdb
    (bind_parse (addLinkInfoSql_eq r) hsome (parse_insertLink (hr.links rfl)))

/-- The statement of `SetLinkInfo`, whether there are rows of the channel or not. -/
theorem stored_setLinkInfo (hdb : Stored db) {nChanId : Int32} {found : Bool} {r : LinkData}
    (hr : r.QuoteFree) (hsome : (setLinkInfoSql nChanId found r).isSome) :
    ∃ x, (setLinkInfoSql nChanId found r >>= sqliteExec db) = some x ∧ Stored x.1 := by
  rcases found with _ | _
  · exact (maintains_insertLink hdb r).stored hdb
      (bind_parse (setLinkInfoSql_insert nChanId r) hsome (parse_insertLink (hr.links rfl)))
  · by_cases hlimit : r.nHLimit > 0
    · have hsets : ∀ x ∈ [limitSet r], ∃ k,
          (channels.column x.1).map Prod.snd = some (x.2.affinity, k) ∧ k.Has x.2.value :=
        List.forall_mem_singleton.mpr ⟨_, (by decide +kernel :
          (channels.column "hlimit".toList).map Prod.snd = some (.integer, .int)), has_int32 _⟩
      exact (maintains_update hdb mem_channels hsets fun t ht ↦ find_channel ht nChanId).stored hdb
        (bind_parse (setLinkInfoSql_limit nChanId hlimit) hsome (parse_updateLimit nChanId r))
    · exact (maintains_update hdb mem_channels (kinds_linkSets r) fun t ht ↦
        find_channel ht nChanId).stored hdb
        (bind_parse (setLinkInfoSql_update nChanId hlimit) hsome (parse_updateLink (hr.links rfl)))

theorem stored_delLinkInfo (hdb : Stored db) (r : LinkData) :
    ∃ x, (delLinkInfoSql r >>= sqliteExec db) = some x ∧ Stored x.1 := by
  obtain ⟨t, ht, hkeeps⟩ := hdb channels mem_channels
  exact ⟨_, delLinkInfo_eq ht hkeeps.toHasColumns r, hdb.filter mem_channels ht _⟩

/-- `AddRuleInfo` stores nothing. -/
theorem stored_addRuleInfo (hdb : Stored db) {r : LinkData} (hr : r.QuoteFree)
    (hsome : (addRuleInfoSql r).isSome) :
    ∃ x, (addRuleInfoSql r >>= sqliteExec db) = some x ∧ Stored x.1 := by
  obtain ⟨szSql, hszSql⟩ := Option.isSome_iff_exists.mp hsome
  obtain ⟨x, hx, rfl⟩ :=
    Option.map_eq_some_iff.mp (addRuleInfo_eq hdb.created (hr.not_mem rfl) hszSql)
  exact ⟨x, hx, hdb⟩

/-- The statement of `SetRuleInfo`, whether there are rows of the rule or not. -/
theorem stored_setRuleInfo (hdb : Stored db) {nChanId : Int32} {found : Bool} {r : LinkData}
    (hr : r.QuoteFree) (hsome : (setRuleInfoSql nChanId found r).isSome) :
    ∃ x, (setRuleInfoSql nChanId found r >>= sqliteExec db) = some x ∧ Stored x.1 := by
  rcases found with _ | _
  · exact (maintains_insert hdb mem_rules rfl (fits_ruleData nChanId r)).stored hdb
      (bind_parse (setRuleInfoSql_insert nChanId r) hsome (parse_insertRule (hr.not_mem rfl)))
  · exact (maintains_update hdb mem_rules (kinds_ruleSets r) fun t ht c _ ↦
      find_rule ht c.1).stored hdb
      (bind_parse (setRuleInfoSql_update nChanId r) hsome (parse_updateRule (hr.not_mem rfl)))

theorem stored_delRuleInfo (hdb : Stored db) (r : LinkData) :
    ∃ x, (delRuleInfoSql r >>= sqliteExec db) = some x ∧ Stored x.1 := by
  obtain ⟨t, ht, hkeeps⟩ := hdb rules mem_rules
  exact ⟨_, delRuleInfo_eq ht hkeeps.toHasColumns r, hdb.filter mem_rules ht _⟩

end

namespace Change

/-- The statement of a call keeps what the tables hold. -/
theorem stored_sql {db : Database} (hdb : Stored db) {c : Change} (hc : c.Fits db)
    (hrejected : c.rejected = false) :
    ∃ x, (c.sql db >>= sqliteExec db) = some x ∧ Stored x.1 := by
  have hsome : (c.sql db).isSome := by
    rcases hc.composes with h | h
    · rw [hrejected] at h
      cases h
    · exact h
  have hr := hc.quoteFree
  rcases c with r | ⟨nChanId, r⟩ | r | r | ⟨nChanId, r⟩ | r
  · exact stored_addLinkInfo hdb hr hsome
  · obtain ⟨res, hres⟩ := exists_findLink hdb nChanId r
    have hsql : (setLinkInfo nChanId r).sql db = setLinkInfoSql nChanId (0 < res.nRow) r := by
      rw [sql, hres, Option.bind_eq_bind, Option.bind_some]
    rw [hsql] at hsome ⊢
    exact stored_setLinkInfo hdb hr hsome
  · exact stored_delLinkInfo hdb r
  · exact stored_addRuleInfo hdb hr hsome
  · obtain ⟨res, hres⟩ := exists_findRule hdb nChanId r
    have hsql : (setRuleInfo nChanId r).sql db = setRuleInfoSql nChanId (0 < res.nRow) r := by
      rw [sql, hres, Option.bind_eq_bind, Option.bind_some]
    rw [hsql] at hsome ⊢
    exact stored_setRuleInfo hdb hr hsome
  · exact stored_delRuleInfo hdb r

/-- **A call whose statement fits comes to its end and keeps what the tables hold.** -/
theorem stored_next {h : Handle} (hdb : Stored h.db) {c : Change} (hc : c.Fits h.db) :
    ∃ h', c.next h = some h' ∧ Stored h'.db := by
  rcases hrejected : c.rejected with _ | _
  · obtain ⟨x, hx, hstored⟩ := stored_sql hdb hc hrejected
    have hnext := map_next (h := h) c hrejected
    rw [hx] at hnext
    obtain ⟨h', hh', hdb'⟩ := Option.map_eq_some_iff.mp hnext
    exact ⟨h', hh', hdb' ▸ hstored⟩
  · exact ⟨h, next_rejected c hrejected, hdb⟩

end Change

end CodeToolKit.HwbrapSqlite
