import CodeToolKit.HwbrapSqlite.LinkUpsert

/-!
# Adding a linkage record and reading it

`AddLinkInfo` alone on a connection returns the id of the row that it adds, and `GetLinkInfo` with
this id returns the record (`getLinkInfo_addLinkInfo`).
-/

namespace CodeToolKit.HwbrapSqlite

open CodeToolKit.SQL CodeToolKit.Lib

/-- What `AddLinkInfo` leaves after its statement. -/
def afterInsert (h : Handle) (szSql : List Char) (r : Database × ℤ) : Handle :=
  { h with db := r.1, lastInsertId := insertedId h.lastInsertId r.1 szSql r.2 }

/-- The steps of `AddLinkInfo` alone. -/
theorem CDBManage.run_addLinkInfo {h : Handle} (pChan : LinkData) :
    (addLinkInfo (some pChan)).run Handle.step h =
      addLinkInfoSql pChan >>= fun szSql ↦ (sqliteExec h.db szSql).map fun r ↦
        (afterInsert h szSql r,
          .added (Int32.ofInt (afterInsert h szSql r).lastInsertId).toInt) := by
  rw [addLinkInfo, run_entered, if_neg Bool.false_ne_true, executed, Program.run_ofOption]
  refine congrArg _ (funext fun szSql ↦ ?_)
  show ((sqliteExec h.db szSql).map _ >>= _) = _
  rcases sqliteExec h.db szSql with _ | r <;> rfl

theorem insertedId_insert {db : Database} {t : Table} {name szSql : List Char} {ls : List Literal}
    (hparse : parse szSql = some (.insert name ls)) (ht : db name = some t) (before : ℤ) :
    insertedId before db szSql 0 = t.seq := by
  rw [insertedId, hparse]
  show ((db name).map Table.seq).getD before = t.seq
  rw [ht]
  rfl

section

variable {h : Handle} {t : Table} {r : LinkData}

/-- `AddLinkInfo` adds a row with the values of the record, and returns its key as a `long`. -/
theorem run_addLinkInfo_eq (ht : h.db TBCHAN = some t) (hcolumns : HasColumns t channelColumns)
    (hr : ∀ s ∈ r.linkStrings, '"' ∉ s) (hseq : t.seq ≠ maxRowid) :
    ∃ h' t', (CDBManage.addLinkInfo (some r)).run Handle.step h =
        some (h', .added (Int32.ofInt (t.seq + 1)).toInt) ∧
      h'.db = Function.update h.db TBCHAN (some t') ∧ HasColumns t' channelColumns ∧
      t'.rows = t.rows ++ [⟨t.seq + 1, linkValues r⟩] := by
  obtain ⟨t', hexec, hcolumns', hseq', hrows⟩ := exec_insertLink ht hcolumns r hseq
  have hsql : addLinkInfoSql r = some (text (insertLinkPieces r)) := by
    rw [addLinkInfoSql_eq]
    exact composed_eq_some.mpr ⟨rfl, length_insertLink r⟩
  have hparse := parse_insertLink hr
  have hexec' : sqliteExec h.db (text (insertLinkPieces r)) =
      some (Function.update h.db TBCHAN (some t'), 0) := by
    rw [sqliteExec, hparse, Option.bind_eq_bind, Option.bind_some, hexec]
  have hid : insertedId h.lastInsertId (Function.update h.db TBCHAN (some t'))
      (text (insertLinkPieces r)) 0 = t.seq + 1 := by
    rw [insertedId_insert hparse (Function.update_self _ _ _), hseq']
  refine ⟨afterInsert h (text (insertLinkPieces r)) (Function.update h.db TBCHAN (some t'), 0), t',
    ?_, rfl, hcolumns', hrows⟩
  rw [CDBManage.run_addLinkInfo, hsql, Option.bind_eq_bind, Option.bind_some, hexec',
    Option.map_some, afterInsert, hid]

/-- A condition record with an id only. -/
def idQuery (id : Int32) : LinkData := { LinkData.zero with id }

theorem isReturned_idQuery {id : Int32} (hid : id > 0) (r : Row) :
    isReturned (idQuery id) r = decide (r.id = id.toInt) := by
  have hchannel : ¬(idQuery id).nAnaChannel > 0 := by
    show ¬LinkData.zero.nAnaChannel > 0
    decide
  have hid' : (idQuery id).id > 0 := hid
  rw [isReturned, decide_eq_true hid', decide_eq_false hchannel, Bool.not_true, Bool.false_or,
    Bool.not_false, Bool.true_or, Bool.and_true]
  rfl

/-- The new key is that of the new row. -/
theorem filter_newKey {cells : List Value} {id : Int32} (hid : id > 0)
    (hrow : id.toInt = t.seq + 1) :
    (t.rows ++ [Row.mk (t.seq + 1) cells]).filter (isReturned (idQuery id)) =
      [Row.mk (t.seq + 1) cells] := by
  have hold : t.rows.filter (isReturned (idQuery id)) = [] := by
    rw [List.filter_eq_nil_iff]
    intro r hr
    have hle := t.bounded r hr
    rw [isReturned_idQuery hid, decide_eq_true_iff]
    omega
  rw [List.filter_append, hold, List.nil_append, List.filter_singleton, isReturned_idQuery hid,
    hrow, decide_eq_true rfl]
  rfl

/-- **A linkage record is read as it was added, under the id that `AddLinkInfo` returns.**  The rows
that were there stay, and so do the other tables. -/
theorem getLinkInfo_addLinkInfo (hdb : Created h.db) (ht : h.db TBCHAN = some t)
    (hseq : t.seq + 1 < 2 ^ 31) (hr : ∀ s ∈ r.linkStrings, '"' ∉ s) :
    ∃ (h' : Handle) (id : Int32),
      (CDBManage.addLinkInfo (some r)).run Handle.step h = some (h', .added id.toInt) ∧ id > 0 ∧
      ((CDBManage.getLinkInfo (some (idQuery id)) false).run Handle.step h').map tables =
        some (h'.db, .selected 0 (some [linkRecord id r.nAnaChannel r])) ∧
      (∃ t', h'.db TBCHAN = some t' ∧ t'.rows = t.rows ++ [⟨id.toInt, linkValues r⟩]) ∧
      ∀ name ≠ TBCHAN, h'.db name = h.db name := by
  obtain ⟨t₁, ht₁, hcolumns⟩ := hdb.channels
  obtain rfl : t = t₁ := Option.some.inj (ht.symm.trans ht₁)
  have hcounted := t.counted
  have hleft : t.seq ≠ maxRowid := by
    rw [maxRowid]
    omega
  obtain ⟨h', t', hrun, hdb', hcolumns', hrows⟩ := run_addLinkInfo_eq ht hcolumns hr hleft
  have hid : (Int32.ofInt (t.seq + 1)).toInt = t.seq + 1 :=
    Int32.toInt_ofInt_of_le (by omega) (by omega)
  have hpositive : Int32.ofInt (t.seq + 1) > 0 := by
    rw [gt_iff_lt, Int32.lt_iff_toInt_lt, hid]
    exact Int.lt_add_one_of_le hcounted
  have ht' : h'.db TBCHAN = some t' := by
    rw [hdb']
    exact Function.update_self _ _ _
  refine ⟨h', _, hrun, hpositive, ?_, ⟨t', ht', ?_⟩, ?_⟩
  · rw [CDBManage.run_getLinkInfo, getLinkInfo_eq ht' hcolumns', linkRows_eq ht' hcolumns', hrows,
      filter_newKey hpositive hid, Option.bind_eq_bind, Option.bind_some, List.mapM_cons,
      linkOf_linkValues hid.symm rfl]
    rfl
  · rw [hrows, hid]
  · intro name hname
    rw [hdb']
    exact Function.update_of_ne hname _ _

end

/-- A connection to a database with new tables. -/
def newHandle : Handle := ⟨createdTables fun _ ↦ none, ⟨0, 0, []⟩, 0⟩

/-- The device of the test program is added and read. -/
theorem getLinkInfo_addTestInfo : ∃ (h' : Handle) (id : Int32),
    (CDBManage.addLinkInfo (some .testInfo)).run Handle.step newHandle =
      some (h', .added id.toInt) ∧
    ((CDBManage.getLinkInfo (some (idQuery id)) false).run Handle.step h').map tables =
      some (h'.db, .selected 0 (some [linkRecord id 1 .testInfo])) := by
  have hseq : (Table.empty "id".toList channelColumns).seq + 1 < 2 ^ 31 := by decide
  obtain ⟨h', id, hadd, -, hget, -⟩ := getLinkInfo_addLinkInfo (h := newHandle) (r := .testInfo)
    (created_createdTables fun _ ↦ none) (createdTables_channels fun _ ↦ none) hseq
    fun s hs ↦ (unquoted_testInfo s hs).1
  exact ⟨h', id, hadd, hget⟩

end CodeToolKit.HwbrapSqlite
