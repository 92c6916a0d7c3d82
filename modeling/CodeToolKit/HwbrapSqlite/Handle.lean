import CodeToolKit.HwbrapSqlite.Calls

/-!
# Calls alone on a connection

What the steps of the calls do on a live connection, and what comes of a whole call when no other
call is in between: the queries return the records of `getLinkInfo` and `getRuleInfo` and leave
the tables, the other calls do one statement.

A statement that SQLite cannot do for want of memory or space is outside of the model.
-/

namespace CodeToolKit.HwbrapSqlite

open CodeToolKit.SQL CodeToolKit.Lib

/-! ## The connection -/

/-- A live connection: its tables, the result of the last query, and the id of the last row. -/
structure Handle where
  db : Database
  result : ResultTable
  lastInsertId : ℤ

/-- `sqlite3_last_insert_rowid` after a statement. -/
def insertedId (before : ℤ) (db : Database) (szSql : List Char) (lRet : ℤ) : ℤ :=
  match parse szSql with
  | some (.insert name _) => if lRet = 0 then ((db name).map Table.seq).getD before else before
  | _ => before

/-- What the operations do on a live connection.  The commit thread only looks at `m_bCommit`
from outside of the calls, and no call with the lock asks for the text of an error. -/
def Handle.step : (o : Op) → Handle → Option (Handle × o.Res)
  | .isNull, h => some (h, false)
  | .exec szSql, h => (sqliteExec h.db szSql).map fun r ↦
      ({ h with db := r.1, lastInsertId := insertedId h.lastInsertId r.1 szSql r.2 }, r.2)
  | .transaction lRet, h => some (h, lRet)
  | .search szSql, h => (sqliteSearch h.db szSql).map fun res ↦ ({ h with result := res }, ())
  | .getTableRow, h => some (h, h.result.nRow)
  | .getTableColumn, h => some (h, h.result.nCol)
  | .getTableData col row, h => some (h, h.result.getTableData col row)
  | .freeTableData, h => some ({ h with result := ⟨0, 0, []⟩ }, ())
  | .getLastInsertId, h => some (h, (Int32.ofInt h.lastInsertId).toInt)
  | .getErrorMsg, _ => none
  | .setCommit _, h => some (h, ())

/-- An open connection whose last result is a part of the state. -/
structure Serves {σ : Type} (step : (o : Op) → σ → Option (σ × o.Res)) (result : σ → ResultTable) :
    Prop where
  isNull : ∀ x, step .isNull x = some (x, false)
  getTableRow : ∀ x, step .getTableRow x = some (x, (result x).nRow)
  getTableColumn : ∀ x, step .getTableColumn x = some (x, (result x).nCol)
  getTableData : ∀ x col row,
    step (.getTableData col row) x = some (x, (result x).getTableData col row)

theorem serves_handle : Serves Handle.step Handle.result :=
  ⟨fun _ ↦ rfl, fun _ ↦ rfl, fun _ ↦ rfl, fun _ _ _ ↦ rfl⟩

/-! ## The queries -/

/-- What a call leaves behind: the tables, and its reply. -/
def tables (s : Handle × Reply) : Database × Reply := (s.1.db, s.2)

/-- The reply to a query. -/
def queryReply : List LinkData → Reply
  | [] => .selected 0 none
  | r :: rs => .selected 0 (some (r :: rs))

namespace CDBManage

theorem map_bind {α β γ : Type} (x : Option α) (f : α → Option β) (g : β → γ) :
    (x >>= f).map g = x >>= fun a ↦ (f a).map g := by
  cases x <;> rfl

variable {h : Handle}

theorem run_intCell {α : Type} (j i : ℕ) (k : Int32 → Prog α) :
    (intCell j i >>= k).run Handle.step h =
      h.result.getTableData j (i + 1) >>= atoi >>= fun z ↦ (k z).run Handle.step h :=
  Program.run_ofOption _ _ _

theorem run_textCell {α : Type} (n j i : ℕ) (k : CharArray n → Prog α) :
    (textCell n j i >>= k).run Handle.step h =
      h.result.getTableData j (i + 1) >>= CharArray.ofList? n >>= fun s ↦
        (k s).run Handle.step h :=
  Program.run_ofOption _ _ _

/-- The body of the loop reads the record of its row. -/
theorem run_readLink (i : ℕ) :
    (readLink i).run Handle.step h =
      (linkOf fun j ↦ h.result.getTableData j (i + 1)).map fun r ↦ (h, r) := by
  simp only [readLink, linkOf, run_intCell, run_textCell, map_bind, Option.map_some]
  rfl

theorem run_readLinks (n i : ℕ) (hn : h.result.nRow = i + n) :
    (readLinks n i).run Handle.step h =
      ((List.range' i n).mapM fun i ↦ linkOf fun j ↦ h.result.getTableData j (i + 1)).map
        fun rs ↦ (h, rs) := by
  induction n generalizing i with
  | zero =>
      have hi : ¬i < h.result.nRow := by omega
      rw [readLinks]
      show (if i < h.result.nRow then _ else _ : Prog (List LinkData)).run Handle.step h = _
      rw [if_neg hi]
      rfl
  | succ n ih =>
      have hi : i < h.result.nRow := by omega
      rw [readLinks]
      show (if i < h.result.nRow then _ else _ : Prog (List LinkData)).run Handle.step h = _
      rw [if_pos hi, Program.run_bind, run_readLink, List.range'_succ, List.mapM_cons]
      rcases linkOf fun j ↦ h.result.getTableData j (i + 1) with _ | r
      · rfl
      · show (readLinks n (i + 1) >>= fun rs ↦ pure (r :: rs)).run Handle.step h = _
        rw [Program.run_bind, ih (i + 1) (by omega)]
        rcases (List.range' (i + 1) n).mapM fun i ↦
          linkOf fun j ↦ h.result.getTableData j (i + 1) with _ | rs
        · rfl
        · rfl

/-- Five strings of a row. -/
theorem run_readStrings {α : Type} (j i : ℕ) (k : (Fin 5 → CharArray 256) → Prog α) :
    (readStrings j i >>= k).run Handle.step h =
      stringsOf (fun j ↦ h.result.getTableData j (i + 1)) j >>= fun s ↦
        (k s).run Handle.step h := by
  rw [Program.run_bind]
  simp only [readStrings, stringsOf, run_textCell, bind_assoc]
  rfl

theorem run_readRule (i : ℕ) :
    (readRule i).run Handle.step h =
      (ruleOf fun j ↦ h.result.getTableData j (i + 1)).map fun r ↦ (h, r) := by
  simp only [readRule, ruleOf, run_intCell, run_readStrings, map_bind, Option.map_some]
  rfl

theorem run_readRules (n i : ℕ) :
    (readRules n i).run Handle.step h =
      ((List.range' i n).mapM fun i ↦ ruleOf fun j ↦ h.result.getTableData j (i + 1)).map
        fun rs ↦ (h, rs) := by
  induction n generalizing i with
  | zero => rfl
  | succ n ih =>
      rw [readRules, Program.run_bind, run_readRule, List.range'_succ, List.mapM_cons]
      rcases ruleOf fun j ↦ h.result.getTableData j (i + 1) with _ | r
      · rfl
      · show (readRules n (i + 1) >>= fun rs ↦ pure (r :: rs)).run Handle.step h = _
        rw [Program.run_bind, ih]
        rcases (List.range' (i + 1) n).mapM fun i ↦
          ruleOf fun j ↦ h.result.getTableData j (i + 1) with _ | rs
        · rfl
        · rfl

/-- The guard of a query. -/
theorem run_tooSmall {σ : Type} {step : (o : Op) → σ → Option (σ × o.Res)}
    {result : σ → ResultTable} (h : Serves step result) (minCol : ℕ) (x : σ) :
    (tooSmall minCol).run step x =
      some (x, decide ((result x).nRow = 0) || decide ((result x).nCol < minCol)) := by
  show (Program.op .getTableRow _ : Prog Bool).run step x = _
  rw [Program.run_op, h.getTableRow]
  show (if (result x).nRow = 0 then _ else _ : Prog Bool).run step x = _
  by_cases hrow : (result x).nRow = 0
  · rw [if_pos hrow, decide_eq_true hrow]
    rfl
  · rw [if_neg hrow, decide_eq_false hrow]
    show (Program.op .getTableColumn _ : Prog Bool).run step x = _
    rw [Program.run_op, h.getTableColumn]
    rfl

/-- A query alone returns the records that its loop reads, and leaves the tables. -/
theorem run_queried {szSql : Option (List Char)} {minCol : ℕ} {read : ℕ → Prog (List LinkData)}
    {record : (ℕ → Option (List Char)) → Option LinkData}
    (hread : ∀ h' : Handle, (read h'.result.nRow).run Handle.step h' =
      ((List.range h'.result.nRow).mapM fun i ↦
        record fun j ↦ h'.result.getTableData j (i + 1)).map fun rs ↦ (h', rs)) :
    ((queried szSql minCol read).run Handle.step h).map tables =
      (szSql >>= sqliteSearch h.db >>= readRows minCol record).map fun rs ↦
        (h.db, queryReply rs) := by
  rcases szSql with _ | szSql
  · rfl
  · rw [queried, Program.run_ofOption]
    show ((sqliteSearch h.db szSql).map _ >>= _).map tables =
      (sqliteSearch h.db szSql >>= _).map _
    rcases sqliteSearch h.db szSql with _ | res
    · rfl
    · show ((tooSmall minCol >>= _).run Handle.step { h with result := res }).map tables =
        (readRows minCol record res).map _
      rw [Program.run_bind, run_tooSmall serves_handle, readRows, Option.bind_eq_bind,
        Option.bind_some]
      by_cases hsmall : (decide (res.nRow = 0) || decide (res.nCol < minCol)) = true
      · rw [if_pos hsmall, if_pos hsmall]
        rfl
      · rw [if_neg hsmall, if_neg hsmall]
        show ((read res.nRow >>= _).run Handle.step { h with result := res }).map tables = _
        have hloop := hread { h with result := res }
        rw [Program.run_bind]
        rcases hrs : (List.range res.nRow).mapM fun i ↦
          record fun j ↦ res.getTableData j (i + 1) with _ | rs
        · rw [hrs] at hloop
          rw [hloop]
          rfl
        · rw [hrs] at hloop
          rw [hloop]
          rcases rs with _ | ⟨r, rs⟩
          · have hlength := congrArg List.length (mapM_eq_some_iff.mp hrs)
            rw [List.length_map, List.length_range] at hlength
            rw [hlength] at hsmall
            exact absurd rfl hsmall
          · rfl

/-- **`GetLinkInfo` alone returns the records of its query.** -/
theorem run_getLinkInfo (pInfo : LinkData) :
    ((getLinkInfo (some pInfo) false).run Handle.step h).map tables =
      (HwbrapSqlite.getLinkInfo h.db pInfo).map fun rs ↦ (h.db, queryReply rs) := by
  refine run_queried fun h' ↦ ?_
  rw [run_readLinks _ 0 (Nat.zero_add _).symm, List.range_eq_range']

/-- **`GetRuleInfo` alone returns the records of its query.** -/
theorem run_getRuleInfo (pInfo : LinkData) :
    ((getRuleInfo (some pInfo) false).run Handle.step h).map tables =
      (HwbrapSqlite.getRuleInfo h.db pInfo).map fun rs ↦ (h.db, queryReply rs) := by
  refine run_queried fun h' ↦ ?_
  rw [run_readRules _ 0, List.range_eq_range']

/-! ## The other calls -/

/-- A call that ends with its statement does it. -/
theorem run_executed {szSql : Option (List Char)} {reply : ℤ → Prog Reply}
    (hreply : ∀ lRet h', ∃ r, (reply lRet).run Handle.step h' = some (h', r)) :
    ((executed szSql reply).run Handle.step h).map (fun s ↦ s.1.db) =
      (szSql >>= sqliteExec h.db).map Prod.fst := by
  rcases szSql with _ | szSql
  · rfl
  · show ((sqliteExec h.db szSql).map _ >>= _).map _ = (sqliteExec h.db szSql).map _
    rcases sqliteExec h.db szSql with _ | ⟨db, lRet⟩
    · rfl
    · obtain ⟨r, hr⟩ := hreply lRet
        { h with db, lastInsertId := insertedId h.lastInsertId db szSql lRet }
      show ((reply lRet).run Handle.step _).map _ = _
      rw [hr]
      rfl

/-- A call that returns the status of its statement. -/
theorem run_status {szSql : Option (List Char)} :
    ((executed szSql fun lRet ↦ pure (.status lRet)).run Handle.step h).map tables =
      (szSql >>= sqliteExec h.db).map fun r ↦ (r.1, .status r.2) := by
  rcases szSql with _ | szSql
  · rfl
  · show ((sqliteExec h.db szSql).map _ >>= _).map tables = (sqliteExec h.db szSql).map _
    rcases sqliteExec h.db szSql with _ | ⟨db, lRet⟩ <;> rfl

/-- A call that looks for a row does the statement that depends on it. -/
theorem run_updated {find : Option (List Char)} {szSql : Bool → Option (List Char)} :
    ((updated find szSql).run Handle.step h).map tables =
      find >>= sqliteSearch h.db >>= fun res ↦
        (szSql (0 < res.nRow) >>= sqliteExec h.db).map fun r ↦ (r.1, .status r.2) := by
  rcases find with _ | find
  · rfl
  · show ((sqliteSearch h.db find).map _ >>= _).map _ = (sqliteSearch h.db find >>= _)
    rcases sqliteSearch h.db find with _ | res
    · rfl
    · exact run_status (h := { h with result := ⟨0, 0, []⟩ })

/-- The tests at the start of a call. -/
theorem run_entered (p : LinkData) (rejected : Bool) (failed : Reply)
    (body : LinkData → Prog Reply) :
    (entered (some p) rejected failed body).run Handle.step h =
      if rejected then some (h, failed) else (body p).run Handle.step h := by
  rcases rejected with _ | _ <;> rfl

end CDBManage

end CodeToolKit.HwbrapSqlite
