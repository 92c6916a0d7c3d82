import CodeToolKit.HwbrapSqlite.Calls
import CodeToolKit.HwbrapSqlite.Connection

/-!
# A file that cannot be opened

`ConnectSQL` alone, from any state of the manager, where `sqlite3_open` fails.  It goes on after the
error: it sends `BEGIN TRANSACTION`, creates the event and the commit thread, and keeps the
object, which still points to the closed connection (`connectSQL_failed`).  And
`zeno_SQLite_Connect` does not delete the manager.

The callback of `DisconnectSQL` is outside of the model, and so is what the commit thread does
before it ends.
-/

namespace CodeToolKit.HwbrapSqlite

open CodeToolKit.Lib

namespace FailedConnect

/-! ## The manager -/

/-- `CDBManage`, with the object that `m_db` points to, and the handles of Windows. -/
structure Manager where
  m_db : Option CZenoSQL
  m_bExit : Bool
  m_bCommit : Bool
  m_hEvent : Option ℕ
  m_hCommitPro : Option ℕ

/-- The constructor. -/
def Manager.new : Manager := ⟨none, false, false, none, none⟩

/-- What SQLite and Windows answer in a call. -/
structure Answers where
  /-- `COMMIT TRANSACTION` is done. -/
  committed : Bool
  /-- `sqlite3_close` in `SQLiteDisconnect` closes the old connection. -/
  disconnected : Bool
  /-- `sqlite3_close` in the destructor does. -/
  destroyed : Bool
  /-- `sqlite3_close` after the error closes its connection. -/
  closed : Bool
  /-- `BEGIN TRANSACTION` is done. -/
  begun : Bool
  /-- The handle of `CreateEvent`. -/
  hEvent : Option ℕ
  /-- The handle of `CreateThread`. -/
  hThread : Option ℕ

namespace Manager

/-- `BeginTransaction` and `EndTransaction`: the statement, if there is an object. -/
def transaction (szSql : String) (ok : Bool) (m : Manager) (w : Sqlite3) : Manager × Sqlite3 :=
  match m.m_db with
  | none => (m, w)
  | some z =>
      let r := z.sqliteExec (some szSql.toList) ok w
      ({ m with m_db := some r.1 }, r.2.1)

/-- The block that stops the commit thread. -/
def stopCommit (m : Manager) : Manager :=
  if m.m_hCommitPro.isSome then
    { m with m_bExit := false, m_hEvent := none, m_hCommitPro := none }
  else m

/-- `DisconnectSQL`. -/
def disconnectSQL (a : Answers) (m : Manager) (w : Sqlite3) : Manager × Sqlite3 × ℤ :=
  if m.m_db.isNone then (m, w, -1)
  else
    let (m, w) := m.transaction "COMMIT TRANSACTION" a.committed w
    let m := m.stopCommit
    match m.m_db with
    | none => (m, w, -1)
    | some z =>
        let (z, w, lRet) := z.sqliteDisconnect a.disconnected w
        ({ m with m_db := none }, z.destroy a.destroyed w, lRet)

/-- `ConnectSQL`.  The result of `SQLiteConnect` is only looked at by the caller. -/
def connectSQL (pSqlPath : Option (List Char)) (opened : Opened) (a : Answers) (m : Manager)
    (w : Sqlite3) : Manager × Sqlite3 × ℤ :=
  match pSqlPath with
  | none => (m, w, -1)
  | some pSqlPath =>
      let (m, w) :=
        if m.m_db.isSome then
          let r := m.disconnectSQL a w
          (r.1, r.2.1)
        else (m, w)
      let (z, w, lRet) := CZenoSQL.new.sqliteConnect (some pSqlPath) true opened a.closed w
      let (m, w) := { m with m_db := some z }.transaction "BEGIN TRANSACTION" a.begun w
      let m := m.stopCommit
      ({ m with m_hEvent := a.hEvent, m_hCommitPro := a.hThread }, w, lRet)

end Manager

/-- `zeno_SQLite_Connect`: the managers that exist after it, and its status. -/
def zenoSqliteConnect (pFileName : Option (List Char)) (opened : Opened) (a : Answers)
    (managers : List Manager) (w : Sqlite3) : List Manager × Sqlite3 × ℤ :=
  match pFileName with
  | none => (managers, w, -1)
  | some pFileName =>
      let (pSQL, w, lRes) := Manager.new.connectSQL (some pFileName) opened a w
      (managers ++ [pSQL], w, if lRes < 0 then -1 else 0)

/-! ## Other calls -/

/-- What SQLite answers to the operations of a call. -/
structure Replies where
  ok : Bool
  res : Option ResultTable
  rowid : ℤ
  szErrMsg : List Char

/-- The operations of a call on a manager.  Without an object all that use it are undefined.  The
text of a transaction makes no difference. -/
def Manager.step (a : Replies) :
    (o : Op) → Manager × Sqlite3 → Option ((Manager × Sqlite3) × o.Res)
  | .isNull, s => some (s, s.1.m_db.isNone)
  | .setCommit b, s => some (({ s.1 with m_bCommit := b }, s.2), ())
  | .exec szSql, (m, w) => m.m_db.map fun z ↦
      let r := z.sqliteExec (some szSql) a.ok w
      (({ m with m_db := some r.1 }, r.2.1), r.2.2)
  | .transaction _, (m, w) => m.m_db.map fun z ↦
      let r := z.sqliteExec (some []) a.ok w
      (({ m with m_db := some r.1 }, r.2.1), r.2.2)
  | .search szSql, (m, w) => m.m_db.map fun z ↦
      let r := z.sqliteSearch (some szSql) a.res w
      (({ m with m_db := some r.1 }, r.2.1), ())
  | .getTableRow, s => s.1.m_db.map fun z ↦ (s, z.m_nRow)
  | .getTableColumn, s => s.1.m_db.map fun z ↦ (s, z.m_nCol)
  | .getTableData col row, (m, w) => m.m_db.map fun z ↦
      let r := z.getTableData col row w
      ((m, r.1), r.2)
  | .freeTableData, (m, w) => m.m_db.map fun z ↦
      let r := z.freeTableData w
      (({ m with m_db := some r.1 }, r.2), ())
  | .getLastInsertId, (m, w) => m.m_db.map fun z ↦
      let r := z.getLastInsertId a.rowid w
      ((m, r.1), r.2)
  | .getErrorMsg, s => s.1.m_db.map fun _ ↦ (s, a.szErrMsg)

/-- The reply of a call that was refused. -/
def Refused : Reply → Prop
  | .status lRet => lRet = -1
  | .added lNewId => lNewId = -1
  | .selected lRet pResult => lRet = -1 ∧ pResult = none
  | .message _ => False

/-- All calls are refused, and SQLite is not used. -/
def RefusesAll (m : Manager) (w : Sqlite3) : Prop :=
  ∀ (r : Request) (a : Replies), ∃ m' reply,
    r.program.run (Manager.step a) (m, w) = some ((m', w), reply) ∧ Refused reply

theorem run_entered_null {m : Manager} (hm : m.m_db = none) (w : Sqlite3) (a : Replies) {π : Type}
    (param : Option π) (rejected : Bool) (failed : Reply) (body : π → Prog Reply) :
    (CDBManage.entered param rejected failed body).run (Manager.step a) (m, w) =
      some ((m, w), failed) := by
  cases param with
  | none => rfl
  | some p =>
      have hnull : Manager.step a .isNull (m, w) = some ((m, w), true) := by
        rw [Manager.step, hm]
        rfl
      show (Manager.step a .isNull (m, w) >>= _) = _
      rw [hnull]
      rfl

/-- Without an object they are. -/
theorem refusesAll_of_null {m : Manager} (hm : m.m_db = none) (w : Sqlite3) : RefusesAll m w := by
  intro r a
  cases r with
  | createTable =>
      refine ⟨{ m with m_bCommit := false }, .status (-1), ?_, rfl⟩
      simp [Request.program, CDBManage.createTable, Program.run, Manager.step, hm]
  | beginTransaction lRet =>
      refine ⟨m, .status (-1), ?_, rfl⟩
      rw [Request.program, CDBManage.beginTransaction, run_entered_null hm]
  | endTransaction lRet =>
      refine ⟨m, .status (-1), ?_, rfl⟩
      rw [Request.program, CDBManage.endTransaction, run_entered_null hm]
  | dropTable pTabName =>
      refine ⟨m, .status (-1), ?_, rfl⟩
      rw [Request.program, CDBManage.dropTable, run_entered_null hm]
  | getLinkInfo param hasResult =>
      exact ⟨m, _, run_entered_null hm w a param hasResult _ _, rfl, rfl⟩
  | getRuleInfo param hasResult =>
      exact ⟨m, _, run_entered_null hm w a param hasResult _ _, rfl, rfl⟩
  | _ => exact ⟨m, _, run_entered_null hm w a _ _ _ _, rfl⟩

/-! ## The failed call -/

/-- What a failed call should leave: no object, no thread, no use of a closed connection, and calls
that are refused. -/
structure LeavesNothing (w : Sqlite3) (m' : Manager) (w' : Sqlite3) : Prop where
  m_db : m'.m_db = none
  commitThread : m'.m_hCommitPro = none ∧ m'.m_hEvent = none
  closed : ∃ uses, w'.connections.reads = w.connections.reads ++ uses ∧ ∀ u ∈ uses, u.2 = true
  refuses : RefusesAll m' w'

/-- The call leaves nothing behind when it fails, and no manager when `zeno_SQLite_Connect` makes
it. -/
structure FailsCleanly (pSqlPath : List Char) (handle : Bool) (a : Answers) (m : Manager)
    (w : Sqlite3) : Prop where
  connectSQL : (m.connectSQL (some pSqlPath) (.failed handle) a w).2.2 < 0 →
    LeavesNothing w (m.connectSQL (some pSqlPath) (.failed handle) a w).1
      (m.connectSQL (some pSqlPath) (.failed handle) a w).2.1
  zenoSqliteConnect : ∀ managers,
    (zenoSqliteConnect (some pSqlPath) (.failed handle) a managers w).2.2 = -1 →
      (zenoSqliteConnect (some pSqlPath) (.failed handle) a managers w).1 = managers

section

variable (pSqlPath : List Char) (handle : Bool) (a : Answers) (m : Manager) (w : Sqlite3)

theorem Manager.stopCommit_m_db : m.stopCommit.m_db = m.m_db := by
  rw [stopCommit]
  split <;> rfl

/-- The object, the event and the thread are left. -/
theorem connectSQL_failed : ∃ z,
    (m.connectSQL (some pSqlPath) (.failed handle) a w).1.m_db = some z ∧
    (m.connectSQL (some pSqlPath) (.failed handle) a w).1.m_hEvent = a.hEvent ∧
    (m.connectSQL (some pSqlPath) (.failed handle) a w).1.m_hCommitPro = a.hThread ∧
    (m.connectSQL (some pSqlPath) (.failed handle) a w).2.2 = -1 :=
  ⟨_, Manager.stopCommit_m_db _, rfl, rfl, rfl⟩

/-- `BEGIN TRANSACTION` is sent to the connection of the error after it was closed. -/
theorem begin_closed (hhandle : handle = true) (hclosed : a.closed = true) :
    ∃ db, (db, false) ∈
      (m.connectSQL (some pSqlPath) (.failed handle) a w).2.1.connections.reads := by
  rw [Manager.connectSQL]
  generalize (if m.m_db.isSome then ((m.disconnectSQL a w).1, (m.disconnectSQL a w).2.1)
    else (m, w)) = s
  rcases s with ⟨m₁, w₁⟩
  rcases a with ⟨_, _, _, closed, begun, hEvent, hThread⟩
  obtain rfl : closed = true := hclosed
  subst hhandle
  have hfreed : w₁.connections.fresh ∈ w₁.connections.freed ++ [w₁.connections.fresh] :=
    List.mem_append_right _ (List.mem_singleton_self _)
  refine ⟨w₁.connections.fresh, List.mem_append_right _ (List.mem_singleton.mpr ?_)⟩
  exact congrArg (Prod.mk _) (decide_eq_false fun hlive ↦ hlive.2 hfreed).symm

/-- **A failed call always leaves something behind.** -/
theorem not_failsCleanly : ¬FailsCleanly pSqlPath handle a m w := by
  intro h
  obtain ⟨z, hz, -, -, hlRet⟩ := connectSQL_failed pSqlPath handle a m w
  have hnegative : (m.connectSQL (some pSqlPath) (.failed handle) a w).2.2 < 0 := by
    rw [hlRet]
    decide
  cases (h.connectSQL hnegative).m_db.symm.trans hz

end

/-- A new manager and a file that cannot be opened. -/
theorem not_forall_failsCleanly : ¬∀ (pSqlPath : List Char) (handle : Bool) (a : Answers)
    (m : Manager) (w : Sqlite3), FailsCleanly pSqlPath handle a m w := by
  intro h
  have hclean := h "missing/channel.db".toList true ⟨true, true, true, true, true, some 1, some 2⟩
    .new ⟨.empty, .empty⟩
  exact nomatch (hclean.connectSQL (by decide)).m_db

end FailedConnect

end CodeToolKit.HwbrapSqlite
