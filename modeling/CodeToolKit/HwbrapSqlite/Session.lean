import CodeToolKit.HwbrapSqlite.CommitRequest
import CodeToolKit.Lib.RecLock
import Mathlib.Data.Int.Notation

/-!
# One client and the commit thread, instruction by instruction

The model of `CommitRequest` runs every `m_csCommit` section in one step.  Here one
client thread is modelled at the grain of the source: `Lock` and `Unlock` of the
recursive critical section, the `NULL` tests, every statement, every flag access and
the handle operations by which `ConnectSQL` and `DisconnectSQL` start and stop
`CommitTransactionProc` are steps of their own.  `ConnectSQL` calls `DisconnectSQL`
while it holds the lock, and both call the transaction functions, which take it
again.

The writes are numbered in the order in which they are sent.  `acked` collects the
writes of the calls that returned success; it is not read by any step.

`begin`, `commit` and `write` of the journal are what SQLite promises about
transactions; a writing statement may fail, and so may the opening of the file.
-/

namespace CodeToolKit.HwbrapSqlite

open CodeToolKit.Lib

namespace Session

/-- The two threads. -/
inductive Party where
  | client | commit
deriving DecidableEq, Repr

/-! ## Program counters -/

/-- In `BeginTransaction`, `EndTransaction` or a query: before `Lock`, before the
`NULL` test and the statement, before `Unlock`. -/
inductive TxPc where
  | lock | exec | unlock
deriving DecidableEq, Repr

/-- In the block by which `ConnectSQL` and `DisconnectSQL` stop the commit thread. -/
inductive StopPc where
  /-- Before `m_bExit = TRUE`. -/
  | setExit
  /-- Before `WaitForSingleObject( m_hEvent, INFINITE )`. -/
  | wait
  /-- Before `CloseHandle( m_hEvent )`. -/
  | closeEvent
  /-- Before `CloseHandle( m_hCommitPro )`. -/
  | closeThread
  /-- Before `m_bExit = FALSE`. -/
  | clearExit
deriving DecidableEq, Repr

/-- In `DisconnectSQL`. -/
inductive DisconnectPc where
  /-- Before `NULL==m_db`. -/
  | testDb
  /-- In `EndTransaction`. -/
  | endTransaction (p : TxPc)
  /-- Before `m_hCommitPro != NULL`. -/
  | testThread
  /-- Stopping the commit thread. -/
  | stop (p : StopPc)
  /-- Before `m_db->SQLiteDisconnect`. -/
  | closeDb
  /-- Before `delete m_db`. -/
  | deleteDb
  /-- Before the return. -/
  | ret
deriving DecidableEq, Repr

/-- In `ConnectSQL`. -/
inductive ConnectPc where
  /-- Before `m_csCommit.Lock`. -/
  | lock
  /-- Before `pSqlPath==NULL`. -/
  | testPath
  /-- Before the `Unlock` that gives the call up. -/
  | refuse
  /-- Before `m_db!=NULL`. -/
  | testDb
  /-- In `DisconnectSQL`, with the lock held. -/
  | disconnect (p : DisconnectPc)
  /-- Before `m_db = new CZenoSQL`. -/
  | newDb
  /-- Before `SQLiteConnect`. -/
  | openDb
  /-- In `BeginTransaction`, with the lock held. -/
  | beginTransaction (p : TxPc)
  /-- Before `m_csCommit.Unlock`. -/
  | unlock
  /-- Before `m_hCommitPro!=NULL`. -/
  | testThread
  /-- Stopping the commit thread. -/
  | stop (p : StopPc)
  /-- Before `CreateEvent`. -/
  | createEvent
  /-- Before `CreateThread`. -/
  | createThread
  /-- Before the return. -/
  | ret
deriving DecidableEq, Repr

/-- In a writing call. -/
inductive CallPc where
  /-- Before `m_csCommit.Lock`. -/
  | lock
  /-- Before the `m_bCommit = FALSE` of `CreateTable`. -/
  | clear
  /-- Before the `NULL` tests. -/
  | check
  /-- Before the `Unlock` that gives the call up. -/
  | refuse
  /-- Before the statement with this index. -/
  | exec (i : ℕ)
  /-- Before `m_csCommit.Unlock`. -/
  | unlock
  /-- Before `m_bCommit = TRUE`. -/
  | raise
  /-- Before the return, with `getLastInsertId` where the call has it. -/
  | ret
deriving DecidableEq, Repr

/-- Where the client is. -/
inductive ClientPc where
  | idle
  | call (c : Call) (bad : Bool) (p : CallPc)
  /-- In `GetLinkInfo` or `GetRuleInfo`. -/
  | get (p : TxPc)
  | begin (p : TxPc)
  | commit (p : TxPc)
  | connect (nullPath : Bool) (p : ConnectPc)
  | disconnect (p : DisconnectPc)
deriving DecidableEq, Repr

/-- Where `CommitTransactionProc` is. -/
inductive CommitPc where
  /-- There is no thread. -/
  | absent
  | top
  | testCommit
  | endTransaction (p : TxPc)
  | beginTransaction (p : TxPc)
  | clear
  | waitExit (i : ℕ)
  | waitCommit (i : ℕ)
  | sleep (i : ℕ)
  /-- Before `SetEvent( m_hEvent )`. -/
  | signal
deriving DecidableEq, Repr

/-! ## State -/

/-- The fields of `CDBManage` and what stands behind them. -/
structure Shared where
  m_csCommit : RecLock Party
  /-- Whether `m_db` is not `NULL`. -/
  m_db : Bool
  /-- Whether the `sqlite3` handle inside `m_db` is open. -/
  isOpen : Bool
  m_bExit : Bool
  m_bCommit : Bool
  /-- The event and whether it is signalled; `none` is `NULL`. -/
  m_hEvent : Option Bool
  /-- Whether `m_hCommitPro` is not `NULL`. -/
  m_hCommitPro : Bool
  journal : Journal ℕ

/-- The shared fields, both program counters and the bookkeeping of the writes. -/
structure St extends Shared where
  client : ClientPc
  commit : CommitPc
  /-- How many writes were sent. -/
  serial : ℕ
  /-- The value the running call will return. -/
  lRet : ℤ
  /-- The writes the running call has executed. -/
  current : List ℕ
  /-- The writes of the calls that returned success. -/
  acked : List ℕ

/-- What the client may call. -/
inductive Api where
  | call (c : Call) (bad : Bool)
  | get
  | begin
  | commit
  | connect (nullPath : Bool)
  | disconnect
deriving DecidableEq, Repr

/-- The first program counter of a call. -/
def Api.entry : Api → ClientPc
  | call c bad => .call c bad .lock
  | get => .get .lock
  | begin => .begin .lock
  | commit => .commit .lock
  | connect nullPath => .connect nullPath .lock
  | disconnect => .disconnect .testDb

/-- A step: a new call, an instruction of the client (with the result of the
statement it sends, and the insert id it reads), an instruction of the commit
thread. -/
inductive Act where
  | enter (a : Api)
  | client (ok : Bool) (newId : ℤ)
  | commit

/-! ## The blocks the functions share -/

namespace Shared

/-- Run a statement on the connection: without an open handle `SQLiteExec` returns
`-1` and does nothing. -/
def sqliteExec (h : Shared) (stmt : Journal ℕ → Journal ℕ) : Shared :=
  if h.m_db && h.isOpen then { h with journal := stmt h.journal } else h

/-- `BeginTransaction`, `EndTransaction` and the queries; `none` as the next program
counter is the return. -/
def txNext (h : Shared) (who : Party) (stmt : Journal ℕ → Journal ℕ) :
    TxPc → Option (Shared × Option TxPc)
  | .lock => (h.m_csCommit.acquire who).map fun l ↦ ({ h with m_csCommit := l }, some .exec)
  | .exec => some (h.sqliteExec stmt, some .unlock)
  | .unlock => some ({ h with m_csCommit := h.m_csCommit.release }, none)

/-- Stopping the commit thread.  The event resets itself when the wait ends, and a
wait for a `NULL` handle returns at once. -/
def stopNext (h : Shared) : StopPc → Option (Shared × Option StopPc)
  | .setExit => some ({ h with m_bExit := true }, some .wait)
  | .wait => match h.m_hEvent with
      | some false => none
      | some true => some ({ h with m_hEvent := some false }, some .closeEvent)
      | none => some (h, some .closeEvent)
  | .closeEvent => some ({ h with m_hEvent := none }, some .closeThread)
  | .closeThread => some ({ h with m_hCommitPro := false }, some .clearExit)
  | .clearExit => some ({ h with m_bExit := false }, none)

/-- `DisconnectSQL`. -/
def disconnectNext (h : Shared) : DisconnectPc → Option (Shared × Option DisconnectPc)
  | .testDb => some (h, some (if h.m_db then .endTransaction .lock else .ret))
  | .endTransaction p => (h.txNext .client Journal.commit p).map fun (h, q) ↦
      (h, some (q.elim .testThread .endTransaction))
  | .testThread => some (h, some (if h.m_hCommitPro then .stop .setExit else .closeDb))
  | .stop p => (h.stopNext p).map fun (h, q) ↦ (h, some (q.elim .closeDb .stop))
  | .closeDb => some ({ h with journal := h.journal.close, isOpen := false }, some .deleteDb)
  | .deleteDb => some ({ h with m_db := false }, some .ret)
  | .ret => some (h, none)

/-- `ConnectSQL`, `CreateThread` apart. -/
def connectNext (h : Shared) (nullPath ok : Bool) :
    ConnectPc → Option (Shared × Option ConnectPc)
  | .lock => (h.m_csCommit.acquire .client).map fun l ↦
      ({ h with m_csCommit := l }, some .testPath)
  | .testPath => some (h, some (if nullPath then .refuse else .testDb))
  | .refuse => some ({ h with m_csCommit := h.m_csCommit.release }, none)
  | .testDb => some (h, some (if h.m_db then .disconnect .testDb else .newDb))
  | .disconnect p => (h.disconnectNext p).map fun (h, q) ↦
      (h, some (q.elim .newDb .disconnect))
  | .newDb => some ({ h with m_db := true, isOpen := false }, some .openDb)
  | .openDb => some ({ h with isOpen := ok }, some (.beginTransaction .lock))
  | .beginTransaction p => (h.txNext .client Journal.begin p).map fun (h, q) ↦
      (h, some (q.elim .unlock .beginTransaction))
  | .unlock => some ({ h with m_csCommit := h.m_csCommit.release }, some .testThread)
  | .testThread => some (h, some (if h.m_hCommitPro then .stop .setExit else .createEvent))
  | .stop p => (h.stopNext p).map fun (h, q) ↦ (h, some (q.elim .createEvent .stop))
  | .createEvent => some ({ h with m_hEvent := some false }, some .createThread)
  | .createThread => some ({ h with m_hCommitPro := true }, some .ret)
  | .ret => some (h, none)

end Shared

/-! ## The two threads -/

namespace St

/-- A writing call.  `AddLinkInfo` and `AddRuleInfo` return the insert id, the others
the result of their last statement. -/
def callNext (s : St) (c : Call) (bad ok : Bool) (newId : ℤ) : CallPc → Option St
  | .lock => (s.m_csCommit.acquire .client).map fun l ↦
      { s with m_csCommit := l, client := .call c bad (if c.clearsRequest then .clear else .check) }
  | .clear => some { s with m_bCommit := false, client := .call c bad .check }
  | .check => some { s with
      client := .call c bad (if c.refuses bad || !s.m_db then .refuse else .exec 0) }
  | .refuse => some { s with m_csCommit := s.m_csCommit.release, client := .idle }
  | .exec i =>
      let pc := if i + 1 < c.statements then CallPc.exec (i + 1) else .unlock
      if s.m_db && s.isOpen && ok then
        some { s with
          journal := s.journal.write s.serial, serial := s.serial + 1, lRet := 0
          current := s.current ++ [s.serial], client := .call c bad pc }
      else some { s with lRet := -1, client := .call c bad pc }
  | .unlock => some { s with m_csCommit := s.m_csCommit.release, client := .call c bad .raise }
  | .raise => some { s with m_bCommit := true, client := .call c bad .ret }
  | .ret =>
      let result := if c.readsInsertId then newId else s.lRet
      some { s with
        lRet := result, client := .idle, current := []
        acked := if 0 ≤ result then s.acked ++ s.current else s.acked }

/-- An instruction of the client.  `CreateThread` also starts the commit thread. -/
def clientNext (s : St) (ok : Bool) (newId : ℤ) : Option St :=
  match s.client with
  | .idle => none
  | .call c bad p => s.callNext c bad ok newId p
  | .get p => (s.txNext .client id p).map fun (h, q) ↦
      { s with toShared := h, client := q.elim .idle .get }
  | .begin p => (s.txNext .client Journal.begin p).map fun (h, q) ↦
      { s with toShared := h, client := q.elim .idle .begin }
  | .commit p => (s.txNext .client Journal.commit p).map fun (h, q) ↦
      { s with toShared := h, client := q.elim .idle .commit }
  | .connect nullPath p => (s.connectNext nullPath ok p).map fun (h, q) ↦
      { s with
        toShared := h, client := q.elim .idle (.connect nullPath)
        commit := if p = .createThread then .top else s.commit }
  | .disconnect p => (s.disconnectNext p).map fun (h, q) ↦
      { s with toShared := h, client := q.elim .idle .disconnect }

/-- An instruction of `CommitTransactionProc`. -/
def commitNext (s : St) : Option St :=
  match s.commit with
  | .absent => none
  | .top => some { s with commit := if s.m_bExit then .signal else .testCommit }
  | .testCommit => some { s with
      commit := if s.m_bCommit then .endTransaction .lock else .waitExit 0 }
  | .endTransaction p => (s.txNext .commit Journal.commit p).map fun (h, q) ↦
      { s with toShared := h, commit := q.elim (.beginTransaction .lock) .endTransaction }
  | .beginTransaction p => (s.txNext .commit Journal.begin p).map fun (h, q) ↦
      { s with toShared := h, commit := q.elim .clear .beginTransaction }
  | .clear => some { s with m_bCommit := false, commit := .waitExit 0 }
  | .waitExit i => some { s with
      commit := if i < 1000 then if s.m_bExit then .top else .waitCommit i else .top }
  | .waitCommit i => some { s with commit := if s.m_bCommit then .top else .sleep i }
  | .sleep i => some { s with commit := .waitExit (i + 1) }
  | .signal => some { s with m_hEvent := s.m_hEvent.map fun _ ↦ true, commit := .absent }

/-- The step of a label. -/
def next (s : St) : Act → Option St
  | .enter a => if s.client = .idle then some { s with client := a.entry } else none
  | .client ok newId => s.clientNext ok newId
  | .commit => s.commitNext

/-- A `CDBManage` as its constructor leaves it. -/
def initial : St where
  m_csCommit := .free
  m_db := false
  isOpen := false
  m_bExit := false
  m_bCommit := false
  m_hEvent := none
  m_hCommitPro := false
  journal := .empty
  client := .idle
  commit := .absent
  serial := 0
  lRet := 0
  current := []
  acked := []

end St

/-- The runs of one `CDBManage`, one client and the commit thread. -/
def system : System St Act where
  start s := s = .initial
  next := St.next

end Session

end CodeToolKit.HwbrapSqlite
