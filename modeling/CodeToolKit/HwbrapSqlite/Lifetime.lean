import CodeToolKit.HwbrapSqlite.Calls
import Mathlib.Logic.Function.Basic

/-!
# The lifetime of the connection object

Any number of threads call the functions of `CDBManage` while one thread calls `DisconnectSQL`,
which tests `m_db` and deletes it outside of `m_csCommit`.  So a call can use the object after it
was deleted (`not_usesLive`): between its test of `m_db` and its last use, or in `AddLinkInfo`
after its `Unlock`.

No call does as long as `DisconnectSQL` deletes the object only when none is past its test with a
use before it, and none makes its test between `delete` and `m_db = NULL`
(`usesLive_of_reachable`).

What the operations return is part of the label.  The wait for the commit thread may end at
any time, and the commit thread is one of the clients.
-/

namespace CodeToolKit.HwbrapSqlite

open CodeToolKit.Lib

namespace Lifetime

/-! ## The system -/

/-- What `m_db` is. -/
inductive Connection where
  /-- `NULL`. -/
  | absent
  /-- It points to an object. -/
  | live
  /-- It points to what was an object. -/
  | deleted
deriving DecidableEq

/-- Where the thread of `DisconnectSQL` is. -/
inductive Closer where
  /-- Before the test of `m_db`, or not in the call. -/
  | idle
  /-- In `EndTransaction`. -/
  | ending (rest : Prog Reply)
  /-- Before the wait for the commit thread. -/
  | waiting
  /-- Before `m_db->SQLiteDisconnect()`. -/
  | disconnecting
  /-- Before `delete m_db`. -/
  | deleting
  /-- Before `m_db = NULL`. -/
  | clearing

/-- The shared variables and the program counters; `none` is the thread of `DisconnectSQL`.  A
client whose program has returned is in no call. -/
structure State (T : Type) where
  m_csCommit : RecLock (Option T)
  m_db : Connection
  clients : T → Prog Reply
  closer : Closer

/-- Results for all operations. -/
abbrev Answer : Type := (o : Op) → o.Res

/-- A step. -/
inductive Label (T : Type) where
  /-- A client calls a function. -/
  | call (t : T) (r : Request)
  /-- A client calls `GetDBLastError`. -/
  | lastError (t : T)
  /-- A client takes its next step. -/
  | client (t : T) (answer : Answer)
  /-- The thread of `DisconnectSQL` takes its next step. -/
  | closer (answer : Answer)

/-- What an operation returns: only the test of `m_db` is determined. -/
def result (m_db : Connection) (answer : Answer) : (o : Op) → o.Res
  | .isNull => decide (m_db = .absent)
  | o => answer o

variable {T : Type}

/-- The next step of a program: what is left of it, and the lock. -/
def advance [DecidableEq T] (s : State T) (who : Option T) (answer : Answer) :
    Prog Reply → Option (RecLock (Option T) × Prog Reply)
  | .ret _ | .stuck => none
  | .lock rest => (s.m_csCommit.acquire who).map (·, rest)
  | .unlock rest => some (s.m_csCommit.release, rest)
  | .op o rest => some (s.m_csCommit, rest (result s.m_db answer o))

/-- The program has returned. -/
def isReturned : Prog Reply → Bool
  | .ret _ => true
  | _ => false

/-- The client's program after a step. -/
def State.setClient [DecidableEq T] (s : State T) (t : T) (p : Prog Reply) : State T :=
  { s with clients := Function.update s.clients t p }

/-- The next step of `DisconnectSQL`. -/
def closerNext [DecidableEq T] (s : State T) (answer : Answer) : Option (State T) :=
  match s.closer with
  | .idle =>
      if s.m_db = .absent then some s
      else some { s with closer := .ending (CDBManage.endTransaction 0) }
  | .ending rest =>
      if isReturned rest then some { s with closer := .waiting }
      else (advance s none answer rest).map fun p ↦
        { s with m_csCommit := p.1, closer := .ending p.2 }
  | .waiting => some { s with closer := .disconnecting }
  | .disconnecting => some { s with closer := .deleting }
  | .deleting => some { s with m_db := .deleted, closer := .clearing }
  | .clearing => some { s with m_db := .absent, closer := .idle }

/-- A step of the system. -/
def next [DecidableEq T] (s : State T) : Label T → Option (State T)
  | .call t r => if isReturned (s.clients t) then some (s.setClient t r.program) else none
  | .lastError t =>
      if isReturned (s.clients t) then some (s.setClient t CDBManage.getDBLastError) else none
  | .client t answer => (advance s (some t) answer (s.clients t)).map fun p ↦
      { s with m_csCommit := p.1, clients := Function.update s.clients t p.2 }
  | .closer answer => closerNext s answer

/-- No thread is in a call, with or without a connection. -/
structure Start (s : State T) : Prop where
  m_csCommit : s.m_csCommit = .free
  m_db : s.m_db ≠ .deleted
  clients : ∀ t, isReturned (s.clients t)
  closer : s.closer = .idle

/-- The system. -/
def system [DecidableEq T] : System (State T) (Label T) where
  start := Start
  next := next

/-! ## Uses of the object -/

/-- The next step dereferences `m_db`. -/
def usesNext : Prog Reply → Bool
  | .op o _ => o.usesDb
  | _ => false

/-- The next step is the test of `m_db`. -/
def testsNext : Prog Reply → Bool
  | .op .isNull _ => true
  | _ => false

/-- The next step of `DisconnectSQL` dereferences `m_db`. -/
def Closer.usesNext : Closer → Bool
  | ending rest => Lifetime.usesNext rest
  | disconnecting | deleting => true
  | _ => false

/-- **Only a live object is used.** -/
structure UsesLive (s : State T) : Prop where
  clients : ∀ t, usesNext (s.clients t) → s.m_db = .live
  closer : s.closer.usesNext → s.m_db = .live

/-- What an operation can return while `m_db` is `NULL`. -/
def whenNull : (o : Op) → o.Res → Prop
  | .isNull, isNull => isNull = true
  | _, _ => True

/-- The program may come to a use of `m_db` without another test of it. -/
def exposed : Prog Reply → Prop
  | .ret _ | .stuck => False
  | .lock rest | .unlock rest => exposed rest
  | .op o rest => o.usesDb ∨ ∃ r, whenNull o r ∧ exposed (rest r)

/-- The steps that lead to a use of a deleted object are avoided: the object is not deleted while
a client is exposed, and no client tests `m_db` between `delete` and `m_db = NULL`. -/
def Careful (s : State T) : Label T → Prop
  | .client t _ => testsNext (s.clients t) → s.m_db ≠ .deleted
  | .closer _ => s.closer = .deleting → ∀ t, ¬exposed (s.clients t)
  | _ => True

theorem exposed_of_usesNext {p : Prog Reply} (h : usesNext p) : exposed p := by
  rcases p with a | _ | rest | rest | ⟨o, rest⟩
  case op => exact .inl h
  all_goals cases h

/-! ### No call begins with a use -/

theorem not_exposed_returned {p : Prog Reply} (h : isReturned p) : ¬exposed p := by
  rcases p with a | _ | rest | rest | ⟨o, rest⟩
  case ret => exact id
  all_goals cases h

/-- A test of `m_db` that gives the call up. -/
theorem not_exposed_test {rest : Bool → Prog Reply} (h : ¬exposed (rest true)) :
    ¬exposed (.op .isNull rest) := by
  rintro (huses | ⟨r, hr, hrest⟩)
  · cases huses
  · have hr : r = true := hr
    subst hr
    exact h hrest

theorem not_exposed_entered {π : Type} {param : Option π} {rejected : Bool} {failed : Reply}
    {body : π → Prog Reply} : ¬exposed (CDBManage.entered param rejected failed body) := by
  rcases param with _ | p
  · exact id
  · exact not_exposed_test id

theorem not_exposed_createTable : ¬exposed CDBManage.createTable := by
  rw [CDBManage.createTable]
  rintro (huses | ⟨r, -, hrest⟩)
  · cases huses
  · exact not_exposed_test id hrest

theorem not_exposed_getDBLastError : ¬exposed CDBManage.getDBLastError := not_exposed_test id

theorem not_exposed_program (r : Request) : ¬exposed r.program := by
  cases r with
  | beginTransaction lRet =>
      rw [Request.program, CDBManage.beginTransaction]
      exact not_exposed_entered
  | endTransaction lRet =>
      rw [Request.program, CDBManage.endTransaction]
      exact not_exposed_entered
  | createTable => exact not_exposed_createTable
  | dropTable pTabName =>
      rw [Request.program, CDBManage.dropTable]
      exact not_exposed_entered
  | _ => exact not_exposed_entered

/-! ## The invariant -/

/-- What `DisconnectSQL` knows of `m_db`. -/
def Closer.Expects : Closer → Connection → Prop
  | idle, m_db => m_db ≠ .deleted
  | clearing, m_db => m_db = .deleted
  | _, m_db => m_db = .live

/-- Who may use the object next finds it live. -/
structure Safe (s : State T) : Prop where
  clients : ∀ t, exposed (s.clients t) → s.m_db = .live
  closer : s.closer.Expects s.m_db

theorem Safe.usesLive {s : State T} (h : Safe s) : UsesLive s := by
  constructor
  · intro t ht
    exact h.clients t (exposed_of_usesNext ht)
  · intro huses
    have hcloser := h.closer
    rcases hc : s.closer with _ | rest | _ | _ | _ | _
    all_goals rw [hc] at huses hcloser
    · cases huses
    · exact hcloser
    · cases huses
    · exact hcloser
    · exact hcloser
    · cases huses

section

variable [DecidableEq T] {s s' : State T}

/-- Without a live object an operation returns what it can return while `m_db` is `NULL`. -/
theorem whenNull_result {m_db : Connection} {o : Op} (answer : Answer) (hlive : m_db ≠ .live)
    (htest : o = .isNull → m_db ≠ .deleted) : whenNull o (result m_db answer o) := by
  cases o with
  | isNull =>
      rcases m_db with _ | _ | _
      · rfl
      · exact absurd rfl hlive
      · exact absurd rfl (htest rfl)
  | _ => trivial

/-- A program that is exposed after a step was so before, or the object is live. -/
theorem live_of_advance {who : Option T} {answer : Answer} {p p' : Prog Reply}
    {l : RecLock (Option T)} (hstep : advance s who answer p = some (l, p'))
    (htest : testsNext p → s.m_db ≠ .deleted) (hp : exposed p → s.m_db = .live)
    (hp' : exposed p') : s.m_db = .live := by
  rcases p with a | _ | rest | rest | ⟨o, rest⟩
  · cases hstep
  · cases hstep
  · obtain ⟨l', -, heq⟩ := Option.map_eq_some_iff.mp hstep
    obtain ⟨rfl, rfl⟩ := Prod.mk.inj heq
    exact hp hp'
  · obtain ⟨rfl, rfl⟩ := Prod.mk.inj (Option.some.inj hstep)
    exact hp hp'
  · obtain ⟨rfl, rfl⟩ := Prod.mk.inj (Option.some.inj hstep)
    by_contra hlive
    refine hlive (hp (.inr ⟨_, whenNull_result answer hlive ?_, hp'⟩))
    rintro rfl
    exact htest rfl

/-- A client's program is exchanged for one that is exposed only while the object is live. -/
theorem Safe.setClient (h : Safe s) {t : T} {p : Prog Reply} {l : RecLock (Option T)}
    (hp : exposed p → s.m_db = .live) :
    Safe { s with m_csCommit := l, clients := Function.update s.clients t p } := by
  constructor
  · intro t' ht'
    by_cases htt : t' = t
    · subst htt
      have ht' : exposed (Function.update s.clients t' p t') := ht'
      rw [Function.update_self] at ht'
      exact hp ht'
    · have ht' : exposed (Function.update s.clients t p t') := ht'
      rw [Function.update_of_ne htt] at ht'
      exact h.clients t' ht'
  · exact h.closer

/-- `DisconnectSQL` keeps the invariant if it does not delete the object under a client. -/
theorem Safe.closerNext {answer : Answer} (h : Safe s)
    (hcareful : s.closer = .deleting → ∀ t, ¬exposed (s.clients t))
    (hstep : closerNext s answer = some s') : Safe s' := by
  have hcloser := h.closer
  rw [Lifetime.closerNext] at hstep
  split at hstep
  all_goals rename_i hc
  all_goals rw [hc] at hcloser
  · split at hstep
    · rw [← Option.some.inj hstep]
      exact h
    · rename_i hnull
      rw [← Option.some.inj hstep]
      refine ⟨h.clients, ?_⟩
      rcases hdb : s.m_db with _ | _ | _
      · exact absurd hdb hnull
      · rfl
      · exact absurd hdb hcloser
  · split at hstep
    · rw [← Option.some.inj hstep]
      exact ⟨h.clients, hcloser⟩
    · obtain ⟨p, -, rfl⟩ := Option.map_eq_some_iff.mp hstep
      exact ⟨h.clients, hcloser⟩
  · rw [← Option.some.inj hstep]
    exact ⟨h.clients, hcloser⟩
  · rw [← Option.some.inj hstep]
    exact ⟨h.clients, hcloser⟩
  · rw [← Option.some.inj hstep]
    exact ⟨fun t ht ↦ absurd ht (hcareful hc t), rfl⟩
  · rw [← Option.some.inj hstep]
    refine ⟨fun t ht ↦ ?_, nofun⟩
    have hlive := h.clients t ht
    rw [show s.m_db = .deleted from hcloser] at hlive
    cases hlive

/-- A careful step keeps the invariant. -/
theorem Safe.next {a : Label T} (h : Safe s) (hcareful : Careful s a)
    (hstep : next s a = some s') : Safe s' := by
  rcases a with ⟨t, r⟩ | t | ⟨t, answer⟩ | answer
  · rw [Lifetime.next] at hstep
    split at hstep
    · rw [← Option.some.inj hstep]
      exact h.setClient fun hp ↦ absurd hp (not_exposed_program r)
    · cases hstep
  · rw [Lifetime.next] at hstep
    split at hstep
    · rw [← Option.some.inj hstep]
      exact h.setClient fun hp ↦ absurd hp not_exposed_getDBLastError
    · cases hstep
  · obtain ⟨⟨l, p⟩, hp, rfl⟩ := Option.map_eq_some_iff.mp hstep
    exact h.setClient (live_of_advance hp hcareful (h.clients t))
  · exact h.closerNext hcareful hstep

end

/-- **In a run of careful steps only a live object is used.** -/
theorem usesLive_of_reachable {T : Type} [DecidableEq T] {s : State T}
    (hs : system.ReachableIf Careful s) : UsesLive s := by
  refine Safe.usesLive (hs.invariant (I := Safe) ?_ ?_)
  · rintro s ⟨-, hdb, hclients, hcloser⟩
    refine ⟨fun t ht ↦ absurd ht (not_exposed_returned (hclients t)), ?_⟩
    rw [hcloser]
    exact hdb
  · intro s a s' h hcareful hstep
    exact h.next hcareful hstep

/-! ## Runs -/

/-- A connected `CDBManage` and one client. -/
def connected : State Unit where
  m_csCommit := .free
  m_db := .live
  clients _ := .ret (.status 0)
  closer := .idle

theorem start_connected : Start connected := ⟨rfl, nofun, fun _ ↦ rfl, rfl⟩

/-- Results of which all say that nothing is there. -/
def noAnswer : Answer
  | .isNull => false
  | .exec _ | .transaction _ | .getLastInsertId => 0
  | .getTableRow | .getTableColumn => 0
  | .getTableData _ _ => none
  | .getErrorMsg => []
  | .search _ | .freeTableData | .setCommit _ => ()

/-- The client adds a device of the test program, up to a step. -/
def adding (steps : ℕ) : List (Label Unit) :=
  .call () (.addLinkInfo (some LinkData.testInfo)) :: List.replicate steps (.client () noAnswer)

/-- `DisconnectSQL` up to a step: its test, the five steps of `EndTransaction`, the wait,
`SQLiteDisconnect`, `delete` and `m_db = NULL`. -/
def disconnecting (steps : ℕ) : List (Label Unit) := List.replicate steps (.closer noAnswer)

/-- The client is in no call when the object is deleted, and makes no test after it. -/
def apart (s : State Unit) : Label Unit → Bool
  | .closer _ => isReturned (s.clients ())
  | _ => s.m_db ≠ .deleted

theorem careful_of_apart {s : State Unit} {a : Label Unit} (h : apart s a) : Careful s a := by
  rcases a with ⟨t, r⟩ | t | ⟨t, answer⟩ | answer
  · trivial
  · trivial
  · intro _
    exact of_decide_eq_true h
  · intro _ t
    exact not_exposed_returned h

/-- Where the connection is deleted after the call and the client calls again after
`m_db = NULL`. -/
theorem exec_apart : (system.execIf (fun s a ↦ apart s a) connected
    (adding 6 ++ disconnecting 10 ++ adding 2)).any (fun s ↦ s.m_db = .absent) = true := by
  decide +kernel

/-- There only a live object is used. -/
theorem usesLive_apart : ∃ s : State Unit, s.m_db = .absent ∧ UsesLive s := by
  obtain ⟨s, hs, hdb⟩ := (Option.any_eq_true _ _).mp exec_apart
  have hreach : system.ReachableIf Careful s :=
    (System.ReachableIf.execIf _ (.start start_connected) hs).mono fun s a h ↦
      careful_of_apart h
  exact ⟨s, of_decide_eq_true hdb, usesLive_of_reachable hreach⟩

/-- Where `DisconnectSQL` runs between the `Unlock` of `AddLinkInfo` and its end. -/
theorem exec_deleted : (system.exec connected (adding 4 ++ disconnecting 9 ++
    [.client () noAnswer])).any (fun s ↦ usesNext (s.clients ()) && s.m_db = .deleted) = true := by
  decide +kernel

/-- There `AddLinkInfo` asks a deleted object for the id. -/
theorem not_usesLive : ¬∀ s : State Unit, system.Reachable s → UsesLive s := by
  intro h
  obtain ⟨s, hs, hfacts⟩ := (Option.any_eq_true _ _).mp exec_deleted
  rw [Bool.and_eq_true, decide_eq_true_iff] at hfacts
  have hlive := (h s (System.reachable_of_exec _ start_connected hs)).clients () hfacts.1
  rw [hfacts.2] at hlive
  cases hlive

end Lifetime

end CodeToolKit.HwbrapSqlite
