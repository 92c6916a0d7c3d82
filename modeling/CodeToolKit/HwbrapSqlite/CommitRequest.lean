import CodeToolKit.Lib.Transition
import CodeToolKit.Lib.Journal
import Mathlib.Logic.Function.Basic

/-!
# Commit requests of many clients

`CDBManage` answers a write as soon as the statement ran inside the open
transaction; making it durable is left to the thread `CommitTransactionProc`.  The
two sides talk through the flag `m_bCommit`, which the writers raise after they
left `m_csCommit` and which the thread clears after its `COMMIT` and `BEGIN`.

The model has one `CDBManage`, any number of client threads and the commit thread.
Every section under `m_csCommit` is one step and so is every read or write of
`m_bCommit` and `m_bExit` outside of it.  `uncommitted_requested` is the law the
flag is there for: a write that waits for its commit has a request pending.  It
does not survive every interleaving (`not_noLostRequest`): the thread's
`m_bCommit = FALSE` may overwrite a request that was raised after its `BEGIN`.  It
survives every run in which the flag is never cleared over a waiting write
(`noLostRequest`).
-/

universe u

namespace CodeToolKit.HwbrapSqlite

open CodeToolKit.Lib

/-- The calls of `CDBManage` that write to the database. -/
inductive Call where
  | addLinkInfo | setLinkInfo | delLinkInfo
  | addRuleInfo | setRuleInfo | delRuleInfo
  | createTable | dropTable
deriving DecidableEq, Repr

namespace Call

/-- How many writing statements the call sends inside its section. -/
def statements : Call → ℕ
  | createTable => 2
  | _ => 1

/-- `CreateTable` alone begins its section with `m_bCommit = FALSE`. -/
def clearsRequest : Call → Bool
  | createTable => true
  | _ => false

/-- Whether the call returns `-1` for a bad argument; `CreateTable` has none. -/
def refuses : Call → Bool → Bool
  | createTable, _ => false
  | _, bad => bad

/-- `AddLinkInfo` and `AddRuleInfo` ask for `getLastInsertId` before they return. -/
def readsInsertId : Call → Bool
  | addLinkInfo | addRuleInfo => true
  | _ => false

end Call

namespace CommitRequest

/-- A writing statement: the thread that sent it, its call, and which of the
statements of that call it is. -/
structure Write (Tid : Type u) where
  thread : Tid
  call : Call
  index : ℕ
deriving DecidableEq, Repr

/-- Where a client thread is. -/
inductive ClientPc where
  /-- Between two calls. -/
  | idle
  /-- Before the section of a call; `bad` when an argument is refused (a `NULL`
  parameter, a negative channel). -/
  | atSection (c : Call) (bad : Bool)
  /-- After the section, before `m_bCommit = TRUE`. -/
  | raise (c : Call)
  /-- Before `getLastInsertId`. -/
  | insertId
deriving DecidableEq, Repr

/-- Where `CommitTransactionProc` is. -/
inductive CommitPc where
  /-- Before the read of `m_bExit` at the top of `while( 1 )`. -/
  | top
  /-- Before the read of `m_bCommit` that guards the commit. -/
  | testCommit
  /-- Before `EndTransaction`. -/
  | endTransaction
  /-- Before `BeginTransaction`. -/
  | beginTransaction
  /-- Before `m_bCommit = FALSE`. -/
  | clear
  /-- Before the read of `m_bExit` in round `i` of the waiting loop. -/
  | waitExit (i : ℕ)
  /-- Before the read of `m_bCommit` in round `i` of the waiting loop. -/
  | waitCommit (i : ℕ)
  /-- In the `Sleep` of round `i`. -/
  | sleep (i : ℕ)
  /-- Past the loop. -/
  | exited
deriving DecidableEq, Repr

/-- At the top of the loop or sleeping. -/
def CommitPc.AtRest : CommitPc → Prop
  | top | sleep _ => True
  | _ => False

/-- The shared fields of `CDBManage` and the program counters. -/
structure St (Tid : Type u) where
  m_bExit : Bool
  m_bCommit : Bool
  /-- `m_db`: `none` is `NULL`. -/
  m_db : Option (Journal (Write Tid))
  client : Tid → ClientPc
  commit : CommitPc

/-- A step: who moves, and how the statements it sends turn out. -/
inductive Act (Tid : Type u) where
  /-- The thread enters a call. -/
  | call (t : Tid) (c : Call) (bad : Bool)
  /-- The thread runs its section; `oks` are the results of its statements. -/
  | run (t : Tid) (oks : List Bool)
  /-- The thread stores `TRUE` in `m_bCommit`. -/
  | raise (t : Tid)
  /-- The thread reads the insert id and returns. -/
  | insertId (t : Tid)
  /-- The commit thread moves; `busy` when a `COMMIT` is refused and leaves the
  transaction open. -/
  | commit (busy : Bool)

namespace St

variable {Tid : Type u}

/-- Some write waits in the open transaction. -/
def Uncommitted (s : St Tid) : Prop := ∃ j ∈ s.m_db, j.uncommitted ≠ []

/-- Some thread has left its section and will store `TRUE` next. -/
def Raising (s : St Tid) : Prop := ∃ t c, s.client t = .raise c

/-- No call is in progress. -/
def Quiet (s : St Tid) : Prop := ∀ t, s.client t = .idle

/-- The statements of a section with their results. -/
def sent (t : Tid) (c : Call) (oks : List Bool) : List (Write Tid × Bool) :=
  oks.mapIdx fun i ok ↦ (⟨t, c, i⟩, ok)

/-- What the call stores in `m_bCommit` before it looks at its argument and `m_db`. -/
def enter (s : St Tid) (c : Call) : St Tid :=
  { s with m_bCommit := if c.clearsRequest then false else s.m_bCommit }

/-- One step of `CommitTransactionProc`. -/
def commitNext (s : St Tid) (busy : Bool) : Option (St Tid) :=
  match s.commit with
  | .top => some { s with commit := if s.m_bExit then .exited else .testCommit }
  | .testCommit => some { s with commit := if s.m_bCommit then .endTransaction else .waitExit 0 }
  | .endTransaction => some { s with
      m_db := if busy then s.m_db else s.m_db.map Journal.commit, commit := .beginTransaction }
  | .beginTransaction => some { s with m_db := s.m_db.map Journal.begin, commit := .clear }
  | .clear => some { s with m_bCommit := false, commit := .waitExit 0 }
  | .waitExit i => some { s with
      commit := if i < 1000 then if s.m_bExit then .top else .waitCommit i else .top }
  | .waitCommit i => some { s with commit := if s.m_bCommit then .top else .sleep i }
  | .sleep i => some { s with commit := .waitExit (i + 1) }
  | .exited => none

variable [DecidableEq Tid]

/-- Move one client thread. -/
def setClient (s : St Tid) (t : Tid) (pc : ClientPc) : St Tid :=
  { s with client := Function.update s.client t pc }

/-- The section of a call, under `m_csCommit`. -/
def runSection (s : St Tid) (t : Tid) (c : Call) (bad : Bool) (oks : List Bool) :
    Option (St Tid) :=
  match s.m_db with
  | none => some ((s.enter c).setClient t .idle)
  | some j =>
      if c.refuses bad then some ((s.enter c).setClient t .idle)
      else if oks.length = c.statements then
        some ({ s.enter c with m_db := some (j.writeAll (sent t c oks)) }.setClient t (.raise c))
      else none

/-- The step of a label. -/
def next (s : St Tid) : Act Tid → Option (St Tid)
  | .call t c bad => match s.client t with
      | .idle => some (s.setClient t (.atSection c bad))
      | _ => none
  | .run t oks => match s.client t with
      | .atSection c bad => s.runSection t c bad oks
      | _ => none
  | .raise t => match s.client t with
      | .raise c =>
          some ({ s with m_bCommit := true }.setClient t
            (if c.readsInsertId then .insertId else .idle))
      | _ => none
  | .insertId t => match s.client t with
      | .insertId => some (s.setClient t .idle)
      | _ => none
  | .commit busy => s.commitNext busy

end St

/-- The runs of one `CDBManage` on which `ConnectSQL` has returned: nothing waits yet
and the commit thread is at the top of its loop. -/
def system (Tid : Type u) [DecidableEq Tid] : System (St Tid) (Act Tid) where
  start s := s.m_bExit = false ∧ ¬ s.Uncommitted ∧ s.Quiet ∧ s.commit = .top
  next := St.next

variable {Tid : Type u}

/-- The law the flag is there for, in the states it speaks about: no call in
progress, the commit thread at the top of its loop or sleeping. -/
def NoLostRequest (s : St Tid) : Prop :=
  s.Quiet → s.commit.AtRest → s.Uncommitted → s.m_bCommit = true

/-- The commit thread clears the flag only when nothing waits, or when a writer that
is past its section has yet to raise it. -/
def ClearsSafely (s : St Tid) : Act Tid → Prop
  | .commit _ => s.commit = .clear → s.Uncommitted → s.Raising
  | _ => True

/-! ## The invariant -/

/-- A waiting write has a request pending: the flag is up, or will be raised by a
thread that is past its section. -/
def Requested (s : St Tid) : Prop := s.Uncommitted → s.m_bCommit = true ∨ s.Raising

/-- Every step of the commit thread that does not clear the flag over a waiting write
keeps the invariant. -/
theorem Requested.commitNext {s s' : St Tid} {busy : Bool} (h : Requested s)
    (hg : ClearsSafely s (.commit busy)) (hn : s.commitNext busy = some s') : Requested s' := by
  unfold St.commitNext at hn
  cases hpc : s.commit with
  | top | testCommit | waitExit i | waitCommit i | sleep i =>
      simp only [hpc, Option.some.injEq] at hn
      subst hn
      exact h
  | endTransaction =>
      simp only [hpc, Option.some.injEq] at hn
      subst hn
      rintro ⟨j, hj, hne⟩
      cases busy with
      | true => exact h ⟨j, hj, hne⟩
      | false =>
          obtain ⟨k, -, rfl⟩ := Option.map_eq_some_iff.mp hj
          exact absurd (Journal.uncommitted_commit k) hne
  | beginTransaction =>
      simp only [hpc, Option.some.injEq] at hn
      subst hn
      rintro ⟨j, hj, hne⟩
      obtain ⟨k, hk, rfl⟩ := Option.map_eq_some_iff.mp hj
      exact h ⟨k, hk, by rwa [Journal.uncommitted_begin] at hne⟩
  | clear =>
      simp only [hpc, Option.some.injEq] at hn
      subst hn
      exact fun hu ↦ .inr (hg hpc hu)
  | exited => simp [hpc] at hn

namespace St

variable [DecidableEq Tid]

/-- A thread that steps to the raise makes the state a raising one. -/
theorem raising_setClient (s : St Tid) (t : Tid) (c : Call) :
    (s.setClient t (.raise c)).Raising :=
  ⟨t, c, Function.update_self _ _ _⟩

/-- A raise that is due stays due while another thread moves. -/
theorem Raising.setClient {s : St Tid} (h : s.Raising) {t : Tid}
    (ht : ∀ c, s.client t ≠ .raise c) (pc : ClientPc) : (s.setClient t pc).Raising := by
  obtain ⟨u, c, hu⟩ := h
  have hne : u ≠ t := fun e ↦ ht c (e ▸ hu)
  exact ⟨u, c, (Function.update_of_ne hne _ _).trans hu⟩

end St

variable [DecidableEq Tid]

/-- Moving a thread that is not at its raise keeps the invariant. -/
theorem Requested.setClient {s : St Tid} (h : Requested s) {t : Tid}
    (ht : ∀ c, s.client t ≠ .raise c) (pc : ClientPc) : Requested (s.setClient t pc) :=
  fun hu ↦ (h hu).imp id fun hr ↦ hr.setClient ht pc

/-- Every section keeps the invariant: the thread that wrote is at its raise. -/
theorem Requested.runSection {s s' : St Tid} (h : Requested s) {t : Tid} {c : Call}
    {bad : Bool} {oks : List Bool} (ht : s.client t = .atSection c bad)
    (hn : s.runSection t c bad oks = some s') : Requested s' := by
  have hpc : ∀ d, s.client t ≠ .raise d := fun d hd ↦ by rw [ht] at hd; cases hd
  unfold St.runSection at hn
  cases hj : s.m_db with
  | none =>
      simp only [hj, Option.some.injEq] at hn
      subst hn
      rintro ⟨j, hmem, -⟩
      exact absurd (hj ▸ hmem) (Option.not_mem_none j)
  | some j =>
      simp only [hj] at hn
      by_cases hbad : c.refuses bad = true
      · -- a refused call did not clear the flag: `CreateTable` refuses nothing
        have henter : s.enter c = s := by cases c <;> first | rfl | cases hbad
        rw [if_pos hbad, henter] at hn
        cases hn
        exact h.setClient hpc _
      · rw [if_neg hbad] at hn
        split at hn
        · cases hn
          exact fun _ ↦ .inr (St.raising_setClient _ _ _)
        · cases hn

/-- **Step.**  Every step that clears safely keeps the invariant. -/
theorem Requested.next {s s' : St Tid} {a : Act Tid} (h : Requested s)
    (hg : ClearsSafely s a) (hn : s.next a = some s') : Requested s' := by
  cases a with
  | call t c bad =>
      simp only [St.next] at hn
      cases ht : s.client t <;> simp only [ht, reduceCtorEq, Option.some.injEq] at hn
      subst hn
      exact h.setClient (fun d ↦ by simp [ht]) _
  | run t oks =>
      simp only [St.next] at hn
      cases ht : s.client t <;> simp only [ht, reduceCtorEq] at hn
      exact h.runSection ht hn
  | raise t =>
      simp only [St.next] at hn
      cases ht : s.client t <;> simp only [ht, reduceCtorEq, Option.some.injEq] at hn
      subst hn
      exact fun _ ↦ .inl rfl
  | insertId t =>
      simp only [St.next] at hn
      cases ht : s.client t <;> simp only [ht, reduceCtorEq, Option.some.injEq] at hn
      subst hn
      exact h.setClient (fun d ↦ by simp [ht]) _
  | commit busy => exact h.commitNext hg hn

/-- **Run.**  A waiting write has its request pending throughout every run that
clears safely. -/
theorem uncommitted_requested {s : St Tid} (h : (system Tid).ReachableIf ClearsSafely s) :
    Requested s :=
  h.invariant (fun _ ⟨_, hnone, _⟩ hu ↦ absurd hu hnone) fun _ _ _ hi hg hn ↦ hi.next hg hn

/-! ## The law -/

/-- **No commit request is lost** in a run whose commit thread never clears the flag
over a waiting write nobody will announce. -/
theorem noLostRequest {s : St Tid} (h : (system Tid).ReachableIf ClearsSafely s) :
    NoLostRequest s := by
  intro hquiet _ hu
  refine (uncommitted_requested h hu).resolve_right ?_
  rintro ⟨t, c, ht⟩
  rw [hquiet t] at ht
  cases ht

/-- The restriction is not too strong: where the thread is about to clear the flag
over a waiting write while no call is in progress, it goes to sleep on a lost
request. -/
theorem lost_of_clear {s : St Tid} (hexit : s.m_bExit = false) (hpc : s.commit = .clear)
    (hquiet : s.Quiet) (hu : s.Uncommitted) :
    ∃ s', (system Tid).exec s (List.replicate 3 (.commit false)) = some s' ∧
      ¬ NoLostRequest s' := by
  refine ⟨{ s with m_bCommit := false, commit := .sleep 0 }, ?_, fun h ↦ ?_⟩
  · simp [System.exec, system, St.next, St.commitNext, hpc, hexit, List.replicate]
  · exact Bool.false_ne_true (h hquiet trivial hu)

/-! ### One client thread -/

/-- A `CDBManage` that has just been connected. -/
def connected : St Unit where
  m_bExit := false
  m_bCommit := false
  m_db := some (Journal.begin .empty)
  client _ := .idle
  commit := .top

/-- `AddLinkInfo` from its call to its return. -/
def addLinkInfo : List (Act Unit) :=
  [.call () .addLinkInfo false, .run () [true], .raise (), .insertId ()]

theorem connected_start : (system Unit).start connected := by
  refine ⟨rfl, ?_, fun _ ↦ rfl, rfl⟩
  rintro ⟨j, hj, hne⟩
  cases hj
  exact hne rfl

/-- A schedule that clears safely: the first call is committed, and the thread clears the flag when
the second call has written but has not raised it yet. -/
def clearedBeforeRaise : List (Act Unit) :=
  addLinkInfo ++ List.replicate 4 (.commit false) ++
    [.call () .addLinkInfo false, .run () [true], .commit false, .raise (), .insertId ()] ++
      List.replicate 2 (.commit false)

instance instDecidableRaising (s : St Unit) : Decidable s.Raising :=
  decidable_of_iff (∃ c ∈ [Call.addLinkInfo, .setLinkInfo, .delLinkInfo, .addRuleInfo, .setRuleInfo,
    .delRuleInfo, .createTable, .dropTable], s.client () = .raise c)
    ⟨fun ⟨c, _, h⟩ ↦ ⟨(), c, h⟩, fun ⟨_, c, h⟩ ↦ ⟨c, by cases c <;> decide, h⟩⟩

instance instDecidableClearsSafely (s : St Unit) (a : Act Unit) : Decidable (ClearsSafely s a) :=
  match a with
  | .commit _ => inferInstanceAs
      (Decidable (s.commit = .clear → (∃ j ∈ s.m_db, j.uncommitted ≠ []) → s.Raising))
  | .call .. | .run .. | .raise _ | .insertId _ => instDecidableTrue

/-- The write of the second call waits, with the request pending. -/
theorem noLostRequest_clearedBeforeRaise : ∃ s,
    (system Unit).execIf ClearsSafely connected clearedBeforeRaise = some s ∧
      s.Quiet ∧ s.commit.AtRest ∧ s.Uncommitted ∧ NoLostRequest s :=
  ⟨_, rfl, fun _ ↦ rfl, trivial, ⟨_, rfl, by decide⟩,
    noLostRequest (.execIf clearedBeforeRaise (.start connected_start) rfl)⟩

/-- The schedule that loses a request: the second call runs from start to end
between the thread's `BeginTransaction` and its `m_bCommit = FALSE`. -/
def overtaken : List (Act Unit) :=
  addLinkInfo ++ List.replicate 4 (.commit false) ++ addLinkInfo ++
    List.replicate 3 (.commit false)

/-- **A request can be lost**, with a single client thread and no failing statement. -/
theorem not_noLostRequest : ¬ ∀ s, (system Unit).Reachable s → NoLostRequest s := by
  intro h
  have hlost := h _ (System.reachable_of_exec overtaken connected_start rfl)
  exact Bool.false_ne_true (hlost (fun _ ↦ rfl) trivial ⟨_, rfl, by decide⟩)

end CommitRequest

end CodeToolKit.HwbrapSqlite
