import Mathlib.Data.List.Basic

/-!
# Guarded transition systems

A system is a set of start states and one executable function `next`: the label
says which party moves and how every choice that is not its own (a statement that
fails, a random draw) turns out, and `none` says that the label is not enabled.
Concrete schedules are then runs of `exec`, and invariants are proved by the one
induction of `ReachableIf.invariant`.

`ReachableIf G` restricts the runs to those whose every step `(s, a)` satisfies
`G s a`, read in the state *before* the step.  It is the form in which a property
that fails in general is shown to hold as long as a named situation is avoided;
`Reachable` is the unrestricted case.
-/

universe u v w

namespace CodeToolKit.Lib

/-- A transition system with an executable, partial step function. -/
structure System (State : Type u) (Label : Type v) where
  /-- The states a run may start from. -/
  start : State → Prop
  /-- The state after a label, or `none` when the label is not enabled. -/
  next : State → Label → Option State

namespace System

variable {State : Type u} {Label : Type v}

/-- The states of the runs all of whose steps satisfy `G`. -/
inductive ReachableIf (S : System State Label) (G : State → Label → Prop) : State → Prop
  /-- A run may stop where it starts. -/
  | start {s : State} : S.start s → ReachableIf S G s
  /-- A run may be extended by an enabled step that satisfies `G`. -/
  | step {s s' : State} {a : Label} :
      ReachableIf S G s → G s a → S.next s a = some s' → ReachableIf S G s'

/-- The states of all runs. -/
abbrev Reachable (S : System State Label) : State → Prop := S.ReachableIf fun _ _ ↦ True

variable {S : System State Label} {G G' : State → Label → Prop}

/-- Weakening the restriction keeps the runs. -/
theorem ReachableIf.mono (hG : ∀ s a, G s a → G' s a) {s : State} (h : S.ReachableIf G s) :
    S.ReachableIf G' s := by
  induction h with
  | start hs => exact .start hs
  | step _ hg hn ih => exact .step ih (hG _ _ hg) hn

/-- A property that holds at the start and is kept by every step that satisfies the
restriction holds throughout every such run. -/
theorem ReachableIf.invariant {I : State → Prop} (hstart : ∀ s, S.start s → I s)
    (hstep : ∀ s a s', I s → G s a → S.next s a = some s' → I s') {s : State}
    (h : S.ReachableIf G s) : I s := by
  induction h with
  | start hs => exact hstart _ hs
  | step _ hg hn ih => exact hstep _ _ _ ih hg hn

/-- Play a schedule; `none` as soon as one of its labels is not enabled. -/
def exec (S : System State Label) : State → List Label → Option State
  | s, [] => some s
  | s, a :: as => match S.next s a with
    | some s' => exec S s' as
    | none => none

theorem exec_cons (s : State) (a : Label) (as : List Label) :
    S.exec s (a :: as) = (S.next s a).bind fun s' ↦ S.exec s' as := by
  rw [exec]
  cases S.next s a <;> rfl

/-- A schedule whose labels satisfy the restriction in every state stays inside the
restricted runs. -/
theorem ReachableIf.exec (as : List Label) (hG : ∀ s, ∀ a ∈ as, G s a) {s s' : State}
    (h : S.ReachableIf G s) (he : S.exec s as = some s') : S.ReachableIf G s' := by
  induction as generalizing s with
  | nil => exact Option.some.inj he ▸ h
  | cons a as ih =>
      rw [exec_cons, Option.bind_eq_some_iff] at he
      obtain ⟨t, ht, hrest⟩ := he
      exact ih (fun s b hb ↦ hG s b (List.mem_cons_of_mem _ hb))
        (.step h (hG s a List.mem_cons_self) ht) hrest

/-- Every schedule played from a start state ends in a reachable state. -/
theorem reachable_of_exec (as : List Label) {s s' : State} (hs : S.start s)
    (he : S.exec s as = some s') : S.Reachable s' :=
  ReachableIf.exec as (fun _ _ _ ↦ trivial) (.start hs) he

/-- Play a schedule and check the restriction before each of its steps. -/
def execIf (S : System State Label) (G : State → Label → Prop) [∀ s a, Decidable (G s a)] :
    State → List Label → Option State
  | s, [] => some s
  | s, a :: as => if G s a then (S.next s a).bind fun s' ↦ execIf S G s' as else none

/-- A schedule that passes the checks stays inside the restricted runs. -/
theorem ReachableIf.execIf [∀ s a, Decidable (G s a)] (as : List Label) {s s' : State}
    (h : S.ReachableIf G s) (he : S.execIf G s as = some s') : S.ReachableIf G s' := by
  induction as generalizing s with
  | nil => exact Option.some.inj he ▸ h
  | cons a as ih =>
      rw [System.execIf] at he
      split at he
      · rename_i hg
        obtain ⟨t, ht, hrest⟩ := Option.bind_eq_some_iff.mp he
        exact ih (.step h hg ht) hrest
      · cases he

/-- Two invariants may be proved one after the other: the second may use the first. -/
theorem ReachableIf.invariant₂ {I J : State → Prop} (hI : ∀ {s}, S.ReachableIf G s → I s)
    (hstart : ∀ s, S.start s → J s)
    (hstep : ∀ s a s', I s → J s → G s a → S.next s a = some s' → J s') {s : State}
    (h : S.ReachableIf G s) : J s := by
  induction h with
  | start hs => exact hstart _ hs
  | step hr hg hn ih => exact hstep _ _ _ (hI hr) ih hg hn

end System

end CodeToolKit.Lib
