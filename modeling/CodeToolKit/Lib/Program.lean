import Mathlib.Data.List.Basic

/-!
# Programs step by step

A program is a tree of its steps: it takes or gives back a lock, or it does an operation and goes
on with the result.  A concurrent run takes one step of a tree at a time; `Program.run` takes them
all, where no other program is in between.

What is said of all the steps of a program is said by recursion on the tree, and holds of a
composed program if it holds of its parts (`plain_bind`).
-/

namespace CodeToolKit.Lib

/-- A program over the operations `Op` with the results `Res`. -/
inductive Program (Op : Type) (Res : Op → Type) (α : Type) where
  /-- It returns. -/
  | ret (a : α)
  /-- It has no defined behaviour from here on. -/
  | stuck
  /-- It takes the lock. -/
  | lock (rest : Program Op Res α)
  /-- It gives the lock back. -/
  | unlock (rest : Program Op Res α)
  /-- It does an operation. -/
  | op (o : Op) (rest : Res o → Program Op Res α)

namespace Program

variable {Op : Type} {Res : Op → Type} {α β σ : Type}

/-- One program after the other. -/
def bind : Program Op Res α → (α → Program Op Res β) → Program Op Res β
  | ret a, k => k a
  | stuck, _ => stuck
  | lock rest, k => lock (rest.bind k)
  | unlock rest, k => unlock (rest.bind k)
  | op o rest, k => op o fun r ↦ (rest r).bind k

instance instMonadProgram : Monad (Program Op Res) where
  pure := ret
  bind := bind

/-- One operation. -/
def act (o : Op) : Program Op Res (Res o) := op o ret

/-- A value that may be undefined. -/
def ofOption : Option α → Program Op Res α
  | some a => ret a
  | none => stuck

@[simp] theorem op_bind (o : Op) (rest : Res o → Program Op Res α) (k : α → Program Op Res β) :
    op o rest >>= k = op o fun r ↦ rest r >>= k := rfl

instance instLawfulMonadProgram : LawfulMonad (Program Op Res) := by
  refine LawfulMonad.mk' _ (fun p ↦ ?_) (fun _ _ ↦ rfl) (fun p k k' ↦ ?_)
  · show p.bind ret = p
    induction p with
    | ret a => rfl
    | stuck => rfl
    | lock rest ih => exact congrArg lock ih
    | unlock rest ih => exact congrArg unlock ih
    | op o rest ih => exact congrArg (op o) (funext ih)
  · show (p.bind k).bind k' = p.bind fun a ↦ (k a).bind k'
    induction p with
    | ret a => rfl
    | stuck => rfl
    | lock rest ih => exact congrArg lock ih
    | unlock rest ih => exact congrArg unlock ih
    | op o rest ih => exact congrArg (op o) (funext ih)

/-! ## Running a program alone -/

/-- The program alone, from a state on: the state at its end, and what it returns. -/
def run (step : (o : Op) → σ → Option (σ × Res o)) : Program Op Res α → σ → Option (σ × α)
  | ret a, x => some (x, a)
  | stuck, _ => none
  | lock rest, x => rest.run step x
  | unlock rest, x => rest.run step x
  | op o rest, x => step o x >>= fun s ↦ (rest s.2).run step s.1

section

variable {step : (o : Op) → σ → Option (σ × Res o)}

@[simp] theorem run_op (o : Op) (rest : Res o → Program Op Res α) (x : σ) :
    (op o rest).run step x = step o x >>= fun s ↦ (rest s.2).run step s.1 := rfl

/-- A composed program runs its parts one after the other. -/
theorem run_bind (p : Program Op Res α) (k : α → Program Op Res β) (x : σ) :
    (p >>= k).run step x = p.run step x >>= fun s ↦ (k s.2).run step s.1 := by
  induction p generalizing x with
  | ret a => rfl
  | stuck => rfl
  | lock rest ih => exact ih x
  | unlock rest ih => exact ih x
  | op o rest ih =>
      rw [op_bind, run_op, run_op]
      rcases step o x with _ | ⟨x', r⟩
      · rfl
      · exact ih r x'

theorem run_ofOption (a : Option α) (k : α → Program Op Res β) (x : σ) :
    (ofOption a >>= k).run step x = a >>= fun a ↦ (k a).run step x := by
  rcases a with _ | a <;> rfl

end

/-! ## Programs without the lock -/

/-- The program only does operations. -/
def Plain : Program Op Res α → Prop
  | ret _ | stuck => True
  | lock _ | unlock _ => False
  | op _ rest => ∀ r, (rest r).Plain

theorem plain_bind {p : Program Op Res α} {k : α → Program Op Res β} (hp : p.Plain)
    (hk : ∀ a, (k a).Plain) : (p >>= k).Plain := by
  induction p with
  | ret a => exact hk a
  | stuck => trivial
  | lock rest ih => exact hp.elim
  | unlock rest ih => exact hp.elim
  | op o rest ih => exact fun r ↦ ih r (hp r)

theorem plain_ofOption (a : Option α) : (ofOption a : Program Op Res α).Plain := by
  rcases a with _ | a <;> trivial

end Program

end CodeToolKit.Lib
