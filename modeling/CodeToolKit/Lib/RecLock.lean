import Mathlib.Data.List.Basic

/-!
# Recursive locks

A lock that its holder may take again and that is free when it was given back as
often as it was taken: the behaviour of a Windows critical section.  A party that
asks for a lock of somebody else is not enabled, so `acquire` is partial.

`count` is the view the invariants use: how often a party holds the lock.  At most
one party has a positive count (`count_unique`), and `acquire` is enabled exactly
when every other party's count is zero (`acquire_isSome`).
-/

universe u

namespace CodeToolKit.Lib

/-- A lock over the parties `P`. -/
inductive RecLock (P : Type u) where
  /-- Nobody holds it. -/
  | free
  /-- `p` holds it, `n + 1` times. -/
  | held (p : P) (n : ℕ)
deriving DecidableEq, Repr

namespace RecLock

variable {P : Type u} [DecidableEq P]

/-- `p` takes the lock; `none` when another party holds it. -/
def acquire : RecLock P → P → Option (RecLock P)
  | free, p => some (held p 0)
  | held q n, p => if q = p then some (held q (n + 1)) else none

/-- The holder gives the lock back once. -/
def release : RecLock P → RecLock P
  | held p (n + 1) => held p n
  | _ => free

/-- How often `p` holds the lock. -/
def count : RecLock P → P → ℕ
  | free, _ => 0
  | held q n, p => if q = p then n + 1 else 0

@[simp] theorem count_free (p : P) : (free : RecLock P).count p = 0 := rfl

/-- Only one party can hold the lock. -/
theorem count_unique {l : RecLock P} {p q : P} (hp : l.count p ≠ 0) (hq : l.count q ≠ 0) :
    p = q := by
  cases l with
  | free => exact absurd rfl hp
  | held r n =>
      have hrp : r = p := by by_contra h; simp [count, h] at hp
      have hrq : r = q := by by_contra h; simp [count, h] at hq
      rw [← hrp, hrq]

/-- Taking the lock is possible exactly when nobody else holds it. -/
theorem acquire_isSome {l : RecLock P} {p : P} :
    (l.acquire p).isSome ↔ ∀ q, q ≠ p → l.count q = 0 := by
  cases l with
  | free => simp [acquire]
  | held r n =>
      by_cases h : r = p
      · subst h
        simp +contextual [acquire, count, eq_comm]
      · simp only [acquire, h, if_false, Option.isSome_none, Bool.false_eq_true, false_iff]
        exact fun hall ↦ absurd (hall r h) (by simp [count])

/-- Taking the lock adds one to the count of the party that takes it. -/
theorem count_acquire {l l' : RecLock P} {p : P} (h : l.acquire p = some l') (q : P) :
    l'.count q = if q = p then l.count q + 1 else l.count q := by
  cases l with
  | free =>
      cases h
      by_cases hq : q = p
      · simp [count, hq]
      · simp [count, hq, Ne.symm hq]
  | held r n =>
      by_cases hr : r = p
      · subst hr
        simp only [acquire, if_true, Option.some.injEq] at h
        subst h
        by_cases hq : q = r <;> simp [count, hq, eq_comm]
      · simp [acquire, hr] at h

/-- Giving the lock back takes one off the count of its holder. -/
theorem count_release {l : RecLock P} {p : P} (h : l.count p ≠ 0) (q : P) :
    l.release.count q = if q = p then l.count q - 1 else l.count q := by
  cases l with
  | free => exact absurd rfl h
  | held r n =>
      have hr : r = p := by by_contra hne; simp [count, hne] at h
      subst hr
      cases n <;> by_cases hq : q = r <;> simp [release, count, hq, eq_comm]

end RecLock

end CodeToolKit.Lib
