import Mathlib.Data.Int.Notation
import Mathlib.Data.List.Nodup
import Mathlib.Logic.Function.Basic

/-!
# Tickets from a counter

Any number of parties draw tickets from a counter, and hand them in.  Whatever the order, no ticket
is held by two parties or handed in twice (`Valid`, `Valid.draw`, `Valid.handIn`): a drawn ticket
is above all that were drawn before.
-/

namespace CodeToolKit.Lib

/-- The last ticket, who holds which, and those that were handed in. -/
structure Tickets (T : Type) where
  counter : ℤ
  held : T → Option ℤ
  handedIn : List ℤ

namespace Tickets

variable {T : Type}

/-- A ticket was drawn once, and is held by one party or handed in. -/
structure Valid (s : Tickets T) : Prop where
  held_le : ∀ t n, s.held t = some n → n ≤ s.counter
  handedIn_le : ∀ n ∈ s.handedIn, n ≤ s.counter
  held_unique : ∀ t t' n, s.held t = some n → s.held t' = some n → t = t'
  held_fresh : ∀ t n, s.held t = some n → n ∉ s.handedIn
  nodup : s.handedIn.Nodup

/-- Nobody has drawn a ticket yet. -/
theorem valid_start (counter : ℤ) : Valid (⟨counter, fun _ ↦ none, []⟩ : Tickets T) where
  held_le := nofun
  handedIn_le := nofun
  held_unique := nofun
  held_fresh := nofun
  nodup := .nil

variable [DecidableEq T]

/-- A party draws the next ticket. -/
def draw (t : T) (s : Tickets T) : Tickets T :=
  ⟨s.counter + 1, Function.update s.held t (some (s.counter + 1)), s.handedIn⟩

/-- A party hands in its ticket, if it has one. -/
def handIn (t : T) (s : Tickets T) : Tickets T :=
  ⟨s.counter, Function.update s.held t none, s.handedIn ++ (s.held t).toList⟩

variable {s : Tickets T} {t : T}

/-- Who holds a ticket after one was drawn. -/
theorem held_draw {t' : T} {n : ℤ} (h : (s.draw t).held t' = some n) :
    (t' = t ∧ n = s.counter + 1) ∨ (t' ≠ t ∧ s.held t' = some n) := by
  change Function.update s.held t (some (s.counter + 1)) t' = some n at h
  by_cases ht : t' = t
  · subst ht
    rw [Function.update_self] at h
    exact .inl ⟨rfl, (Option.some.inj h).symm⟩
  · rw [Function.update_of_ne ht] at h
    exact .inr ⟨ht, h⟩

theorem held_handIn {t' : T} {n : ℤ} (h : (s.handIn t).held t' = some n) :
    t' ≠ t ∧ s.held t' = some n := by
  change Function.update s.held t none t' = some n at h
  by_cases ht : t' = t
  · subst ht
    rw [Function.update_self] at h
    cases h
  · rw [Function.update_of_ne ht] at h
    exact ⟨ht, h⟩

/-- The next ticket is new. -/
theorem Valid.draw (h : s.Valid) (t : T) : (s.draw t).Valid where
  held_le t' n hn := by
    rcases held_draw hn with ⟨-, rfl⟩ | ⟨-, hn⟩
    · exact Int.le_refl _
    · exact Int.le_add_one (h.held_le t' n hn)
  handedIn_le n hn := Int.le_add_one (h.handedIn_le n hn)
  held_unique t' t'' n hn hn' := by
    rcases held_draw hn with ⟨rfl, rfl⟩ | ⟨-, hn⟩
    · rcases held_draw hn' with ⟨rfl, -⟩ | ⟨-, hn'⟩
      · rfl
      · exact absurd (h.held_le t'' _ hn') (Int.not_le.mpr (Int.lt_succ _))
    · rcases held_draw hn' with ⟨-, rfl⟩ | ⟨-, hn'⟩
      · exact absurd (h.held_le t' _ hn) (Int.not_le.mpr (Int.lt_succ _))
      · exact h.held_unique t' t'' n hn hn'
  held_fresh t' n hn := by
    rcases held_draw hn with ⟨-, rfl⟩ | ⟨-, hn⟩
    · intro hmem
      exact absurd (h.handedIn_le _ hmem) (Int.not_le.mpr (Int.lt_succ _))
    · exact h.held_fresh t' n hn
  nodup := h.nodup

theorem Valid.handIn (h : s.Valid) (t : T) : (s.handIn t).Valid where
  held_le t' n hn := h.held_le t' n (held_handIn hn).2
  handedIn_le n hn := by
    rcases List.mem_append.mp hn with hn | hn
    · exact h.handedIn_le n hn
    · exact h.held_le t n (Option.mem_toList.mp hn)
  held_unique t' t'' n hn hn' := h.held_unique t' t'' n (held_handIn hn).2 (held_handIn hn').2
  held_fresh t' n hn hmem := by
    obtain ⟨hne, hn⟩ := held_handIn hn
    rcases List.mem_append.mp hmem with hmem | hmem
    · exact h.held_fresh t' n hn hmem
    · exact hne (h.held_unique t' t n hn (Option.mem_toList.mp hmem))
  nodup := by
    refine List.nodup_append'.mpr ⟨h.nodup, ?_, ?_⟩
    · rcases s.held t with _ | n
      · exact .nil
      · exact List.nodup_singleton n
    · intro n hn hn'
      exact h.held_fresh t n (Option.mem_toList.mp hn') hn

end Tickets

end CodeToolKit.Lib
