import Mathlib.Data.Int.Notation
import Mathlib.Data.List.Basic
import Mathlib.Order.Basic

/-!
# Picking from a list

A pass over a list that keeps the first candidate with the greatest key.  `foldl_pick` carries
the result to a loop that keeps it in its own variables.
-/

universe u v

namespace CodeToolKit.Lib

variable {α : Type u} {β : Type v} {cand : α → Prop} [DecidablePred cand] {key : α → ℤ}

/-- One step: an element that is a candidate and better than the best one so far is kept. -/
def better (cand : α → Prop) [DecidablePred cand] (key : α → ℤ) (best : Option α) (x : α) :
    Option α :=
  if cand x ∧ ∀ b ∈ best, key b < key x then some x else best

/-- The pass. -/
def pick (cand : α → Prop) [DecidablePred cand] (key : α → ℤ) (l : List α) : Option α :=
  l.foldl (better cand key) none

/-- What the pass has kept is at least as good as what it started with. -/
theorem foldl_better {l : List α} {best b : Option α} (h : l.foldl (better cand key) best = b) :
    (∀ a ∈ best, ∃ c ∈ b, key a ≤ key c) ∧ (∀ x ∈ l, cand x → ∃ c ∈ b, key x ≤ key c) ∧
      (∀ c ∈ b, c ∈ best ∨ (c ∈ l ∧ cand c)) := by
  induction l generalizing best with
  | nil =>
      subst h
      exact ⟨fun a ha ↦ ⟨a, ha, Int.le_refl _⟩, fun _ hx ↦ absurd hx List.not_mem_nil,
        fun _ hc ↦ .inl hc⟩
  | cons x l ih =>
      obtain ⟨hbest, hl, hb⟩ := ih h
      rw [better] at hbest hb
      split at hbest
      · rename_i hx
        obtain ⟨c, hc, hxc⟩ := hbest x rfl
        refine ⟨fun a ha ↦ ⟨c, hc, ?_⟩, List.forall_mem_cons.mpr ⟨fun _ ↦ ⟨c, hc, hxc⟩, hl⟩, ?_⟩
        · exact Int.le_trans (Int.le_of_lt (hx.2 a ha)) hxc
        · intro c hc
          rw [if_pos hx] at hb
          rcases hb c hc with h | ⟨hmem, hcand⟩
          · exact .inr ⟨Option.some.inj h ▸ List.mem_cons_self .., Option.some.inj h ▸ hx.1⟩
          · exact .inr ⟨List.mem_cons_of_mem _ hmem, hcand⟩
      · rename_i hx
        rw [if_neg hx] at hb
        refine ⟨hbest, List.forall_mem_cons.mpr ⟨fun hcand ↦ ?_, hl⟩, ?_⟩
        · -- what is better than `x` was kept
          obtain ⟨a, ha, hxa⟩ : ∃ a ∈ best, key x ≤ key a := by
            by_contra hno
            exact hx ⟨hcand, fun a ha ↦ Int.not_le.mp fun hle ↦ hno ⟨a, ha, hle⟩⟩
          obtain ⟨c, hc, hac⟩ := hbest a ha
          exact ⟨c, hc, Int.le_trans hxa hac⟩
        · intro c hc
          exact (hb c hc).imp_right fun h ↦ ⟨List.mem_cons_of_mem _ h.1, h.2⟩

/-- What is picked is a candidate with the greatest key. -/
theorem pick_some {l : List α} {b : α} (h : pick cand key l = some b) :
    b ∈ l ∧ cand b ∧ ∀ x ∈ l, cand x → key x ≤ key b := by
  obtain ⟨-, hl, hb⟩ := foldl_better h
  rcases hb b rfl with hnone | ⟨hmem, hcand⟩
  · cases hnone
  · refine ⟨hmem, hcand, fun x hx hxcand ↦ ?_⟩
    obtain ⟨c, hc, hle⟩ := hl x hx hxcand
    exact Option.some.inj hc ▸ hle

/-- Nothing is picked only where there is no candidate. -/
theorem pick_none {l : List α} (h : pick cand key l = none) {x : α} (hx : x ∈ l) : ¬ cand x := by
  intro hcand
  obtain ⟨c, hc, -⟩ := (foldl_better h).2.1 x hx hcand
  cases hc

/-- A loop whose variables `view best` always show the best candidate picks it. -/
theorem foldl_pick (cand : α → Prop) [DecidablePred cand] (key : α → ℤ) {step : β → α → β}
    (view : Option α → β) {l : List α}
    (hstep : ∀ best, (∀ b ∈ best, cand b) → ∀ x ∈ l,
      step (view best) x = view (better cand key best x)) :
    l.foldl step (view none) = view (pick cand key l) := by
  have hfold : ∀ (l' : List α) (best : Option α), l' ⊆ l → (∀ b ∈ best, cand b) →
      l'.foldl step (view best) = view (l'.foldl (better cand key) best) := by
    intro l'
    induction l' with
    | nil => exact fun _ _ _ ↦ rfl
    | cons x l' ih =>
        intro best hsub hbest
        rw [List.foldl_cons, List.foldl_cons, hstep best hbest x (hsub (List.mem_cons_self ..))]
        refine ih _ (fun y hy ↦ hsub (List.mem_cons_of_mem _ hy)) fun b hb ↦ ?_
        rw [better] at hb
        split at hb
        · rename_i hx
          exact Option.some.inj hb ▸ hx.1
        · exact hbest b hb
  exact hfold l none (List.Subset.refl l) fun b hb ↦ (by cases hb)

end CodeToolKit.Lib
