import Mathlib.Data.List.Basic
import Mathlib.Data.List.Nodup

/-!
# Scans

A scan visits the cells of a list one after the other and updates a state that it
mutates in place, so a step may read what earlier steps of the same scan have
written.  The invariant of a scan is therefore indexed by the cells visited so far
(`foldl_invariant`).

When no cell occurs twice, the visit of one cell splits the scan in two
(`foldl_at`): what was visited before it does not contain the cell, and a part of
the state that only the visit of the cell itself writes is final right after it.
-/

universe u v

namespace CodeToolKit.Lib.Scan

variable {State : Type u} {Cell : Type v} {step : State → Cell → State}

/-- An invariant that is indexed by the visited cells holds after the scan. -/
theorem foldl_invariant (I : List Cell → State → Prop)
    (hstep : ∀ visited c s, I visited s → I (visited ++ [c]) (step s c)) :
    ∀ (cells visited : List Cell) (s : State), I visited s →
      I (visited ++ cells) (cells.foldl step s) := by
  intro cells
  induction cells with
  | nil =>
      intro visited s hs
      rw [List.append_nil]
      exact hs
  | cons c cells ih =>
      intro visited s hs
      have hrest := ih (visited ++ [c]) (step s c) (hstep visited c s hs)
      rw [List.append_assoc] at hrest
      exact hrest

/-- In a scan without repetitions every cell is visited before it is among the visited ones. -/
theorem foldl_scan (I : List Cell → State → Prop) {cells : List Cell} (hnd : cells.Nodup)
    (hstep : ∀ visited s, ∀ c ∈ cells, c ∉ visited → I visited s → I (visited ++ [c]) (step s c))
    {s : State} (hs : I [] s) : I cells (cells.foldl step s) := by
  refine foldl_invariant (fun visited s ↦ visited.Nodup → visited ⊆ cells → I visited s) ?_ cells []
    s (fun _ _ ↦ hs) hnd (List.Subset.refl cells)
  intro visited c s hvisited hnd' hsub
  rw [← List.concat_eq_append, List.nodup_concat] at hnd'
  have hc : c ∈ cells := hsub (List.mem_append_right _ (List.mem_singleton_self c))
  exact hstep visited s c hc hnd'.1 (hvisited hnd'.2 fun c' hc' ↦ hsub (List.mem_append_left _ hc'))

/-- A property that every visit keeps holds after the scan. -/
theorem foldl_keeps {P : State → Prop} {cells : List Cell}
    (hstep : ∀ s, ∀ c ∈ cells, P s → P (step s c)) :
    ∀ s, P s → P (cells.foldl step s) := by
  induction cells with
  | nil =>
      intro s hs
      exact hs
  | cons c cells ih =>
      intro s hs
      apply ih
      · intro s' c' hc'
        exact hstep s' c' (List.mem_cons_of_mem c hc')
      · exact hstep s c List.mem_cons_self hs

/-- A scan without repetitions splits at the visit of each of its cells. -/
theorem split_of_mem {cells : List Cell} (hnd : cells.Nodup) {c : Cell} (hc : c ∈ cells) :
    ∃ before after, cells = before ++ c :: after ∧ c ∉ before ∧ c ∉ after := by
  obtain ⟨before, after, rfl⟩ := List.append_of_mem hc
  rw [List.nodup_middle, List.nodup_cons, List.mem_append, not_or] at hnd
  exact ⟨before, after, rfl, hnd.1.1, hnd.1.2⟩

/-- What is visited before the first visit of a cell. -/
theorem takeWhile_ne_append [DecidableEq Cell] {before : List Cell} {c : Cell} (hc : c ∉ before)
    (after : List Cell) : (before ++ c :: after).takeWhile (· ≠ c) = before := by
  rw [List.takeWhile_append_of_pos fun c' hc' ↦ decide_eq_true (ne_of_mem_of_not_mem hc' hc)]
  rw [List.takeWhile_cons_of_neg (by simp), List.append_nil]

/-- **The visit of one cell.**  If `I` is an invariant of the scan, then a property that
the visit of `c` establishes, and that the visits of the other cells keep, holds after the
scan; at the visit of `c` the invariant is available for a set of visited cells without
`c`. -/
theorem foldl_at (I : List Cell → State → Prop)
    (hstep : ∀ visited c s, I visited s → I (visited ++ [c]) (step s c))
    {cells : List Cell} (hnd : cells.Nodup) {c : Cell} (hc : c ∈ cells) {s : State}
    (hs : I [] s) {P : State → Prop}
    (hvisit : ∀ visited s, c ∉ visited → I visited s → P (step s c))
    (hkeep : ∀ s c', c' ≠ c → P s → P (step s c')) : P (cells.foldl step s) := by
  obtain ⟨before, after, rfl, hbefore, hafter⟩ := split_of_mem hnd hc
  rw [List.foldl_append, List.foldl_cons]
  apply foldl_keeps
  · intro s' c' hc'
    apply hkeep
    rintro rfl
    exact hafter hc'
  · apply hvisit before _ hbefore
    have hinv := foldl_invariant I hstep before [] s hs
    rwa [List.nil_append] at hinv

/-- The visit of one cell, for an invariant of the state alone. -/
theorem foldl_visit {I : State → Prop} {cells : List Cell}
    (hstep : ∀ s, ∀ c ∈ cells, I s → I (step s c)) (hnd : cells.Nodup) {c : Cell} (hc : c ∈ cells)
    {s : State} (hs : I s) {P : State → Prop} (hvisit : ∀ s, I s → P (step s c))
    (hkeep : ∀ s c', c' ≠ c → P s → P (step s c')) : P (cells.foldl step s) := by
  obtain ⟨before, after, rfl, -, hafter⟩ := split_of_mem hnd hc
  rw [List.foldl_append, List.foldl_cons]
  apply foldl_keeps
  · intro s' c' hc'
    apply hkeep
    rintro rfl
    exact hafter hc'
  · apply hvisit
    exact foldl_keeps (fun s' c' hc' ↦ hstep s' c' (List.mem_append_left _ hc')) s hs

end CodeToolKit.Lib.Scan
