import Mathlib.Data.List.Nodup

/-!
# Insert or update

A list of rows with keys.  `upsert` changes the rows of a key, or adds a row when the key has none.
The other rows stay as they are, and where the keys were unique, they still are and the key has one
row (`upsert_unique`).  Doing it a second time changes nothing, unless the row that it adds has
another key (`upsert_upsert`).
-/

universe u v

namespace CodeToolKit.Lib

variable {α : Type u} {K : Type v} [DecidableEq K] {key : α → K} {k : K} {f : α → α} {x : α}
variable {rows : List α}

/-- Change the rows of a key, or add a row. -/
def upsert (key : α → K) (k : K) (f : α → α) (x : α) (rows : List α) : List α :=
  if ∃ r ∈ rows, key r = k then rows.map fun r ↦ if key r = k then f r else r else rows ++ [x]

theorem upsert_found (h : ∃ r ∈ rows, key r = k) :
    upsert key k f x rows = rows.map fun r ↦ if key r = k then f r else r := if_pos h

theorem upsert_added (h : ∀ r ∈ rows, key r ≠ k) : upsert key k f x rows = rows ++ [x] :=
  if_neg fun ⟨r, hr, heq⟩ ↦ h r hr heq

/-- A change that keeps the key keeps all keys. -/
theorem map_key_update (hf : ∀ r, key r = k → key (f r) = k) :
    (rows.map fun r ↦ if key r = k then f r else r).map key = rows.map key := by
  rw [List.map_map]
  refine List.map_congr_left fun r _ ↦ ?_
  rw [Function.comp_apply]
  split
  · rename_i hr
    rw [hf r hr, hr]
  · rfl

/-- The rows of the other keys stay as they are. -/
theorem filter_ne_update (hf : ∀ r, key r = k → key (f r) = k) :
    (rows.map fun r ↦ if key r = k then f r else r).filter (key · ≠ k) =
      rows.filter (key · ≠ k) := by
  induction rows with
  | nil => rfl
  | cons r rows ih =>
      rw [List.map_cons, List.filter_cons, List.filter_cons, ih]
      by_cases hr : key r = k
      · simp [hr, hf r hr]
      · simp [hr]

/-- The rows of the key are changed. -/
theorem filter_eq_update (hf : ∀ r, key r = k → key (f r) = k) :
    (rows.map fun r ↦ if key r = k then f r else r).filter (key · = k) =
      (rows.filter (key · = k)).map f := by
  induction rows with
  | nil => rfl
  | cons r rows ih =>
      rw [List.map_cons, List.filter_cons, List.filter_cons, ih]
      by_cases hr : key r = k
      · simp [hr, hf r hr]
      · simp [hr]

theorem filter_ne_upsert (hf : ∀ r, key r = k → key (f r) = k) (hx : key x = k) :
    (upsert key k f x rows).filter (key · ≠ k) = rows.filter (key · ≠ k) := by
  by_cases h : ∃ r ∈ rows, key r = k
  · rw [upsert_found h, filter_ne_update hf]
  · rw [upsert_added fun r hr heq ↦ h ⟨r, hr, heq⟩, List.filter_append]
    simp [hx]

/-- The rows of the key. -/
theorem filter_eq_upsert (hf : ∀ r, key r = k → key (f r) = k) (hx : key x = k) :
    (upsert key k f x rows).filter (key · = k) =
      if ∃ r ∈ rows, key r = k then (rows.filter (key · = k)).map f else [x] := by
  by_cases h : ∃ r ∈ rows, key r = k
  · rw [upsert_found h, if_pos h, filter_eq_update hf]
  · have hnone : rows.filter (key · = k) = [] := by
      rw [List.filter_eq_nil_iff]
      intro r hr heq
      exact h ⟨r, hr, of_decide_eq_true heq⟩
    rw [upsert_added fun r hr heq ↦ h ⟨r, hr, heq⟩, if_neg h, List.filter_append, hnone]
    simp [hx]

/-- Unique keys stay unique, if the key of a row that is added is new. -/
theorem nodup_upsert (hf : ∀ r, key r = k → key (f r) = k)
    (hx : (∀ r ∈ rows, key r ≠ k) → ∀ r ∈ rows, key r ≠ key x) (h : (rows.map key).Nodup) :
    ((upsert key k f x rows).map key).Nodup := by
  by_cases hfound : ∃ r ∈ rows, key r = k
  · rw [upsert_found hfound, map_key_update hf]
    exact h
  · have hnone : ∀ r ∈ rows, key r ≠ k := fun r hr heq ↦ hfound ⟨r, hr, heq⟩
    rw [upsert_added hnone, List.map_append, List.nodup_append]
    refine ⟨h, List.nodup_singleton _, ?_⟩
    intro a ha b hb
    obtain ⟨r, hr, rfl⟩ := List.mem_map.mp ha
    rw [List.map_singleton, List.mem_singleton] at hb
    rw [hb]
    exact hx hnone r hr

/-- Unique keys, and a row of a key. -/
theorem filter_eq_singleton (h : (rows.map key).Nodup) {r : α} (hr : r ∈ rows) :
    rows.filter (key · = key r) = [r] := by
  induction rows with
  | nil => cases hr
  | cons r' rows ih =>
      rw [List.map_cons, List.nodup_cons] at h
      rcases List.mem_cons.mp hr with rfl | hr
      · have hnone : rows.filter (key · = key r) = [] := by
          rw [List.filter_eq_nil_iff]
          intro r' hr' heq
          exact h.1 (List.mem_map.mpr ⟨r', hr', of_decide_eq_true heq⟩)
        rw [List.filter_cons_of_pos (by simp), hnone]
      · have hne : key r' ≠ key r := fun heq ↦ h.1 (List.mem_map.mpr ⟨r, hr, heq.symm⟩)
        rw [List.filter_cons_of_neg (by simpa using hne), ih h.2 hr]

/-- **The key has one row: the one that was added, or the one it had, changed.** -/
theorem upsert_unique (hf : ∀ r, key r = k → key (f r) = k) (hx : key x = k)
    (h : (rows.map key).Nodup) :
    ∃ r', (upsert key k f x rows).filter (key · = k) = [r'] ∧
      ((∀ r ∈ rows, key r ≠ k) ∧ r' = x ∨ ∃ r ∈ rows, key r = k ∧ r' = f r) := by
  rw [filter_eq_upsert hf hx]
  by_cases hfound : ∃ r ∈ rows, key r = k
  · obtain ⟨r, hr, rfl⟩ := hfound
    rw [if_pos ⟨r, hr, rfl⟩, filter_eq_singleton h hr]
    exact ⟨f r, rfl, .inr ⟨r, hr, rfl, rfl⟩⟩
  · rw [if_neg hfound]
    exact ⟨x, rfl, .inl ⟨fun r hr heq ↦ hfound ⟨r, hr, heq⟩, rfl⟩⟩

/-- **Doing the same again changes nothing.** -/
theorem upsert_upsert {x' : α} (hf : ∀ r, key r = k → key (f r) = k)
    (hff : ∀ r, key r = k → f (f r) = f r) (hx : key x = k) (hfx : f x = x) :
    upsert key k f x' (upsert key k f x rows) = upsert key k f x rows := by
  by_cases hfound : ∃ r ∈ rows, key r = k
  · have hagain : ∃ r' ∈ upsert key k f x rows, key r' = k := by
      obtain ⟨r, hr, heq⟩ := hfound
      refine ⟨f r, ?_, hf r heq⟩
      rw [upsert_found ⟨r, hr, heq⟩]
      exact List.mem_map.mpr ⟨r, hr, if_pos heq⟩
    rw [upsert_found hagain, upsert_found hfound, List.map_map]
    refine List.map_congr_left fun r _ ↦ ?_
    rw [Function.comp_apply]
    by_cases hr : key r = k
    · rw [if_pos hr, if_pos (hf r hr), hff r hr]
    · rw [if_neg hr, if_neg hr]
  · have hnone : ∀ r ∈ rows, key r ≠ k := fun r hr heq ↦ hfound ⟨r, hr, heq⟩
    have hagain : ∃ r' ∈ upsert key k f x rows, key r' = k := by
      rw [upsert_added hnone]
      exact ⟨x, List.mem_append_right _ (List.mem_singleton_self _), hx⟩
    rw [upsert_found hagain, upsert_added hnone, List.map_append, List.map_singleton, if_pos hx,
      hfx]
    refine congrArg (· ++ [x]) ?_
    exact (List.map_congr_left fun r hr ↦ if_neg (hnone r hr)).trans (List.map_id' rows)

end CodeToolKit.Lib
