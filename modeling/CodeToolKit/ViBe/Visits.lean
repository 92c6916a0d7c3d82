import CodeToolKit.ViBe.Provenance

/-!
# The visit of a pixel

A pixel is visited once in a frame.  Its mask and its count are what the visit makes of them, from
the state that the pixels before it have left.
-/

namespace CodeToolKit.ViBe

open CodeToolKit.Lib

variable {rows cols : ℕ} {σ : Type}

/-- The pixels that are visited before a pixel. -/
def before (p : Fin rows × Fin cols) : List (Fin rows × Fin cols) :=
  (raster rows cols).takeWhile (· ≠ p)

/-- The pixels are those before it, the pixel itself, and others. -/
theorem raster_eq (p : Fin rows × Fin cols) :
    ∃ after, raster rows cols = before p ++ p :: after ∧ p ∉ before p ∧ p ∉ after := by
  obtain ⟨before', after, hsplit, hbefore, hafter⟩ := Scan.split_of_mem nodup_raster (mem_raster p)
  have heq : before p = before' := by
    rw [before, hsplit, Scan.takeWhile_ne_append hbefore]
  exact ⟨after, heq ▸ hsplit, heq ▸ hbefore, hafter⟩

theorem nodup_before (p : Fin rows × Fin cols) : (before p).Nodup :=
  nodup_raster.sublist (List.takeWhile_sublist _)

/-- An index has as many before it as it says. -/
theorem split_finRange {n : ℕ} (i : Fin n) :
    ∃ below above, List.finRange n = below ++ i :: above ∧ i ∉ below ∧ below.length = i := by
  obtain ⟨below, above, hsplit, hbelow, -⟩ :=
    Scan.split_of_mem (List.nodup_finRange n) (List.mem_finRange i)
  refine ⟨below, above, hsplit, hbelow, ?_⟩
  have hlength : below.length < (List.finRange n).length := by
    rw [hsplit]
    simp
  have hget : (List.finRange n)[below.length] = i := by
    simp [hsplit]
  rw [List.getElem_finRange] at hget
  rw [← hget]
  rfl

/-- Rows of pixels are visited one after the other. -/
theorem length_before (p : Fin rows × Fin cols) : (before p).length = p.1 * cols + p.2 := by
  obtain ⟨i, j⟩ := p
  obtain ⟨rowsBelow, rowsAbove, hrows, hrow, hi⟩ := split_finRange i
  obtain ⟨colsBelow, colsAbove, hcols, hcol, hj⟩ := split_finRange j
  let row (i : Fin rows) : List (Fin rows × Fin cols) := (List.finRange cols).map fun j ↦ (i, j)
  let visited := rowsBelow.flatMap row ++ colsBelow.map fun j ↦ (i, j)
  have hsplit : raster rows cols =
      visited ++ (i, j) :: (colsAbove.map (fun j ↦ (i, j)) ++ rowsAbove.flatMap row) := by
    rw [raster, hrows, List.flatMap_append, List.flatMap_cons]
    nth_rewrite 2 [hcols]
    rw [List.map_append, List.map_cons, List.append_assoc, List.append_assoc, List.cons_append]
  have hvisited : (i, j) ∉ visited := by
    rw [List.mem_append, List.mem_flatMap, List.mem_map]
    rintro (⟨i', hi', hmem⟩ | ⟨j', hj', heq⟩)
    · obtain ⟨j', -, heq⟩ := List.mem_map.mp hmem
      exact hrow ((Prod.mk.inj heq).1 ▸ hi')
    · exact hcol ((Prod.mk.inj heq).2 ▸ hj')
  rw [before, hsplit, Scan.takeWhile_ne_append hvisited, List.length_append, List.length_map, hj,
    List.length_flatMap]
  simp [row, hi]

namespace ViBe_BGS

variable (R : RNG σ)

/-- The state in which a pixel is visited in a frame. -/
def atVisit (b : ViBe_BGS rows cols) (rng : σ) (image : Mat rows cols) (p : Fin rows × Fin cols) :
    ViBe_BGS rows cols × σ :=
  (before p).foldl (testPixel R image) (b, rng)

variable {R}

theorem replaceOwn_count (image : Mat rows cols) (p : Fin rows × Fin cols)
    (s : ViBe_BGS rows cols × σ) :
    (replaceOwn R image p s).1.m_foregroundMatchCount = s.1.m_foregroundMatchCount := by
  unfold replaceOwn
  dsimp only
  split <;> rfl

theorem replaceNeighbour_count (image : Mat rows cols) (p : Fin rows × Fin cols)
    (s : ViBe_BGS rows cols × σ) :
    (replaceNeighbour R image p s).1.m_foregroundMatchCount = s.1.m_foregroundMatchCount := by
  unfold replaceNeighbour
  dsimp only
  split <;> rfl

theorem processFirstFrame_count (b : ViBe_BGS rows cols) (rng : σ) (image : Mat rows cols) :
    (processFirstFrame R b rng image).m_foregroundMatchCount = b.m_foregroundMatchCount := by
  let P : ViBe_BGS rows cols × σ → Prop := fun s ↦
    s.1.m_foregroundMatchCount = b.m_foregroundMatchCount
  refine Scan.foldl_keeps (P := P) ?_ (b, rng) rfl
  intro s q _ hs
  rw [initPixel]
  refine Scan.foldl_keeps (P := P) ?_ s hs
  intro s' k _ hs'
  exact hs'

/-- The count after the visit of a pixel. -/
theorem testPixel_count (image : Mat rows cols) (s : ViBe_BGS rows cols × σ)
    (p : Fin rows × Fin cols) :
    (testPixel R image s p).1.m_foregroundMatchCount = s.1.m_foregroundMatchCount.set p.1 p.2
      (if MIN_MATCHES ≤ s.1.matched image p then 0
        else s.1.m_foregroundMatchCount p.1 p.2 + 1) := by
  unfold testPixel
  dsimp only
  split
  · rw [replaceNeighbour_count, replaceOwn_count]
    rfl
  · split
    · rw [replaceOwn_count]
      rfl
    · rfl

section

variable (b : ViBe_BGS rows cols) (rng : σ) (image : Mat rows cols) (p : Fin rows × Fin cols)

/-- Before its visit a pixel has the count of the frame before. -/
theorem atVisit_count :
    (atVisit R b rng image p).1.m_foregroundMatchCount p.1 p.2 =
      b.m_foregroundMatchCount p.1 p.2 := by
  refine Scan.foldl_keeps (P := fun s : ViBe_BGS rows cols × σ ↦
    s.1.m_foregroundMatchCount p.1 p.2 = b.m_foregroundMatchCount p.1 p.2) ?_ (b, rng) rfl
  intro s q hq hs
  obtain ⟨-, -, hp, -⟩ := raster_eq p
  rw [testPixel_count, Mat.set_of_ne _ _ (ne_of_mem_of_not_mem hq hp).symm]
  exact hs

/-- **A frame** sets the mask and the count of a pixel at its visit. -/
theorem testAndUpdate_at :
    (testAndUpdate R b rng image).m_mask p.1 p.2 =
        (if MIN_MATCHES ≤ (atVisit R b rng image p).1.matched image p then 0 else 255) ∧
      (testAndUpdate R b rng image).m_foregroundMatchCount p.1 p.2 =
        if MIN_MATCHES ≤ (atVisit R b rng image p).1.matched image p then 0
        else b.m_foregroundMatchCount p.1 p.2 + 1 := by
  obtain ⟨after, hsplit, -, hafter⟩ := raster_eq p
  rw [testAndUpdate, hsplit, List.foldl_append, List.foldl_cons]
  refine Scan.foldl_keeps (P := fun s : ViBe_BGS rows cols × σ ↦
    s.1.m_mask p.1 p.2 = _ ∧ s.1.m_foregroundMatchCount p.1 p.2 = _) ?_ _ ⟨?_, ?_⟩
  · rintro s q hq ⟨hmask, hcount⟩
    have hne : (p.1, p.2) ≠ (q.1, q.2) := (ne_of_mem_of_not_mem hq hafter).symm
    rw [testPixel_mask, testPixel_count, Mat.set_of_ne _ _ hne, Mat.set_of_ne _ _ hne]
    exact ⟨hmask, hcount⟩
  · rw [testPixel_mask, Mat.set_same]
    rfl
  · rw [testPixel_count, Mat.set_same, ← atVisit_count b rng image p]
    rfl

end

variable (R) in
/-- The state in which a pixel is visited in frame `t + 1`. -/
def visit (rng : ℕ → σ) (frames : ℕ → Mat rows cols) (p : Fin rows × Fin cols) (t : ℕ) :
    ViBe_BGS rows cols × σ :=
  atVisit R (after R rng frames t) (rng (t + 1)) (frames (t + 1)) p

/-- A pixel is background when it passes its test. -/
theorem mask_after (rng : ℕ → σ) (frames : ℕ → Mat rows cols) (p : Fin rows × Fin cols) (t : ℕ) :
    (after R rng frames (t + 1)).m_mask p.1 p.2 =
      if MIN_MATCHES ≤ (visit R rng frames p t).1.matched (frames (t + 1)) p then 0 else 255 :=
  (testAndUpdate_at (after R rng frames t) (rng (t + 1)) (frames (t + 1)) p).1

end ViBe_BGS

end CodeToolKit.ViBe
