import CodeToolKit.ViBe.Visits
import Mathlib.Logic.Function.Iterate

/-!
# The refresh of the background

`testAndUpdate` makes its generator anew for each frame, with the state that all generators begin
with, so that every frame draws the same numbers.  The first one of these that refreshes a sample
is the 33rd.  A pixel draws at most two numbers as long as none of them does, and so none of the
first 16 pixels of the image is ever refreshed (`refreshable_iff`).
-/

namespace CodeToolKit.ViBe

open CodeToolKit.Lib

variable {rows cols : ℕ}

/-! ## The generator -/

/-- `CV_RNG_COEFF`. -/
def CV_RNG_COEFF : ℕ := 4164903690

/-- The state after a number is drawn. -/
def next (state : ℕ) : ℕ := state % 2 ^ 32 * CV_RNG_COEFF + state / 2 ^ 32

/-- `cv::RNG`. -/
def cvRNG : RNG ℕ where
  uniform state n := (Fin.ofNat n (next state % 2 ^ 32), next state)

/-- The state of a new generator. -/
def defaultState : ℕ := 0xffffffff

/-- The state after `k` numbers. -/
def drawnState (k : ℕ) : ℕ := next^[k] defaultState

theorem next_drawnState (k : ℕ) : next (drawnState k) = drawnState (k + 1) :=
  (Function.iterate_succ_apply' next k defaultState).symm

/-- Whether number `k` refreshes a sample. -/
def fires (k : ℕ) : Prop := (cvRNG.uniform (drawnState k) SUBSAMPLE_FACTOR).1 = 0

instance : DecidablePred fires := fun _ ↦ inferInstanceAs (Decidable (_ = _))

/-- The first 32 numbers do not. -/
theorem not_fires : ∀ k < 32, ¬fires k := by decide

theorem fires_32 : fires 32 := by decide

namespace ViBe_BGS

/-! ## The numbers of a pixel -/

section

variable {k : ℕ} {image : Mat rows cols} {p : Fin rows × Fin cols} {b : ViBe_BGS rows cols}

theorem replaceOwn_eq (hk : k < 32) :
    replaceOwn cvRNG image p (b, drawnState k) = (b, drawnState (k + 1)) := by
  rw [← next_drawnState]
  exact if_neg (not_fires k hk)

theorem replaceNeighbour_eq (hk : k < 32) :
    replaceNeighbour cvRNG image p (b, drawnState k) = (b, drawnState (k + 1)) := by
  rw [← next_drawnState]
  exact if_neg (not_fires k hk)

/-- A background pixel draws two numbers. -/
theorem testPixel_background (hk : k + 1 < 32) (hmatch : MIN_MATCHES ≤ b.matched image p) :
    testPixel cvRNG image (b, drawnState k) p = (b.setBackground p, drawnState (k + 2)) := by
  rw [testPixel, if_pos hmatch]
  dsimp only
  rw [replaceOwn_eq (Nat.lt_of_succ_lt hk), replaceNeighbour_eq hk]

/-- A foreground pixel draws none, or one if it has been foreground for long. -/
theorem testPixel_foreground (hk : k < 32) (hmatch : ¬MIN_MATCHES ≤ b.matched image p) :
    testPixel cvRNG image (b, drawnState k) p = (b.setForeground p, drawnState
      (if (b.setForeground p).m_foregroundMatchCount p.1 p.2 > 50 then k + 1 else k)) := by
  rw [testPixel, if_neg hmatch]
  dsimp only
  split
  · exact replaceOwn_eq hk
  · rfl

/-- **Step.**  A pixel draws at most two numbers. -/
theorem testPixel_draws (hk : k + 1 < 32) (image : Mat rows cols) (b : ViBe_BGS rows cols)
    (p : Fin rows × Fin cols) :
    ∃ k' ≤ k + 2, (testPixel cvRNG image (b, drawnState k) p).2 = drawnState k' := by
  by_cases hmatch : MIN_MATCHES ≤ b.matched image p
  · rw [testPixel_background hk hmatch]
    exact ⟨k + 2, le_rfl, rfl⟩
  · rw [testPixel_foreground (Nat.lt_of_succ_lt hk) hmatch]
    refine ⟨_, ?_, rfl⟩
    split <;> omega

end

/-- **Run.**  How many numbers were drawn before one of the first 16 pixels. -/
theorem atVisit_draws {p : Fin rows × Fin cols} (hp : (before p).length < 16)
    (b : ViBe_BGS rows cols) (image : Mat rows cols) :
    ∃ k < 32, (atVisit cvRNG b defaultState image p).2 = drawnState k := by
  let I : List (Fin rows × Fin cols) → ViBe_BGS rows cols × ℕ → Prop := fun visited s ↦
    visited.length < 16 → ∃ k ≤ 2 * visited.length, s.2 = drawnState k
  have hstep : ∀ visited q s, I visited s → I (visited ++ [q]) (testPixel cvRNG image s q) := by
    rintro visited q ⟨b, state⟩ hs hlength
    rw [List.length_append, List.length_singleton] at hlength ⊢
    obtain ⟨k, hk, rfl⟩ := hs (by omega)
    obtain ⟨k', hk', heq⟩ := testPixel_draws (show k + 1 < 32 by omega) image b q
    exact ⟨k', by omega, heq⟩
  obtain ⟨k, hk, heq⟩ := Scan.foldl_invariant I hstep (before p) [] (b, defaultState)
    (fun _ ↦ ⟨0, le_rfl, rfl⟩) hp
  exact ⟨k, by rw [List.nil_append] at hk; omega, heq⟩

/-! ## The refresh -/

/-- In frame `t + 1` the pixel is background and replaces one of its own samples. -/
def Refreshes (frames : ℕ → Mat rows cols) (p : Fin rows × Fin cols) (t : ℕ) : Prop :=
  MIN_MATCHES ≤ (visit cvRNG (fun _ ↦ defaultState) frames p t).1.matched (frames (t + 1)) p ∧
    (cvRNG.uniform (visit cvRNG (fun _ ↦ defaultState) frames p t).2 SUBSAMPLE_FACTOR).1 = 0

/-- In some frames, in all of which it is background, the pixel is refreshed. -/
def Refreshable (p : Fin rows × Fin cols) : Prop :=
  ∃ (frames : ℕ → Mat rows cols) (last : ℕ),
    (∀ t < last, (after cvRNG (fun _ ↦ defaultState) frames (t + 1)).m_mask p.1 p.2 = 0) ∧
      ∃ t < last, Refreshes frames p t

/-- **The first 16 pixels are never refreshed**, whatever the frames are. -/
theorem not_refreshes {p : Fin rows × Fin cols} (hp : (before p).length < 16)
    (frames : ℕ → Mat rows cols) (t : ℕ) : ¬Refreshes frames p t := by
  rintro ⟨-, hfires⟩
  obtain ⟨k, hk, heq⟩ := atVisit_draws hp (after cvRNG (fun _ ↦ defaultState) frames t)
    (frames (t + 1))
  rw [visit, heq] at hfires
  exact not_fires k hk hfires

/-! ## The other pixels -/

/-- All samples are zero, and `k` numbers have been drawn. -/
structure Untouched (k : ℕ) (s : ViBe_BGS rows cols × ℕ) : Prop where
  samples : ∀ n i j, s.1.m_samples n i j = 0
  state : s.2 = drawnState k

section

variable {k : ℕ} {image : Mat rows cols} {p : Fin rows × Fin cols} {s : ViBe_BGS rows cols × ℕ}

theorem Untouched.matches (hs : Untouched k s) (hdark : image p.1 p.2 = 0) :
    MIN_MATCHES ≤ s.1.matched image p := by
  refine le_matched fun n ↦ ?_
  rw [hs.samples, hdark]
  decide

/-- **Step.**  A dark pixel. -/
theorem Untouched.dark (hs : Untouched k s) (hk : k + 1 < 32) (hdark : image p.1 p.2 = 0) :
    Untouched (k + 2) (testPixel cvRNG image s p) := by
  obtain ⟨b, state⟩ := s
  obtain rfl : state = drawnState k := hs.state
  rw [testPixel_background hk (hs.matches hdark)]
  exact ⟨hs.samples, rfl⟩

/-- **Step.**  A bright pixel, in its first bright frame. -/
theorem Untouched.bright (hs : Untouched k s) (hk : k < 32) (hbright : image p.1 p.2 = 255)
    (hcount : s.1.m_foregroundMatchCount p.1 p.2 = 0) :
    Untouched k (testPixel cvRNG image s p) := by
  obtain ⟨b, state⟩ := s
  obtain rfl : state = drawnState k := hs.state
  have hmatch : ¬MIN_MATCHES ≤ b.matched image p := by
    refine matched_lt fun n ↦ ?_
    rw [hs.samples, hbright]
    decide
  have hshort : ¬(b.setForeground p).m_foregroundMatchCount p.1 p.2 > 50 := by
    have hone : (b.setForeground p).m_foregroundMatchCount p.1 p.2 =
        b.m_foregroundMatchCount p.1 p.2 + 1 := Mat.set_same _ _ _ _
    rw [hone, show b.m_foregroundMatchCount p.1 p.2 = 0 from hcount]
    decide
  rw [testPixel_foreground hk hmatch, if_neg hshort]
  exact ⟨hs.samples, rfl⟩

end

/-- Bright pixels draw no numbers. -/
theorem untouched_bright {cells : List (Fin rows × Fin cols)} (hnd : cells.Nodup)
    {image : Mat rows cols} (hbright : ∀ q ∈ cells, image q.1 q.2 = 255)
    {s : ViBe_BGS rows cols × ℕ} (hs : Untouched 0 s)
    (hcount : ∀ q : Fin rows × Fin cols, s.1.m_foregroundMatchCount q.1 q.2 = 0) :
    Untouched 0 (cells.foldl (testPixel cvRNG image) s) := by
  let I : List (Fin rows × Fin cols) → ViBe_BGS rows cols × ℕ → Prop := fun visited s' ↦
    Untouched 0 s' ∧ ∀ q ∉ visited, s'.1.m_foregroundMatchCount q.1 q.2 = 0
  have hend : I cells (cells.foldl (testPixel cvRNG image) s) := by
    refine Scan.foldl_scan I hnd ?_ ⟨hs, fun q _ ↦ hcount q⟩
    rintro visited s' p hp hnot ⟨hs', hcount'⟩
    refine ⟨hs'.bright (by decide) (hbright p hp) (hcount' p hnot), fun q hq ↦ ?_⟩
    rw [List.mem_append, List.mem_singleton, not_or] at hq
    rw [testPixel_count, Mat.set_of_ne _ _ hq.2]
    exact hcount' q hq.1
  exact hend.1

/-- Dark pixels draw two each. -/
theorem untouched_dark {cells : List (Fin rows × Fin cols)} (hnd : cells.Nodup)
    (hlength : cells.length ≤ 16) {image : Mat rows cols}
    (hdark : ∀ q ∈ cells, image q.1 q.2 = 0) {s : ViBe_BGS rows cols × ℕ} (hs : Untouched 0 s) :
    Untouched (2 * cells.length) (cells.foldl (testPixel cvRNG image) s) := by
  refine Scan.foldl_scan (fun visited s' ↦ visited.length ≤ 16 → Untouched (2 * visited.length) s')
    hnd ?_ (fun _ ↦ hs) hlength
  intro visited s' p hp _ hs' hvisited
  rw [List.length_append, List.length_singleton] at hvisited ⊢
  exact (hs' (by omega)).dark (by omega) (hdark p hp)

/-- A dark frame, and one in which only the 16 pixels before `p`, and those after it, are dark. -/
def darkBefore (p : Fin rows × Fin cols) : ℕ → Mat rows cols
  | 0 => Mat.zeros
  | _ + 1 => fun i j ↦ if (i, j) ∈ (before p).take ((before p).length - 16) then 255 else 0

theorem untouched_first (p : Fin rows × Fin cols) :
    Untouched 0 (after cvRNG (fun _ ↦ defaultState) (darkBefore p) 0, defaultState) := by
  refine ⟨fun n i j ↦ ?_, rfl⟩
  obtain ⟨r, c, -, -, heq⟩ :=
    processFirstFrame_samples (R := cvRNG) init defaultState (darkBefore p 0) n (i, j)
  exact heq

/-- **The pixel after 16 dark ones** is refreshed. -/
theorem untouched_visit {p : Fin rows × Fin cols} (hp : 16 ≤ (before p).length) :
    Untouched 32 (visit cvRNG (fun _ ↦ defaultState) (darkBefore p) p 0) := by
  let bright := (before p).take ((before p).length - 16)
  let dark := (before p).drop ((before p).length - 16)
  have hsplit : before p = bright ++ dark := (List.take_append_drop _ _).symm
  have hnd : (bright ++ dark).Nodup := hsplit ▸ nodup_before p
  have hlength : dark.length = 16 := by
    rw [List.length_drop]
    omega
  have hbright : Untouched 0 (bright.foldl (testPixel cvRNG (darkBefore p 1))
      (after cvRNG (fun _ ↦ defaultState) (darkBefore p) 0, defaultState)) := by
    refine untouched_bright hnd.of_append_left (fun q hq ↦ if_pos hq) (untouched_first p) ?_
    intro q
    exact congrFun (congrFun (processFirstFrame_count init defaultState (darkBefore p 0)) q.1) q.2
  have himage : ∀ q ∈ dark, darkBefore p 1 q.1 q.2 = 0 := fun q hq ↦
    if_neg fun hmem ↦ List.disjoint_of_nodup_append hnd hmem hq
  have hdark := untouched_dark hnd.of_append_right hlength.le himage hbright
  rw [hlength, ← List.foldl_append, ← hsplit] at hdark
  exact hdark

/-- **A pixel can be refreshed exactly if there are 16 pixels before it.** -/
theorem refreshable_iff (p : Fin rows × Fin cols) :
    Refreshable p ↔ 16 ≤ (p.1 : ℕ) * cols + p.2 := by
  rw [← length_before]
  constructor
  · rintro ⟨frames, last, -, t, -, hrefreshes⟩
    by_contra hfew
    exact not_refreshes (Nat.lt_of_not_le hfew) frames t hrefreshes
  · intro hp
    have hvisit := untouched_visit hp
    have hself : darkBefore p 1 p.1 p.2 = 0 := by
      obtain ⟨-, -, hnot, -⟩ := raster_eq p
      exact if_neg fun hmem ↦ hnot (List.mem_of_mem_take hmem)
    have hmatch := hvisit.matches hself
    refine ⟨darkBefore p, 1, fun t ht ↦ ?_, 0, Nat.one_pos, hmatch, ?_⟩
    · obtain rfl : t = 0 := by omega
      rw [mask_after]
      exact if_pos hmatch
    · rw [hvisit.state]
      exact fires_32

/-- The only pixel of an image is never refreshed. -/
theorem not_refreshable :
    ¬∀ (rows cols : ℕ) (p : Fin rows × Fin cols), Refreshable p := by
  intro h
  obtain ⟨frames, last, -, t, -, hrefreshes⟩ := h 1 1 (0, 0)
  refine not_refreshes ?_ frames t hrefreshes
  rw [length_before]
  decide

end ViBe_BGS

end CodeToolKit.ViBe
