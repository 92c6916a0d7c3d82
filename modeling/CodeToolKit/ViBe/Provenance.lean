import CodeToolKit.Lib.Scan
import CodeToolKit.ViBe.Model
import Mathlib.Data.List.ProdSigma

/-!
# Where the samples come from

Every sample of a pixel is a value that some frame so far has at the pixel or next to
it: `Provenance`, stated over any set of values seen at the positions.  The first frame
establishes it and a visit of `testPixel` keeps it, with the value of the visited pixel
added to what was seen.

So at the moment a pixel is tested its samples come from the earlier frames and from the
pixels of the current frame that were visited before, which do not include the pixel
itself.  That is why `after_provenance` may leave the pixel's own value out where it
concludes that the pixel is foreground.
-/

namespace CodeToolKit.ViBe

open CodeToolKit.Lib

/-- At most one row, or column, apart. -/
def Near {n : ℕ} (i r : Fin n) : Prop := ((r : ℤ) - i).natAbs ≤ 1

instance instDecidableNear {n : ℕ} (i r : Fin n) : Decidable (Near i r) :=
  inferInstanceAs (Decidable (((r : ℤ) - i).natAbs ≤ 1))

/-- Which values were seen at which positions. -/
abbrev Seen (rows cols : ℕ) := Fin rows → Fin cols → UInt8 → Prop

/-- What the frames up to `t` show. -/
def Seen.upTo {rows cols : ℕ} (frames : ℕ → Mat rows cols) (t : ℕ) : Seen rows cols :=
  fun r c v ↦ ∃ s ≤ t, v = frames s r c

/-- What the frames before `t` and the visited pixels of frame `t` show. -/
def Seen.during {rows cols : ℕ} (frames : ℕ → Mat rows cols) (t : ℕ)
    (visited : List (Fin rows × Fin cols)) : Seen rows cols :=
  fun r c v ↦ ∃ s ≤ t, (s = t → (r, c) ∈ visited) ∧ v = frames s r c

/-- Every sample was seen at its pixel or next to it. -/
def Provenance {rows cols : ℕ} (S : Seen rows cols) (b : ViBe_BGS rows cols) : Prop :=
  ∀ k i j, ∃ r c, Near i r ∧ Near j c ∧ S r c (b.m_samples k i j)

variable {rows cols : ℕ} {σ : Type} {R : RNG σ}

/-! ## Positions -/

theorem Near.symm {n : ℕ} {i r : Fin n} (h : Near i r) : Near r i := by
  unfold Near at h ⊢
  omega

theorem Near.refl {n : ℕ} (i : Fin n) : Near i i := by
  unfold Near
  omega

/-- Clamping does not move an index further away. -/
theorem near_clamp {n : ℕ} (i : Fin n) {off : ℤ} (hoff : off.natAbs ≤ 1) :
    Near i (clamp i off) := by
  have hi := i.isLt
  unfold Near clamp
  dsimp only
  split_ifs <;> omega

theorem near_row {n : ℕ} (i : Fin n) (random : Fin 9) : Near i (clamp i (c_yoff random)) := by
  apply near_clamp
  revert random
  decide

theorem near_col {n : ℕ} (j : Fin n) (random : Fin 9) : Near j (clamp j (c_xoff random)) := by
  apply near_clamp
  revert random
  decide

theorem mem_raster (p : Fin rows × Fin cols) : p ∈ raster rows cols :=
  List.mem_product.mpr ⟨List.mem_finRange _, List.mem_finRange _⟩

theorem nodup_raster : (raster rows cols).Nodup :=
  (List.nodup_finRange rows).product (List.nodup_finRange cols)

/-! ## The steps -/

namespace ViBe_BGS

/-- `setSample` writes one sample of one pixel. -/
theorem setSample_cases (b : ViBe_BGS rows cols) (k k' : Fin NUM_SAMPLES) (i i' : Fin rows)
    (j j' : Fin cols) (v : UInt8) :
    k' = k ∧ (i', j') = (i, j) ∧ (b.setSample k i j v).m_samples k' i' j' = v ∨
      ¬ (k' = k ∧ (i', j') = (i, j)) ∧
        (b.setSample k i j v).m_samples k' i' j' = b.m_samples k' i' j' := by
  unfold setSample
  dsimp only
  by_cases hk : k' = k
  · subst hk
    rw [Function.update_self]
    by_cases hp : (i', j') = (i, j)
    · cases hp
      exact .inl ⟨rfl, rfl, Mat.set_same _ _ _ _⟩
    · exact .inr ⟨fun h ↦ hp h.2, Mat.set_of_ne _ _ hp⟩
  · right
    refine ⟨fun h ↦ hk h.1, ?_⟩
    rw [Function.update_of_ne hk]

/-- From `b` to `b'` the pixel `p` with value `v` may have replaced samples of its
neighbourhood, and nothing else has changed in the samples and the mask. -/
structure Replaces (p : Fin rows × Fin cols) (v : UInt8) (b b' : ViBe_BGS rows cols) : Prop where
  mask : b'.m_mask = b.m_mask
  samples : ∀ k i j, b'.m_samples k i j = b.m_samples k i j ∨
    b'.m_samples k i j = v ∧ Near i p.1 ∧ Near j p.2

theorem Replaces.refl (p : Fin rows × Fin cols) (v : UInt8) (b : ViBe_BGS rows cols) :
    Replaces p v b b := ⟨rfl, fun _ _ _ ↦ .inl rfl⟩

theorem Replaces.trans {p : Fin rows × Fin cols} {v : UInt8} {b b' b'' : ViBe_BGS rows cols}
    (h : Replaces p v b b') (h' : Replaces p v b' b'') : Replaces p v b b'' := by
  refine ⟨h'.mask.trans h.mask, ?_⟩
  intro k i j
  rcases h'.samples k i j with he | he
  · rw [he]
    exact h.samples k i j
  · exact .inr he

theorem replaces_setSample (p : Fin rows × Fin cols) (v : UInt8) (b : ViBe_BGS rows cols)
    (k : Fin NUM_SAMPLES) {i : Fin rows} {j : Fin cols} (hi : Near i p.1) (hj : Near j p.2) :
    Replaces p v b (b.setSample k i j v) := by
  refine ⟨rfl, ?_⟩
  intro k' i' j'
  rcases setSample_cases b k k' i i' j j' v with ⟨-, hp, he⟩ | ⟨-, he⟩
  · cases hp
    exact .inr ⟨he, hi, hj⟩
  · exact .inl he

theorem replaces_replaceOwn (image : Mat rows cols) (p : Fin rows × Fin cols)
    (s : ViBe_BGS rows cols × σ) :
    Replaces p (image p.1 p.2) s.1 (replaceOwn R image p s).1 := by
  unfold replaceOwn
  dsimp only
  split
  · exact replaces_setSample p _ _ _ (.refl _) (.refl _)
  · exact .refl _ _ _

theorem replaces_replaceNeighbour (image : Mat rows cols) (p : Fin rows × Fin cols)
    (s : ViBe_BGS rows cols × σ) :
    Replaces p (image p.1 p.2) s.1 (replaceNeighbour R image p s).1 := by
  unfold replaceNeighbour
  dsimp only
  split
  · exact replaces_setSample p _ _ _ (near_row _ _).symm (near_col _ _).symm
  · exact .refl _ _ _

/-- What the visit of a pixel can do: it sets the mask of the pixel by the outcome of the
test, and may replace samples of the neighbourhood. -/
theorem replaces_testPixel (image : Mat rows cols) (s : ViBe_BGS rows cols × σ)
    (p : Fin rows × Fin cols) :
    ∃ b, b.m_samples = s.1.m_samples ∧
      b.m_mask = s.1.m_mask.set p.1 p.2 (if MIN_MATCHES ≤ s.1.matched image p then 0 else 255) ∧
      Replaces p (image p.1 p.2) b (testPixel R image s p).1 := by
  unfold testPixel
  dsimp only
  split
  · refine ⟨s.1.setBackground p, rfl, rfl, ?_⟩
    have hown := replaces_replaceOwn (R := R) image p (s.1.setBackground p, s.2)
    exact hown.trans (replaces_replaceNeighbour image p _)
  · refine ⟨s.1.setForeground p, rfl, rfl, ?_⟩
    split
    · exact replaces_replaceOwn image p (s.1.setForeground p, s.2)
    · exact .refl _ _ _

/-- The mask after the visit of a pixel. -/
theorem testPixel_mask (image : Mat rows cols) (s : ViBe_BGS rows cols × σ)
    (p : Fin rows × Fin cols) :
    (testPixel R image s p).1.m_mask =
      s.1.m_mask.set p.1 p.2 (if MIN_MATCHES ≤ s.1.matched image p then 0 else 255) := by
  obtain ⟨b, -, hmask, hr⟩ := replaces_testPixel (R := R) image s p
  rw [hr.mask, hmask]

end ViBe_BGS

open ViBe_BGS

/-! ## Provenance -/

theorem Provenance.mono {S S' : Seen rows cols} {b : ViBe_BGS rows cols}
    (hS : ∀ r c v, S r c v → S' r c v) (h : Provenance S b) : Provenance S' b := by
  intro k i j
  obtain ⟨r, c, hr, hc, hs⟩ := h k i j
  exact ⟨r, c, hr, hc, hS r c _ hs⟩

/-- Where the scan of the next frame starts. -/
theorem Provenance.during {frames : ℕ → Mat rows cols} {t : ℕ} {b : ViBe_BGS rows cols}
    (h : Provenance (Seen.upTo frames t) b) : Provenance (Seen.during frames (t + 1) []) b := by
  refine h.mono ?_
  rintro r c v ⟨s, hs, hv⟩
  exact ⟨s, Nat.le_succ_of_le hs, fun he ↦ by omega, hv⟩

/-- **Step.**  The visit of a pixel adds the value of the pixel to what was seen. -/
theorem Provenance.testPixel {frames : ℕ → Mat rows cols} {t : ℕ}
    {visited : List (Fin rows × Fin cols)} {s : ViBe_BGS rows cols × σ}
    (h : Provenance (Seen.during frames t visited) s.1) (p : Fin rows × Fin cols) :
    Provenance (Seen.during frames t (visited ++ [p])) (testPixel R (frames t) s p).1 := by
  obtain ⟨b, hb, -, hrepl⟩ := replaces_testPixel (R := R) (frames t) s p
  intro k i j
  rcases hrepl.samples k i j with he | ⟨he, hi, hj⟩
  · obtain ⟨r, c, hr, hc, s', hs', hvis, hv⟩ := h k i j
    rw [he, hb]
    exact ⟨r, c, hr, hc, s', hs', fun ht ↦ List.mem_append_left _ (hvis ht), hv⟩
  · rw [he]
    exact ⟨p.1, p.2, hi, hj, t, le_rfl, fun _ ↦ by simp, rfl⟩

/-- Every sample is taken with one number for the row and the column. -/
theorem initPixel_sampled (image : Mat rows cols) (s : ViBe_BGS rows cols × σ)
    (p : Fin rows × Fin cols) (k : Fin NUM_SAMPLES) :
    ∃ g, (initPixel R image s p).1.m_samples k p.1 p.2 =
      image (clamp p.1 (c_yoff (R.uniform g 9).1)) (clamp p.2 (c_xoff (R.uniform g 9).1)) := by
  let P : ViBe_BGS rows cols × σ → Prop := fun s ↦ ∃ g, s.1.m_samples k p.1 p.2 =
    image (clamp p.1 (c_yoff (R.uniform g 9).1)) (clamp p.2 (c_xoff (R.uniform g 9).1))
  show P ((List.finRange NUM_SAMPLES).foldl (initSample R image p) s)
  refine Scan.foldl_at (fun _ _ ↦ True) (fun _ _ _ _ ↦ trivial) (List.nodup_finRange NUM_SAMPLES)
    (List.mem_finRange k) trivial ?_ ?_
  · intro _ s _ _
    refine ⟨s.2, ?_⟩
    rcases setSample_cases s.1 k k p.1 p.1 p.2 p.2
      (image (clamp p.1 (c_yoff (R.uniform s.2 9).1)) (clamp p.2 (c_xoff (R.uniform s.2 9).1)))
      with ⟨-, -, heq⟩ | ⟨hne, -⟩
    · exact heq
    · exact absurd ⟨rfl, rfl⟩ hne
  · rintro s k' hk' ⟨g, hg⟩
    refine ⟨g, ?_⟩
    rcases setSample_cases s.1 k' k p.1 p.1 p.2 p.2
      (image (clamp p.1 (c_yoff (R.uniform s.2 9).1)) (clamp p.2 (c_xoff (R.uniform s.2 9).1)))
      with ⟨hk, -, -⟩ | ⟨-, heq⟩
    · exact absurd hk.symm hk'
    · exact heq.trans hg

/-- The samples of another pixel. -/
theorem initPixel_of_ne (image : Mat rows cols) (s : ViBe_BGS rows cols × σ)
    {p q : Fin rows × Fin cols} (hne : q ≠ p) (k : Fin NUM_SAMPLES) :
    (initPixel R image s p).1.m_samples k q.1 q.2 = s.1.m_samples k q.1 q.2 := by
  refine Scan.foldl_keeps (P := fun s' : ViBe_BGS rows cols × σ ↦
    s'.1.m_samples k q.1 q.2 = s.1.m_samples k q.1 q.2) ?_ s rfl
  intro s' k' _ hs'
  rcases setSample_cases s'.1 k' k p.1 q.1 p.2 q.2
    (image (clamp p.1 (c_yoff (R.uniform s'.2 9).1)) (clamp p.2 (c_xoff (R.uniform s'.2 9).1)))
    with ⟨-, hqp, -⟩ | ⟨-, heq⟩
  · exact absurd hqp hne
  · exact heq.trans hs'

theorem processFirstFrame_sampled (b : ViBe_BGS rows cols) (rng : σ) (image : Mat rows cols)
    (k : Fin NUM_SAMPLES) (p : Fin rows × Fin cols) :
    ∃ g, (processFirstFrame R b rng image).m_samples k p.1 p.2 =
      image (clamp p.1 (c_yoff (R.uniform g 9).1)) (clamp p.2 (c_xoff (R.uniform g 9).1)) := by
  let P : ViBe_BGS rows cols × σ → Prop := fun s ↦ ∃ g, s.1.m_samples k p.1 p.2 =
    image (clamp p.1 (c_yoff (R.uniform g 9).1)) (clamp p.2 (c_xoff (R.uniform g 9).1))
  show P ((raster rows cols).foldl (initPixel R image) (b, rng))
  refine Scan.foldl_at (fun _ _ ↦ True) (fun _ _ _ _ ↦ trivial) nodup_raster (mem_raster p)
    trivial ?_ ?_
  · intro _ s _ _
    exact initPixel_sampled image s p k
  · rintro s q hq ⟨g, hg⟩
    exact ⟨g, (initPixel_of_ne image s (Ne.symm hq) k).trans hg⟩

/-- The first frame fills every sample with a value of its neighbourhood. -/
theorem processFirstFrame_samples (b : ViBe_BGS rows cols) (rng : σ) (image : Mat rows cols)
    (k : Fin NUM_SAMPLES) (p : Fin rows × Fin cols) :
    ∃ r c, Near p.1 r ∧ Near p.2 c ∧
      (processFirstFrame R b rng image).m_samples k p.1 p.2 = image r c := by
  obtain ⟨g, hg⟩ := processFirstFrame_sampled (R := R) b rng image k p
  exact ⟨_, _, near_row _ _, near_col _ _, hg⟩

/-- **Run.**  After every frame the samples come from the frames so far. -/
theorem provenance_after (rng : ℕ → σ) (frames : ℕ → Mat rows cols) (t : ℕ) :
    Provenance (Seen.upTo frames t) (after R rng frames t) := by
  induction t with
  | zero =>
      intro k i j
      obtain ⟨r, c, hr, hc, he⟩ :=
        processFirstFrame_samples (R := R) init (rng 0) (frames 0) k (i, j)
      exact ⟨r, c, hr, hc, 0, le_rfl, he⟩
  | succ t ih =>
      have hend := Scan.foldl_invariant
        (fun visited s ↦ Provenance (Seen.during frames (t + 1) visited) s.1)
        (fun _ p _ h ↦ h.testPixel (R := R) p) (raster rows cols) []
        (after R rng frames t, rng (t + 1)) ih.during
      refine hend.mono ?_
      rintro r c v ⟨s, hs, -, hv⟩
      exact ⟨s, hs, hv⟩

/-! ## The mask -/

/-- The loop counts matches up to `MIN_MATCHES`. -/
theorem matchLoop_eq (near : Fin NUM_SAMPLES → Bool) (rest : List (Fin NUM_SAMPLES)) (m : ℕ)
    (hm : m ≤ MIN_MATCHES) : matchLoop near rest m = min MIN_MATCHES (m + rest.countP near) := by
  induction rest generalizing m with
  | nil =>
      rw [matchLoop, List.countP_nil, Nat.add_zero, Nat.min_eq_right hm]
  | cons count rest ih =>
      rw [matchLoop, List.countP_cons]
      by_cases hlt : m < MIN_MATCHES
      · rw [if_pos hlt]
        cases near count with
        | true =>
            rw [if_pos rfl, if_pos rfl, ih (m + 1) hlt]
            congr 1
            omega
        | false =>
            rw [if_neg Bool.false_ne_true, if_neg Bool.false_ne_true, ih m hm, Nat.add_zero]
      · rw [if_neg hlt]
        omega

/-- A pixel that is close to all of its samples passes the test. -/
theorem le_matched {b : ViBe_BGS rows cols} {image : Mat rows cols} {p : Fin rows × Fin cols}
    (h : ∀ k, dist (b.m_samples k p.1 p.2) (image p.1 p.2) < RADIUS) :
    MIN_MATCHES ≤ b.matched image p := by
  unfold matched
  rw [matchLoop_eq _ _ _ (Nat.zero_le _), List.countP_eq_length.mpr fun k _ ↦ decide_eq_true (h k)]
  decide

/-- A pixel that is close to none of its samples fails the test. -/
theorem matched_lt {b : ViBe_BGS rows cols} {image : Mat rows cols} {p : Fin rows × Fin cols}
    (h : ∀ k, RADIUS ≤ dist (b.m_samples k p.1 p.2) (image p.1 p.2)) :
    ¬ MIN_MATCHES ≤ b.matched image p := by
  unfold matched
  have hnone : (List.finRange NUM_SAMPLES).countP
      (fun k ↦ decide (dist (b.m_samples k p.1 p.2) (image p.1 p.2) < RADIUS)) = 0 :=
    List.countP_eq_zero.mpr fun k _ ↦ by simpa using h k
  rw [matchLoop_eq _ _ _ (Nat.zero_le _), hnone]
  decide

/-- The mask of a pixel is decided by its test, at which the samples come from what was
seen without the pixel's own value. -/
theorem mask_of_tested {rng : ℕ → σ} {frames : ℕ → Mat rows cols} {t : ℕ}
    {p : Fin rows × Fin cols} {v : UInt8}
    (h : ∀ visited b, p ∉ visited → Provenance (Seen.during frames (t + 1) visited) b →
      (if MIN_MATCHES ≤ b.matched (frames (t + 1)) p then (0 : UInt8) else 255) = v) :
    (after R rng frames (t + 1)).m_mask p.1 p.2 = v := by
  have hstart := (provenance_after (R := R) rng frames t).during
  let P : ViBe_BGS rows cols × σ → Prop := fun s ↦ s.1.m_mask p.1 p.2 = v
  show P ((raster rows cols).foldl (testPixel R (frames (t + 1)))
    (after R rng frames t, rng (t + 1)))
  refine Scan.foldl_at (fun visited s ↦ Provenance (Seen.during frames (t + 1) visited) s.1)
    (fun _ q _ hs ↦ hs.testPixel (R := R) q) nodup_raster (mem_raster p) hstart ?_ ?_
  · intro visited s hp hs
    show (testPixel R (frames (t + 1)) s p).1.m_mask p.1 p.2 = v
    rw [testPixel_mask, Mat.set_same]
    exact h visited s.1 hp hs
  · intro s q hq hs
    show (testPixel R (frames (t + 1)) s q).1.m_mask p.1 p.2 = v
    rw [testPixel_mask, Mat.set_of_ne _ _ (Ne.symm hq)]
    exact hs

/-- **Provenance.**  After frame `t` every sample is a value of some frame so far, at its
pixel or next to it.  From frame `1` on a pixel close to all such values is background,
and a pixel close to none of them, its own new value left aside, is foreground. -/
theorem after_provenance (rng : ℕ → σ) (frames : ℕ → Mat rows cols) (t : ℕ) :
    (∀ k i j, ∃ s ≤ t, ∃ r c, Near i r ∧ Near j c ∧
      (after R rng frames t).m_samples k i j = frames s r c) ∧
    (1 ≤ t → ∀ i j,
      ((∀ s ≤ t, ∀ r c, Near i r → Near j c → dist (frames s r c) (frames t i j) < RADIUS) →
        (after R rng frames t).m_mask i j = 0) ∧
      ((∀ s ≤ t, ∀ r c, Near i r → Near j c → (s, r, c) ≠ (t, i, j) →
          RADIUS ≤ dist (frames s r c) (frames t i j)) →
        (after R rng frames t).m_mask i j = 255)) := by
  constructor
  · intro k i j
    obtain ⟨r, c, hr, hc, s, hs, he⟩ := provenance_after (R := R) rng frames t k i j
    exact ⟨s, hs, r, c, hr, hc, he⟩
  · intro ht i j
    obtain ⟨t, rfl⟩ := Nat.exists_eq_add_of_le' ht
    constructor
    · intro hclose
      apply mask_of_tested (p := (i, j))
      intro visited b _ hb
      apply if_pos
      apply le_matched
      intro k
      obtain ⟨r, c, hr, hc, s, hs, -, he⟩ := hb k i j
      rw [he]
      exact hclose s hs r c hr hc
    · intro hfar
      apply mask_of_tested (p := (i, j))
      intro visited b hp hb
      apply if_neg
      apply matched_lt
      intro k
      obtain ⟨r, c, hr, hc, s, hs, hvis, he⟩ := hb k i j
      rw [he]
      apply hfar s hs r c hr hc
      -- the pixel itself has not been visited in this frame
      intro hself
      cases hself
      exact hp (hvis rfl)

/-- A generator that counts. -/
def counter : RNG ℕ where
  uniform s n := (Fin.ofNat n s, s + 1)

/-- Three pixels, dark in frame `0`; then the last one is bright. -/
def turnsBright : ℕ → Mat 1 3
  | 0, _, _ => 7
  | _ + 1, _, j => if j = 2 then 100 else 10

/-- The first pixel is background, and its new value replaces a sample. -/
theorem replaced_turnsBright :
    (after counter (fun _ ↦ 0) turnsBright 1).m_samples 1 0 0 = turnsBright 1 0 0 := by
  decide +kernel

theorem after_provenance_turnsBright :
    (∃ s ≤ 1, ∃ r c, Near 0 r ∧ Near 0 c ∧
      (after counter (fun _ ↦ 0) turnsBright 1).m_samples 1 0 0 = turnsBright s r c) ∧
    (after counter (fun _ ↦ 0) turnsBright 1).m_samples 1 0 0 ≠ turnsBright 0 0 0 ∧
    (after counter (fun _ ↦ 0) turnsBright 1).m_mask 0 0 = 0 ∧
    (after counter (fun _ ↦ 0) turnsBright 1).m_mask 0 2 = 255 := by
  have h := after_provenance (R := counter) (fun _ ↦ 0) turnsBright 1
  refine ⟨h.1 1 0 0, ?_, (h.2 le_rfl 0 0).1 ?_, (h.2 le_rfl 0 2).2 ?_⟩
  · rw [replaced_turnsBright]
    decide
  · rintro (_ | _ | s) hs r c - hc
    · show dist 7 10 < RADIUS
      decide
    · have hne : c ≠ 2 := by
        rintro rfl
        exact absurd hc (by decide)
      show dist (if c = 2 then 100 else 10) 10 < RADIUS
      rw [if_neg hne]
      decide
    · omega
  · rintro (_ | _ | s) hs r c - - hself
    · show RADIUS ≤ dist 7 100
      decide
    · have hne : c ≠ 2 := fun hc ↦ hself (by rw [hc, Subsingleton.elim r 0])
      show RADIUS ≤ dist (if c = 2 then 100 else 10) 100
      rw [if_neg hne]
      decide
    · omega

end CodeToolKit.ViBe
