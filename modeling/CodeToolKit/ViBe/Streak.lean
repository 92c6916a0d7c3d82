import CodeToolKit.ViBe.Visits

/-!
# The streak of a foreground pixel

`m_foregroundMatchCount` counts the consecutive frames in which a pixel was foreground, so that one
that is foreground in more than 50 of them is taken into the background by chance.  The count is a
`uchar` that is incremented without a bound, and so it is the streak up to multiples of 256
(`count_after`).
-/

namespace CodeToolKit.ViBe

open CodeToolKit.Lib

variable {rows cols : ℕ} {σ : Type}

/-- A generator that counts how many numbers were drawn from it. -/
def RNG.counted (R : RNG σ) : RNG (σ × ℕ) where
  uniform s n := ((R.uniform s.1 n).1, (R.uniform s.1 n).2, s.2 + 1)

namespace ViBe_BGS

section

variable (R : RNG σ) (rng : ℕ → σ) (frames : ℕ → Mat rows cols) (p : Fin rows × Fin cols)

/-- How many numbers are drawn at the visit of a pixel in frame `t + 1`. -/
def drawn (t : ℕ) : ℕ :=
  (testPixel R.counted (frames (t + 1)) ((visit R rng frames p t).1, (visit R rng frames p t).2, 0)
    p).2.2

/-- In how many consecutive frames up to frame `t` a pixel was foreground. -/
def streak : ℕ → ℕ
  | 0 => 0
  | t + 1 => if (after R rng frames (t + 1)).m_mask p.1 p.2 = 0 then 0 else streak t + 1

/-- In how many consecutive frames up to frame `t` a pixel failed its test. -/
def failed : ℕ → ℕ
  | 0 => 0
  | t + 1 =>
      if MIN_MATCHES ≤ (visit R rng frames p t).1.matched (frames (t + 1)) p then 0
      else failed t + 1

/-- The count of frame `t + 1` is zero for a background pixel only, and a foreground pixel draws a
number, for the update of its samples, exactly if it was foreground in more than 50 frames. -/
structure CountsStreak (t : ℕ) : Prop where
  count : (after R rng frames (t + 1)).m_foregroundMatchCount p.1 p.2 = 0 ↔
    (after R rng frames (t + 1)).m_mask p.1 p.2 = 0
  offered : (after R rng frames (t + 1)).m_mask p.1 p.2 = 255 →
    (0 < drawn R rng frames p t ↔ 50 < streak R rng frames p (t + 1))

end

variable {R : RNG σ} {rng : ℕ → σ} {frames : ℕ → Mat rows cols} {p : Fin rows × Fin cols}

/-! ## The count -/

/-- A pixel is foreground when it fails its test. -/
theorem streak_eq_failed (t : ℕ) : streak R rng frames p t = failed R rng frames p t := by
  induction t with
  | zero => rfl
  | succ t ih =>
      rw [streak, failed, mask_after, ih]
      by_cases hmatch : MIN_MATCHES ≤ (visit R rng frames p t).1.matched (frames (t + 1)) p
      · rw [if_pos hmatch, if_pos rfl, if_pos hmatch]
      · rw [if_neg hmatch, if_neg (by decide), if_neg hmatch]

/-- **The count is the streak, up to multiples of 256.** -/
theorem count_after (t : ℕ) :
    (after R rng frames t).m_foregroundMatchCount p.1 p.2 =
      UInt8.ofNat (failed R rng frames p t) := by
  induction t with
  | zero => exact congrFun (congrFun (processFirstFrame_count init (rng 0) (frames 0)) p.1) p.2
  | succ t ih =>
      rw [after, (testAndUpdate_at _ _ _ p).2, failed, ih, visit]
      split
      · rfl
      · rw [UInt8.ofNat_add]
        rfl

theorem ofNat_eq_zero_iff (n : ℕ) : UInt8.ofNat n = 0 ↔ n % 256 = 0 := by
  rw [← UInt8.toNat_inj, UInt8.toNat_ofNat']
  rfl

theorem lt_ofNat_iff (n : ℕ) : UInt8.ofNat n > 50 ↔ 50 < n % 256 := by
  rw [gt_iff_lt, UInt8.lt_iff_toNat_lt, UInt8.toNat_ofNat']
  rfl

/-! ## The numbers that are drawn -/

/-- Where the absorbing update is made, a number is drawn for it. -/
theorem replaceOwn_draws (image : Mat rows cols) (s : ViBe_BGS rows cols × σ × ℕ) :
    s.2.2 < (replaceOwn R.counted image p s).2.2 := by
  unfold replaceOwn
  dsimp only
  split
  · exact Nat.lt_succ_of_lt (Nat.lt_succ_self _)
  · exact Nat.lt_succ_self _

/-- The visit of a foreground pixel. -/
theorem drawn_pos_iff {t : ℕ}
    (hmatch : ¬MIN_MATCHES ≤ (visit R rng frames p t).1.matched (frames (t + 1)) p) :
    0 < drawn R rng frames p t ↔ 50 < failed R rng frames p (t + 1) % 256 := by
  have hcount : ((visit R rng frames p t).1.setForeground p).m_foregroundMatchCount p.1 p.2 =
      UInt8.ofNat (failed R rng frames p (t + 1)) := by
    have hat : (visit R rng frames p t).1.m_foregroundMatchCount p.1 p.2 = _ :=
      atVisit_count _ _ _ p
    rw [failed, if_neg hmatch, UInt8.ofNat_add, ← count_after, ← hat]
    exact Mat.set_same _ _ _ _
  rw [← lt_ofNat_iff, ← hcount, drawn, testPixel, if_neg hmatch]
  dsimp only
  split
  · rename_i hlong
    exact iff_of_true (Nat.lt_of_le_of_lt (Nat.zero_le _) (replaceOwn_draws _ _)) hlong
  · rename_i hshort
    exact iff_of_false (lt_irrefl 0) hshort

/-- **The streak is counted correctly exactly if it is at most 50, or more than that up to
multiples of 256.** -/
theorem countsStreak_iff (R : RNG σ) (rng : ℕ → σ) (frames : ℕ → Mat rows cols)
    (p : Fin rows × Fin cols) (t : ℕ) :
    CountsStreak R rng frames p t ↔
      failed R rng frames p (t + 1) ≤ 50 ∨ 50 < failed R rng frames p (t + 1) % 256 := by
  have hmask := mask_after (R := R) rng frames p t
  by_cases hmatch : MIN_MATCHES ≤ (visit R rng frames p t).1.matched (frames (t + 1)) p
  · rw [if_pos hmatch] at hmask
    have hfailed : failed R rng frames p (t + 1) = 0 := by
      rw [failed, if_pos hmatch]
    refine iff_of_true ⟨?_, ?_⟩ (.inl (by omega))
    · rw [count_after, hfailed, hmask]
      exact iff_of_true rfl rfl
    · rw [hmask]
      exact fun h ↦ absurd h (by decide)
  · rw [if_neg hmatch] at hmask
    have hfailed : 0 < failed R rng frames p (t + 1) := by
      rw [failed, if_neg hmatch]
      exact Nat.succ_pos _
    have hdrawn := drawn_pos_iff hmatch
    constructor
    · intro h
      have hoffered := h.offered hmask
      rw [hdrawn, streak_eq_failed] at hoffered
      omega
    · intro hlong
      refine ⟨?_, fun _ ↦ ?_⟩
      · rw [count_after, ofNat_eq_zero_iff, hmask]
        refine iff_of_false (by omega) (by decide)
      · rw [hdrawn, streak_eq_failed]
        omega

end ViBe_BGS

/-! ## A streak of 256 frames -/

/-- A generator of ones. -/
def ones : RNG Unit where
  uniform _ n := (Fin.ofNat n 1, ())

namespace ViBe_BGS

theorem testPixel_ones (image : Mat rows cols) (s : ViBe_BGS rows cols × Unit)
    (p : Fin rows × Fin cols) : (testPixel ones image s p).1.m_samples = s.1.m_samples := by
  have hown : ∀ s, replaceOwn ones image p s = s := fun _ ↦ rfl
  have hneighbour : ∀ s, replaceNeighbour ones image p s = s := fun _ ↦ rfl
  unfold testPixel
  dsimp only
  rw [hown, hown, hneighbour]
  split
  · rfl
  · split <;> rfl

theorem visit_ones (frames : ℕ → Mat rows cols) (p : Fin rows × Fin cols) (t : ℕ) :
    (visit ones (fun _ ↦ ()) frames p t).1.m_samples =
      (after ones (fun _ ↦ ()) frames 0).m_samples := by
  have hscan : ∀ (cells : List (Fin rows × Fin cols)) (b : ViBe_BGS rows cols)
      (image : Mat rows cols),
      (cells.foldl (testPixel ones image) (b, ())).1.m_samples = b.m_samples := by
    intro cells b image
    refine Scan.foldl_keeps (P := fun s : ViBe_BGS rows cols × Unit ↦
      s.1.m_samples = b.m_samples) ?_ (b, ()) rfl
    intro s q _ hs
    exact (testPixel_ones image s q).trans hs
  refine (hscan _ _ _).trans ?_
  induction t with
  | zero => rfl
  | succ t ih => exact (hscan _ _ _).trans ih

/-- One pixel, dark in frame `0` and bright from then on. -/
def brightens : ℕ → Mat 1 1
  | 0, _, _ => 7
  | _ + 1, _, _ => 100

/-- The bright pixel is foreground from frame `1` on. -/
theorem failed_ones (t : ℕ) : failed ones (fun _ ↦ ()) brightens (0, 0) t = t := by
  induction t with
  | zero => rfl
  | succ t ih =>
      rw [failed, ih, if_neg]
      refine matched_lt fun k ↦ ?_
      obtain ⟨r, c, -, -, heq⟩ :=
        processFirstFrame_samples (R := ones) init () (brightens 0) k (0, 0)
      rw [visit_ones]
      show RADIUS ≤ dist ((processFirstFrame ones init () (brightens 0)).m_samples k 0 0) 100
      rw [heq]
      show RADIUS ≤ dist 7 100
      decide

/-- In its 256th frame in the foreground the count of the bright pixel is zero. -/
theorem not_countsStreak :
    ¬∀ (rows cols : ℕ) (σ : Type) (R : RNG σ) (rng : ℕ → σ) (frames : ℕ → Mat rows cols)
      (p : Fin rows × Fin cols) (t : ℕ), CountsStreak R rng frames p t := by
  intro h
  have hcount := (h 1 1 Unit ones (fun _ ↦ ()) brightens (0, 0) 255).count
  rw [count_after, failed_ones] at hcount
  have hmask := hcount.mp ((ofNat_eq_zero_iff 256).mpr rfl)
  have hstreak : streak ones (fun _ ↦ ()) brightens (0, 0) (255 + 1) = 0 := by
    rw [streak]
    exact if_pos hmask
  rw [streak_eq_failed, failed_ones] at hstreak
  exact absurd hstreak (by decide)

end ViBe_BGS

end CodeToolKit.ViBe
