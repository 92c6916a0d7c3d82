import CodeToolKit.ObjectDetect.Steps

/-!
# The borders of the image

The constructor takes samples of the pixels with `i < g_Height - g_offset`, and `Detect` passes over
those with `i > g_Height - g_offset`, so that it compares the last row and the last column with
samples that were never taken (`comparesSampled_iff`).  In frames of one intensity these are the
pixels that are in the foreground.
-/

namespace CodeToolKit.ObjectDetect

open CodeToolKit.Lib

namespace Vibe

/-! ## The two conditions -/

theorem mem_interior {height width : ℕ} {p : Position} :
    p ∈ (defaults height width).interior ↔
      (1 ≤ p.1 ∧ p.1 < height - 1) ∧ 1 ≤ p.2 ∧ p.2 < width - 1 := mem_positions

/-- The pixels that `Detect` does not pass over. -/
def detected (height width : ℕ) : List Position :=
  (positions 0 height 0 width).filter fun p ↦ !(defaults height width).isSkipped p

theorem mem_detected {height width : ℕ} {p : Position} :
    p ∈ detected height width ↔ (1 ≤ p.1 ∧ p.1 < height) ∧ 1 ≤ p.2 ∧ p.2 < width := by
  have hoffset : (defaults height width).g_offset = 1 := rfl
  have hheight : (defaults height width).g_Height = height := rfl
  have hwidth : (defaults height width).g_Width = width := rfl
  rw [detected, List.mem_filter, mem_positions, Settings.isSkipped, hoffset, hheight, hwidth]
  simp only [Bool.not_eq_true', Bool.or_eq_false_iff, decide_eq_false_iff_not]
  omega

theorem mem_detected_iff_not_isSkipped {height width : ℕ} {v : Settings} {p : Position}
    (hsettings : v = defaults height width) :
    p ∈ detected height width ↔ p ∈ positions 0 height 0 width ∧ ¬v.isSkipped p = true := by
  rw [hsettings, detected, List.mem_filter, Bool.not_eq_true', Bool.not_eq_true]

/-- The last pixel is compared and has no samples. -/
theorem detected_eq_interior_iff {height width : ℕ} :
    {p | p ∈ detected height width} = {p | p ∈ (defaults height width).interior} ↔
      height ≤ 1 ∨ width ≤ 1 := by
  constructor
  · intro heq
    by_contra hlarge
    have hmem : ((height - 1 : ℤ), (width - 1 : ℤ)) ∈ detected height width :=
      mem_detected.mpr ⟨⟨by omega, by omega⟩, by omega, by omega⟩
    exact absurd (mem_interior.mp (heq.le hmem)).1.2 (lt_irrefl _)
  · intro hsmall
    ext p
    rw [Set.mem_ofPred_eq, Set.mem_ofPred_eq, mem_detected, mem_interior]
    omega

/-! ## The comparison of one frame -/

/-- Some visited pixels were compared, and the others are background. -/
structure Compared (F : Settings) (visited : List Position) (v : Vibe) : Prop where
  toSettings : v.toSettings = F
  compared : ∀ q, q ∈ pixelsAt .compare v ↔ q ∈ visited ∧ F.isSkipped q = false
  background : ∀ q, q ∉ pixelsAt .compare v → v.g_ForeImg q = 0

/-- Where a sample and a match are wanted, the first sample is compared. -/
theorem mem_pixelsAt_recorded {v : Vibe} {p q : Position} (hsamples : 1 ≤ v.g_SampleNum)
    (hmatch : 1 ≤ v.g_MinMatch) :
    q ∈ pixelsAt .compare (v.recorded p) ↔ q ∈ pixelsAt .compare v ∨ q = p := by
  have hread : (v.compared p).2 ≠ [] := by
    obtain ⟨k, ks, hks⟩ : ∃ k ks, Int.range 0 v.g_SampleNum = k :: ks :=
      List.exists_cons_of_ne_nil (List.ne_nil_of_mem (Int.mem_range_iff.mpr ⟨le_refl 0, hsamples⟩))
    rw [compared, hks, matchLoop, if_pos (show 0 < v.g_MinMatch from hmatch)]
    exact List.cons_ne_nil _ _
  obtain ⟨k, hk⟩ := List.exists_mem_of_ne_nil _ hread
  refine mem_pixelsAt_record.trans (or_congr Iff.rfl ⟨?_, ?_⟩)
  · rintro ⟨-, k', hk'⟩
    obtain ⟨_, -, heq⟩ := List.mem_map.mp hk'
    exact (Prod.mk.inj heq).2.symm
  · rintro rfl
    exact ⟨rfl, k, List.mem_map_of_mem hk⟩

/-- **Step.** -/
theorem Compared.detectPixel {F : Settings} {visited : List Position} {s : Vibe × Rand}
    (hs : Compared F visited s.1) (hsamples : 1 ≤ F.g_SampleNum) (hmatch : 1 ≤ F.g_MinMatch)
    (p : Position) : Compared F (visited ++ [p]) (detectPixel s p).1 := by
  have hsettings := hs.toSettings
  have hframe := (detectPixel_frame p s).1.trans hsettings
  by_cases hskipped : s.1.isSkipped p
  · have hskipped' : F.isSkipped p = true := hsettings ▸ hskipped
    rcases detectPixel_cases p s with ⟨-, heq⟩ | ⟨h, -⟩ | ⟨h, -⟩
    · refine ⟨hframe, fun q ↦ ?_, fun q hq ↦ ?_⟩
      · rw [heq]
        refine (hs.compared q).trans ?_
        rw [List.mem_append, List.mem_singleton]
        constructor
        · exact fun h ↦ ⟨.inl h.1, h.2⟩
        · rintro ⟨hmem | rfl, hq⟩
          · exact ⟨hmem, hq⟩
          · cases hskipped'.symm.trans hq
      · rw [heq] at hq ⊢
        show Function.update s.1.g_ForeImg p 0 q = 0
        rw [Function.update_apply, hs.background q hq, ite_self]
    · exact absurd hskipped h
    · exact absurd hskipped h
  · have hskipped' : F.isSkipped p = false := Bool.eq_false_of_not_eq_true (hsettings ▸ hskipped)
    have hmem : ∀ q, q ∈ pixelsAt .compare (Vibe.detectPixel s p).1 ↔
        q ∈ pixelsAt .compare s.1 ∨ q = p := by
      intro q
      rw [detectPixel_compared hskipped]
      exact mem_pixelsAt_recorded (hsettings ▸ hsamples) (hsettings ▸ hmatch)
    refine ⟨hframe, fun q ↦ ?_, fun q hq ↦ ?_⟩
    · rw [hmem, hs.compared, List.mem_append, List.mem_singleton, or_and_right]
      refine or_congr Iff.rfl (iff_self_and.mpr ?_)
      rintro rfl
      exact hskipped'
    · rw [hmem, not_or] at hq
      rw [detectPixel_foreImg, Function.update_of_ne hq.2]
      exact hs.background q hq.1

/-- **The loops of `Detect`** compare the pixels that they do not pass over. -/
theorem compared_detectScan {F : Settings} {s : Vibe × Rand} (hs : s.1.toSettings = F)
    (hsamples : 1 ≤ F.g_SampleNum) (hmatch : 1 ≤ F.g_MinMatch) (img : Image) :
    Compared F (positions 0 F.g_Height 0 F.g_Width) (detectScan img s).1 := by
  rw [detectScan]
  dsimp only
  rw [hs]
  refine Scan.foldl_invariant (fun visited (s : Vibe × Rand) ↦ Compared F visited s.1)
    (fun visited p s h ↦ h.detectPixel hsamples hmatch p) _ [] _ ⟨rfl, fun q ↦ ?_, fun _ _ ↦ rfl⟩
  refine iff_of_false ?_ fun h ↦ List.not_mem_nil h.1
  rintro ⟨k, hk⟩
  cases hk

/-! ## Frames of one intensity -/

/-- The image has the value `value` everywhere. -/
def IsConst (height width : ℕ) (value : UInt8) (img : Image) : Prop :=
  ∀ p ∈ positions 0 height 0 width, img p = value

/-- The samples when all frames have the same intensity. -/
structure Even (height width : ℕ) (value : UInt8) (v : Vibe) : Prop where
  toSettings : v.toSettings = defaults height width
  values : ∀ k ∈ Int.range 0 20, ∀ q, v.g_Model (k, q) = 0 ∨ v.g_Model (k, q) = value
  interior : ∀ q ∈ (defaults height width).interior, ∀ k ∈ Int.range 0 20, v.g_Model (k, q) = value
  border : ¬value < 20 → ∀ q ∈ detected height width, q ∉ (defaults height width).interior →
    ∀ k, v.g_Model (k, q) = 0

section

variable {height width : ℕ} {value : UInt8} {img : Image} {v : Vibe} {p : Position}

theorem mem_positions_of_interior (hp : p ∈ (defaults height width).interior) :
    p ∈ positions 0 height 0 width := by
  rw [mem_interior] at hp
  rw [mem_positions]
  omega

/-- What is drawn near a pixel of the interior is no border that is detected. -/
theorem interior_of_getRandomPosition (hp : p ∈ (defaults height width).interior) {r r' : Draw}
    (hq : getRandomPosition 1 p r r' ∈ detected height width) :
    getRandomPosition 1 p r r' ∈ (defaults height width).interior := by
  have hrow := getRandomNear_bounds le_rfl p.1 r
  have hcol := getRandomNear_bounds le_rfl p.2 r'
  rw [mem_interior] at hp
  rw [mem_detected] at hq
  rw [mem_interior]
  show (_ ∧ getRandomNear 1 p.1 r < _) ∧ _ ∧ getRandomNear 1 p.2 r' < _
  exact ⟨⟨hq.1.1, by omega⟩, hq.2.1, by omega⟩

theorem getRandomPosition_mem (hp : p ∈ (defaults height width).interior) (r r' : Draw) :
    getRandomPosition 1 p r r' ∈ positions 0 height 0 width := by
  have hrow := getRandomNear_bounds le_rfl p.1 r
  have hcol := getRandomNear_bounds le_rfl p.2 r'
  rw [mem_interior] at hp
  rw [mem_positions]
  show (0 ≤ getRandomNear 1 p.1 r ∧ getRandomNear 1 p.1 r < _) ∧
    0 ≤ getRandomNear 1 p.2 r' ∧ getRandomNear 1 p.2 r' < _
  omega

/-- The intensity is written to a pixel. -/
theorem Even.store (hv : Even height width value v) (site : Site) (k : ℤ) {q : Position}
    (hq : ¬value < 20 → q ∈ detected height width → q ∈ (defaults height width).interior) :
    Even height width value (v.store site (k, q) value) where
  toSettings := hv.toSettings
  values k' hk' q' := by
    show Function.update v.g_Model (k, q) value (k', q') = 0 ∨
      Function.update v.g_Model (k, q) value (k', q') = value
    by_cases ha : (k', q') = (k, q)
    · rw [ha, Function.update_self]
      exact .inr rfl
    · rw [Function.update_of_ne ha]
      exact hv.values k' hk' q'
  interior q' hq' k' hk' := by
    show Function.update v.g_Model (k, q) value (k', q') = value
    by_cases ha : (k', q') = (k, q)
    · rw [ha, Function.update_self]
    · rw [Function.update_of_ne ha]
      exact hv.interior q' hq' k' hk'
  border hvalue q' hq' hborder k' := by
    show Function.update v.g_Model (k, q) value (k', q') = 0
    rw [Function.update_of_ne]
    · exact hv.border hvalue q' hq' hborder k'
    · rintro ⟨⟩
      exact hborder (hq hvalue hq')

/-- Where all samples or none are near, this decides the comparison. -/
theorem compared_of_isNear (hv : v.toSettings = defaults height width) {near : Bool}
    (hnear : ∀ k ∈ Int.range 0 20, v.isNear p k = near) :
    v.g_MinMatch ≤ (v.compared p).1 ↔ near = true := by
  have hsamples : v.g_SampleNum = 20 := congrArg Settings.g_SampleNum hv
  have hmatch : v.g_MinMatch = 2 := congrArg Settings.g_MinMatch hv
  have hcount : (Int.range 0 20).countP (v.isNear p) = if near then 20 else 0 := by
    rw [List.countP_congr (q := fun _ ↦ near) fun k hk ↦ by rw [hnear k hk]]
    cases near <;> decide
  rw [compared, hsamples, hmatch, matchLoop_fst _ _ (by decide), hcount]
  cases near <;> decide

theorem isNear_eq (hv : v.toSettings = defaults height width) (hgray : v.g_Gray p = value) (k : ℤ) :
    v.isNear p k = decide (|((v.g_Model (k, p)).toNat : ℤ) - value.toNat| < 20) := by
  have hradius : v.g_Radius = 20 := congrArg Settings.g_Radius hv
  rw [isNear, hradius, hgray]

/-- The pixels of the background. -/
theorem Even.matches_iff (hv : Even height width value v) (hp : p ∈ detected height width)
    (hgray : v.g_Gray p = value) :
    v.g_MinMatch ≤ (v.compared p).1 ↔ p ∈ (defaults height width).interior ∨ value < 20 := by
  have hself : decide (|((value.toNat : ℤ) - value.toNat)| < 20) = true := by simp
  by_cases hinner : p ∈ (defaults height width).interior
  · rw [compared_of_isNear hv.toSettings  fun k hk ↦ ?_]
    · exact iff_of_true rfl (.inl hinner)
    · rw [isNear_eq hv.toSettings hgray, hv.interior p hinner k hk, hself]
  · by_cases hvalue : value < 20
    · rw [compared_of_isNear hv.toSettings  fun k hk ↦ ?_]
      · exact iff_of_true rfl (.inr hvalue)
      · have hlt : value.toNat < 20 := UInt8.lt_iff_toNat_lt.mp hvalue
        rw [isNear_eq hv.toSettings hgray]
        rcases hv.values k hk p with hzero | heq
        · rw [hzero, decide_eq_true_iff]
          show |(0 : ℤ) - value.toNat| < 20
          rw [abs_lt]
          omega
        · rw [heq, hself]
    · rw [compared_of_isNear hv.toSettings  fun k _ ↦ ?_]
      · exact iff_of_false Bool.false_ne_true fun h ↦ h.elim hinner hvalue
      · have hle : 20 ≤ value.toNat :=
          Nat.not_lt.mp fun hlt ↦ hvalue (UInt8.lt_iff_toNat_lt.mpr hlt)
        rw [isNear_eq hv.toSettings hgray, hv.border hvalue p hp hinner k, decide_eq_false_iff_not]
        show ¬|(0 : ℤ) - value.toNat| < 20
        rw [abs_lt]
        omega

/-- **Step.** -/
theorem Even.detectPixel {s : Vibe × Rand} (hs : Even height width value s.1)
    (himg : IsConst height width value s.1.g_Gray) (hp : p ∈ positions 0 height 0 width) :
    Even height width value (detectPixel s p).1 := by
  have hset : ∀ v val, Even height width value v → Even height width value (v.setForeImg p val) :=
    fun v val h ↦ ⟨h.toSettings, h.values, h.interior, h.border⟩
  have hrecorded : Even height width value (s.1.recorded p) :=
    ⟨hs.toSettings, hs.values, hs.interior, hs.border⟩
  rcases detectPixel_cases p s with ⟨-, heq⟩ | ⟨-, -, heq⟩ | ⟨hskipped, hmatch, heq⟩
  · rw [heq]
    exact hset _ _ hs
  · rw [heq]
    exact hset _ _ hrecorded
  · have hdetected : p ∈ detected height width :=
      (mem_detected_iff_not_isSkipped hs.toSettings).mpr ⟨hp, hskipped⟩
    have hinner := (hs.matches_iff hdetected (himg p hp)).mp hmatch
    rw [heq]
    refine update_induction (hset _ _ hrecorded) ?_
    intro v rand q hsettings hgray hq hv
    have hvalue : v.g_Gray p = value := by
      rw [hgray]
      exact himg p hp
    rw [hvalue]
    refine hv.store .update _ fun hlarge hdetected ↦ ?_
    have hp : p ∈ (defaults height width).interior := hinner.resolve_right hlarge
    have hoffset : v.g_offset = 1 := congrArg Settings.g_offset hv.toSettings
    rcases hq with rfl | ⟨r, r', rfl⟩
    · exact hp
    · rw [hoffset] at hdetected ⊢
      exact interior_of_getRandomPosition hp hdetected

/-- **Step.** -/
theorem Even.clearPixel {s : Vibe × Rand} (hs : Even height width value s.1)
    (himg : IsConst height width value s.1.g_Gray) (hp : p ∈ (defaults height width).interior) :
    Even height width value (clearPixel lifeLength s p).1 := by
  have hset : ∀ v life, Even height width value v →
      Even height width value (v.setLifeLength p life) :=
    fun v life h ↦ ⟨h.toSettings, h.values, h.interior, h.border⟩
  rcases clearPixel_cases lifeLength p s with ⟨-, rand, rand', heq⟩ | ⟨-, heq⟩
  · rw [heq, himg p (mem_positions_of_interior hp)]
    exact ((hset _ _ hs).store .absorb _ fun _ _ ↦ hp).store .absorb _ fun _ _ ↦ hp
  · rw [heq]
    exact hset _ _ hs

theorem Even.detectScan {s : Vibe × Rand} (hs : Even height width value s.1)
    (himg : IsConst height width value img) :
    Even height width value (detectScan img s).1 ∧ (detectScan img s).1.g_Gray = img := by
  refine detectScan_induction
    (P := fun s' : Vibe × Rand ↦ Even height width value s'.1 ∧ s'.1.g_Gray = img)
    ⟨⟨hs.toSettings, hs.values, hs.interior, hs.border⟩, rfl⟩ ?_
  rintro s' p hp - ⟨hs', hgray⟩
  rw [hs.toSettings] at hp
  exact ⟨hs'.detectPixel (hgray ▸ himg) hp, (detectPixel_frame p s').2.1.trans hgray⟩

theorem Even.clearLongLifeForeground {s : Vibe × Rand} (hs : Even height width value s.1)
    (himg : IsConst height width value s.1.g_Gray) :
    Even height width value (clearLongLifeForeground lifeLength s).1 := by
  have hend : Even height width value (Vibe.clearLongLifeForeground lifeLength s).1 ∧
      (Vibe.clearLongLifeForeground lifeLength s).1.g_Gray = s.1.g_Gray := by
    refine clearLongLifeForeground_induction
      (P := fun s' : Vibe × Rand ↦ Even height width value s'.1 ∧ s'.1.g_Gray = s.1.g_Gray)
      ⟨hs, rfl⟩ ?_
    rintro s' p hp - ⟨hs', hgray⟩
    rw [hs.toSettings] at hp
    exact ⟨hs'.clearPixel (hgray ▸ himg) hp, (clearPixel_frame lifeLength p s').2.1.trans hgray⟩
  exact hend.1

theorem Even.detect {s : Vibe × Rand} (cv : OpenCV) (hs : Even height width value s.1)
    (himg : IsConst height width value img) : Even height width value (detect cv img s).1 := by
  obtain ⟨hscan, hgray⟩ := hs.detectScan himg
  have hcleaned : Even height width value (detectCleaned cv img s).1 :=
    ⟨hscan.toSettings, hscan.values, hscan.interior, hscan.border⟩
  have himg' : IsConst height width value (detectCleaned cv img s).1.g_Gray := by
    show IsConst height width value (Vibe.detectScan img s).1.g_Gray
    rw [hgray]
    exact himg
  exact hcleaned.clearLongLifeForeground himg'

/-- **Run.** -/
theorem even_after (cv : OpenCV) (rand : Rand) {frames : ℕ → Image}
    (hframes : ∀ t, IsConst height width value (frames t)) (t : ℕ) :
    Even height width value (after cv height width rand frames t).1 := by
  induction t with
  | zero =>
      rw [after]
      have hnew := sampled_new height width (frames 0) rand
      have htaken : ∀ q ∈ (defaults height width).interior, ∀ k ∈ Int.range 0 20,
          (new height width (frames 0) rand).1.g_Model (k, q) = value := by
        intro q hq k hk
        obtain ⟨r, r', heq⟩ := hnew.taken q hq k hk
        rw [heq]
        exact hframes 0 _ (getRandomPosition_mem hq r r')
      refine ⟨hnew.toSettings, fun k hk q ↦ ?_, htaken, fun _ q _ hq k ↦ hnew.zero k q hq⟩
      by_cases hq : q ∈ (defaults height width).interior
      · exact .inr (htaken q hq k hk)
      · exact .inl (hnew.zero k q hq)
  | succ t ih => exact ih.detect cv (hframes (t + 1))

/-- The pixels that are in the foreground before small areas are deleted. -/
theorem Even.foreImg {s : Vibe × Rand} (hs : Even height width value s.1)
    (himg : IsConst height width value img) (hp : p ∈ detected height width) :
    (Vibe.detectScan img s).1.g_ForeImg p =
      if p ∈ (defaults height width).interior ∨ value < 20 then 0 else 255 := by
  have hposition : p ∈ positions 0 height 0 width := (List.mem_filter.mp hp).1
  have hstep : ∀ s' : Vibe × Rand, ∀ q ∈ positions 0 height 0 width,
      Even height width value s'.1 ∧ IsConst height width value s'.1.g_Gray →
      Even height width value (Vibe.detectPixel s' q).1 ∧
        IsConst height width value (Vibe.detectPixel s' q).1.g_Gray := by
    rintro s' q hq ⟨hs', himg'⟩
    refine ⟨hs'.detectPixel himg' hq, ?_⟩
    rw [(detectPixel_frame q s').2.1]
    exact himg'
  rw [Vibe.detectScan]
  dsimp only
  rw [hs.toSettings]
  refine Scan.foldl_visit (P := fun s' : Vibe × Rand ↦ s'.1.g_ForeImg p = _) hstep
    (nodup_positions _ _ _ _) hposition ?_ ?_ ?_
  · exact ⟨⟨rfl, hs.values, hs.interior, hs.border⟩, himg⟩
  · rintro s' ⟨hs', himg'⟩
    have hnot : ¬s'.1.isSkipped p = true :=
      ((mem_detected_iff_not_isSkipped hs'.toSettings).mp hp).2
    rw [detectPixel_foreImg, Function.update_self]
    exact if_congr ((or_iff_right hnot).trans (hs'.matches_iff hp (himg' p hposition))) rfl rfl
  · intro s' q hq hkeep
    rw [detectPixel_foreImg, Function.update_of_ne hq.symm]
    exact hkeep

end

/-! ## All frames -/

section

variable (cv : OpenCV) (height width : ℕ) (rand : Rand) (frames : ℕ → Image)

/-- The foreground of frame `t + 1` before small areas are deleted. -/
def raw (t : ℕ) : Image :=
  (detectScan (frames (t + 1)) (after cv height width rand frames t)).1.g_ForeImg

/-- In frame `t + 1` the pixels that are compared are those whose samples were taken, and the
others are background. -/
structure ComparesSampled (t : ℕ) : Prop where
  compared : pixelsAt .compare (after cv height width rand frames (t + 1)).1 =
    pixelsAt .sample (after cv height width rand frames 0).1
  background : ∀ q ∉ pixelsAt .compare (after cv height width rand frames (t + 1)).1,
    raw cv height width rand frames t q = 0

theorem toSettings_after (t : ℕ) :
    (after cv height width rand frames t).1.toSettings = defaults height width := by
  induction t with
  | zero =>
      rw [after]
      exact (sampled_new height width (frames 0) rand).toSettings
  | succ t ih =>
      rw [after, toSettings_detect]
      exact ih

/-- The pixels of a frame that are compared. -/
theorem compared_after (t : ℕ) :
    pixelsAt .compare (after cv height width rand frames (t + 1)).1 =
        {q | q ∈ detected height width} ∧
      ∀ q ∉ detected height width, raw cv height width rand frames t q = 0 := by
  have hscan := compared_detectScan (toSettings_after cv height width rand frames t)
    (show (1 : ℤ) ≤ 20 by decide) (show (1 : ℤ) ≤ 2 by decide) (frames (t + 1))
  have hmem : ∀ q, q ∈ pixelsAt .compare
      (detectScan (frames (t + 1)) (after cv height width rand frames t)).1 ↔
        q ∈ detected height width := by
    intro q
    rw [hscan.compared, detected, List.mem_filter, Bool.not_eq_true']
    rfl
  refine ⟨(clearLongLifeForeground_frame lifeLength _).2.2.2.trans (Set.ext hmem), fun q hq ↦ ?_⟩
  exact hscan.background q fun h ↦ hq ((hmem q).mp h)

/-- They are those with samples only in an image of one row or column. -/
theorem comparesSampled_iff_small :
    (∀ t, ComparesSampled cv height width rand frames t) ↔ height ≤ 1 ∨ width ≤ 1 := by
  have hsampled : pixelsAt .sample (after cv height width rand frames 0).1 =
      {q | q ∈ (defaults height width).interior} :=
    Set.ext (sampled_new height width (frames 0) rand).sampled
  rw [← detected_eq_interior_iff]
  constructor
  · intro h
    exact (compared_after cv height width rand frames 0).1.symm.trans
      ((h 0).compared.trans hsampled)
  · intro h t
    obtain ⟨hcompared, hbackground⟩ := compared_after cv height width rand frames t
    refine ⟨hcompared.trans (h.trans hsampled.symm), fun q hq ↦ hbackground q ?_⟩
    rw [hcompared] at hq
    exact hq

variable {cv height width rand frames}

/-- In frames of one intensity the last pixel is in the foreground. -/
theorem raw_eq_zero_iff {value : UInt8} (hframes : ∀ t, IsConst height width value (frames t)) :
    (∀ t q, raw cv height width rand frames t q = 0) ↔
      height ≤ 1 ∨ width ≤ 1 ∨ value < 20 := by
  have hraw : ∀ t, ∀ q ∈ detected height width, raw cv height width rand frames t q =
      if q ∈ (defaults height width).interior ∨ value < 20 then 0 else 255 :=
    fun t q hq ↦ (even_after cv rand hframes t).foreImg (hframes (t + 1)) hq
  constructor
  · intro hzero
    by_contra hlarge
    rw [not_or, not_or] at hlarge
    obtain ⟨hheight, hwidth, hvalue⟩ := hlarge
    have hmem : ((height - 1 : ℤ), (width - 1 : ℤ)) ∈ detected height width :=
      mem_detected.mpr ⟨⟨by omega, by omega⟩, by omega, by omega⟩
    have hborder : ((height - 1 : ℤ), (width - 1 : ℤ)) ∉ (defaults height width).interior :=
      fun h ↦ lt_irrefl _ (mem_interior.mp h).1.2
    have hlast := hraw 0 _ hmem
    rw [hzero, if_neg fun h ↦ h.elim hborder hvalue] at hlast
    exact absurd hlast (by decide)
  · intro hsmall t q
    by_cases hq : q ∈ detected height width
    · rw [hraw t q hq]
      refine if_pos (hsmall.elim (fun hheight ↦ ?_) fun h ↦ h.elim (fun hwidth ↦ ?_) Or.inr)
      · rw [mem_detected] at hq
        omega
      · rw [mem_detected] at hq
        omega
    · exact (compared_after cv height width rand frames t).2 q hq

end

/-- **The pixels that are compared are those with samples exactly in an image of one row or
column.**  In frames of one intensity nothing is in the foreground exactly in such an image, or if
the intensity is near to zero. -/
theorem comparesSampled_iff (cv : OpenCV) (height width : ℕ) (rand : Rand) (frames : ℕ → Image) :
    ((∀ t, ComparesSampled cv height width rand frames t) ↔ height ≤ 1 ∨ width ≤ 1) ∧
      ∀ value, (∀ t, IsConst height width value (frames t)) →
        ((∀ t q, raw cv height width rand frames t q = 0) ↔
          height ≤ 1 ∨ width ≤ 1 ∨ value < 20) :=
  ⟨comparesSampled_iff_small cv height width rand frames, fun _ ↦ raw_eq_zero_iff⟩

end Vibe

/-- No contour is found. -/
def OpenCV.blank : OpenCV where
  cvFindContours _ := ⟨.ofList [], none, fun _ ↦ ⟨0, 0⟩, [], linked_ofList List.nodup_nil⟩
  cvDrawContours _ _ _ := fun _ ↦ 0

namespace Vibe

theorem comparesSampled_dark (t : ℕ) (q : Position) :
    raw .blank 3 3 (Stream'.const 0) (fun _ _ ↦ 7) t q = 0 :=
  ((comparesSampled_iff .blank 3 3 (Stream'.const 0) fun _ _ ↦ 7).2 7 fun _ _ _ ↦ rfl).mpr
    (.inr (.inr (by decide))) t q

/-- In grey frames of three rows and columns it is not so. -/
theorem not_comparesSampled :
    ¬∀ (cv : OpenCV) (height width : ℕ) (rand : Rand) (frames : ℕ → Image),
      (∀ t, ComparesSampled cv height width rand frames t) ∧
        ∀ value, (∀ t, IsConst height width value (frames t)) →
          ∀ t q, raw cv height width rand frames t q = 0 := by
  intro h
  obtain ⟨hcompares, -⟩ := h .blank 3 3 (Stream'.const 0) fun _ _ ↦ 100
  exact absurd ((comparesSampled_iff_small _ _ _ _ _).mp hcompares) (by decide)

end Vibe

end CodeToolKit.ObjectDetect
