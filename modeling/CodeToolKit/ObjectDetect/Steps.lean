import CodeToolKit.Lib.Scan
import CodeToolKit.ObjectDetect.Vibe

/-!
# The steps of `Vibe`

What the visit of a pixel can do, for each of the loops.
-/

namespace CodeToolKit.ObjectDetect

open CodeToolKit.Lib

/-! ## Positions -/

theorem mem_positions {i₀ i₁ j₀ j₁ : ℤ} {p : Position} :
    p ∈ positions i₀ i₁ j₀ j₁ ↔ (i₀ ≤ p.1 ∧ p.1 < i₁) ∧ j₀ ≤ p.2 ∧ p.2 < j₁ := by
  rw [positions, ← Int.mem_range_iff, ← Int.mem_range_iff]
  exact List.mem_product

theorem nodup_range (i₀ i₁ : ℤ) : (Int.range i₀ i₁).Nodup := by
  refine List.nodup_range.map fun a b h ↦ ?_
  have h : i₀ + a = i₀ + b := h
  omega

theorem nodup_positions (i₀ i₁ j₀ j₁ : ℤ) : (positions i₀ i₁ j₀ j₁).Nodup :=
  (nodup_range i₀ i₁).product (nodup_range j₀ j₁)

namespace Vibe

/-! ## The pixels of the subscripts -/

/-- The pixels whose samples are used at a site. -/
def pixelsAt (site : Site) (v : Vibe) : Set Position := {p | ∃ k, (site, (k, p)) ∈ v.accesses}

theorem mem_pixelsAt_record {site site' : Site} {v : Vibe} {as : List Subscript} {q : Position} :
    q ∈ pixelsAt site (v.record site' as) ↔
      q ∈ pixelsAt site v ∨ site = site' ∧ ∃ k, (k, q) ∈ as := by
  show (∃ k, (site, (k, q)) ∈ v.accesses ++ as.map fun a ↦ (site', a)) ↔ _
  simp only [List.mem_append, List.mem_map, Prod.mk.injEq, exists_or]
  refine or_congr Iff.rfl ⟨?_, ?_⟩
  · rintro ⟨k, a, ha, rfl, rfl⟩
    exact ⟨rfl, k, ha⟩
  · rintro ⟨rfl, k, ha⟩
    exact ⟨k, (k, q), ha, rfl, rfl⟩

theorem mem_pixelsAt_store {site site' : Site} {v : Vibe} {k : ℤ} {p q : Position} {val : UInt8} :
    q ∈ pixelsAt site (v.store site' (k, p) val) ↔ q ∈ pixelsAt site v ∨ site = site' ∧ q = p := by
  refine (mem_pixelsAt_record (v := v)).trans (or_congr Iff.rfl (and_congr Iff.rfl ?_))
  simp

/-- Uses at another site. -/
theorem pixelsAt_store_of_ne {site site' : Site} (hne : site ≠ site') (v : Vibe) (a : Subscript)
    (val : UInt8) : pixelsAt site (v.store site' a val) = pixelsAt site v := by
  ext q
  rw [mem_pixelsAt_store]
  simp [hne]

/-! ## The constructor -/

/-- The samples of the visited pixels are taken, those of the others are zero. -/
structure Sampled (F : Settings) (img : Image) (visited : List Position) (v : Vibe) : Prop where
  toSettings : v.toSettings = F
  g_Gray : v.g_Gray = img
  LifeLength : v.LifeLength = fun _ ↦ 0
  sampled : ∀ q, q ∈ pixelsAt .sample v ↔ q ∈ visited
  zero : ∀ k q, q ∉ visited → v.g_Model (k, q) = 0
  taken : ∀ q ∈ visited, ∀ k ∈ Int.range 0 F.g_SampleNum,
    ∃ r r', v.g_Model (k, q) = img (getRandomPosition F.g_offset q r r')

theorem sampled_zeroModel (height width : ℕ) (img : Image) :
    Sampled (defaults height width) img [] (fields height width img).zeroModel := by
  let P : Vibe → Prop := fun v ↦ v.toSettings = defaults height width ∧ v.g_Gray = img ∧
    (v.LifeLength = fun _ ↦ 0) ∧ (∀ q, q ∉ pixelsAt .sample v) ∧ ∀ a, v.g_Model a = 0
  have hend : P (fields height width img).zeroModel := by
    refine Scan.foldl_keeps ?_ _ ⟨rfl, rfl, rfl, ?_, fun _ ↦ rfl⟩
    · rintro v a - ⟨hsettings, hgray, hlife, hsampled, hzero⟩
      refine ⟨hsettings, hgray, hlife, ?_, fun b ↦ ?_⟩
      · rw [pixelsAt_store_of_ne (by decide)]
        exact hsampled
      · show Function.update v.g_Model a 0 b = 0
        rw [Function.update_apply, hzero, ite_self]
    · rintro q ⟨k, hmem⟩
      cases hmem
  obtain ⟨hsettings, hgray, hlife, hsampled, hzero⟩ := hend
  exact ⟨hsettings, hgray, hlife, fun q ↦ iff_of_false (hsampled q) List.not_mem_nil,
    fun k q _ ↦ hzero (k, q), nofun⟩

/-- The first samples of a pixel are taken. -/
structure Taken (F : Settings) (img : Image) (v : Vibe) (p : Position) (done : List ℤ) (v' : Vibe) :
    Prop where
  toSettings : v'.toSettings = F
  g_Gray : v'.g_Gray = img
  LifeLength : v'.LifeLength = v.LifeLength
  sampled : ∀ q, q ∈ pixelsAt .sample v' ↔ q ∈ pixelsAt .sample v ∨ q = p ∧ done ≠ []
  others : ∀ k q, q ≠ p → v'.g_Model (k, q) = v.g_Model (k, q)
  taken : ∀ k ∈ done, ∃ r r', v'.g_Model (k, p) = img (getRandomPosition F.g_offset p r r')

theorem Taken.takeSample {F : Settings} {img : Image} {v : Vibe} {p : Position} {done : List ℤ}
    {s : Vibe × Rand} (hs : Taken F img v p done s.1) (k : ℤ) :
    Taken F img v p (done ++ [k]) (takeSample p s k).1 := by
  have hoffset : s.1.g_offset = F.g_offset := congrArg Settings.g_offset hs.toSettings
  refine ⟨hs.toSettings, hs.g_Gray, hs.LifeLength, fun q ↦ ?_, fun k' q hq ↦ ?_, fun k' hk' ↦ ?_⟩
  · refine mem_pixelsAt_store.trans ?_
    rw [hs.sampled]
    simp only [true_and, ne_eq, List.append_ne_nil_of_right_ne_nil _ (List.cons_ne_nil k []),
      not_false_eq_true, and_true]
    tauto
  · show Function.update s.1.g_Model (k, p) _ (k', q) = _
    rw [Function.update_of_ne fun h ↦ hq (Prod.mk.inj h).2]
    exact hs.others k' q hq
  · show ∃ r r', Function.update s.1.g_Model (k, p) _ (k', p) = _
    by_cases hk : k' = k
    · rw [hk, Function.update_self, hs.g_Gray, hoffset]
      exact ⟨_, _, rfl⟩
    · rw [Function.update_of_ne fun h ↦ hk (Prod.mk.inj h).1]
      rcases List.mem_append.mp hk' with hdone | hself
      · exact hs.taken k' hdone
      · exact absurd (List.mem_singleton.mp hself) hk

/-- **Step.**  The samples of another pixel are taken. -/
theorem Sampled.takeSamples {F : Settings} {img : Image} {visited : List Position}
    {s : Vibe × Rand} (hs : Sampled F img visited s.1) (hpos : 1 ≤ F.g_SampleNum) (p : Position) :
    Sampled F img (visited ++ [p]) (takeSamples s p).1 := by
  have hend : Taken F img s.1 p (Int.range 0 F.g_SampleNum) (Vibe.takeSamples s p).1 := by
    rw [Vibe.takeSamples, hs.toSettings]
    refine Scan.foldl_invariant (fun done s' ↦ Taken F img s.1 p done s'.1)
      (fun done k s' h ↦ h.takeSample k) (Int.range 0 F.g_SampleNum) [] s ?_
    exact ⟨hs.toSettings, hs.g_Gray, rfl, fun q ↦ by simp, fun _ _ _ ↦ rfl, nofun⟩
  have hne : Int.range 0 F.g_SampleNum ≠ [] :=
    List.ne_nil_of_mem (Int.mem_range_iff.mpr ⟨le_refl 0, by omega⟩)
  refine ⟨hend.toSettings, hend.g_Gray, hend.LifeLength.trans hs.LifeLength, fun q ↦ ?_,
    fun k q hq ↦ ?_, fun q hq k hk ↦ ?_⟩
  · rw [hend.sampled, hs.sampled, List.mem_append, List.mem_singleton]
    exact or_congr Iff.rfl (and_iff_left hne)
  · rw [List.mem_append, List.mem_singleton, not_or] at hq
    rw [hend.others k q hq.2]
    exact hs.zero k q hq.1
  · by_cases hqp : q = p
    · rw [hqp]
      exact hend.taken k hk
    · rw [hend.others k q hqp]
      refine hs.taken q ?_ k hk
      rcases List.mem_append.mp hq with hvisited | hself
      · exact hvisited
      · exact absurd (List.mem_singleton.mp hself) hqp

/-- **The constructor** takes the samples of the pixels of the interior. -/
theorem sampled_new (height width : ℕ) (img : Image) (rand : Rand) :
    Sampled (defaults height width) img (defaults height width).interior
      (new height width img rand).1 := by
  have hstart := sampled_zeroModel height width img
  rw [new]
  rw [hstart.toSettings]
  exact Scan.foldl_invariant
    (fun visited (s : Vibe × Rand) ↦ Sampled (defaults height width) img visited s.1)
    (fun visited p s h ↦ h.takeSamples (show (1 : ℤ) ≤ 20 by decide) p) _ [] (_, rand) hstart

/-! ## The comparison -/

/-- The samples that are compared are the first ones, and if they are not all there are matches
enough. -/
theorem matchLoop_spec (near : ℤ → Bool) (g_MinMatch : ℤ) (ks : List ℤ) (tmpCount : ℤ) :
    ((matchLoop near g_MinMatch ks tmpCount).2 <+: ks) ∧
      ((matchLoop near g_MinMatch ks tmpCount).1 < g_MinMatch →
        (matchLoop near g_MinMatch ks tmpCount).2 = ks) := by
  induction ks generalizing tmpCount with
  | nil => exact ⟨List.prefix_refl _, fun _ ↦ rfl⟩
  | cons k ks ih =>
      rw [matchLoop]
      split
      · obtain ⟨hfirst, hall⟩ := ih (if near k then tmpCount + 1 else tmpCount)
        exact ⟨(List.prefix_cons_inj k).mpr hfirst, fun hlt ↦ congrArg (k :: ·) (hall hlt)⟩
      · rename_i hlt
        exact ⟨List.nil_prefix, fun hlt' ↦ absurd hlt' hlt⟩

/-- How many samples match. -/
theorem matchLoop_fst (near : ℤ → Bool) {g_MinMatch tmpCount : ℤ} (ks : List ℤ)
    (h : tmpCount ≤ g_MinMatch) :
    (matchLoop near g_MinMatch ks tmpCount).1 = min g_MinMatch (tmpCount + ks.countP near) := by
  induction ks generalizing tmpCount with
  | nil =>
      rw [matchLoop, List.countP_nil]
      omega
  | cons k ks ih =>
      rw [matchLoop, List.countP_cons]
      by_cases hlt : tmpCount < g_MinMatch
      · rw [if_pos hlt]
        cases near k with
        | true =>
            refine (ih (show tmpCount + 1 ≤ g_MinMatch from hlt)).trans ?_
            rw [if_pos rfl, Nat.cast_add, Nat.cast_one, add_assoc, add_comm (1 : ℤ)]
        | false =>
            refine (ih h).trans ?_
            rw [if_neg Bool.false_ne_true, Nat.add_zero]
      · rw [if_neg hlt]
        omega

/-! ## The updates -/

section

variable {p : Position} {s : Vibe × Rand}

theorem updateOwn_cases (p : Position) (s : Vibe × Rand) :
    (updateOwn p s).1 = s.1 ∨ ∃ rand,
      (updateOwn p s).1 =
        s.1.store .update (getRandom s.1.g_SampleNum rand, p) (s.1.g_Gray p) := by
  rw [updateOwn]
  split
  · exact .inr ⟨_, rfl⟩
  · exact .inl rfl

theorem updateNear_cases (p : Position) (s : Vibe × Rand) :
    (updateNear p s).1 = s.1 ∨ ∃ rand r r',
      (updateNear p s).1 = s.1.store .update
        (getRandom s.1.g_SampleNum rand, getRandomPosition s.1.g_offset p r r')
        (s.1.g_Gray p) := by
  rw [updateNear]
  split
  · exact .inr ⟨_, _, _, rfl⟩
  · exact .inl rfl

/-- What a pixel of the background does to the samples: it may replace one of its own and one of a
pixel near it.  So a property that such replacements keep stays. -/
theorem update_induction {P : Vibe → Prop} (hs : P s.1)
    (hstore : ∀ v rand q, v.toSettings = s.1.toSettings → v.g_Gray = s.1.g_Gray →
      (q = p ∨ ∃ r r', q = getRandomPosition v.g_offset p r r') → P v →
      P (v.store .update (getRandom v.g_SampleNum rand, q) (v.g_Gray p))) :
    P (updateNear p (updateOwn p s)).1 := by
  have hown : (updateOwn p s).1.toSettings = s.1.toSettings ∧
      (updateOwn p s).1.g_Gray = s.1.g_Gray ∧ P (updateOwn p s).1 := by
    rcases updateOwn_cases p s with heq | ⟨rand, heq⟩
    · rw [heq]
      exact ⟨rfl, rfl, hs⟩
    · rw [heq]
      exact ⟨rfl, rfl, hstore s.1 rand p rfl rfl (.inl rfl) hs⟩
  obtain ⟨hsettings, hgray, hP⟩ := hown
  rcases updateNear_cases p (updateOwn p s) with heq | ⟨rand, r, r', heq⟩
  · rw [heq]
    exact hP
  · rw [heq]
    exact hstore _ rand _ hsettings hgray (.inr ⟨r, r', rfl⟩) hP

/-- The object with the comparison of a pixel recorded. -/
def recorded (v : Vibe) (p : Position) : Vibe :=
  v.record .compare ((v.compared p).2.map fun k ↦ (k, p))

/-- **What the visit of a pixel does.** -/
theorem detectPixel_cases (p : Position) (s : Vibe × Rand) :
    (s.1.isSkipped p ∧ detectPixel s p = (s.1.setForeImg p 0, s.2)) ∨
      (¬s.1.isSkipped p ∧ (s.1.compared p).1 < s.1.g_MinMatch ∧
        detectPixel s p = ((s.1.recorded p).setForeImg p 255, s.2)) ∨
      (¬s.1.isSkipped p ∧ s.1.g_MinMatch ≤ (s.1.compared p).1 ∧
        detectPixel s p =
          updateNear p (updateOwn p ((s.1.recorded p).setForeImg p 0, s.2))) := by
  rw [detectPixel]
  by_cases hskipped : s.1.isSkipped p
  · exact .inl ⟨hskipped, if_pos hskipped⟩
  · rw [if_neg hskipped]
    by_cases hmatch : s.1.g_MinMatch ≤ (s.1.compared p).1
    · exact .inr (.inr ⟨hskipped, hmatch, if_pos hmatch⟩)
    · exact .inr (.inl ⟨hskipped, Int.not_le.mp hmatch, if_neg hmatch⟩)

/-- The value of a pixel in the foreground. -/
theorem detectPixel_foreImg (p : Position) (s : Vibe × Rand) :
    (detectPixel s p).1.g_ForeImg = Function.update s.1.g_ForeImg p
      (if s.1.isSkipped p ∨ s.1.g_MinMatch ≤ (s.1.compared p).1 then 0 else 255) := by
  rcases detectPixel_cases p s with ⟨hskipped, heq⟩ | ⟨hskipped, hmatch, heq⟩ | ⟨-, hmatch, heq⟩
  · rw [heq, if_pos (.inl hskipped)]
    rfl
  · rw [heq, if_neg fun h ↦ h.elim hskipped (Int.not_le.mpr hmatch)]
    rfl
  · rw [heq, if_pos (.inr hmatch)]
    exact update_induction (P := fun v ↦ v.g_ForeImg = Function.update s.1.g_ForeImg p 0) rfl
      fun v rand q _ _ _ h ↦ h

/-- The pixels that are compared. -/
theorem detectPixel_compared (hskipped : ¬s.1.isSkipped p) :
    pixelsAt .compare (detectPixel s p).1 = pixelsAt .compare (s.1.recorded p) := by
  rcases detectPixel_cases p s with ⟨h, -⟩ | ⟨-, -, heq⟩ | ⟨-, -, heq⟩
  · exact absurd h hskipped
  · rw [heq]
    rfl
  · rw [heq]
    refine update_induction (P := fun v ↦ pixelsAt .compare v = pixelsAt .compare (s.1.recorded p))
      rfl ?_
    intro v rand q _ _ _ hcompared
    exact (pixelsAt_store_of_ne (by decide) v _ _).trans hcompared

/-- The loops of `Detect` leave the settings, the frame and the lives alone. -/
theorem detectPixel_frame (p : Position) (s : Vibe × Rand) :
    (detectPixel s p).1.toSettings = s.1.toSettings ∧ (detectPixel s p).1.g_Gray = s.1.g_Gray ∧
      (detectPixel s p).1.LifeLength = s.1.LifeLength := by
  rcases detectPixel_cases p s with ⟨-, heq⟩ | ⟨-, -, heq⟩ | ⟨-, -, heq⟩
  · rw [heq]
    exact ⟨rfl, rfl, rfl⟩
  · rw [heq]
    exact ⟨rfl, rfl, rfl⟩
  · rw [heq]
    refine update_induction (P := fun v ↦ v.toSettings = s.1.toSettings ∧ v.g_Gray = s.1.g_Gray ∧
      v.LifeLength = s.1.LifeLength) ⟨rfl, rfl, rfl⟩ ?_
    intro v rand q _ _ _ h
    exact h

/-- A property that the visits keep, in a frame. -/
theorem detectScan_induction {P : Vibe × Rand → Prop} {img : Image}
    (hstart : P ({ s.1 with g_ForeImg := fun _ ↦ 0, g_Gray := img, accesses := [] }, s.2))
    (hstep : ∀ s', ∀ p ∈ positions 0 s.1.g_Height 0 s.1.g_Width,
      s'.1.toSettings = s.1.toSettings → P s' → P (detectPixel s' p)) : P (detectScan img s) := by
  have hkeeps : (detectScan img s).1.toSettings = s.1.toSettings ∧ P (detectScan img s) := by
    rw [detectScan]
    refine Scan.foldl_keeps (P := fun s' : Vibe × Rand ↦ s'.1.toSettings = s.1.toSettings ∧ P s')
      ?_ _ ⟨rfl, hstart⟩
    rintro s' p hp ⟨hsettings, hs'⟩
    exact ⟨(detectPixel_frame p s').1.trans hsettings, hstep s' p hp hsettings hs'⟩
  exact hkeeps.2

theorem detectPixel_absorb (p : Position) (s : Vibe × Rand) :
    pixelsAt .absorb (detectPixel s p).1 = pixelsAt .absorb s.1 := by
  have hrecorded : pixelsAt .absorb (s.1.recorded p) = pixelsAt .absorb s.1 := by
    ext q
    rw [recorded, mem_pixelsAt_record]
    simp
  rcases detectPixel_cases p s with ⟨-, heq⟩ | ⟨-, -, heq⟩ | ⟨-, -, heq⟩
  · rw [heq]
    rfl
  · rw [heq]
    exact hrecorded
  · rw [heq]
    refine update_induction (P := fun v ↦ pixelsAt .absorb v = pixelsAt .absorb s.1) hrecorded ?_
    intro v rand q _ _ _ habsorb
    exact (pixelsAt_store_of_ne (by decide) v _ _).trans habsorb

/-- The loops of `Detect` leave the lives alone, and write no pixel of a long life. -/
theorem detectScan_frame (img : Image) (s : Vibe × Rand) :
    (detectScan img s).1.toSettings = s.1.toSettings ∧
      (detectScan img s).1.LifeLength = s.1.LifeLength ∧
      ∀ q, q ∉ pixelsAt .absorb (detectScan img s).1 := by
  refine detectScan_induction (P := fun s' : Vibe × Rand ↦ s'.1.toSettings = s.1.toSettings ∧
    s'.1.LifeLength = s.1.LifeLength ∧ ∀ q, q ∉ pixelsAt .absorb s'.1) ⟨rfl, rfl, ?_⟩ ?_
  · rintro q ⟨k, hmem⟩
    cases hmem
  · rintro s' p - - ⟨hsettings, hlife, habsorb⟩
    obtain ⟨hsettings', -, hlife'⟩ := detectPixel_frame p s'
    refine ⟨hsettings'.trans hsettings, hlife'.trans hlife, ?_⟩
    rw [detectPixel_absorb]
    exact habsorb

/-! ## The lives -/

/-- **What the visit of a pixel does to its life.** -/
theorem clearPixel_cases (i_lifeLength : ℤ) (p : Position) (s : Vibe × Rand) :
    (s.1.LifeLength p > i_lifeLength ∧ ∃ rand rand',
      (clearPixel i_lifeLength s p).1 =
        ((s.1.setLifeLength p 0).store .absorb (getRandom s.1.g_SampleNum rand, p)
          (s.1.g_Gray p)).store .absorb (getRandom s.1.g_SampleNum rand', p) (s.1.g_Gray p)) ∨
      ¬s.1.LifeLength p > i_lifeLength ∧
        clearPixel i_lifeLength s p = (s.1.setLifeLength p (s.1.LifeLength p + 1), s.2) := by
  rw [clearPixel]
  by_cases hlife : s.1.LifeLength p > i_lifeLength
  · rw [if_pos hlife]
    exact .inl ⟨hlife, _, _, rfl⟩
  · exact .inr ⟨hlife, if_neg hlife⟩

/-- The visit of another pixel. -/
theorem clearPixel_of_ne (i_lifeLength : ℤ) {p q : Position} (hne : p ≠ q) (s : Vibe × Rand) :
    (clearPixel i_lifeLength s q).1.LifeLength p = s.1.LifeLength p ∧
      (p ∈ pixelsAt .absorb (clearPixel i_lifeLength s q).1 ↔ p ∈ pixelsAt .absorb s.1) := by
  rcases clearPixel_cases i_lifeLength q s with ⟨-, rand, rand', heq⟩ | ⟨-, heq⟩
  · rw [heq, mem_pixelsAt_store, mem_pixelsAt_store]
    refine ⟨Function.update_of_ne hne .., ?_⟩
    rw [or_iff_left fun h ↦ hne h.2, or_iff_left fun h ↦ hne h.2]
    rfl
  · rw [heq]
    exact ⟨Function.update_of_ne hne .., Iff.rfl⟩

/-- The loops leave the settings and the images alone, and use subscripts only to replace. -/
theorem clearPixel_frame (i_lifeLength : ℤ) (p : Position) (s : Vibe × Rand) :
    (clearPixel i_lifeLength s p).1.toSettings = s.1.toSettings ∧
      (clearPixel i_lifeLength s p).1.g_Gray = s.1.g_Gray ∧
      (clearPixel i_lifeLength s p).1.g_ForeImg = s.1.g_ForeImg ∧
      pixelsAt .compare (clearPixel i_lifeLength s p).1 = pixelsAt .compare s.1 := by
  rcases clearPixel_cases i_lifeLength p s with ⟨-, rand, rand', heq⟩ | ⟨-, heq⟩
  · rw [heq]
    refine ⟨rfl, rfl, rfl, ?_⟩
    rw [pixelsAt_store_of_ne (by decide), pixelsAt_store_of_ne (by decide)]
    rfl
  · rw [heq]
    exact ⟨rfl, rfl, rfl, rfl⟩

/-- A property that the visits keep, for the lives. -/
theorem clearLongLifeForeground_induction {P : Vibe × Rand → Prop} {i_lifeLength : ℤ} (hstart : P s)
    (hstep : ∀ s', ∀ p ∈ s.1.interior,
      s'.1.toSettings = s.1.toSettings → P s' → P (clearPixel i_lifeLength s' p)) :
    P (clearLongLifeForeground i_lifeLength s) := by
  have hkeeps : (clearLongLifeForeground i_lifeLength s).1.toSettings = s.1.toSettings ∧
      P (clearLongLifeForeground i_lifeLength s) := by
    refine Scan.foldl_keeps (P := fun s' : Vibe × Rand ↦ s'.1.toSettings = s.1.toSettings ∧ P s')
      ?_ s ⟨rfl, hstart⟩
    rintro s' p hp ⟨hsettings, hs'⟩
    exact ⟨(clearPixel_frame i_lifeLength p s').1.trans hsettings, hstep s' p hp hsettings hs'⟩
  exact hkeeps.2

theorem clearLongLifeForeground_frame (i_lifeLength : ℤ) (s : Vibe × Rand) :
    (clearLongLifeForeground i_lifeLength s).1.toSettings = s.1.toSettings ∧
      (clearLongLifeForeground i_lifeLength s).1.g_Gray = s.1.g_Gray ∧
      (clearLongLifeForeground i_lifeLength s).1.g_ForeImg = s.1.g_ForeImg ∧
      pixelsAt .compare (clearLongLifeForeground i_lifeLength s).1 = pixelsAt .compare s.1 := by
  refine Scan.foldl_keeps (P := fun s' : Vibe × Rand ↦ s'.1.toSettings = s.1.toSettings ∧
    s'.1.g_Gray = s.1.g_Gray ∧ s'.1.g_ForeImg = s.1.g_ForeImg ∧
    pixelsAt .compare s'.1 = pixelsAt .compare s.1) ?_ s ⟨rfl, rfl, rfl, rfl⟩
  rintro s' p - ⟨hsettings, hgray, hfore, hcompared⟩
  obtain ⟨hsettings', hgray', hfore', hcompared'⟩ := clearPixel_frame i_lifeLength p s'
  exact ⟨hsettings'.trans hsettings, hgray'.trans hgray, hfore'.trans hfore,
    hcompared'.trans hcompared⟩

theorem detectCleaned_frame (cv : OpenCV) (img : Image) (s : Vibe × Rand) :
    (detectCleaned cv img s).1.toSettings = s.1.toSettings ∧
      (detectCleaned cv img s).1.LifeLength = s.1.LifeLength ∧
      ∀ q, q ∉ pixelsAt .absorb (detectCleaned cv img s).1 := by
  obtain ⟨hsettings, hlives, habsorb⟩ := detectScan_frame img s
  exact ⟨hsettings, hlives, habsorb⟩

theorem toSettings_detect (cv : OpenCV) (img : Image) (s : Vibe × Rand) :
    (detect cv img s).1.toSettings = s.1.toSettings := by
  rw [detect, (clearLongLifeForeground_frame _ _).1]
  exact (detectCleaned_frame cv img s).1

end

end Vibe

end CodeToolKit.ObjectDetect
