import CodeToolKit.Lib.Transition
import CodeToolKit.ObjectDetect.Borders

/-!
# The subscripts of `g_Model`

The positions are in the image at every use of `g_Model`.  The sample is one of those that the
constructor made as long as `SetSampleNum` is not called with another number than there are: it
makes no samples, and `Detect` believes the number (`exists_not_inRange`).
-/

namespace CodeToolKit.ObjectDetect

open CodeToolKit.Lib

/-- A subscript of `g_Model` that there is. -/
def Settings.InRange (v : Settings) (a : Subscript) : Prop :=
  (0 ≤ a.1 ∧ a.1 < v.planes) ∧ (0 ≤ a.2.1 ∧ a.2.1 < v.g_Height) ∧ 0 ≤ a.2.2 ∧ a.2.2 < v.g_Width

theorem Settings.InRange.of_mem {v : Settings} {k : ℤ} {q : Position}
    (hk : 0 ≤ k ∧ k < v.planes) (hq : q ∈ positions 0 v.g_Height 0 v.g_Width) : v.InRange (k, q) :=
  ⟨hk, mem_positions.mp hq⟩

namespace Vibe

/-- All subscripts since the last call began are there. -/
def UsesInRange (v : Vibe) : Prop := ∀ a ∈ v.accesses, v.toSettings.InRange a.2

section

variable {v : Vibe} {s : Vibe × Rand} {p : Position} {site : Site}

theorem UsesInRange.record (hv : v.UsesInRange) {as : List Subscript}
    (has : ∀ a ∈ as, v.toSettings.InRange a) : (v.record site as).UsesInRange := by
  intro a ha
  rcases List.mem_append.mp ha with hold | hnew
  · exact hv a hold
  · obtain ⟨b, hb, rfl⟩ := List.mem_map.mp hnew
    exact has b hb

theorem UsesInRange.store (hv : v.UsesInRange) {a : Subscript} (ha : v.toSettings.InRange a)
    (val : UInt8) : (v.store site a val).UsesInRange := by
  have hrecord : (v.record site [a]).UsesInRange := by
    refine hv.record fun b hb ↦ ?_
    rw [List.mem_singleton.mp hb]
    exact ha
  exact hrecord

/-! ## The constructor -/

theorem usesInRange_zeroModel (height width : ℕ) (img : Image) :
    (fields height width img).zeroModel.toSettings = defaults height width ∧
      (fields height width img).zeroModel.UsesInRange := by
  refine Scan.foldl_keeps (P := fun v : Vibe ↦ v.toSettings = defaults height width ∧ v.UsesInRange)
    ?_ _ ⟨rfl, fun _ ha ↦ absurd ha List.not_mem_nil⟩
  rintro v ⟨k, q⟩ hmem ⟨hsettings, hv⟩
  obtain ⟨hk, hq⟩ := List.mem_product.mp hmem
  refine ⟨hsettings, hv.store ?_ 0⟩
  rw [hsettings]
  exact .of_mem (Int.mem_range_iff.mp hk) hq

theorem UsesInRange.takeSamples (hs : s.1.UsesInRange)
    (hsamples : s.1.g_SampleNum ≤ s.1.planes) (hp : p ∈ positions 0 s.1.g_Height 0 s.1.g_Width) :
    (takeSamples s p).1.toSettings = s.1.toSettings ∧ (takeSamples s p).1.UsesInRange := by
  refine Scan.foldl_keeps (P := fun s' : Vibe × Rand ↦
    s'.1.toSettings = s.1.toSettings ∧ s'.1.UsesInRange) ?_ s ⟨rfl, hs⟩
  rintro s' k hk ⟨hsettings, hs'⟩
  refine ⟨hsettings, UsesInRange.store hs' ?_ _⟩
  rw [Int.mem_range_iff] at hk
  rw [hsettings]
  exact .of_mem ⟨hk.1, hk.2.trans_le hsamples⟩ hp

/-- **The constructor.** -/
theorem usesInRange_new (height width : ℕ) (img : Image) (rand : Rand) :
    (new height width img rand).1.toSettings = defaults height width ∧
      (new height width img rand).1.UsesInRange := by
  rw [new]
  refine Scan.foldl_keeps (P := fun s : Vibe × Rand ↦
    s.1.toSettings = defaults height width ∧ s.1.UsesInRange) ?_ _
    (usesInRange_zeroModel height width img)
  rw [(usesInRange_zeroModel height width img).1]
  rintro s p hp ⟨hsettings, hs⟩
  have hsamples : s.1.g_SampleNum ≤ s.1.planes := by
    rw [hsettings]
    exact le_rfl
  have hp' : p ∈ positions 0 s.1.g_Height 0 s.1.g_Width := by
    rw [hsettings]
    exact mem_positions_of_interior hp
  obtain ⟨hsettings', hs'⟩ := hs.takeSamples hsamples hp'
  exact ⟨hsettings'.trans hsettings, hs'⟩

/-! ## Where there are samples -/

/-- What is drawn near a pixel that is not passed over is in the image. -/
theorem getRandomPosition_mem_positions (hoffset : v.g_offset = 1)
    (hp : p ∈ positions 0 v.g_Height 0 v.g_Width) (hskipped : ¬v.isSkipped p) (r r' : Draw) :
    getRandomPosition v.g_offset p r r' ∈ positions 0 v.g_Height 0 v.g_Width := by
  have hrow := getRandomNear_bounds le_rfl p.1 r
  have hcol := getRandomNear_bounds le_rfl p.2 r'
  rw [Settings.isSkipped, hoffset] at hskipped
  simp only [Bool.or_eq_true, decide_eq_true_eq, not_or, not_lt] at hskipped
  rw [mem_positions] at hp
  rw [hoffset, mem_positions]
  show (0 ≤ getRandomNear 1 p.1 r ∧ getRandomNear 1 p.1 r < _) ∧
    0 ≤ getRandomNear 1 p.2 r' ∧ getRandomNear 1 p.2 r' < _
  omega

/-- **Step.** -/
theorem UsesInRange.detectPixel (hs : s.1.UsesInRange) (hoffset : s.1.g_offset = 1)
    (hpos : 1 ≤ s.1.g_SampleNum) (hsamples : s.1.g_SampleNum ≤ s.1.planes)
    (hp : p ∈ positions 0 s.1.g_Height 0 s.1.g_Width) : (detectPixel s p).1.UsesInRange := by
  have hrecorded : (s.1.recorded p).UsesInRange := by
    refine hs.record fun a ha ↦ ?_
    obtain ⟨k, hk, rfl⟩ := List.mem_map.mp ha
    have hk' := (matchLoop_spec _ _ _ _).1.subset hk
    rw [Int.mem_range_iff] at hk'
    exact .of_mem ⟨hk'.1, hk'.2.trans_le hsamples⟩ hp
  rcases detectPixel_cases p s with ⟨-, heq⟩ | ⟨-, -, heq⟩ | ⟨hskipped, -, heq⟩
  · rw [heq]
    exact hs
  · rw [heq]
    exact hrecorded
  · rw [heq]
    refine update_induction (P := UsesInRange) hrecorded ?_
    intro v rand q hsettings _ hq hv
    have hsettings : v.toSettings = s.1.toSettings := hsettings
    have hq : q ∈ positions 0 s.1.g_Height 0 s.1.g_Width := by
      rcases hq with rfl | ⟨r, r', rfl⟩
      · exact hp
      · rw [hsettings]
        exact getRandomPosition_mem_positions hoffset hp hskipped r r'
    refine hv.store ?_ _
    rw [hsettings]
    obtain ⟨hlo, hhi⟩ := getRandom_bounds hpos rand
    exact .of_mem ⟨hlo, hhi.trans_le hsamples⟩ hq

/-- **Step.** -/
theorem UsesInRange.clearPixel (hs : s.1.UsesInRange) (i_lifeLength : ℤ)
    (hpos : 1 ≤ s.1.g_SampleNum) (hsamples : s.1.g_SampleNum ≤ s.1.planes)
    (hp : p ∈ positions 0 s.1.g_Height 0 s.1.g_Width) :
    (clearPixel i_lifeLength s p).1.UsesInRange := by
  have hmem : ∀ rand, s.1.toSettings.InRange (getRandom s.1.g_SampleNum rand, p) := by
    intro rand
    obtain ⟨hlo, hhi⟩ := getRandom_bounds hpos rand
    exact .of_mem ⟨hlo, hhi.trans_le hsamples⟩ hp
  rcases clearPixel_cases i_lifeLength p s with ⟨-, rand, rand', heq⟩ | ⟨-, heq⟩
  · rw [heq]
    have hset : (s.1.setLifeLength p 0).UsesInRange := hs
    exact (hset.store (hmem rand) _).store (hmem rand') _
  · rw [heq]
    exact hs

/-- **The loops of `Detect`.** -/
theorem UsesInRange.detectScan (img : Image) (hoffset : s.1.g_offset = 1)
    (hpos : 1 ≤ s.1.g_SampleNum) (hsamples : s.1.g_SampleNum ≤ s.1.planes) :
    (detectScan img s).1.UsesInRange := by
  refine detectScan_induction (P := fun s' : Vibe × Rand ↦ s'.1.UsesInRange)
    (fun _ ha ↦ absurd ha List.not_mem_nil) ?_
  intro s' p hp hsettings hs'
  apply hs'.detectPixel
  · rw [hsettings]
    exact hoffset
  · rw [hsettings]
    exact hpos
  · rw [hsettings]
    exact hsamples
  · rw [hsettings]
    exact hp

theorem mem_positions_of_mem_interior (hoffset : v.g_offset = 1) (hp : p ∈ v.interior) :
    p ∈ positions 0 v.g_Height 0 v.g_Width := by
  rw [Settings.interior, hoffset, mem_positions] at hp
  rw [mem_positions]
  omega

/-- **`ClearLongLifeForeground`.** -/
theorem UsesInRange.clearLongLifeForeground (hs : s.1.UsesInRange) (i_lifeLength : ℤ)
    (hoffset : s.1.g_offset = 1) (hpos : 1 ≤ s.1.g_SampleNum)
    (hsamples : s.1.g_SampleNum ≤ s.1.planes) :
    (clearLongLifeForeground i_lifeLength s).1.UsesInRange := by
  refine clearLongLifeForeground_induction (P := fun s' : Vibe × Rand ↦ s'.1.UsesInRange) hs ?_
  intro s' p hp hsettings hs'
  apply hs'.clearPixel
  · rw [hsettings]
    exact hpos
  · rw [hsettings]
    exact hsamples
  · rw [hsettings]
    exact mem_positions_of_mem_interior hoffset hp

/-! ## Where there are none -/

theorem compared_of_none (hnone : v.g_SampleNum ≤ 0) (p : Position) : v.compared p = (0, []) := by
  have hrange : Int.range 0 v.g_SampleNum = [] := by
    refine List.eq_nil_iff_forall_not_mem.mpr fun k hk ↦ ?_
    rw [Int.mem_range_iff] at hk
    omega
  rw [compared, hrange, matchLoop]

/-- Without samples no pixel of the background is found where a match is wanted, and so no sample
is drawn. -/
theorem detectPixel_quiet (hquiet : s.1.isSkipped p ∨ s.1.g_SampleNum ≤ 0 ∧ 1 ≤ s.1.g_MinMatch) :
    (detectPixel s p).1.accesses = s.1.accesses ∧ (detectPixel s p).2 = s.2 := by
  rcases detectPixel_cases p s with ⟨-, heq⟩ | ⟨hskipped, -, heq⟩ | ⟨hskipped, hmatch, heq⟩
  · rw [heq]
    exact ⟨rfl, rfl⟩
  · have hnone := compared_of_none (hquiet.resolve_left hskipped).1 p
    have haccesses : (s.1.recorded p).accesses = s.1.accesses := by
      rw [recorded, hnone]
      exact List.append_nil _
    rw [heq]
    exact ⟨haccesses, rfl⟩
  · obtain ⟨hnone, hwanted⟩ := hquiet.resolve_left hskipped
    rw [compared_of_none hnone] at hmatch
    exact absurd (hwanted.trans hmatch) (by decide)

/-- The loops of `Detect` do not use `g_Model` then. -/
theorem detectScan_quiet (img : Image)
    (hquiet : ∀ p ∈ positions 0 s.1.g_Height 0 s.1.g_Width,
      s.1.isSkipped p ∨ s.1.g_SampleNum ≤ 0 ∧ 1 ≤ s.1.g_MinMatch) :
    (detectScan img s).1.accesses = [] ∧ (detectScan img s).2 = s.2 := by
  refine detectScan_induction (P := fun s' : Vibe × Rand ↦ s'.1.accesses = [] ∧ s'.2 = s.2)
    ⟨rfl, rfl⟩ ?_
  rintro s' p hp hsettings ⟨haccesses, hrand⟩
  have hquiet' : s'.1.isSkipped p ∨ s'.1.g_SampleNum ≤ 0 ∧ 1 ≤ s'.1.g_MinMatch := by
    rw [hsettings]
    exact hquiet p hp
  obtain ⟨haccesses', hrand'⟩ := detectPixel_quiet hquiet'
  exact ⟨haccesses'.trans haccesses, hrand'.trans hrand⟩

/-- Nor does `ClearLongLifeForeground` where no life is long. -/
theorem clearLongLifeForeground_quiet {i_lifeLength : ℤ}
    (hlife : ∀ p ∈ s.1.interior, s.1.LifeLength p ≤ i_lifeLength) :
    (clearLongLifeForeground i_lifeLength s).1.accesses = s.1.accesses := by
  let I : List Position → Vibe × Rand → Prop := fun visited s' ↦
    s'.1.accesses = s.1.accesses ∧ ∀ p ∉ visited, s'.1.LifeLength p = s.1.LifeLength p
  have hend : I s.1.interior (clearLongLifeForeground i_lifeLength s) := by
    refine Scan.foldl_scan I (nodup_positions _ _ _ _) ?_ ⟨rfl, fun _ _ ↦ rfl⟩
    rintro visited s' p hp hnot ⟨haccesses, hsame⟩
    rcases clearPixel_cases i_lifeLength p s' with ⟨hlong, -⟩ | ⟨-, heq⟩
    · rw [hsame p hnot] at hlong
      exact absurd (hlife p hp) (Int.not_le.mpr hlong)
    · rw [heq]
      refine ⟨haccesses, fun q hq ↦ ?_⟩
      rw [List.mem_append, List.mem_singleton, not_or] at hq
      exact (Function.update_of_ne hq.2 ..).trans (hsame q hq.1)
  exact hend.1

/-! ## `Detect` -/

/-- Whether `Detect` uses only subscripts that there are, however `rand()` turns out: there is no
pixel to compare, or the samples are some of those that were made, or there are none at all, a
match is wanted and no life is long. -/
def Careful (v : Vibe) : Prop :=
  v.g_Height ≤ 1 ∨ v.g_Width ≤ 1 ∨ (1 ≤ v.g_SampleNum ∧ v.g_SampleNum ≤ v.planes) ∨
    (v.g_SampleNum ≤ 0 ∧ 1 ≤ v.g_MinMatch ∧ ∀ p ∈ v.interior, v.LifeLength p ≤ lifeLength)

/-- In an image of one row or column every pixel is passed over. -/
theorem skipped_of_small (hoffset : v.g_offset = 1) (hsmall : v.g_Height ≤ 1 ∨ v.g_Width ≤ 1) :
    (∀ p ∈ positions 0 v.g_Height 0 v.g_Width, v.isSkipped p) ∧ ∀ p, p ∉ v.interior := by
  constructor
  · intro p hp
    rw [mem_positions] at hp
    simp only [Settings.isSkipped, hoffset, Bool.or_eq_true, decide_eq_true_eq]
    omega
  · intro p hp
    rw [Settings.interior, hoffset, mem_positions] at hp
    omega

theorem usesInRange_detect (cv : OpenCV) (img : Image) (hoffset : s.1.g_offset = 1)
    (hcareful : s.1.Careful) : (detect cv img s).1.UsesInRange := by
  obtain ⟨hsettings, hlives, -⟩ := detectCleaned_frame cv img s
  -- in the cases without a sample no subscript is used at all
  have hnone : (∀ p ∈ positions 0 s.1.g_Height 0 s.1.g_Width,
        s.1.isSkipped p ∨ s.1.g_SampleNum ≤ 0 ∧ 1 ≤ s.1.g_MinMatch) →
      (∀ p ∈ s.1.interior, s.1.LifeLength p ≤ lifeLength) → (detect cv img s).1.UsesInRange := by
    intro hquiet hlife a ha
    have hlife' : ∀ p ∈ (detectCleaned cv img s).1.interior,
        (detectCleaned cv img s).1.LifeLength p ≤ lifeLength := by
      intro p hp
      rw [hsettings] at hp
      exact (congrFun hlives p).trans_le (hlife p hp)
    rw [detect, clearLongLifeForeground_quiet hlife'] at ha
    rw [detectCleaned, (detectScan_quiet img hquiet).1] at ha
    cases ha
  rcases hcareful with hheight | hwidth | ⟨hpos, hsamples⟩ | ⟨hsamples, hmatch, hlife⟩
  · obtain ⟨hskipped, hinterior⟩ := skipped_of_small hoffset (.inl hheight)
    exact hnone (fun p hp ↦ .inl (hskipped p hp)) fun p hp ↦ absurd hp (hinterior p)
  · obtain ⟨hskipped, hinterior⟩ := skipped_of_small hoffset (.inr hwidth)
    exact hnone (fun p hp ↦ .inl (hskipped p hp)) fun p hp ↦ absurd hp (hinterior p)
  · have hcleaned : (detectCleaned cv img s).1.UsesInRange :=
      UsesInRange.detectScan img hoffset hpos hsamples
    apply hcleaned.clearLongLifeForeground
    · rw [hsettings]
      exact hoffset
    · rw [hsettings]
      exact hpos
    · rw [hsettings]
      exact hsamples
  · exact hnone (fun p _ ↦ .inr ⟨hsamples, hmatch⟩) hlife

/-! ## Where it uses others -/

/-- A use of a subscript stays recorded. -/
theorem UsesInRange.of_record {as : List Subscript} (hv : (v.record site as).UsesInRange) :
    v.UsesInRange := fun a ha ↦ hv a (List.mem_append_left _ ha)

theorem UsesInRange.of_store {a : Subscript} {val : UInt8}
    (hv : (v.store site a val).UsesInRange) : v.UsesInRange := by
  have hrecord : (v.record site [a]).UsesInRange := hv
  exact hrecord.of_record

theorem UsesInRange.of_update (hv : (updateNear p (updateOwn p s)).1.UsesInRange) :
    s.1.UsesInRange := by
  refine update_induction (P := fun v ↦ v.UsesInRange → s.1.UsesInRange) id ?_ hv
  intro v rand q _ _ _ hkeep hv
  exact hkeep hv.of_store

theorem UsesInRange.of_detectPixel (hv : (Vibe.detectPixel s p).1.UsesInRange) :
    s.1.UsesInRange := by
  rcases detectPixel_cases p s with ⟨-, heq⟩ | ⟨-, -, heq⟩ | ⟨-, -, heq⟩
  · rw [heq] at hv
    exact hv
  · rw [heq] at hv
    have hrecorded : (s.1.recorded p).UsesInRange := hv
    exact hrecorded.of_record
  · rw [heq] at hv
    have hrecorded : (s.1.recorded p).UsesInRange := hv.of_update
    exact hrecorded.of_record

theorem UsesInRange.of_clearPixel {i_lifeLength : ℤ}
    (hv : (Vibe.clearPixel i_lifeLength s p).1.UsesInRange) : s.1.UsesInRange := by
  rcases clearPixel_cases i_lifeLength p s with ⟨-, rand, rand', heq⟩ | ⟨-, heq⟩
  · rw [heq] at hv
    exact hv.of_store.of_store
  · rw [heq] at hv
    exact hv

/-- The last random number leads to no sample if there is none, or if there are too many. -/
theorem not_inRange_getRandom_last (hsamples : v.g_SampleNum ≤ 0 ∨ v.planes < v.g_SampleNum)
    (p : Position) :
    ¬v.toSettings.InRange (getRandom v.g_SampleNum (Fin.last RAND_MAX), p) := by
  rintro ⟨hk, -⟩
  rw [getRandom_last] at hk
  omega

/-- **A pixel that is compared** reads a sample that there is not, or lets one be drawn. -/
theorem not_usesInRange_detectPixel (hskipped : ¬s.1.isSkipped p)
    (hrand : s.2 = Stream'.cons 0 (Stream'.const (Fin.last RAND_MAX))) (hplanes : 0 ≤ s.1.planes)
    (hsamples : s.1.planes < s.1.g_SampleNum ∨ s.1.g_SampleNum ≤ 0 ∧ s.1.g_MinMatch ≤ 0) :
    ¬(detectPixel s p).1.UsesInRange := by
  intro hv
  rcases detectPixel_cases p s with ⟨h, -⟩ | ⟨-, hmatch, heq⟩ | ⟨-, -, heq⟩
  · exact hskipped h
  · rcases hsamples with hmany | ⟨hnone, hwanted⟩
    · have hread : s.1.planes ∈ (s.1.compared p).2 := by
        rw [compared, (matchLoop_spec _ _ _ _).2 hmatch, Int.mem_range_iff]
        exact ⟨hplanes, hmany⟩
      have hmem : (Site.compare, (s.1.planes, p)) ∈ (s.1.recorded p).accesses :=
        List.mem_append_right _ (List.mem_map_of_mem (List.mem_map_of_mem hread))
      rw [heq] at hv
      exact absurd (hv _ hmem).1.2 (lt_irrefl _)
    · rw [compared_of_none hnone] at hmatch
      omega
  · rw [heq] at hv
    have hown : (updateOwn p ((s.1.recorded p).setForeImg p 0, s.2)).1.UsesInRange := by
      rcases updateNear_cases p (updateOwn p ((s.1.recorded p).setForeImg p 0, s.2)) with
        hsame | ⟨rand, r, r', hnear⟩
      · rw [hsame] at hv
        exact hv
      · rw [hnear] at hv
        exact hv.of_store
    rw [hrand, updateOwn] at hown
    refine not_inRange_getRandom_last (hsamples.symm.imp And.left id) p (hown (.update, _) ?_)
    exact List.mem_append_right _ (List.mem_singleton_self _)

/-- **A pixel whose life was long** lets one be drawn. -/
theorem not_usesInRange_clearPixel {i_lifeLength : ℤ} (hlife : s.1.LifeLength p > i_lifeLength)
    (hrand : s.2 = Stream'.const (Fin.last RAND_MAX)) (hsamples : s.1.g_SampleNum ≤ 0) :
    ¬(clearPixel i_lifeLength s p).1.UsesInRange := by
  intro hv
  rw [clearPixel, if_pos hlife, hrand] at hv
  refine not_inRange_getRandom_last (.inl hsamples) p (hv (.absorb, _) ?_)
  exact List.mem_append_right _ (List.mem_singleton_self _)

/-- The first pixel that is not passed over. -/
theorem exists_first (hoffset : v.g_offset = 1) (hheight : 2 ≤ v.g_Height)
    (hwidth : 2 ≤ v.g_Width) :
    ∃ p before after, positions 0 v.g_Height 0 v.g_Width = before ++ p :: after ∧
      (∀ q ∈ before, v.isSkipped q) ∧ ¬v.isSkipped p := by
  let ps := positions 0 v.g_Height 0 v.g_Width
  have hfound : (ps.find? fun q ↦ !v.isSkipped q).isSome := by
    rw [List.find?_isSome]
    refine ⟨(1, 1), mem_positions.mpr ?_, ?_⟩
    · dsimp only
      omega
    · simp only [Settings.isSkipped, hoffset, Bool.not_eq_true', Bool.or_eq_false_iff,
        decide_eq_false_iff_not]
      omega
  obtain ⟨p, hp⟩ := Option.isSome_iff_exists.mp hfound
  obtain ⟨hskipped, before, after, hsplit, hbefore⟩ := List.find?_eq_some_iff_append.mp hp
  exact ⟨p, before, after, hsplit, fun q hq ↦ by simpa using hbefore q hq, by simpa using hskipped⟩

/-- The first pixel draws too large a number. -/
theorem not_usesInRange_detectScan (img : Image) (hoffset : s.1.g_offset = 1)
    (hheight : 2 ≤ s.1.g_Height) (hwidth : 2 ≤ s.1.g_Width)
    (hrand : s.2 = Stream'.cons 0 (Stream'.const (Fin.last RAND_MAX))) (hplanes : 0 ≤ s.1.planes)
    (hsamples : s.1.planes < s.1.g_SampleNum ∨ s.1.g_SampleNum ≤ 0 ∧ s.1.g_MinMatch ≤ 0) :
    ¬(detectScan img s).1.UsesInRange := by
  obtain ⟨p, before, after, hsplit, hbefore, hp⟩ := exists_first hoffset hheight hwidth
  rw [detectScan]
  dsimp only
  rw [hsplit, List.foldl_append, List.foldl_cons]
  refine Scan.foldl_keeps (P := fun s' : Vibe × Rand ↦ ¬s'.1.UsesInRange)
    (fun s' q _ hs' hv ↦ hs' hv.of_detectPixel) _ ?_
  -- before the first pixel nothing is drawn
  let s₀ : Vibe × Rand :=
    ({ s.1 with g_ForeImg := fun _ ↦ 0, g_Gray := img, accesses := [] }, s.2)
  have hstart : (before.foldl detectPixel s₀).1.toSettings = s.1.toSettings ∧
      (before.foldl detectPixel s₀).2 = s.2 := by
    refine Scan.foldl_keeps (P := fun s' : Vibe × Rand ↦ s'.1.toSettings = s.1.toSettings ∧
      s'.2 = s.2) ?_ s₀ ⟨rfl, rfl⟩
    rintro s' q hq ⟨hsettings, hrand'⟩
    have hskipped : s'.1.isSkipped q := by
      rw [hsettings]
      exact hbefore q hq
    exact ⟨(detectPixel_frame q s').1.trans hsettings,
      (detectPixel_quiet (.inl hskipped)).2.trans hrand'⟩
  obtain ⟨hsettings, hrand'⟩ := hstart
  apply not_usesInRange_detectPixel
  · rw [hsettings]
    exact hp
  · exact hrand'.trans hrand
  · rw [hsettings]
    exact hplanes
  · rw [hsettings]
    exact hsamples

/-- A long life draws too large a number. -/
theorem not_usesInRange_clearLongLifeForeground {i_lifeLength : ℤ} (hp : p ∈ s.1.interior)
    (hlife : s.1.LifeLength p > i_lifeLength)
    (hrand : s.2 = Stream'.const (Fin.last RAND_MAX)) (hsamples : s.1.g_SampleNum ≤ 0) :
    ¬(clearLongLifeForeground i_lifeLength s).1.UsesInRange := by
  let I : List Position → Vibe × Rand → Prop := fun visited s' ↦
    s'.1.toSettings = s.1.toSettings ∧ s'.2 = Stream'.const (Fin.last RAND_MAX) ∧
      (p ∉ visited → s'.1.LifeLength p = s.1.LifeLength p)
  have hstep : ∀ visited q s',
      I visited s' → I (visited ++ [q]) (clearPixel i_lifeLength s' q) := by
    rintro visited q s' ⟨hsettings, hrand', hsame⟩
    refine ⟨(clearPixel_frame i_lifeLength q s').1.trans hsettings, ?_, fun hnot ↦ ?_⟩
    · rw [clearPixel, hrand']
      split <;> rfl
    · rw [List.mem_append, List.mem_singleton, not_or] at hnot
      exact (clearPixel_of_ne i_lifeLength hnot.2 s').1.trans (hsame hnot.1)
  refine Scan.foldl_at I hstep (nodup_positions _ _ _ _) hp ⟨rfl, hrand, fun _ ↦ rfl⟩
    (P := fun s' : Vibe × Rand ↦ ¬s'.1.UsesInRange) ?_ fun s' q _ hs' hv ↦ hs' hv.of_clearPixel
  rintro visited s' hnot ⟨hsettings, hrand', hsame⟩
  apply not_usesInRange_clearPixel
  · rw [hsame hnot]
    exact hlife
  · exact hrand'
  · rw [hsettings]
    exact hsamples

/-- **Any other call of `Detect`** can use a subscript that there is not. -/
theorem exists_not_usesInRange (cv : OpenCV) (img : Image) (hoffset : v.g_offset = 1)
    (hplanes : 0 ≤ v.planes) (hcareless : ¬v.Careful) :
    ∃ rand, ¬(detect cv img (v, rand)).1.UsesInRange := by
  simp only [Careful, not_or, not_and, not_le] at hcareless
  obtain ⟨hheight, hwidth, hsamples, hquiet⟩ := hcareless
  by_cases hdraws : v.planes < v.g_SampleNum ∨ v.g_SampleNum ≤ 0 ∧ v.g_MinMatch ≤ 0
  · let s : Vibe × Rand := (v, Stream'.cons 0 (Stream'.const (Fin.last RAND_MAX)))
    have hscan : ¬(detectScan img s).1.UsesInRange :=
      not_usesInRange_detectScan img hoffset hheight hwidth rfl hplanes hdraws
    have hcleaned : ¬(detectCleaned cv img s).1.UsesInRange := hscan
    refine ⟨s.2, ?_⟩
    rw [detect]
    exact clearLongLifeForeground_induction (P := fun s' : Vibe × Rand ↦ ¬s'.1.UsesInRange) hcleaned
      fun s' p _ _ hs' hv ↦ hs' hv.of_clearPixel
  · have hnone : v.g_SampleNum ≤ 0 := by omega
    have hwanted : 1 ≤ v.g_MinMatch := by omega
    have hlong := hquiet hnone hwanted
    push Not at hlong
    obtain ⟨p, hp, hlife⟩ := hlong
    let rand : Rand := Stream'.const (Fin.last RAND_MAX)
    obtain ⟨hsettings, hlives, -⟩ := detectCleaned_frame cv img (v, rand)
    refine ⟨rand, not_usesInRange_clearLongLifeForeground (p := p) ?_ ?_ ?_ ?_⟩
    · rw [hsettings]
      exact hp
    · exact hlife.trans_eq (congrFun hlives p).symm
    · exact (detectScan_quiet (s := (v, rand)) img fun _ _ ↦ .inr ⟨hnone, hwanted⟩).2
    · rw [hsettings]
      exact hnone

end

/-! ## All calls -/

/-- A call. -/
inductive Call where
  | setMinMatch (nthreshold : ℤ)
  | setRadius (radius : ℤ)
  | setSampleNum (num : ℤ)
  | setThreshold (t : Threshold)
  | detect (img : Image)

/-- What a call does. -/
def call (cv : OpenCV) (s : Vibe × Rand) : Call → Vibe × Rand
  | .setMinMatch nthreshold => (s.1.setMinMatch nthreshold, s.2)
  | .setRadius radius => (s.1.setRadius radius, s.2)
  | .setSampleNum num => (s.1.setSampleNum num, s.2)
  | .setThreshold t => (s.1.setThreshold t, s.2)
  | .detect img => Vibe.detect cv img s

/-- An object that is made from an image and then called. -/
def calls (cv : OpenCV) : System (Vibe × Rand) Call where
  start s := ∃ height width img rand, s = new height width img rand
  next s c := some (call cv s c)

/-- The calls of `Detect` that are careful; the setters may be called at any time. -/
def CallsCarefully (s : Vibe × Rand) : Call → Prop
  | .detect _ => s.1.Careful
  | _ => True

/-- What holds between the calls. -/
structure Ready (v : Vibe) : Prop where
  inRange : v.UsesInRange
  g_offset : v.g_offset = 1
  planes : v.planes = 20

/-- **Step.** -/
theorem Ready.call {cv : OpenCV} {s : Vibe × Rand} (hs : Ready s.1) (c : Call)
    (hcareful : CallsCarefully s c) : Ready (call cv s c).1 := by
  cases c with
  | setMinMatch nthreshold => exact ⟨hs.inRange, hs.g_offset, hs.planes⟩
  | setRadius radius => exact ⟨hs.inRange, hs.g_offset, hs.planes⟩
  | setSampleNum num => exact ⟨hs.inRange, hs.g_offset, hs.planes⟩
  | setThreshold t => exact ⟨hs.inRange, hs.g_offset, hs.planes⟩
  | detect img =>
      have hsettings := toSettings_detect cv img s
      show Ready (Vibe.detect cv img s).1
      refine ⟨usesInRange_detect cv img hs.g_offset hcareful, ?_, ?_⟩
      · exact (congrArg Settings.g_offset hsettings).trans hs.g_offset
      · exact (congrArg Settings.planes hsettings).trans hs.planes

/-- **Run.** -/
theorem ready_of_reachable {cv : OpenCV} {s : Vibe × Rand}
    (hs : (calls cv).ReachableIf CallsCarefully s) : Ready s.1 := by
  refine hs.invariant (I := fun s ↦ Ready s.1) ?_ ?_
  · rintro s ⟨height, width, img, rand, rfl⟩
    obtain ⟨hsettings, hv⟩ := usesInRange_new height width img rand
    exact ⟨hv, congrArg Settings.g_offset hsettings, congrArg Settings.planes hsettings⟩
  · rintro s c s' hs hcareful ⟨⟩
    exact hs.call c hcareful

/-- **As long as `Detect` is called carefully all subscripts are there**, and a call that is not
careful can use another one. -/
theorem usesInRange_of_reachable {cv : OpenCV} {s : Vibe × Rand}
    (hs : (calls cv).ReachableIf CallsCarefully s) :
    s.1.UsesInRange ∧ ∀ img, ¬CallsCarefully s (.detect img) →
      ∃ rand, ¬(call cv (s.1, rand) (.detect img)).1.UsesInRange := by
  have hready := ready_of_reachable hs
  refine ⟨hready.inRange, fun img hcareless ↦ ?_⟩
  exact exists_not_usesInRange cv img hready.g_offset (hready.planes ▸ (by decide)) hcareless

/-- Ten of the twenty samples may be used. -/
theorem usesInRange_ten :
    (call .blank (call .blank (new 3 3 (fun _ ↦ 7) (Stream'.const 0)) (.setSampleNum 10))
      (.detect fun _ ↦ 9)).1.UsesInRange := by
  have hstart : (calls .blank).ReachableIf CallsCarefully
      (new 3 3 (fun _ ↦ 7) (Stream'.const 0)) := .start ⟨3, 3, _, _, rfl⟩
  have hplanes : (new 3 3 (fun _ ↦ 7) (Stream'.const 0)).1.planes = 20 :=
    congrArg Settings.planes (usesInRange_new 3 3 (fun _ ↦ 7) (Stream'.const 0)).1
  have hten : (calls .blank).ReachableIf CallsCarefully
      (call .blank (new 3 3 (fun _ ↦ 7) (Stream'.const 0)) (.setSampleNum 10)) :=
    .step (a := .setSampleNum 10) hstart trivial rfl
  refine (usesInRange_of_reachable (.step (a := .detect fun _ ↦ 9) hten ?_ rfl)).1
  refine .inr (.inr (.inl ⟨show (1 : ℤ) ≤ 10 by decide, ?_⟩))
  show 10 ≤ (new 3 3 (fun _ ↦ 7) (Stream'.const 0)).1.planes
  rw [hplanes]
  decide

theorem new_two (img : Image) (rand : Rand) :
    new 2 2 img rand = ((fields 2 2 img).zeroModel, rand) := by
  have hinterior : (fields 2 2 img).zeroModel.interior = [] := by
    rw [(usesInRange_zeroModel 2 2 img).1]
    decide
  rw [new, hinterior, List.foldl_nil]

/-- After `SetSampleNum(100)` it is not so. -/
theorem not_usesInRange :
    ¬∀ (cv : OpenCV) (s : Vibe × Rand), (calls cv).Reachable s → s.1.UsesInRange := by
  intro h
  obtain ⟨hsettings, -⟩ := usesInRange_zeroModel 2 2 fun _ ↦ 0
  have hcareless : ¬((fields 2 2 fun _ ↦ 0).zeroModel.setSampleNum 100).Careful := by
    have hheight : (fields 2 2 fun _ ↦ 0).zeroModel.g_Height = 2 :=
      congrArg Settings.g_Height hsettings
    have hwidth : (fields 2 2 fun _ ↦ 0).zeroModel.g_Width = 2 :=
      congrArg Settings.g_Width hsettings
    have hplanes : (fields 2 2 fun _ ↦ 0).zeroModel.planes = 20 :=
      congrArg Settings.planes hsettings
    simp [Careful, setSampleNum, hheight, hwidth, hplanes]
  have hoffset : ((fields 2 2 fun _ ↦ 0).zeroModel.setSampleNum 100).g_offset = 1 :=
    congrArg Settings.g_offset hsettings
  have hplanes : ((fields 2 2 fun _ ↦ 0).zeroModel.setSampleNum 100).planes = 20 :=
    congrArg Settings.planes hsettings
  obtain ⟨rand, hrand⟩ := exists_not_usesInRange .blank (fun _ ↦ 0) hoffset
    (hplanes ▸ (by decide)) hcareless
  have hstart : (calls .blank).Reachable ((fields 2 2 fun _ ↦ 0).zeroModel, rand) :=
    .start ⟨2, 2, _, rand, (new_two _ rand).symm⟩
  exact hrand (h .blank _ (.step (a := .detect fun _ ↦ 0)
    (.step (a := .setSampleNum 100) hstart trivial rfl) trivial rfl))

end Vibe

end CodeToolKit.ObjectDetect
