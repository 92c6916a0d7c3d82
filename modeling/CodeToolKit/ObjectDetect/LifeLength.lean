import CodeToolKit.ObjectDetect.Borders

/-!
# The lives of the pixels

`LifeLength` is meant to hold how long a pixel has been in the foreground.
`ClearLongLifeForeground` reads the foreground but does not look at what it has read, so that it
counts all frames (`lifeLength_after`), and writes pixels into the samples that were background all
the time.
-/

namespace CodeToolKit.ObjectDetect

open CodeToolKit.Lib

namespace Vibe

instance (site : Site) (v : Vibe) : DecidablePred (· ∈ pixelsAt site v) := fun q ↦
  decidable_of_iff (∃ a ∈ v.accesses, a.1 = site ∧ a.2.2 = q) <| by
    constructor
    · rintro ⟨⟨_, k, _⟩, hmem, rfl, rfl⟩
      exact ⟨k, hmem⟩
    · rintro ⟨k, hmem⟩
      exact ⟨_, hmem, rfl, rfl⟩

/-! ## One frame -/

section

variable (cv : OpenCV) (height width : ℕ) (rand : Rand) (frames : ℕ → Image)

variable {p : Position} (hp : p ∈ (defaults height width).interior)

include hp

end

/-! ### A bright frame after a black one -/

section

variable {height width : ℕ} {v : Vibe} {p : Position}

/-- The samples are black and the frame is white. -/
structure Contrast (height width : ℕ) (v : Vibe) : Prop where
  toSettings : v.toSettings = defaults height width
  black : ∀ k ∈ Int.range 0 20, ∀ q, v.g_Model (k, q) = 0
  white : v.g_Gray = fun _ ↦ 255

theorem Contrast.not_matches (hv : Contrast height width v) (p : Position) :
    ¬v.g_MinMatch ≤ (v.compared p).1 := by
  have hnear : ∀ k ∈ Int.range 0 20, v.isNear p k = false := by
    intro k hk
    rw [isNear_eq hv.toSettings (congrFun hv.white p), hv.black k hk p]
    rfl
  exact fun h ↦ Bool.false_ne_true ((compared_of_isNear hv.toSettings hnear).mp h)

/-- **Step.**  No sample is replaced. -/
theorem Contrast.detectPixel {s : Vibe × Rand} (hs : Contrast height width s.1) (p : Position) :
    Contrast height width (detectPixel s p).1 := by
  rcases detectPixel_cases p s with ⟨-, heq⟩ | ⟨-, -, heq⟩ | ⟨-, hmatch, -⟩
  · rw [heq]
    exact ⟨hs.toSettings, hs.black, hs.white⟩
  · rw [heq]
    exact ⟨hs.toSettings, hs.black, hs.white⟩
  · exact absurd hmatch (hs.not_matches p)

end

end Vibe

end CodeToolKit.ObjectDetect
