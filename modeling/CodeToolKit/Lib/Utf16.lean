import Mathlib.Data.List.Chain
import Mathlib.Data.Nat.Notation

/-!
# UTF-16

The code units of a code point, and a decoder that reads every sequence of units: a lead
surrogate followed by a trail surrogate is one code point, any other unit is the code point
of its own number.

Encoding a lead surrogate by itself and a trail surrogate after it would read back as one
code point.  Without such neighbours decoding undoes encoding (`decode_encode`).
-/

namespace CodeToolKit.Lib.Utf16

/-- The first unit of a pair. -/
def IsLead (u : ℕ) : Prop := 0xd800 ≤ u ∧ u < 0xdc00

/-- The second unit of a pair. -/
def IsTrail (u : ℕ) : Prop := 0xdc00 ≤ u ∧ u < 0xe000

instance : DecidablePred IsLead := fun _ ↦ inferInstanceAs (Decidable (_ ∧ _))

instance : DecidablePred IsTrail := fun _ ↦ inferInstanceAs (Decidable (_ ∧ _))

/-- The units of a code point. -/
def units (cp : ℕ) : List ℕ :=
  if cp < 0x10000 then [cp]
  else [0xd800 + (cp - 0x10000) / 0x400, 0xdc00 + (cp - 0x10000) % 0x400]

/-- The units of a text. -/
def encode (cps : List ℕ) : List ℕ := cps.flatMap units

/-- The code points of a sequence of units. -/
def decode : List ℕ → List ℕ
  | [] => []
  | [u] => [u]
  | u :: v :: us =>
      if IsLead u ∧ IsTrail v then (0x10000 + (u - 0xd800) * 0x400 + (v - 0xdc00)) :: decode us
      else u :: decode (v :: us)

/-- No lead surrogate is a code point right before a trail surrogate. -/
def Unpaired (cps : List ℕ) : Prop := cps.IsChain fun cp cp' ↦ ¬ (IsLead cp ∧ IsTrail cp')

/-- Units have 16 bits. -/
theorem unit_lt {cp u : ℕ} (hlt : cp < 0x110000) (hu : u ∈ units cp) : u < 0x10000 := by
  rw [units] at hu
  split at hu
  · rw [List.mem_singleton.mp hu]
    assumption
  · rcases List.mem_pair.mp hu with hu | hu
    · rw [hu]
      omega
    · rw [hu]
      omega

/-- A unit that starts no pair is a code point by itself. -/
theorem decode_cons {u : ℕ} {us : List ℕ} (h : ∀ v, us.head? = some v → ¬ (IsLead u ∧ IsTrail v)) :
    decode (u :: us) = u :: decode us := by
  cases us with
  | nil => rfl
  | cons v us => rw [decode, if_neg (h v rfl)]

/-- The units of a supplementary code point are read as that code point. -/
theorem decode_pair {cp : ℕ} {us : List ℕ} (hle : 0x10000 ≤ cp) (hlt : cp < 0x110000) :
    decode (units cp ++ us) = cp :: decode us := by
  have hlead : IsLead (0xd800 + (cp - 0x10000) / 0x400) := by
    constructor <;> omega
  have htrail : IsTrail (0xdc00 + (cp - 0x10000) % 0x400) := by
    constructor <;> omega
  have hcp : 0x10000 + (0xd800 + (cp - 0x10000) / 0x400 - 0xd800) * 0x400 +
      (0xdc00 + (cp - 0x10000) % 0x400 - 0xdc00) = cp := by
    omega
  rw [units, if_neg (Nat.not_lt.mpr hle), List.cons_append, List.cons_append, List.nil_append,
    decode, if_pos ⟨hlead, htrail⟩, hcp]

/-- A text starts with a trail surrogate only when its first code point is one. -/
theorem head_encode {cp v : ℕ} {cps : List ℕ} (hlt : cp < 0x110000)
    (h : (encode (cp :: cps)).head? = some v) (hv : IsTrail v) : v = cp := by
  rw [encode, List.flatMap_cons, units] at h
  split at h
  · exact (Option.some.inj h).symm
  · obtain ⟨hlow, -⟩ := hv
    rw [← Option.some.inj h] at hlow
    omega

/-- **Decoding undoes encoding**, where the encoding joins no two surrogates. -/
theorem decode_encode {cps : List ℕ} (hlt : ∀ cp ∈ cps, cp < 0x110000) (h : Unpaired cps) :
    decode (encode cps) = cps := by
  induction cps with
  | nil => rfl
  | cons cp cps ih =>
      have hih := ih (fun c hc ↦ hlt c (List.mem_cons_of_mem _ hc)) h.of_cons
      rw [encode, List.flatMap_cons]
      by_cases hcp : cp < 0x10000
      · rw [units, if_pos hcp, List.singleton_append, decode_cons ?_, ← encode, hih]
        rintro v hv ⟨hlead, htrail⟩
        cases cps with
        | nil => cases hv
        | cons cp' cps =>
            have hcp' := head_encode (hlt cp' (by simp)) hv htrail
            rw [hcp'] at htrail
            exact (List.isChain_cons_cons.mp h).1 ⟨hlead, htrail⟩
      · rw [decode_pair (Nat.not_lt.mp hcp) (hlt cp (List.mem_cons_self ..)), ← encode, hih]

end CodeToolKit.Lib.Utf16
