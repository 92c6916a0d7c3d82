import CodeToolKit.Serialize.Ownership

/-!
# The length of the encoded array

`encode` keeps the number of bytes in an `int`.  From 2^29 floats on it does not fit there:
`encode` then has no block, or an empty one, or one that is too short (`invertible_iff`).
-/

namespace CodeToolKit.Serialize

open CodeToolKit.Lib

namespace SerializeData

/-- `getSize`. -/
def getSize (o : SerializeData) : ℤ := o.m_size

end SerializeData

/-- A fresh object after it has encoded an array of floats. -/
def encoded (floats : List Word) : SerializeData :=
  (SerializeData.new.encode (some floats) floats.length).1

/-- The array is decoded again, and its size is that of the floats. -/
structure Invertible (floats : List Word) : Prop where
  num : ((encoded floats).decode none).2.2 = floats.length
  data : ∃ b, ((encoded floats).decode none).2.1 = some b ∧
    ((encoded floats).decode none).1.heap.blocks[b]? = some floats
  getSize : (encoded floats).getSize = 4 * floats.length

variable {floats : List Word}

theorem encoded_eq (hpos : 0 < floats.length) :
    encoded floats = SerializeData.new.store floats (toInt (floats.length * 4)) := by
  have hnum : ¬(floats.length : ℤ) ≤ 0 := by omega
  have hnew : SerializeData.new.deleteData = SerializeData.new := rfl
  rw [encoded, SerializeData.encode]
  dsimp only
  rw [if_neg hnum, hnew]

/-- The size of the object is what is left of the number of bytes in an `int`. -/
theorem m_size_encoded (hpos : 0 < floats.length) :
    (encoded floats).m_size = toInt (floats.length * 4) := by
  rw [encoded_eq hpos]
  generalize toInt (floats.length * 4) = size
  rw [SerializeData.store]
  split <;> rfl

/-- An array whose size fits is kept as it is. -/
theorem encoded_of_lt (hpos : 0 < floats.length) (hlt : floats.length < 2 ^ 29) :
    encoded floats = { SerializeData.new with
      m_size := 4 * floats.length
      m_data := some 0
      heap := Heap.empty.alloc floats } := by
  have hsize := (toInt_size (n := floats.length) (by omega)).2.2.1 hlt
  have hnonneg : ¬((floats.length : ℤ) * 4) < 0 := by omega
  have hlength : ((floats.length : ℤ) * 4).toNat / 4 = floats.length := by omega
  rw [encoded_eq hpos, hsize, SerializeData.store, if_neg hnonneg, hlength, List.take_length,
    Int.mul_comm]
  rfl

/-- **Encoding is invertible exactly for less than 2^29 floats.** -/
theorem invertible_iff (hpos : 0 < floats.length) (hnum : floats.length < 2 ^ 31) :
    Invertible floats ↔ floats.length < 2 ^ 29 := by
  constructor
  · intro h
    by_contra hlarge
    have hsize := h.getSize
    have hwrapped := (toInt_size hnum).2.2.2 (Nat.le_of_not_lt hlarge)
    rw [SerializeData.getSize, m_size_encoded hpos] at hsize
    omega
  · intro hlt
    have hencoded := encoded_of_lt hpos hlt
    have hdata : (encoded floats).m_data = some 0 := by rw [hencoded]
    have hblock : (encoded floats).heap.blocks = [floats] := by
      rw [hencoded]
      rfl
    have hintel : (encoded floats).deleteIntel = encoded floats := by
      rw [hencoded]
      rfl
    have hsize : (encoded floats).m_size = 4 * floats.length := by rw [hencoded]
    have hdecode := decode_eq hdata (by rw [hblock]; rfl) hsize (by omega)
    rw [hintel] at hdecode
    refine ⟨?_, ⟨1, ?_, ?_⟩, hsize⟩
    · rw [hdecode]
    · rw [hdecode, Heap.fresh, hblock]
      rfl
    · rw [hdecode]
      show ((encoded floats).heap.blocks ++ [floats])[1]? = some floats
      rw [hblock]
      rfl

theorem invertible_two : Invertible [1, 2] :=
  (invertible_iff (by decide) (by decide)).mpr (by decide)

/-- An array of 2^29 floats is not decoded again. -/
theorem not_invertible :
    ¬∀ floats : List Word, 0 < floats.length → floats.length < 2 ^ 31 → Invertible floats := by
  intro h
  have hlength : (List.replicate (2 ^ 29) (0 : Word)).length = 2 ^ 29 := List.length_replicate
  have hpos : 0 < (List.replicate (2 ^ 29) (0 : Word)).length := by omega
  have hsize := (h _ hpos (by omega)).getSize
  rw [SerializeData.getSize, m_size_encoded hpos, hlength] at hsize
  exact absurd hsize (by decide)

end CodeToolKit.Serialize
