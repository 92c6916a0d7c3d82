import CodeToolKit.Libmms.Utf

/-!
# `bswap.h`

The macros that read little-endian numbers.  `LE_16` and `LE_32` are computed in `int`, so
`LE_32` may be negative.  `LE_64` joins the upper four bytes to that `int`, which is extended
with its sign first: the number is right when the bit 31 is clear, and has all ones in its
upper half otherwise (`LE_64_toNat`).
-/

namespace CodeToolKit.Libmms

open Lib

/-- `LE_16`. -/
def LE_16 (val : ℕ → Byte) : BitVec 32 := (val 0).setWidth 32 ||| (val 1).setWidth 32 <<< 8

/-- `LE_32`. -/
def LE_32 (val : ℕ → Byte) : BitVec 32 :=
  (val 0).setWidth 32 ||| (val 1).setWidth 32 <<< 8 ||| (val 2).setWidth 32 <<< 16 |||
    (val 3).setWidth 32 <<< 24

/-- `LE_64`. -/
def LE_64 (val : ℕ → Byte) : BitVec 64 :=
  (LE_32 val).signExtend 64 ||| (val 4).setWidth 64 <<< 32 ||| (val 5).setWidth 64 <<< 40 |||
    (val 6).setWidth 64 <<< 48 ||| (val 7).setWidth 64 <<< 56

/-- What `LE_64` makes of a 64-bit number. -/
def signExtended (n : ℕ) : ℕ :=
  if n % 2 ^ 32 < 2 ^ 31 then n else 2 ^ 64 - 2 ^ 32 + n % 2 ^ 32

variable {p : ℕ → Byte}

/-- Bits above those of a number are added to it. -/
theorem or_shiftLeft {w k : ℕ} {x : BitVec w} {b : Byte} (hx : x.toNat < 2 ^ k) (hk : k + 8 ≤ w) :
    (x ||| b.setWidth w <<< k).toNat = x.toNat + 2 ^ k * b.toNat ∧
      (x ||| b.setWidth w <<< k).toNat < 2 ^ (k + 8) := by
  have hb : b.toNat < 2 ^ 8 := b.isLt
  have hpow : 2 ^ (k + 8) = 2 ^ k * 2 ^ 8 := pow_add 2 k 8
  have hlt : 2 ^ k * b.toNat < 2 ^ (k + 8) := by
    rw [hpow]
    exact Nat.mul_lt_mul_of_pos_left hb (Nat.two_pow_pos k)
  have hle : 2 ^ (k + 8) ≤ 2 ^ w := Nat.pow_le_pow_right (by decide) hk
  have hw : 2 ^ 8 ≤ 2 ^ w := Nat.pow_le_pow_right (by decide) (by omega)
  have hshift : (b.setWidth w <<< k).toNat = 2 ^ k * b.toNat := by
    rw [BitVec.toNat_shiftLeft, BitVec.toNat_setWidth, Nat.mod_eq_of_lt (Nat.lt_of_lt_of_le hb hw),
      Nat.shiftLeft_eq, Nat.mul_comm, Nat.mod_eq_of_lt (Nat.lt_of_lt_of_le hlt hle)]
  have hsum : (x ||| b.setWidth w <<< k).toNat = x.toNat + 2 ^ k * b.toNat := by
    rw [BitVec.toNat_or, hshift, Nat.or_comm, Nat.add_comm]
    exact (Nat.two_pow_add_eq_or_of_lt hx _).symm
  refine ⟨hsum, ?_⟩
  rw [hsum, hpow]
  have hstep : 2 ^ k * (b.toNat + 1) ≤ 2 ^ k * 2 ^ 8 := Nat.mul_le_mul_left _ hb
  rw [Nat.mul_add] at hstep
  omega

theorem setWidth_lt (b : Byte) : (b.setWidth 32).toNat = b.toNat ∧
    (b.setWidth 32).toNat < 2 ^ 8 := by
  have h : (b.setWidth 32).toNat = b.toNat := by
    rw [BitVec.toNat_setWidth, Nat.mod_eq_of_lt (Nat.lt_trans b.isLt (by decide))]
  exact ⟨h, h ▸ b.isLt⟩

theorem LE_16_toNat : (LE_16 p).toNat = ofBytes [p 0, p 1] := by
  have h0 := setWidth_lt (p 0)
  have h1 := or_shiftLeft (w := 32) (k := 8) (b := p 1) h0.2 (by decide)
  rw [LE_16, h1.1, h0.1]
  simp only [ofBytes]
  omega

theorem LE_32_toNat : (LE_32 p).toNat = ofBytes [p 0, p 1, p 2, p 3] := by
  have h0 := setWidth_lt (p 0)
  have h1 := or_shiftLeft (w := 32) (k := 8) (b := p 1) h0.2 (by decide)
  have h2 := or_shiftLeft (w := 32) (k := 16) (b := p 2) h1.2 (by decide)
  have h3 := or_shiftLeft (w := 32) (k := 24) (b := p 3) h2.2 (by decide)
  rw [LE_32, h3.1, h2.1, h1.1, h0.1]
  simp only [ofBytes]
  omega

/-- A negative `int` has all the upper bits set already. -/
theorem signExtend_or {x : BitVec 32} {b : Byte} {k : ℕ} (hx : x.msb = true) (hk : 32 ≤ k) :
    x.signExtend 64 ||| b.setWidth 64 <<< k = x.signExtend 64 := by
  apply BitVec.eq_of_getLsbD_eq
  intro i hi
  rw [BitVec.getLsbD_or, BitVec.getLsbD_signExtend, BitVec.getLsbD_shiftLeft]
  by_cases hlow : i < 32
  · rw [decide_eq_true (Nat.lt_of_lt_of_le hlow hk), Bool.not_true, Bool.and_false,
      Bool.false_and, Bool.or_false]
  · rw [if_neg hlow, hx, decide_eq_true hi, Bool.true_and, Bool.true_or]

/-- **`LE_64`.** -/
theorem LE_64_toNat : (LE_64 p).toNat =
    signExtended (ofBytes [p 0, p 1, p 2, p 3, p 4, p 5, p 6, p 7]) := by
  have h32 : (LE_32 p).toNat = ofBytes [p 0, p 1, p 2, p 3] := LE_32_toNat
  have hlt : (LE_32 p).toNat < 2 ^ 32 := (LE_32 p).isLt
  have hmod : ofBytes [p 0, p 1, p 2, p 3, p 4, p 5, p 6, p 7] % 2 ^ 32 = (LE_32 p).toNat := by
    rw [h32] at hlt ⊢
    simp only [ofBytes] at hlt ⊢
    omega
  have hset : ((LE_32 p).setWidth 64).toNat = (LE_32 p).toNat := by
    rw [BitVec.toNat_setWidth, Nat.mod_eq_of_lt (Nat.lt_trans hlt (by decide))]
  rw [signExtended, hmod]
  by_cases hsign : (LE_32 p).toNat < 2 ^ 31
  · have hmsb : (LE_32 p).msb = false := BitVec.msb_eq_false_iff_two_mul_lt.mpr (by omega)
    have h0 : ((LE_32 p).signExtend 64).toNat = (LE_32 p).toNat := by
      rw [BitVec.signExtend_eq_setWidth_of_msb_false hmsb, hset]
    have h4 := or_shiftLeft (w := 64) (k := 32) (b := p 4) (h0 ▸ hlt) (by decide)
    have h5 := or_shiftLeft (w := 64) (k := 40) (b := p 5) h4.2 (by decide)
    have h6 := or_shiftLeft (w := 64) (k := 48) (b := p 6) h5.2 (by decide)
    have h7 := or_shiftLeft (w := 64) (k := 56) (b := p 7) h6.2 (by decide)
    rw [if_pos hsign, LE_64, h7.1, h6.1, h5.1, h4.1, h0, h32]
    simp only [ofBytes]
    omega
  · have hmsb : (LE_32 p).msb = true := BitVec.msb_eq_true_iff_two_mul_ge.mpr (by omega)
    rw [if_neg hsign, LE_64, signExtend_or hmsb (by decide), signExtend_or hmsb (by decide),
      signExtend_or hmsb (by decide), signExtend_or hmsb (by decide), BitVec.toNat_signExtend,
      hset, if_pos hmsb, Nat.add_comm]

end CodeToolKit.Libmms
