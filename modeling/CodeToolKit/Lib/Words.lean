import Mathlib.Algebra.Order.Ring.Nat
import Mathlib.Data.Nat.Notation

/-!
# Words of bytes

A number as a given number of bytes, the least significant one first, and back.
-/

namespace CodeToolKit.Lib

/-- The number that the bytes stand for. -/
def ofBytes : List (BitVec 8) → ℕ
  | [] => 0
  | b :: bs => b.toNat + 256 * ofBytes bs

/-- The lowest `w` bytes of a number. -/
def toBytes : ℕ → ℕ → List (BitVec 8)
  | 0, _ => []
  | w + 1, n => BitVec.ofNat 8 n :: toBytes w (n / 256)

@[simp] theorem length_toBytes (w n : ℕ) : (toBytes w n).length = w := by
  induction w generalizing n with
  | zero => rfl
  | succ w ih => rw [toBytes, List.length_cons, ih]

/-- Reading back what was written. -/
theorem ofBytes_toBytes (w n : ℕ) : ofBytes (toBytes w n) = n % 256 ^ w := by
  induction w generalizing n with
  | zero => exact (Nat.mod_one n).symm
  | succ w ih =>
      have hn : (BitVec.ofNat 8 n).toNat = n % 256 := BitVec.toNat_ofNat n 8
      rw [toBytes, ofBytes, ih, hn, pow_succ', Nat.mod_mul]

theorem ofBytes_toBytes_of_lt {w n : ℕ} (h : n < 256 ^ w) : ofBytes (toBytes w n) = n := by
  rw [ofBytes_toBytes, Nat.mod_eq_of_lt h]

end CodeToolKit.Lib
