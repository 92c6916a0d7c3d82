import Mathlib.Algebra.Group.Int.Defs
import Mathlib.Algebra.GroupWithZero.Nat
import Mathlib.Data.Int.Notation
import Mathlib.Data.List.TakeWhile

/-!
# Formatted text

`sprintf` for the conversions `%d` and `%s`, `sprintf_s` with the size of the buffer, and
`atoi`.  A text is the list of its bytes without the final NUL.
-/

namespace CodeToolKit.Lib

/-- An argument of a format. -/
inductive Arg where
  | int (value : ℤ)
  | str (value : List Char)

/-- A 32-bit `int` as an argument. -/
def Arg.int32 (z : Int32) : Arg := .int z.toInt

/-- The text of `%d`. -/
def decimal (z : ℤ) : List Char :=
  if z < 0 then '-' :: Nat.toDigits 10 z.natAbs else Nat.toDigits 10 z.natAbs

/-- Every conversion of the format has an argument of its type. -/
def conversionsFit : List Char → List Arg → Bool
  | '%' :: 'd' :: format, .int _ :: args => conversionsFit format args
  | '%' :: 's' :: format, .str _ :: args => conversionsFit format args
  | '%' :: _, _ => false
  | _ :: format, args => conversionsFit format args
  | [], _ => true

/-- The text of a format whose conversions have their arguments; arguments that are left over are
ignored. -/
def formatted : List Char → List Arg → List Char
  | '%' :: 'd' :: format, .int z :: args => decimal z ++ formatted format args
  | '%' :: 's' :: format, .str s :: args => s ++ formatted format args
  | c :: format, args => c :: formatted format args
  | [], _ => []

/-- `sprintf`: a conversion without an argument of its type has no defined text. -/
def sprintf (format : List Char) (args : List Arg) : Option (List Char) :=
  if conversionsFit format args then some (formatted format args) else none

/-- The text of a format in a buffer of `size` bytes.  A text that does not fit ends the
program: there is none. -/
def sprintf_s (size : ℕ) (format : String) (args : List Arg) : Option (List Char) :=
  (sprintf format.toList args).filter fun text ↦ text.length < size

/-- The characters of a format that is written in several parts. -/
theorem toList_append_ofList {s : String} {cs ds : List Char} (h : s.toList = cs) :
    (s ++ String.ofList ds).toList = cs ++ ds := by
  rw [String.toList_append, h, String.toList_ofList]

theorem sprintf_s_eq_some {size : ℕ} {format : String} {args : List Arg} {text : List Char} :
    sprintf_s size format args = some text ↔
      sprintf format.toList args = some text ∧ text.length < size := by
  rw [sprintf_s, Option.filter_eq_some_iff, decide_eq_true_iff]

example :
    sprintf "a%d, '%s'".toList [.int (-12), .str ['x'], .int 3] = some "a-12, 'x'".toList := by
  decide

theorem decimal_ne_nil (z : ℤ) : decimal z ≠ [] := by
  rw [decimal]
  split
  · exact List.cons_ne_nil _ _
  · exact Nat.toDigits_ne_nil

/-- The characters of a number. -/
theorem eq_or_isDigit_of_mem_decimal {z : ℤ} {c : Char} (h : c ∈ decimal z) :
    c = '-' ∨ c.isDigit := by
  have hdigit : c ∈ Nat.toDigits 10 z.natAbs → c.isDigit :=
    Nat.isDigit_of_mem_toDigits (by decide) (by decide)
  rw [decimal] at h
  split at h
  · rcases List.mem_cons.mp h with rfl | h
    · exact .inl rfl
    · exact .inr (hdigit h)
  · exact .inr (hdigit h)

/-! ## Reading numbers -/

/-- `isspace`. -/
def isspace (c : Char) : Bool := [' ', '\t', '\n', '\x0b', '\x0c', '\r'].contains c

/-- The number at the beginning of a text without a sign; a text without digits has 0. -/
def leadingNat (s : List Char) : ℕ := Nat.ofDigitChars 10 (s.takeWhile Char.isDigit) 0

/-- The number at the beginning of a text. -/
def leadingInt : List Char → ℤ
  | '-' :: s => -(leadingNat s : ℤ)
  | '+' :: s => leadingNat s
  | s => leadingNat s

/-- `atoi`: a number that is no `int` has no defined value. -/
def atoi (s : List Char) : Option Int32 :=
  let z := leadingInt (s.dropWhile isspace)
  if -2 ^ 31 ≤ z ∧ z < 2 ^ 31 then some (Int32.ofInt z) else none

example : atoi " -12a".toList = some (-12) := by decide

theorem leadingNat_toDigits (n : ℕ) : leadingNat (Nat.toDigits 10 n) = n := by
  have hdigits : (Nat.toDigits 10 n).takeWhile Char.isDigit = Nat.toDigits 10 n :=
    List.takeWhile_eq_self_iff.mpr fun c ↦ Nat.isDigit_of_mem_toDigits (by decide) (by decide)
  rw [leadingNat, hdigits, Nat.ofDigitChars_toDigits (by decide) (by decide)]

theorem leadingInt_decimal (z : ℤ) : leadingInt (decimal z) = z := by
  rw [decimal]
  split
  · rw [leadingInt, leadingNat_toDigits]
    omega
  · rcases hds : Nat.toDigits 10 z.natAbs with _ | ⟨d, ds⟩
    · exact absurd hds Nat.toDigits_ne_nil
    · have hd : d.isDigit := Nat.isDigit_of_mem_toDigits (by decide) (by decide)
        (hds ▸ List.mem_cons_self : d ∈ Nat.toDigits 10 z.natAbs)
      have hint : leadingInt (d :: ds) = leadingNat (d :: ds) := by
        rw [leadingInt]
        · rintro s heq
          rw [(List.cons.inj heq).1] at hd
          exact absurd hd (by decide)
        · rintro s heq
          rw [(List.cons.inj heq).1] at hd
          exact absurd hd (by decide)
      rw [hint, ← hds, leadingNat_toDigits]
      omega

/-- `atoi` of a number as it is written. -/
theorem atoi_decimal_eq (z : ℤ) :
    atoi (decimal z) = if -2 ^ 31 ≤ z ∧ z < 2 ^ 31 then some (Int32.ofInt z) else none := by
  have hspace : (decimal z).dropWhile isspace = decimal z := by
    rcases hz : decimal z with _ | ⟨c, cs⟩
    · rfl
    · have hc : isspace c = false := by
        rcases eq_or_isDigit_of_mem_decimal (hz ▸ List.mem_cons_self : c ∈ decimal z) with rfl | hc
        · decide
        · rw [isspace, List.contains_eq_mem, decide_eq_false_iff_not]
          intro hmem
          have hdigits : [' ', '\t', '\n', '\x0b', '\x0c', '\r'].all (!Char.isDigit ·) := by
            decide
          have hdigit := List.all_eq_true.mp hdigits c hmem
          rw [hc] at hdigit
          cases hdigit
      rw [List.dropWhile_cons, hc]
      rfl
  rw [atoi, hspace, leadingInt_decimal]

/-- A number of 32 bits is read as it was written. -/
theorem atoi_decimal {z : ℤ} (h : -2 ^ 31 ≤ z ∧ z < 2 ^ 31) :
    atoi (decimal z) = some (Int32.ofInt z) := by
  rw [atoi_decimal_eq, if_pos h]

theorem atoi_decimal_toInt (z : Int32) : atoi (decimal z.toInt) = some z := by
  rw [atoi_decimal ⟨z.le_toInt, z.toInt_lt⟩, Int32.ofInt_toInt]

/-- The number that was written for what is read. -/
theorem eq_toInt_of_atoi {z : ℤ} {w : Int32} (h : atoi (decimal z) = some w) : z = w.toInt := by
  rw [atoi_decimal_eq] at h
  split at h
  · rename_i hz
    rw [← Option.some.inj h, Int32.toInt_ofInt_of_le hz.1 hz.2]
  · cases h

end CodeToolKit.Lib
