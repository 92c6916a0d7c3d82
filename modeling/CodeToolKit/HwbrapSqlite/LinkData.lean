import Mathlib.Algebra.GroupWithZero.Nat

/-!
# The records of the linkage tables

`LINK_DATA` as its callers pass it: 32-bit integers, and `char` arrays that hold
NUL-terminated strings.
-/

namespace CodeToolKit.HwbrapSqlite

/-- A byte of a NUL-terminated string. -/
def isByte (c : Char) : Bool := c ≠ '\x00' && c.toNat < 256

/-- A `char[n]` with a NUL-terminated string in it: the bytes before the NUL. -/
structure CharArray (n : ℕ) where
  chars : List Char
  bytes : chars.all isByte
  fits : chars.length < n

namespace CharArray

variable {n : ℕ}

@[ext] theorem ext {s s' : CharArray n} (h : s.chars = s'.chars) : s = s' := by
  rcases s with ⟨chars, _, _⟩
  rcases s' with ⟨chars', _, _⟩
  cases h
  rfl

/-- The string of a text, if the array can hold it. -/
def ofList? (n : ℕ) (s : List Char) : Option (CharArray n) :=
  if h : s.all isByte ∧ s.length < n then some ⟨s, h.1, h.2⟩ else none

theorem ofList_chars (s : CharArray n) : ofList? n s.chars = some s :=
  dif_pos ⟨s.bytes, s.fits⟩

/-- The array after `memset` with zeros. -/
def zero (n : ℕ) (h : 0 < n) : CharArray n := ⟨[], rfl, h⟩

end CharArray

/-- The strings of a rule come in fives. -/
instance instNeZeroLines : NeZero 5 := ⟨by decide⟩

/-- `LINK_DATA`. -/
structure LinkData where
  id : Int32
  szDevName : CharArray 64
  szDevIP : CharArray 64
  szDevManu : CharArray 32
  szLoginUser : CharArray 64
  szLoginPass : CharArray 64
  nDevPort : Int32
  nDevChan : Int32
  nAnaChannel : Int32
  nPtziPos : Int32
  nPtztPos : Int32
  nHLimit : Int32
  nAnaMainType : Int32
  nAnaSubType : Int32
  nLineNum : Int32
  szAlarmDirect : Fin 5 → CharArray 256
  szBZSLineType : Fin 5 → CharArray 256
  szBZSLineType_2 : Fin 5 → CharArray 256

namespace LinkData

/-- The record after `memset` with zeros. -/
def zero : LinkData where
  id := 0
  szDevName := .zero 64 (by decide)
  szDevIP := .zero 64 (by decide)
  szDevManu := .zero 32 (by decide)
  szLoginUser := .zero 64 (by decide)
  szLoginPass := .zero 64 (by decide)
  nDevPort := 0
  nDevChan := 0
  nAnaChannel := 0
  nPtziPos := 0
  nPtztPos := 0
  nHLimit := 0
  nAnaMainType := 0
  nAnaSubType := 0
  nLineNum := 0
  szAlarmDirect _ := .zero 256 (by decide)
  szBZSLineType _ := .zero 256 (by decide)
  szBZSLineType_2 _ := .zero 256 (by decide)

/-- The record that the program of `TestWrapper.cpp` adds. -/
def testInfo : LinkData :=
  { zero with
    nAnaChannel := 1
    szDevIP := ⟨"10.12.15.199".toList, by decide, by decide⟩
    nDevChan := 1
    nDevPort := 8000
    szDevManu := ⟨"ZL".toList, by decide, by decide⟩
    szDevName := ⟨"10.12.15.199".toList, by decide, by decide⟩
    szLoginUser := ⟨"admin".toList, by decide, by decide⟩
    szLoginPass := ⟨"password".toList, by decide, by decide⟩ }

/-- Records that differ in their strings only. -/
structure SameInts (r r' : LinkData) : Prop where
  id : r.id = r'.id
  nDevPort : r.nDevPort = r'.nDevPort
  nDevChan : r.nDevChan = r'.nDevChan
  nAnaChannel : r.nAnaChannel = r'.nAnaChannel
  nPtziPos : r.nPtziPos = r'.nPtziPos
  nPtztPos : r.nPtztPos = r'.nPtztPos
  nHLimit : r.nHLimit = r'.nHLimit
  nAnaMainType : r.nAnaMainType = r'.nAnaMainType
  nAnaSubType : r.nAnaSubType = r'.nAnaSubType
  nLineNum : r.nLineNum = r'.nLineNum

end LinkData

end CodeToolKit.HwbrapSqlite
