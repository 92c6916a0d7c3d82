import CodeToolKit.SQL.QuoteCount

/-!
# The length of a statement

What a statement is long: a number for its format, the widths of its numbers, and the lengths of
its data.
-/

namespace CodeToolKit.SQL

open CodeToolKit.Lib

/-- What a piece has apart from its number or its data. -/
def Piece.fixed : Piece → ℕ
  | lit s => s.length
  | int _ => 0
  | str _ _ _ => 2

/-- The numbers that are written. -/
def numbers (ps : List Piece) : List ℤ :=
  ps.filterMap fun
    | .int z => some z
    | _ => none

/-- What a number is long. -/
def width (z : ℤ) : ℕ := (decimal z).length

/-- What numbers are long. -/
def widths (zs : List ℤ) : ℕ := (zs.map width).sum

/-- What data is long. -/
def lengths (ss : List (List Char)) : ℕ := (ss.map List.length).sum

@[simp] theorem widths_nil : widths [] = 0 := rfl

@[simp] theorem widths_cons (z : ℤ) (zs : List ℤ) : widths (z :: zs) = width z + widths zs :=
  List.sum_cons

@[simp] theorem lengths_nil : lengths [] = 0 := rfl

@[simp] theorem lengths_cons (s : List Char) (ss : List (List Char)) :
    lengths (s :: ss) = s.length + lengths ss := List.sum_cons

theorem length_text (ps : List Piece) :
    (text ps).length = (ps.map Piece.fixed).sum + widths (numbers ps) + lengths (data ps) := by
  induction ps with
  | nil => rfl
  | cons p ps ih =>
      rw [text_cons, List.length_append, ih, List.map_cons, List.sum_cons]
      rcases p with s | z | ⟨delim, written, meant⟩
      · show s.length + _ = s.length + _ + widths (numbers ps) + lengths (data ps)
        omega
      · show width z + _ = 0 + _ + widths (z :: numbers ps) + lengths (data ps)
        rw [widths_cons]
        omega
      · show (delim :: written ++ [delim]).length + _ =
          2 + _ + widths (numbers ps) + lengths (written :: data ps)
        rw [lengths_cons, List.length_append, List.length_cons, List.length_singleton]
        omega

end CodeToolKit.SQL
