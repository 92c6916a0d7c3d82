import Mathlib.Data.List.TakeWhile

/-!
# Delimited fields

A field of a text is read up to the first delimiter, which is where what was written behind it
begins.
-/

universe u

namespace CodeToolKit.Lib

variable {α : Type u} {p : α → Bool} {xs rest : List α}

/-- The text is empty, or begins with a delimiter. -/
def Stops (p : α → Bool) (rest : List α) : Prop := ∀ x ∈ rest.head?, p x = false

theorem stops_nil : Stops p [] := fun x hx ↦ (by cases hx)

theorem stops_cons {x : α} (hx : p x = false) : Stops p (x :: xs) := by
  rintro y ⟨⟩
  exact hx

/-- A part may be missing. -/
theorem Stops.append (hxs : Stops p xs) (hrest : xs = [] → Stops p rest) :
    Stops p (xs ++ rest) := by
  cases xs with
  | nil => exact hrest rfl
  | cons x xs => exact stops_cons (hxs x rfl)

theorem takeWhile_field (hxs : ∀ x ∈ xs, p x = true) (hrest : Stops p rest) :
    (xs ++ rest).takeWhile p = xs := by
  rw [List.takeWhile_append_of_pos hxs]
  cases rest with
  | nil => exact List.append_nil xs
  | cons x rest => rw [List.takeWhile_cons_of_neg (by rw [hrest x rfl]; decide), List.append_nil]

theorem dropWhile_field (hxs : ∀ x ∈ xs, p x = true) (hrest : Stops p rest) :
    (xs ++ rest).dropWhile p = rest := by
  rw [List.dropWhile_append_of_pos hxs]
  cases rest with
  | nil => rfl
  | cons x rest => rw [List.dropWhile_cons_of_neg (by rw [hrest x rfl]; decide)]

end CodeToolKit.Lib
