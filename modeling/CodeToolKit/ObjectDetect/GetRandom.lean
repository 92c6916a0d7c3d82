import Mathlib.Algebra.Order.Group.Unbundled.Int
import Mathlib.Data.Int.DivMod
import Mathlib.Data.Set.Image

/-!
# The random numbers of `Vibe`

The three functions `GetRandom`, by what `rand()` returns.  The one for a neighbour is meant for a
window around its argument (it cuts off what lies outside), but it draws one number too few and
never returns the upper end (`range_getRandomNear`).
-/

namespace CodeToolKit.ObjectDetect

/-- The largest number of `rand()`. -/
def RAND_MAX : ℕ := 0x7fff

/-- What `rand()` returns. -/
abbrev Draw := Fin (RAND_MAX + 1)

/-- `GetRandom()`.  The quotient of the `double`s is too far from the integers that it is not equal
to for their rounding to matter. -/
def getRandom (g_SampleNum : ℤ) (rand : Draw) : ℤ :=
  let val := (g_SampleNum * rand).tdiv RAND_MAX
  if val = g_SampleNum then val - 1 else val

/-- `GetRandom(random)`. -/
def getRandomNear (g_offset random : ℤ) (rand : Draw) : ℤ :=
  let val := random - g_offset + (rand : ℤ).tmod (2 * g_offset)
  let val := if val < random - g_offset then random - g_offset else val
  if val > random + g_offset then random + g_offset else val

/-- `GetRandom(istart, iend)`. -/
def getRandomFrom (istart iend : ℤ) (rand : Draw) : ℤ := istart + (rand : ℤ).tmod (iend - istart)

/-- A random position near a pixel: its row and its column are drawn one after the other. -/
def getRandomPosition (g_offset : ℤ) (p : ℤ × ℤ) (rand rand' : Draw) : ℤ × ℤ :=
  (getRandomNear g_offset p.1 rand, getRandomNear g_offset p.2 rand')

/-! ## The samples -/

/-- The number of a sample that there is. -/
theorem getRandom_bounds {g_SampleNum : ℤ} (hpos : 1 ≤ g_SampleNum) (rand : Draw) :
    0 ≤ getRandom g_SampleNum rand ∧ getRandom g_SampleNum rand < g_SampleNum := by
  have hmax : (0 : ℤ) < RAND_MAX := by decide
  have hrand : (rand : ℤ) ≤ RAND_MAX := by exact_mod_cast Fin.is_le rand
  have hprod : 0 ≤ g_SampleNum * rand := Int.mul_nonneg (by omega) (Int.natCast_nonneg _)
  have hle : g_SampleNum * rand / RAND_MAX ≤ g_SampleNum :=
    Int.ediv_le_of_le_mul hmax (Int.mul_le_mul_of_nonneg_left hrand (by omega))
  have hnonneg : 0 ≤ g_SampleNum * rand / RAND_MAX := Int.ediv_nonneg hprod hmax.le
  rw [getRandom, Int.tdiv_eq_ediv_of_nonneg hprod]
  split <;> omega

/-- Where there is no sample, the largest number that is drawn leads to a negative one. -/
theorem getRandom_last (g_SampleNum : ℤ) :
    getRandom g_SampleNum (Fin.last RAND_MAX) = g_SampleNum - 1 := by
  have hval : (g_SampleNum * ((Fin.last RAND_MAX : Draw) : ℤ)).tdiv RAND_MAX = g_SampleNum :=
    Int.mul_tdiv_cancel g_SampleNum (by decide)
  rw [getRandom, hval]
  exact if_pos rfl

/-! ## The neighbours -/

section

variable {g_offset : ℤ}

/-- Nothing is cut off. -/
theorem getRandomNear_eq (hoffset : 1 ≤ g_offset) (random : ℤ) (rand : Draw) :
    getRandomNear g_offset random rand = random - g_offset + (rand : ℤ) % (2 * g_offset) := by
  have hlo := Int.emod_nonneg (rand : ℤ) (b := 2 * g_offset) (by omega)
  have hhi := Int.emod_lt_of_pos (rand : ℤ) (b := 2 * g_offset) (by omega)
  rw [getRandomNear, Int.tmod_eq_emod_of_nonneg (Int.natCast_nonneg _)]
  rw [if_neg (by omega), if_neg (by omega)]

/-- The number is below the upper end of the window. -/
theorem getRandomNear_bounds (hoffset : 1 ≤ g_offset) (random : ℤ) (rand : Draw) :
    random - g_offset ≤ getRandomNear g_offset random rand ∧
      getRandomNear g_offset random rand < random + g_offset := by
  have hlo := Int.emod_nonneg (rand : ℤ) (b := 2 * g_offset) (by omega)
  have hhi := Int.emod_lt_of_pos (rand : ℤ) (b := 2 * g_offset) (by omega)
  rw [getRandomNear_eq hoffset]
  omega

/-- The numbers that can be drawn, as long as `rand()` reaches all remainders. -/
theorem range_getRandomNear (hoffset : 1 ≤ g_offset) (random : ℤ)
    (hmax : 2 * g_offset ≤ RAND_MAX + 1) :
    Set.range (getRandomNear g_offset random) =
      {x | random - g_offset ≤ x ∧ x < random + g_offset} := by
  ext x
  constructor
  · rintro ⟨rand, rfl⟩
    exact getRandomNear_bounds hoffset random rand
  · rintro ⟨hlo, hhi⟩
    have hlt : (x - (random - g_offset)).toNat < RAND_MAX + 1 := by omega
    refine ⟨⟨_, hlt⟩, ?_⟩
    have hcast : (((x - (random - g_offset)).toNat : ℕ) : ℤ) = x - (random - g_offset) := by omega
    rw [getRandomNear_eq hoffset]
    show _ + (((x - (random - g_offset)).toNat : ℕ) : ℤ) % _ = x
    rw [hcast, Int.emod_eq_of_lt (by omega) (by omega)]
    omega

end

/-- `GetRandom(random)` can return every number of the window around `random`, and no other. -/
def CoversWindow (g_offset random : ℤ) : Prop :=
  Set.range (getRandomNear g_offset random) = {x | random - g_offset ≤ x ∧ x ≤ random + g_offset}

/-- The random positions near a pixel are those of the square around it. -/
def CoversSquare (g_offset : ℤ) (p : ℤ × ℤ) : Prop :=
  {q | ∃ rand rand', getRandomPosition g_offset p rand rand' = q} =
    {q | (p.1 - g_offset ≤ q.1 ∧ q.1 ≤ p.1 + g_offset) ∧
      p.2 - g_offset ≤ q.2 ∧ q.2 ≤ p.2 + g_offset}

/-- **The window is never covered**, for its upper end is not drawn; so neither is the square. -/
theorem not_coversWindow {g_offset : ℤ} (hoffset : 1 ≤ g_offset) :
    (∀ random, ¬CoversWindow g_offset random) ∧ ∀ p, ¬CoversSquare g_offset p := by
  constructor
  · intro random hcovers
    have hend : random - g_offset ≤ random + g_offset ∧ random + g_offset ≤ random + g_offset :=
      ⟨by omega, le_rfl⟩
    obtain ⟨rand, hrand⟩ := (show Set.range _ = _ from hcovers).ge hend
    exact absurd hrand (getRandomNear_bounds hoffset random rand).2.ne
  · rintro ⟨i, j⟩ hcovers
    have hend : (i + g_offset, j + g_offset) ∈ {q : ℤ × ℤ | (i - g_offset ≤ q.1 ∧
        q.1 ≤ i + g_offset) ∧ j - g_offset ≤ q.2 ∧ q.2 ≤ j + g_offset} :=
      ⟨⟨by dsimp only; omega, le_rfl⟩, by dsimp only; omega, le_rfl⟩
    obtain ⟨rand, rand', hrand⟩ := (show {q | _} = _ from hcovers).ge hend
    exact absurd (Prod.mk.inj hrand).1 (getRandomNear_bounds hoffset i rand).2.ne

/-- The window of the program has two of its three numbers. -/
theorem not_coversWindow_one :
    (∀ random, ¬CoversWindow 1 random) ∧ ∀ p, ¬CoversSquare 1 p := not_coversWindow le_rfl

/-- Around 5, the number 6 is not drawn. -/
theorem not_forall_coversWindow :
    ¬∀ g_offset : ℤ, 1 ≤ g_offset → ∀ random, CoversWindow g_offset random := by
  intro h
  have hend : (5 : ℤ) - 1 ≤ 6 ∧ (6 : ℤ) ≤ 5 + 1 := ⟨by decide, le_rfl⟩
  obtain ⟨rand, hrand⟩ := (show Set.range _ = _ from h 1 le_rfl 5).ge hend
  exact absurd hrand (getRandomNear_bounds le_rfl 5 rand).2.ne

end CodeToolKit.ObjectDetect
