import CodeToolKit.ViBe.Provenance

/-!
# The neighbourhood that is sampled

The two tables of offsets are equal.  `processFirstFrame` draws one index for both of them, so that
it only takes samples from the diagonal of the neighbourhood (`samplesFrom_iff`); `testAndUpdate`
draws an index for each of them and reaches all of it (`propagates_iff`).
-/

namespace CodeToolKit.ViBe

open CodeToolKit.Lib ViBe_BGS

variable {rows cols : ℕ} {σ : Type} {R : RNG σ}

/-- The neighbourhood of a pixel, as far as it is in the image. -/
def neighbourhood (p : Fin rows × Fin cols) : Set (Fin rows × Fin cols) :=
  {q | Near p.1 q.1 ∧ Near p.2 q.2}

/-- A sample of `p` can be taken from `q`: for some numbers that are drawn it has the value of `q`
in every image. -/
def SamplesFrom (p q : Fin rows × Fin cols) : Prop :=
  ∃ (σ : Type) (R : RNG σ) (rng : σ) (k : Fin NUM_SAMPLES), ∀ b image,
    (processFirstFrame R b rng image).m_samples k p.1 p.2 = image q.1 q.2

/-- `p` can replace a sample of `q` when it replaces one of a neighbour. -/
def Propagates (p q : Fin rows × Fin cols) : Prop :=
  ∃ (σ : Type) (R : RNG σ) (rng : σ) (b : ViBe_BGS rows cols) (image : Mat rows cols)
    (k : Fin NUM_SAMPLES),
    (replaceNeighbour R image p (b, rng)).1.m_samples k q.1 q.2 ≠ b.m_samples k q.1 q.2

/-! ## The offsets -/

/-- Each neighbour is reached by an offset. -/
theorem exists_clamp_eq {n : ℕ} {i r : Fin n} (h : Near i r) :
    ∃ random : Fin 9, clamp i (c_yoff random) = r := by
  have hclamp : clamp i ((r : ℤ) - i) = r := by
    have hr := r.isLt
    apply Fin.ext
    unfold clamp
    dsimp only
    split_ifs <;> omega
  have hoff : ∃ random : Fin 9, c_yoff random = (r : ℤ) - i := by
    unfold Near at h
    obtain hlow | hsame | hhigh : (r : ℤ) - i = -1 ∨ (r : ℤ) - i = 0 ∨ (r : ℤ) - i = 1 := by omega
    · exact ⟨0, hlow.symm⟩
    · exact ⟨1, hsame.symm⟩
    · exact ⟨2, hhigh.symm⟩
  obtain ⟨random, heq⟩ := hoff
  exact ⟨random, heq ▸ hclamp⟩

theorem natAbs_c_yoff (random : Fin 9) : (c_yoff random).natAbs ≤ 1 := by
  revert random
  decide

/-- An offset that leads to another index was not clamped. -/
theorem offset_of_clamp_ne {n : ℕ} {i r : Fin n} {random : Fin 9}
    (h : clamp i (c_yoff random) = r) (hne : r ≠ i) : c_yoff random = (r : ℤ) - i := by
  have hoff := natAbs_c_yoff random
  have hval : (r : ℕ) = (clamp i (c_yoff random) : ℕ) := congrArg Fin.val h.symm
  have hne' : (r : ℕ) ≠ i := fun heq ↦ hne (Fin.ext heq)
  have hi := i.isLt
  unfold clamp at hval
  dsimp only at hval
  split_ifs at hval <;> omega

theorem exists_near_ne {n : ℕ} (hn : 2 ≤ n) (i : Fin n) : ∃ r, Near i r ∧ r ≠ i := by
  have hi := i.isLt
  by_cases hlast : (i : ℕ) + 1 < n
  · refine ⟨⟨i + 1, hlast⟩, ?_, fun heq ↦ ?_⟩
    · unfold Near
      dsimp only
      omega
    · have := congrArg Fin.val heq
      dsimp only at this
      omega
  · refine ⟨⟨i - 1, by omega⟩, ?_, fun heq ↦ ?_⟩
    · unfold Near
      dsimp only
      omega
    · have := congrArg Fin.val heq
      dsimp only at this
      omega

/-! ## The first frame -/

/-- A generator of the numbers of a list, and of zeros after them. -/
def listed : RNG (List ℕ) where
  uniform s n := (Fin.ofNat n (s.headD 0), s.tail)

/-- A generator of one number. -/
def constant (random : ℕ) : RNG Unit where
  uniform _ n := (Fin.ofNat n random, ())

/-- **The first frame** is sampled on the diagonal. -/
theorem samplesFrom_iff {p q : Fin rows × Fin cols} :
    SamplesFrom p q ↔
      ∃ random, clamp p.1 (c_yoff random) = q.1 ∧ clamp p.2 (c_yoff random) = q.2 := by
  constructor
  · rintro ⟨σ, R, rng, k, hsample⟩
    let image : Mat rows cols := Mat.zeros.set q.1 q.2 1
    obtain ⟨g, hg⟩ := processFirstFrame_sampled (R := R) init rng image k p
    rw [hsample, show image q.1 q.2 = 1 from Mat.set_same _ _ _ _] at hg
    refine ⟨(R.uniform g 9).1, ?_⟩
    by_contra hne
    have hzero := Mat.set_of_ne Mat.zeros 1 fun heq ↦ hne (Prod.mk.inj heq)
    exact absurd (hg.trans hzero) (show (1 : UInt8) ≠ 0 by decide)
  · rintro ⟨random, hrow, hcol⟩
    refine ⟨Unit, constant random, (), 0, fun b image ↦ ?_⟩
    obtain ⟨g, hg⟩ := processFirstFrame_sampled (R := constant random) b () image 0 p
    have hrandom : ((constant random).uniform g 9).1 = random := Fin.ofNat_val_eq_self random
    rw [hg, hrandom, hrow]
    exact congrArg (image q.1) hcol

/-! ## The propagation -/

/-- **The propagation** reaches the neighbourhood. -/
theorem propagates_iff {p q : Fin rows × Fin cols} : Propagates p q ↔ q ∈ neighbourhood p := by
  constructor
  · rintro ⟨σ, R, rng, b, image, k, hne⟩
    rcases (replaces_replaceNeighbour (R := R) image p (b, rng)).samples k q.1 q.2 with
      heq | ⟨-, hrow, hcol⟩
    · exact absurd heq hne
    · exact ⟨hrow.symm, hcol.symm⟩
  · rintro ⟨hrow, hcol⟩
    obtain ⟨random, hi⟩ := exists_clamp_eq hrow
    obtain ⟨random', hj⟩ := exists_clamp_eq hcol
    refine ⟨List ℕ, listed, [0, random, random', 0], init, fun _ _ ↦ 1, 0, ?_⟩
    have heq : (replaceNeighbour listed (fun _ _ ↦ 1) p (init, [0, random, random', 0])).1 =
        init.setSample 0 (clamp p.1 (c_yoff (Fin.ofNat 9 random)))
          (clamp p.2 (c_xoff (Fin.ofNat 9 random'))) 1 := rfl
    rw [heq, Fin.ofNat_val_eq_self, Fin.ofNat_val_eq_self, hi, show c_xoff = c_yoff from rfl, hj]
    rcases setSample_cases init 0 0 q.1 q.1 q.2 q.2 1 with ⟨-, -, hone⟩ | ⟨hne, -⟩
    · rw [hone]
      exact show (1 : UInt8) ≠ 0 by decide
    · exact absurd ⟨rfl, rfl⟩ hne

/-! ## Both -/

/-- The samples of a pixel can be taken from all of its neighbourhood, which are the positions that
its value can be written to. -/
structure CoversNeighbourhood (p : Fin rows × Fin cols) : Prop where
  all : {q | SamplesFrom p q} = neighbourhood p
  propagation : {q | SamplesFrom p q} = {q | Propagates p q}

/-- In an image of two rows and columns some neighbour is left out. -/
theorem not_coversNeighbourhood_of_le (hrows : 2 ≤ rows) (hcols : 2 ≤ cols)
    (p : Fin rows × Fin cols) : ¬CoversNeighbourhood p := by
  intro h
  obtain ⟨i, hi, hi'⟩ := exists_near_ne hrows p.1
  obtain ⟨j, hj, hj'⟩ := exists_near_ne hcols p.2
  have hcovered : ∀ q ∈ neighbourhood p,
      ∃ random, clamp p.1 (c_yoff random) = q.1 ∧ clamp p.2 (c_yoff random) = q.2 :=
    fun q hq ↦ samplesFrom_iff.mp (h.all.ge hq)
  -- one offset moves the row only, one the column only, and one both
  obtain ⟨a, hai, -⟩ := hcovered (i, p.2) ⟨hi, .refl _⟩
  obtain ⟨b, hbi, hbj⟩ := hcovered (p.1, j) ⟨.refl _, hj⟩
  obtain ⟨c, hci, hcj⟩ := hcovered (i, j) ⟨hi, hj⟩
  have hrow := offset_of_clamp_ne hai hi'
  have hcol := offset_of_clamp_ne hbj hj'
  have hrow' := offset_of_clamp_ne hci hi'
  have hcol' := offset_of_clamp_ne hcj hj'
  have hsame : c_yoff a = c_yoff b := by
    rw [hrow, hcol, ← hrow', hcol']
  rw [hsame, hbi] at hai
  exact hi' hai.symm

/-- **The whole neighbourhood is sampled exactly in an image of one row or column.** -/
theorem coversNeighbourhood_iff (p : Fin rows × Fin cols) :
    CoversNeighbourhood p ↔ rows = 1 ∨ cols = 1 := by
  have hrow := p.1.isLt
  have hcol := p.2.isLt
  constructor
  · intro h
    by_contra hlarge
    exact not_coversNeighbourhood_of_le (by omega) (by omega) p h
  · intro hsmall
    have hall : {q | SamplesFrom p q} = neighbourhood p := by
      ext q
      refine samplesFrom_iff.trans ⟨?_, ?_⟩
      · rintro ⟨random, hi, hj⟩
        exact ⟨hi ▸ near_row p.1 random, hj ▸ near_row p.2 random⟩
      · rintro ⟨hi, hj⟩
        rcases hsmall with rfl | rfl
        · obtain ⟨random, hj⟩ := exists_clamp_eq hj
          exact ⟨random, Subsingleton.elim _ _, hj⟩
        · obtain ⟨random, hi⟩ := exists_clamp_eq hi
          exact ⟨random, hi, Subsingleton.elim _ _⟩
    exact ⟨hall, hall.trans (Set.ext fun q ↦ propagates_iff.symm)⟩

/-- In an image of two rows and columns it is not. -/
theorem not_coversNeighbourhood :
    ¬∀ (rows cols : ℕ) (p : Fin rows × Fin cols), CoversNeighbourhood p :=
  fun h ↦ not_coversNeighbourhood_of_le le_rfl le_rfl _ (h 2 2 (0, 0))

end CodeToolKit.ViBe
