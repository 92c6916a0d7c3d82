import Mathlib.Algebra.GroupWithZero.Nat
import Mathlib.Data.Fin.VecNotation
import Mathlib.Data.Int.Notation
import Mathlib.Data.List.FinRange

/-!
# The ViBe background model

`ViBe_BGS` keeps, for every pixel, `NUM_SAMPLES` grey values it has seen at the pixel
or next to it.  `processFirstFrame` fills them from the first frame.  `testAndUpdate`
scans a new frame pixel by pixel: a pixel with `MIN_MATCHES` samples within `RADIUS`
of its value is background (mask `0`), any other is foreground (mask `255`), and by
chance the value replaces a sample of the pixel or of a neighbour.  The samples are
replaced in place, so later pixels of the same frame are tested against them.

`cv::RNG` is outside of the repository: it is a parameter, with nothing assumed about
it but that `uniform(0, n)` draws a number below `n`.  Both functions make a new
generator, whose first state is a parameter as well.
-/

namespace CodeToolKit.ViBe

/-- Samples per pixel. -/
def NUM_SAMPLES : ℕ := 20

/-- How many samples a background pixel has to match. -/
def MIN_MATCHES : ℕ := 2

/-- A sample closer than this matches. -/
def RADIUS : ℕ := 20

/-- One in this many background pixels replaces a sample. -/
def SUBSAMPLE_FACTOR : ℕ := 16

instance : NeZero NUM_SAMPLES := ⟨by decide⟩
instance : NeZero SUBSAMPLE_FACTOR := ⟨by decide⟩

/-- The column offsets of a pixel's neighbourhood. -/
def c_xoff : Fin 9 → ℤ := ![-1, 0, 1, -1, 1, -1, 0, 1, 0]

/-- The row offsets of a pixel's neighbourhood. -/
def c_yoff : Fin 9 → ℤ := ![-1, 0, 1, -1, 1, -1, 0, 1, 0]

/-- `cv::RNG`: `uniform s n` is what `uniform(0, n)` returns in the state `s`, and the
state after it. -/
structure RNG (σ : Type) where
  uniform (s : σ) (n : ℕ) [NeZero n] : Fin n × σ

/-- A `CV_8UC1` matrix. -/
abbrev Mat (rows cols : ℕ) := Fin rows → Fin cols → UInt8

namespace Mat

variable {rows cols : ℕ}

/-- `Mat::zeros`. -/
def zeros : Mat rows cols := fun _ _ ↦ 0

/-- `m.at<uchar>(i, j) = v`. -/
def set (m : Mat rows cols) (i : Fin rows) (j : Fin cols) (v : UInt8) : Mat rows cols :=
  fun i' j' ↦ if i' = i ∧ j' = j then v else m i' j'

@[simp] theorem set_same (m : Mat rows cols) (i : Fin rows) (j : Fin cols) (v : UInt8) :
    m.set i j v i j = v := if_pos ⟨rfl, rfl⟩

theorem set_of_ne (m : Mat rows cols) {i i' : Fin rows} {j j' : Fin cols} (v : UInt8)
    (h : (i', j') ≠ (i, j)) : m.set i j v i' j' = m i' j' := by
  apply if_neg
  rintro ⟨rfl, rfl⟩
  exact h rfl

end Mat

/-- `ViBe_BGS`. -/
structure ViBe_BGS (rows cols : ℕ) where
  m_samples : Fin NUM_SAMPLES → Mat rows cols
  m_foregroundMatchCount : Mat rows cols
  m_mask : Mat rows cols

/-- The difference `abs(a - b)` of two grey values, taken in `int`; as a `float` it is
exact. -/
def dist (a b : UInt8) : ℕ := ((a.toNat : ℤ) - b.toNat).natAbs

/-- An index moved by an offset and clamped to the image. -/
def clamp {n : ℕ} (i : Fin n) (off : ℤ) : Fin n :=
  let row := (i : ℤ) + off
  let row := if row < 0 then 0 else row
  let row := if row ≥ n then (n : ℤ) - 1 else row
  ⟨row.toNat, by have := i.isLt; grind⟩

/-- The pixels in the order of the two `for` loops. -/
def raster (rows cols : ℕ) : List (Fin rows × Fin cols) :=
  (List.finRange rows).flatMap fun i ↦ (List.finRange cols).map fun j ↦ (i, j)

/-- The `while` loop of the test over the samples that are left: `matched` counts those
within `RADIUS`, and the loop stops at `MIN_MATCHES`. -/
def matchLoop (near : Fin NUM_SAMPLES → Bool) : List (Fin NUM_SAMPLES) → ℕ → ℕ
  | [], matched => matched
  | count :: rest, matched =>
      if matched < MIN_MATCHES then
        matchLoop near rest (if near count then matched + 1 else matched)
      else matched

namespace ViBe_BGS

variable {rows cols : ℕ} {σ : Type} (R : RNG σ)

/-- `init`. -/
def init : ViBe_BGS rows cols where
  m_samples := fun _ ↦ Mat.zeros
  m_foregroundMatchCount := Mat.zeros
  m_mask := Mat.zeros

/-- `m_samples[k].at<uchar>(i, j) = v`. -/
def setSample (b : ViBe_BGS rows cols) (k : Fin NUM_SAMPLES) (i : Fin rows) (j : Fin cols)
    (v : UInt8) : ViBe_BGS rows cols :=
  { b with m_samples := Function.update b.m_samples k ((b.m_samples k).set i j v) }

/-- The body of the loops of `processFirstFrame`: sample `k` of a pixel becomes a random
pixel of its neighbourhood, the same draw giving the row and the column. -/
def initSample (image : Mat rows cols) (p : Fin rows × Fin cols) (s : ViBe_BGS rows cols × σ)
    (k : Fin NUM_SAMPLES) : ViBe_BGS rows cols × σ :=
  let (random, g) := R.uniform s.2 9
  let row := clamp p.1 (c_yoff random)
  let col := clamp p.2 (c_xoff random)
  (s.1.setSample k p.1 p.2 (image row col), g)

/-- All samples of one pixel. -/
def initPixel (image : Mat rows cols) (s : ViBe_BGS rows cols × σ) (p : Fin rows × Fin cols) :
    ViBe_BGS rows cols × σ :=
  (List.finRange NUM_SAMPLES).foldl (initSample R image p) s

/-- `processFirstFrame`. -/
def processFirstFrame (b : ViBe_BGS rows cols) (rng : σ) (image : Mat rows cols) :
    ViBe_BGS rows cols :=
  ((raster rows cols).foldl (initPixel R image) (b, rng)).1

/-- How many samples of a pixel the test finds within `RADIUS`. -/
def matched (b : ViBe_BGS rows cols) (image : Mat rows cols) (p : Fin rows × Fin cols) : ℕ :=
  matchLoop (fun count ↦ dist (b.m_samples count p.1 p.2) (image p.1 p.2) < RADIUS)
    (List.finRange NUM_SAMPLES) 0

/-- With one chance in `SUBSAMPLE_FACTOR`, a pixel replaces one of its own samples. -/
def replaceOwn (image : Mat rows cols) (p : Fin rows × Fin cols) (s : ViBe_BGS rows cols × σ) :
    ViBe_BGS rows cols × σ :=
  let (random, g) := R.uniform s.2 SUBSAMPLE_FACTOR
  if random = 0 then
    let (random, g) := R.uniform g NUM_SAMPLES
    (s.1.setSample random p.1 p.2 (image p.1 p.2), g)
  else (s.1, g)

/-- With one chance in `SUBSAMPLE_FACTOR`, a pixel replaces a sample of a neighbour; here
the row and the column are drawn one after the other. -/
def replaceNeighbour (image : Mat rows cols) (p : Fin rows × Fin cols)
    (s : ViBe_BGS rows cols × σ) : ViBe_BGS rows cols × σ :=
  let (random, g) := R.uniform s.2 SUBSAMPLE_FACTOR
  if random = 0 then
    let (random, g) := R.uniform g 9
    let row := clamp p.1 (c_yoff random)
    let (random, g) := R.uniform g 9
    let col := clamp p.2 (c_xoff random)
    let (random, g) := R.uniform g NUM_SAMPLES
    (s.1.setSample random row col (image p.1 p.2), g)
  else (s.1, g)

/-- The fields of a background pixel. -/
def setBackground (b : ViBe_BGS rows cols) (p : Fin rows × Fin cols) : ViBe_BGS rows cols :=
  { b with
    m_foregroundMatchCount := b.m_foregroundMatchCount.set p.1 p.2 0
    m_mask := b.m_mask.set p.1 p.2 0 }

/-- The fields of a foreground pixel; the count is a `uchar` and wraps around. -/
def setForeground (b : ViBe_BGS rows cols) (p : Fin rows × Fin cols) : ViBe_BGS rows cols :=
  { b with
    m_foregroundMatchCount :=
      b.m_foregroundMatchCount.set p.1 p.2 (b.m_foregroundMatchCount p.1 p.2 + 1)
    m_mask := b.m_mask.set p.1 p.2 255 }

/-- The body of the loops of `testAndUpdate`. -/
def testPixel (image : Mat rows cols) (s : ViBe_BGS rows cols × σ) (p : Fin rows × Fin cols) :
    ViBe_BGS rows cols × σ :=
  if MIN_MATCHES ≤ s.1.matched image p then
    replaceNeighbour R image p (replaceOwn R image p (s.1.setBackground p, s.2))
  else
    let b := s.1.setForeground p
    -- a pixel that stays foreground for long is taken into the background
    if b.m_foregroundMatchCount p.1 p.2 > 50 then replaceOwn R image p (b, s.2) else (b, s.2)

/-- `testAndUpdate`. -/
def testAndUpdate (b : ViBe_BGS rows cols) (rng : σ) (image : Mat rows cols) :
    ViBe_BGS rows cols :=
  ((raster rows cols).foldl (testPixel R image) (b, rng)).1

/-- The model after frame `t`: the first frame goes to `init` and `processFirstFrame`,
the others to `testAndUpdate`.  `rng t` is the state of the generator made for frame
`t`. -/
def after (rng : ℕ → σ) (frames : ℕ → Mat rows cols) : ℕ → ViBe_BGS rows cols
  | 0 => processFirstFrame R init (rng 0) (frames 0)
  | t + 1 => testAndUpdate R (after rng frames t) (rng (t + 1)) (frames (t + 1))

end ViBe_BGS

end CodeToolKit.ViBe
