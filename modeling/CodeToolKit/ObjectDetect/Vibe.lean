import CodeToolKit.ObjectDetect.Contours
import CodeToolKit.ObjectDetect.GetRandom
import Mathlib.Data.Int.Range
import Mathlib.Data.List.ProdSigma
import Mathlib.Data.Stream.Defs

/-!
# `Vibe`

The background model of `ViBE--ObjectDetect`.  The constructor takes the samples of the pixels from
the first frame; `Detect` compares the pixels of a frame with their samples, replaces some of these
by chance, deletes small areas of the foreground, and writes pixels whose life was long into the
samples.

A frame is what `cvCvtColor` makes of it: its grey values.  `cvFindContours` and `cvDrawContours`
are a parameter, and nothing is known of them but that the former makes a list that is linked.
Every use of a subscript of `g_Model` is recorded.
-/

namespace CodeToolKit.ObjectDetect

open CodeToolKit.Lib

/-! ## Images -/

/-- A row and a column. -/
abbrev Position := ℤ × ℤ

/-- The values of an image with one channel. -/
abbrev Image := Position → UInt8

/-- The positions in the order of two loops, over the rows and the columns. -/
def positions (i₀ i₁ j₀ j₁ : ℤ) : List Position := Int.range i₀ i₁ ×ˢ Int.range j₀ j₁

/-- A list of contours. -/
structure Contours where
  links : Links ℕ
  first_seq : Option ℕ
  rect : ℕ → CvRect
  nodes : List ℕ
  linked : Linked links first_seq nodes

/-- The functions of OpenCV.  `cvDrawContours` paints the contours that it comes to from a first
one into an image of zeros. -/
structure OpenCV where
  cvFindContours : Image → Contours
  cvDrawContours : Contours → Links ℕ → Option ℕ → Image

/-- `DeleteSmallAreaInForeground`. -/
def deleteSmallAreaInForeground (cv : OpenCV) (minArea : Threshold) (g_ForeImg : Image) : Image :=
  let contours := cv.cvFindContours g_ForeImg
  let s := deleteSmall contours.rect minArea contours.nodes.length
    (.begin contours.links contours.first_seq)
  cv.cvDrawContours contours s.links s.first_seq

/-! ## The object -/

/-- What `rand()` will return. -/
abbrev Rand := Stream' Draw

/-- A subscript of `g_Model`: the sample, the row and the column. -/
abbrev Subscript := ℤ × Position

/-- Where a subscript of `g_Model` is used. -/
inductive Site where
  /-- The constructor sets all samples to zero. -/
  | zero
  /-- The constructor takes a sample. -/
  | sample
  /-- `Detect` compares a sample. -/
  | compare
  /-- `Detect` replaces a sample. -/
  | update
  /-- `ClearLongLifeForeground` replaces a sample. -/
  | absorb
deriving DecidableEq

/-- The fields that no step of a call of `Detect` changes.  `planes` is the number of samples that
`g_Model` was made for; the program does not keep it. -/
structure Settings where
  g_SampleNum : ℤ
  g_MinMatch : ℤ
  g_Height : ℕ
  g_Width : ℕ
  g_Radius : ℤ
  g_offset : ℤ
  g_threshold : Threshold
  planes : ℤ

/-- A `Vibe`.  `accesses` are the uses of subscripts since the last call began.  No step reads
them. -/
structure Vibe extends Settings where
  g_Model : Subscript → UInt8
  g_ForeImg : Image
  g_Gray : Image
  LifeLength : Position → ℤ
  accesses : List (Site × Subscript)

namespace Settings

/-- The positions whose neighbourhood is in the image, as far as `g_offset` tells: the loops of the
constructor and of `ClearLongLifeForeground`. -/
def interior (v : Settings) : List Position :=
  positions v.g_offset (v.g_Height - v.g_offset) v.g_offset (v.g_Width - v.g_offset)

/-- Whether `Detect` passes over a pixel. -/
def isSkipped (v : Settings) (p : Position) : Bool :=
  p.1 < v.g_offset || p.2 < v.g_offset || p.1 > v.g_Height - v.g_offset ||
    p.2 > v.g_Width - v.g_offset

end Settings

namespace Vibe

/-- Uses of subscripts. -/
def record (v : Vibe) (site : Site) (as : List Subscript) : Vibe :=
  { v with accesses := v.accesses ++ as.map fun a ↦ (site, a) }

/-- `g_Model[k][i][j] = val`. -/
def store (v : Vibe) (site : Site) (a : Subscript) (val : UInt8) : Vibe :=
  { v.record site [a] with g_Model := Function.update v.g_Model a val }

/-- `cvSetReal2D(g_ForeImg, i, j, val)`. -/
def setForeImg (v : Vibe) (p : Position) (val : UInt8) : Vibe :=
  { v with g_ForeImg := Function.update v.g_ForeImg p val }

/-- `LifeLength[i][j] = life`. -/
def setLifeLength (v : Vibe) (p : Position) (life : ℤ) : Vibe :=
  { v with LifeLength := Function.update v.LifeLength p life }

/-! ## The setters -/

/-- `SetMinMatch`. -/
def setMinMatch (v : Vibe) (nthreshold : ℤ) : Vibe := { v with g_MinMatch := nthreshold }

/-- `SetRadius`. -/
def setRadius (v : Vibe) (radius : ℤ) : Vibe := { v with g_Radius := radius }

/-- `SetSampleNum`. -/
def setSampleNum (v : Vibe) (num : ℤ) : Vibe := { v with g_SampleNum := num }

/-- `SetThreshold`. -/
def setThreshold (v : Vibe) (t : Threshold) : Vibe := { v with g_threshold := t }

/-! ## The constructor -/

/-- `WINSIZE`. -/
def WINSIZE : ℤ := 3

/-- The settings of a new object. -/
def defaults (height width : ℕ) : Settings where
  g_SampleNum := 20
  g_MinMatch := 2
  g_Height := height
  g_Width := width
  g_Radius := 20
  g_offset := (WINSIZE - 1) / 2
  g_threshold := some (50 : ℚ)
  planes := 20

/-- The fields of a new object, before the samples are taken. -/
def fields (height width : ℕ) (img : Image) : Vibe :=
  { defaults height width with
    g_Model := fun _ ↦ 0
    g_ForeImg := fun _ ↦ 0
    g_Gray := img
    LifeLength := fun _ ↦ 0
    accesses := [] }

/-- The loops that set the samples to zero. -/
def zeroModel (v : Vibe) : Vibe :=
  (Int.range 0 v.g_SampleNum ×ˢ positions 0 v.g_Height 0 v.g_Width).foldl
    (fun v a ↦ v.store .zero a 0) v

/-- One sample of a pixel. -/
def takeSample (p : Position) (s : Vibe × Rand) (k : ℤ) : Vibe × Rand :=
  let (v, rand) := s
  let r := getRandomPosition v.g_offset p rand.head rand.tail.head
  (v.store .sample (k, p) (v.g_Gray r), rand.tail.tail)

/-- All samples of a pixel. -/
def takeSamples (s : Vibe × Rand) (p : Position) : Vibe × Rand :=
  (Int.range 0 s.1.g_SampleNum).foldl (takeSample p) s

/-- `Vibe(img)`. -/
def new (height width : ℕ) (img : Image) (rand : Rand) : Vibe × Rand :=
  let v := (fields height width img).zeroModel
  v.interior.foldl takeSamples (v, rand)

/-! ## Detection -/

/-- `fabs(dModVal-dCurrVal) < g_Radius`, for a sample of a pixel. -/
def isNear (v : Vibe) (p : Position) (k : ℤ) : Bool :=
  |((v.g_Model (k, p)).toNat : ℤ) - (v.g_Gray p).toNat| < v.g_Radius

/-- The loop over the samples: how many of them match, up to `g_MinMatch`, and which of them are
compared. -/
def matchLoop (near : ℤ → Bool) (g_MinMatch : ℤ) : List ℤ → ℤ → ℤ × List ℤ
  | [], tmpCount => (tmpCount, [])
  | k :: ks, tmpCount =>
      if tmpCount < g_MinMatch then
        let (count, read) :=
          matchLoop near g_MinMatch ks (if near k then tmpCount + 1 else tmpCount)
        (count, k :: read)
      else (tmpCount, [])

/-- The comparison of a pixel with its samples. -/
def compared (v : Vibe) (p : Position) : ℤ × List ℤ :=
  matchLoop (v.isNear p) v.g_MinMatch (Int.range 0 v.g_SampleNum) 0

/-- A pixel of the background replaces one of its samples by chance. -/
def updateOwn (p : Position) (s : Vibe × Rand) : Vibe × Rand :=
  let (v, rand) := s
  if getRandomFrom 0 15 rand.head = 0 then
    let iR2 := getRandom v.g_SampleNum rand.tail.head
    (v.store .update (iR2, p) (v.g_Gray p), rand.tail.tail)
  else (v, rand.tail)

/-- It replaces a sample of a pixel near it by chance. -/
def updateNear (p : Position) (s : Vibe × Rand) : Vibe × Rand :=
  let (v, rand) := s
  if getRandomFrom 0 15 rand.head = 0 then
    let r := getRandomPosition v.g_offset p rand.tail.head rand.tail.tail.head
    let iR2 := getRandom v.g_SampleNum rand.tail.tail.tail.head
    (v.store .update (iR2, r) (v.g_Gray p), rand.tail.tail.tail.tail)
  else (v, rand.tail)

/-- The body of the loops of `Detect`. -/
def detectPixel (s : Vibe × Rand) (p : Position) : Vibe × Rand :=
  let (v, rand) := s
  if v.isSkipped p then (v.setForeImg p 0, rand)
  else
    let (tmpCount, read) := v.compared p
    let v := v.record .compare (read.map fun k ↦ (k, p))
    if tmpCount ≥ v.g_MinMatch then updateNear p (updateOwn p (v.setForeImg p 0, rand))
    else (v.setForeImg p 255, rand)

/-- The loops of `Detect`, on a frame. -/
def detectScan (img : Image) (s : Vibe × Rand) : Vibe × Rand :=
  let v := { s.1 with g_ForeImg := fun _ ↦ 0, g_Gray := img, accesses := [] }
  (positions 0 v.g_Height 0 v.g_Width).foldl detectPixel (v, s.2)

/-- The body of the loops of `ClearLongLifeForeground`. -/
def clearPixel (i_lifeLength : ℤ) (s : Vibe × Rand) (p : Position) : Vibe × Rand :=
  let (v, rand) := s
  -- the value of the foreground at `p` is read as well, but not used
  let dLife := v.LifeLength p
  if dLife > i_lifeLength then
    let v := v.setLifeLength p 0
    let iR1 := getRandom v.g_SampleNum rand.head
    let iR2 := getRandom v.g_SampleNum rand.tail.head
    let v := v.store .absorb (iR1, p) (v.g_Gray p)
    (v.store .absorb (iR2, p) (v.g_Gray p), rand.tail.tail)
  else (v.setLifeLength p (dLife + 1), rand)

/-- `ClearLongLifeForeground`. -/
def clearLongLifeForeground (i_lifeLength : ℤ) (s : Vibe × Rand) : Vibe × Rand :=
  s.1.interior.foldl (clearPixel i_lifeLength) s

/-- `Detect` up to `DeleteSmallAreaInForeground`. -/
def detectCleaned (cv : OpenCV) (img : Image) (s : Vibe × Rand) : Vibe × Rand :=
  let s := detectScan img s
  ({ s.1 with g_ForeImg := deleteSmallAreaInForeground cv (some (80 : ℚ)) s.1.g_ForeImg }, s.2)

/-- How long a pixel may be in the foreground. -/
def lifeLength : ℤ := 200

/-- `Detect`. -/
def detect (cv : OpenCV) (img : Image) (s : Vibe × Rand) : Vibe × Rand :=
  clearLongLifeForeground lifeLength (detectCleaned cv img s)

/-- The object after frame `t`: the first frame goes to the constructor, the others to `Detect`. -/
def after (cv : OpenCV) (height width : ℕ) (rand : Rand) (frames : ℕ → Image) : ℕ → Vibe × Rand
  | 0 => new height width (frames 0) rand
  | t + 1 => detect cv (frames (t + 1)) (after cv height width rand frames t)

end Vibe

end CodeToolKit.ObjectDetect
