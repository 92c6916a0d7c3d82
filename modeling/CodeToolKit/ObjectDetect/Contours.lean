import CodeToolKit.Lib.LinkedList
import Mathlib.Algebra.Order.Ring.Rat
import Mathlib.Order.WithBotTop

/-!
# The small contours

`DeleteSmallAreaInForeground` goes through the list of contours that `cvFindContours` makes, and
takes out those whose rectangle is small.  The walk goes on from the contour that it took out, by
the pointer that this still has.

What is left in the end are the other contours in their order, linked in both directions
(`deleteSmall_filter`).  A size is small if it is less than the threshold.  So if the threshold is
`NaN` all contours are left, and not only those that are at least as large as it, as there are none
(`not_leavesLarge`).
-/

namespace CodeToolKit.ObjectDetect

open CodeToolKit.Lib

/-- The size of a `CvRect`. -/
structure CvRect where
  width : Int32
  height : Int32

/-- `width * height`, in `int`. -/
def CvRect.area (r : CvRect) : ℤ := (r.width * r.height).toInt

/-- A `double` that is a number, or infinite. -/
abbrev ExtendedRat := WithBot (WithTop ℚ)

/-- A `double`, where `none` is `NaN`. -/
abbrev Threshold := Option ExtendedRat

/-- The variables of the loop, with the pointers `h_next` and `h_prev` of the contours.  The last
field has the contours that the loop came to.  No step reads it. -/
structure Walk (Seq : Type) where
  links : Links Seq
  first_seq : Option Seq
  seq : Option Seq
  region_count : ℕ
  visited : List Seq

section

variable {Seq : Type}

/-- What is true of a contour that is deleted.  Nothing is less than `NaN`. -/
def IsSmall (rect : Seq → CvRect) (minArea : Threshold) (seq : Seq) : Prop :=
  ∃ t ∈ minArea, (((rect seq).area : ℚ) : ExtendedRat) < t

instance instDecidableIsSmall (rect : Seq → CvRect) (minArea : Threshold) (seq : Seq) :
    Decidable (IsSmall rect minArea seq) :=
  inferInstanceAs (Decidable (∃ t ∈ minArea, (((rect seq).area : ℚ) : ExtendedRat) < t))

/-- `>=`, which is not true of `NaN` either. -/
def IsLarge (rect : Seq → CvRect) (minArea : Threshold) (seq : Seq) : Prop :=
  ∃ t ∈ minArea, t ≤ (((rect seq).area : ℚ) : ExtendedRat)

instance instDecidableIsLarge (rect : Seq → CvRect) (minArea : Threshold) :
    DecidablePred (IsLarge rect minArea) := fun seq ↦
  inferInstanceAs (Decidable (∃ t ∈ minArea, t ≤ (((rect seq).area : ℚ) : ExtendedRat)))

/-- The variables when the loop begins. -/
def Walk.begin (links : Links Seq) (first_seq : Option Seq) : Walk Seq :=
  ⟨links, first_seq, first_seq, 0, []⟩

variable [DecidableEq Seq]

/-- The body of the loop, at the contour `seq`, and `seq = seq->h_next`. -/
def Walk.visit (rect : Seq → CvRect) (minArea : Threshold) (s : Walk Seq) (seq : Seq) : Walk Seq :=
  let s := if IsSmall rect minArea seq then
      { s with
        links := s.links.unlink seq
        first_seq := if (s.links.prev seq).isSome then s.first_seq else s.links.next seq }
    else { s with region_count := s.region_count + 1 }
  { s with seq := s.links.next seq, visited := s.visited ++ [seq] }

/-- The loop, with a bound on its iterations. -/
def deleteSmall (rect : Seq → CvRect) (minArea : Threshold) : ℕ → Walk Seq → Walk Seq
  | 0, s => s
  | fuel + 1, s =>
      match s.seq with
      | none => s
      | some seq => deleteSmall rect minArea fuel (s.visit rect minArea seq)

/-! ## The filter -/

/-- The contours that are left: the large ones, or all if the threshold is `NaN`. -/
def kept (rect : Seq → CvRect) (minArea : Threshold) (nodes : List Seq) : List Seq :=
  if minArea = none then nodes else nodes.filter fun seq ↦ IsLarge rect minArea seq

/-- The loop has done some contours, and is at the first of the rest. -/
structure Walked (rect : Seq → CvRect) (minArea : Threshold) (done rest : List Seq) (s : Walk Seq) :
    Prop where
  linked : Linked s.links s.first_seq (kept rect minArea done ++ rest)
  seq : s.seq = rest.head?
  region_count : s.region_count = (kept rect minArea done).length
  visited : s.visited = done

variable {rect : Seq → CvRect} {minArea : Threshold} {done rest : List Seq} {seq : Seq}
  {s : Walk Seq}

omit [DecidableEq Seq] in
theorem kept_nil : kept rect minArea [] = [] := by
  rw [kept]
  split <;> rfl

omit [DecidableEq Seq] in
theorem kept_concat (done : List Seq) (seq : Seq) :
    kept rect minArea (done ++ [seq]) =
      if IsSmall rect minArea seq then kept rect minArea done
      else kept rect minArea done ++ [seq] := by
  cases minArea with
  | none =>
      have hnot : ¬IsSmall rect none seq := by
        rintro ⟨t, ht, -⟩
        cases ht
      rw [if_neg hnot]
      rfl
  | some t =>
      have hsome : ∀ nodes, kept rect (some t) nodes = nodes.filter (IsLarge rect (some t) ·) :=
        fun nodes ↦ if_neg (Option.some_ne_none t)
      rw [hsome, hsome, List.filter_append]
      by_cases h : IsSmall rect (some t) seq
      · have hnot : ¬IsLarge rect (some t) seq := by
          rintro ⟨_, ⟨⟩, hle⟩
          obtain ⟨_, ⟨⟩, hlt⟩ := h
          exact absurd hle (not_le_of_gt hlt)
        rw [if_pos h, List.filter_cons_of_neg (by simpa using hnot), List.filter_nil,
          List.append_nil]
      · have hlarge : IsLarge rect (some t) seq :=
          ⟨t, rfl, not_lt.mp fun hlt ↦ h ⟨t, rfl, hlt⟩⟩
        rw [if_neg h, List.filter_cons_of_pos (by simpa using hlarge), List.filter_nil]

/-- **Step.**  The body of the loop takes a small contour out and counts another one. -/
theorem Walked.visit (hs : Walked rect minArea done (seq :: rest) s) :
    Walked rect minArea (done ++ [seq]) rest (s.visit rect minArea seq) := by
  by_cases h : IsSmall rect minArea seq
  · obtain ⟨hlinked, hnext⟩ := hs.linked.unlink
    constructor
    · rw [Walk.visit, if_pos h, kept_concat, if_pos h]
      exact hlinked
    · rw [Walk.visit, if_pos h]
      exact hnext
    · rw [Walk.visit, if_pos h, kept_concat, if_pos h]
      exact hs.region_count
    · rw [Walk.visit, if_pos h, ← hs.visited]
  · constructor
    · rw [Walk.visit, if_neg h, kept_concat, if_neg h, ← List.append_cons]
      exact hs.linked
    · rw [Walk.visit, if_neg h]
      exact hs.linked.next rfl
    · rw [Walk.visit, if_neg h, kept_concat, if_neg h, List.length_append, ← hs.region_count]
      rfl
    · rw [Walk.visit, if_neg h, ← hs.visited]

/-- **Run.**  With enough iterations nothing is left to do. -/
theorem Walked.deleteSmall (hs : Walked rect minArea done rest s) {fuel : ℕ}
    (hfuel : rest.length ≤ fuel) :
    Walked rect minArea (done ++ rest) [] (deleteSmall rect minArea fuel s) := by
  induction fuel generalizing done rest s with
  | zero =>
      obtain rfl := List.length_eq_zero_iff.mp (Nat.le_zero.mp hfuel)
      rw [List.append_nil]
      exact hs
  | succ fuel ih =>
      rw [ObjectDetect.deleteSmall, hs.seq]
      rcases rest with _ | ⟨seq, rest⟩
      · rw [List.append_nil]
        exact hs
      · rw [List.append_cons]
        exact ih hs.visit (Nat.le_of_succ_le_succ hfuel)

omit [DecidableEq Seq] in
theorem walked_begin {links : Links Seq} {first_seq : Option Seq} {nodes : List Seq}
    (h : Linked links first_seq nodes) : Walked rect minArea [] nodes (.begin links first_seq) where
  linked := by
    rw [kept_nil]
    exact h
  seq := h.first
  region_count := by
    rw [kept_nil]
    rfl
  visited := rfl

/-- **The loop filters the list.**  It comes to every contour once and ends; the contours that are
large, or all if the threshold is `NaN`, are left, linked in their order, and counted. -/
theorem deleteSmall_filter {links : Links Seq} {first_seq : Option Seq} {nodes : List Seq}
    (h : Linked links first_seq nodes) (rect : Seq → CvRect) (minArea : Threshold) {fuel : ℕ}
    (hfuel : nodes.length ≤ fuel) :
    let s := deleteSmall rect minArea fuel (.begin links first_seq)
    s.seq = none ∧ Linked s.links s.first_seq (kept rect minArea nodes) ∧
      s.region_count = (kept rect minArea nodes).length ∧ s.visited = nodes ∧ nodes.Nodup := by
  have hstart : Walked rect minArea [] nodes (.begin links first_seq) := walked_begin h
  have hend := hstart.deleteSmall hfuel
  have hlinked := hend.linked
  rw [List.append_nil] at hlinked
  exact ⟨hend.seq, hlinked, hend.region_count, hend.visited, h.nodup⟩

end

/-- A large contour between two small ones. -/
def threeRects (seq : ℕ) : CvRect := if seq = 1 then ⟨10, 12⟩ else ⟨5, 7⟩

theorem deleteSmall_threeRects :
    let s := deleteSmall threeRects (some (80 : ℚ)) 3 (.begin (.ofList [0, 1, 2]) (some 0))
    s.seq = none ∧ Linked s.links s.first_seq [1] ∧ s.region_count = 1 ∧ s.visited = [0, 1, 2] := by
  have hkept : kept threeRects (some (80 : ℚ)) [0, 1, 2] = [1] := by
    decide +kernel
  have hlinked : Linked (.ofList [0, 1, 2]) (some 0) [0, 1, 2] := linked_ofList (by decide)
  obtain ⟨hseq, hleft, hcount, hvisited, -⟩ :=
    deleteSmall_filter hlinked threeRects (some (80 : ℚ)) (le_refl 3)
  rw [hkept] at hleft hcount
  exact ⟨hseq, hleft, hcount, hvisited⟩

/-- The loop leaves the contours that are at least as large as the threshold. -/
def LeavesLarge (minArea : Threshold) : Prop :=
  ∀ (links : Links ℕ) (first_seq : Option ℕ) (nodes : List ℕ) (rect : ℕ → CvRect),
    Linked links first_seq nodes → ∀ fuel ≥ nodes.length,
      let s := deleteSmall rect minArea fuel (.begin links first_seq)
      let large := nodes.filter (IsLarge rect minArea ·)
      s.seq = none ∧ Linked s.links s.first_seq large ∧ s.region_count = large.length ∧
        s.visited = nodes

/-- With `NaN` three contours are left, and none is at least as large. -/
theorem not_leavesLarge : ¬∀ minArea, LeavesLarge minArea := by
  intro h
  have hlinked : Linked (.ofList [0, 1, 2]) (some 0) [0, 1, 2] := linked_ofList (by decide)
  obtain ⟨-, -, hcount, -⟩ := h none (.ofList [0, 1, 2]) (some 0) [0, 1, 2] threeRects hlinked 3
    (le_refl 3)
  exact absurd hcount (by decide +kernel)

end CodeToolKit.ObjectDetect
