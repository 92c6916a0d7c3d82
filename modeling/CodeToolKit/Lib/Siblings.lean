import Mathlib.Data.List.Basic
import Mathlib.Data.List.Nodup

/-!
# Sibling lists

The children of a node of an ordered tree as a program sees them that holds pointers
into the list: every child has a handle, `next` goes from a handle to the next child of
a kind, and `remove` takes a child out while other handles stay valid.

A program that walks such a list and removes from it is reasoned about with `Cursor`:
the list is split into the part behind the walk and the part ahead of it, and the
handle the program holds is the first child of its kind ahead.  `Cursor.step` is the one
fact a walk needs: whether it removes the child it stands on or not, moving on keeps the
split.
-/

universe u

namespace CodeToolKit.Lib

/-- Children with distinct handles. -/
structure Siblings (α : Type u) where
  nodes : List (ℕ × α)
  nodup : (nodes.map Prod.fst).Nodup

namespace Siblings

variable {α : Type u}

/-- Number the children of a list. -/
def ofList (l : List α) : Siblings α where
  nodes := l.zipIdx.map fun n ↦ (n.2, n.1)
  nodup := by
    rw [List.map_map]
    show (l.zipIdx.map Prod.snd).Nodup
    rw [List.zipIdx_map_snd]
    exact List.nodup_range'

/-- The children in their order. -/
def toList (s : Siblings α) : List α := s.nodes.map Prod.snd

/-- The child behind a handle. -/
def get? (s : Siblings α) (h : ℕ) : Option α := s.nodes.lookup h

/-- The first child of a kind. -/
def first (s : Siblings α) (p : α → Bool) : Option ℕ :=
  (s.nodes.find? fun n ↦ p n.2).map Prod.fst

/-- The next child of a kind after a handle. -/
def next (s : Siblings α) (h : ℕ) (p : α → Bool) : Option ℕ :=
  ((s.nodes.dropWhile fun n ↦ n.1 != h).tail.find? fun n ↦ p n.2).map Prod.fst

/-- Take a child out. -/
def remove (s : Siblings α) (h : ℕ) : Siblings α where
  nodes := s.nodes.filter fun n ↦ n.1 != h
  nodup := s.nodup.sublist ((List.filter_sublist).map Prod.fst)

@[simp] theorem toList_ofList (l : List α) : (ofList l).toList = l := by
  unfold toList ofList
  rw [List.map_map]
  exact List.zipIdx_map_fst 0 l

/-- The handle before which a list splits occurs nowhere else. -/
theorem ne_of_split {s : Siblings α} {pre post : List (ℕ × α)} {h : ℕ} {a : α}
    (hs : s.nodes = pre ++ (h, a) :: post) : ∀ n ∈ pre ++ post, n.1 ≠ h := by
  have hnd := s.nodup
  rw [hs, List.map_append, List.map_cons, List.nodup_middle, List.nodup_cons] at hnd
  intro n hn he
  apply hnd.1
  rw [← List.map_append]
  exact List.mem_map.mpr ⟨n, hn, he⟩

theorem get?_of_split {s : Siblings α} {pre post : List (ℕ × α)} {h : ℕ} {a : α}
    (hs : s.nodes = pre ++ (h, a) :: post) : s.get? h = some a := by
  have hne := ne_of_split hs
  unfold get?
  rw [hs]
  clear hs
  induction pre with
  | nil => exact List.lookup_cons_self
  | cons n pre ih =>
      have hn : (h == n.1) = false := by
        rw [beq_eq_false_iff_ne]
        exact (hne n List.mem_cons_self).symm
      rw [List.cons_append, List.lookup_cons, hn]
      exact ih fun m hm ↦ hne m (List.mem_cons_of_mem _ hm)

theorem next_of_split {s : Siblings α} {pre post : List (ℕ × α)} {h : ℕ} {a : α}
    (hs : s.nodes = pre ++ (h, a) :: post) (p : α → Bool) :
    s.next h p = (post.find? fun n ↦ p n.2).map Prod.fst := by
  have hne := ne_of_split hs
  have hpre : ∀ n ∈ pre, (n.1 != h) = true := by
    intro n hn
    rw [bne_iff_ne]
    exact hne n (List.mem_append_left _ hn)
  unfold next
  rw [hs, List.dropWhile_append_of_pos hpre, List.dropWhile_cons_of_neg (by simp)]
  rfl

theorem nodes_remove_of_split {s : Siblings α} {pre post : List (ℕ × α)} {h : ℕ} {a : α}
    (hs : s.nodes = pre ++ (h, a) :: post) : (s.remove h).nodes = pre ++ post := by
  have hne := ne_of_split hs
  have hkeep : ∀ l : List (ℕ × α), (∀ n ∈ l, n ∈ pre ++ post) →
      l.filter (fun n ↦ n.1 != h) = l := by
    intro l hl
    rw [List.filter_eq_self]
    intro n hn
    rw [bne_iff_ne]
    exact hne n (hl n hn)
  show s.nodes.filter (fun n ↦ n.1 != h) = pre ++ post
  rw [hs, List.filter_append, List.filter_cons_of_neg (by simp),
    hkeep pre fun _ ↦ List.mem_append_left _, hkeep post fun _ ↦ List.mem_append_right _]

/-! ## Walks -/

/-- A walk over the children of a kind: `behind` it has passed, `ahead` is to come, and
`e` is the handle it holds. -/
structure Cursor (s : Siblings α) (p : α → Bool) (behind ahead : List (ℕ × α))
    (e : Option ℕ) : Prop where
  split : s.nodes = behind ++ ahead
  handle : e = (ahead.find? fun n ↦ p n.2).map Prod.fst

theorem Cursor.start (s : Siblings α) (p : α → Bool) : Cursor s p [] s.nodes (s.first p) :=
  ⟨rfl, rfl⟩

/-- A walk without a handle has no child of its kind ahead. -/
theorem Cursor.stop {s : Siblings α} {p : α → Bool} {behind ahead : List (ℕ × α)}
    (h : Cursor s p behind ahead none) : ∀ n ∈ ahead, p n.2 = false := by
  have hnone := Option.map_eq_none_iff.mp h.handle.symm
  intro n hn
  simpa using List.find?_eq_none.mp hnone n hn

/-- **One step of a walk.**  The handle is that of the first child of the kind ahead, and
moving on passes it, also when it is removed after the next handle was read. -/
theorem Cursor.step {s : Siblings α} {p : α → Bool} {behind ahead : List (ℕ × α)} {e : ℕ}
    (h : Cursor s p behind ahead (some e)) :
    ∃ skipped a rest, ahead = skipped ++ (e, a) :: rest ∧ (∀ n ∈ skipped, p n.2 = false) ∧
      p a = true ∧ s.get? e = some a ∧
      Cursor s p (behind ++ skipped ++ [(e, a)]) rest (s.next e p) ∧
      Cursor (s.remove e) p (behind ++ skipped) rest (s.next e p) := by
  obtain ⟨⟨e', a⟩, hfind, rfl⟩ := Option.map_eq_some_iff.mp h.handle.symm
  obtain ⟨ha, skipped, rest, rfl, hskipped⟩ := List.find?_eq_some_iff_append.mp hfind
  have hs : s.nodes = (behind ++ skipped) ++ (e', a) :: rest := by
    rw [h.split, List.append_assoc]
  refine ⟨skipped, a, rest, rfl, ?_, ha, get?_of_split hs, ⟨?_, next_of_split hs p⟩,
    ⟨nodes_remove_of_split hs, next_of_split hs p⟩⟩
  · intro n hn
    simpa using hskipped n hn
  · rw [hs, List.append_assoc (behind ++ skipped)]
    rfl

end Siblings

end CodeToolKit.Lib
