import Mathlib.Data.List.Basic
import Mathlib.Data.List.Nodup
import Mathlib.Logic.Function.Basic

/-!
# Doubly linked lists

`Links` are the two pointers of every node.  `Linked` says that they make up a list: from `first`
along `next` one comes through exactly these nodes, and `prev` leads back, with null at the first
node.  A node occurs only once (`Linked.nodup`), so a node can be taken out in place
(`Linked.unlink`).
-/

universe u

namespace CodeToolKit.Lib

variable {α : Type u}

/-- The pointers of the nodes; null is `none`. -/
structure Links (α : Type u) where
  next : α → Option α
  prev : α → Option α

namespace Links

variable [DecidableEq α]

/-- `node->next = x`. -/
def setNext (h : Links α) (node : α) (x : Option α) : Links α :=
  { h with next := Function.update h.next node x }

/-- `if( node ) node->prev = x`. -/
def setPrev (h : Links α) (node x : Option α) : Links α :=
  match node with
  | some node => { h with prev := Function.update h.prev node x }
  | none => h

/-- The neighbours of a node are linked to each other.  The node itself keeps its pointers. -/
def unlink (h : Links α) (node : α) : Links α :=
  match h.prev node with
  | some before =>
      let h := h.setNext before (h.next node)
      h.setPrev (h.next node) (some before)
  | none => h.setPrev (h.next node) none

@[simp] theorem next_setPrev (h : Links α) (node x : Option α) :
    (h.setPrev node x).next = h.next := by
  cases node <;> rfl

/-- The node in front of the removed one leads to the one after it. -/
theorem next_unlink (h : Links α) (a b : α) :
    (h.unlink a).next b = if h.prev a = some b then h.next a else h.next b := by
  rw [unlink]
  rcases h.prev a with _ | before
  · rw [next_setPrev, if_neg nofun]
  · show ((h.setNext before (h.next a)).setPrev _ _).next b = _
    rw [next_setPrev]
    show Function.update h.next before (h.next a) b = _
    rw [Function.update_apply]
    simp only [Option.some.injEq, eq_comm]

theorem prev_setPrev_self (h : Links α) (node : α) (x : Option α) :
    (h.setPrev (some node) x).prev node = x := by
  show Function.update h.prev node x node = x
  rw [Function.update_self]

theorem prev_setPrev_of_ne (h : Links α) {node : Option α} (x : Option α) {a : α}
    (hne : node ≠ some a) : (h.setPrev node x).prev a = h.prev a := by
  rcases node with _ | b
  · rfl
  · show Function.update h.prev b x a = h.prev a
    rw [Function.update_of_ne fun hab ↦ hne (congrArg some hab.symm)]

/-- The node after the removed one leads back to the one in front of it. -/
theorem prev_unlink (h : Links α) {a : α} (ha : h.prev a ≠ some a) (b : α) :
    (h.unlink a).prev b = if h.next a = some b then h.prev a else h.prev b := by
  have hset : ∀ (h' : Links α) x, h'.prev = h.prev →
      (h'.setPrev (h.next a) x).prev b = if h.next a = some b then x else h.prev b := by
    intro h' x hprev
    split
    · rename_i hb
      rw [hb, prev_setPrev_self]
    · rename_i hb
      rw [prev_setPrev_of_ne h' x hb, hprev]
  rw [unlink]
  rcases hbefore : h.prev a with _ | before
  · exact hset h none rfl
  · have hnext : (h.setNext before (h.next a)).next a = h.next a :=
      Function.update_of_ne (fun hab ↦ ha (hbefore.trans (congrArg some hab.symm))) _ _
    dsimp only
    rw [hnext]
    exact hset _ _ rfl

end Links

/-- The nodes `xs` are linked in this order, from `first` on. -/
structure Linked (h : Links α) (first : Option α) (xs : List α) : Prop where
  first : first = xs.head?
  next : ∀ {l a r}, xs = l ++ a :: r → h.next a = r.head?
  prev : ∀ {l a r}, xs = l ++ a :: r → h.prev a = l.getLast?

/-- The pointers that link the nodes of a list. -/
def Links.ofList [DecidableEq α] (xs : List α) : Links α where
  next a := (xs.dropWhile (· ≠ a)).tail.head?
  prev a := (xs.takeWhile (· ≠ a)).getLast?

theorem linked_ofList [DecidableEq α] {xs : List α} (hxs : xs.Nodup) :
    Linked (.ofList xs) xs.head? xs := by
  have hne : ∀ {l a r}, xs = l ++ a :: r → ∀ b ∈ l, decide (b ≠ a) = true := by
    rintro l a r rfl b hb
    exact decide_eq_true fun hba ↦
      (List.nodup_append.mp hxs).2.2 b hb a List.mem_cons_self hba
  refine ⟨rfl, ?_, ?_⟩
  · intro l a r hsplit
    show (xs.dropWhile (· ≠ a)).tail.head? = _
    rw [hsplit, List.dropWhile_append_of_pos (hne hsplit), List.dropWhile_cons_of_neg (by simp)]
    rfl
  · intro l a r hsplit
    show (xs.takeWhile (· ≠ a)).getLast? = _
    rw [hsplit, List.takeWhile_append_of_pos (hne hsplit), List.takeWhile_cons_of_neg (by simp),
      List.append_nil]

namespace Linked

variable {h : Links α} {first : Option α} {xs : List α}

/-- What follows a node is determined by the node. -/
theorem tail_unique (hxs : Linked h first xs) {l l' r r' : List α} {a : α}
    (hsplit : xs = l ++ a :: r) (hsplit' : xs = l' ++ a :: r') : r = r' := by
  induction r generalizing a l l' r' with
  | nil =>
      have hnext : r'.head? = none := (hxs.next hsplit').symm.trans (hxs.next hsplit)
      exact (List.head?_eq_none_iff.mp hnext).symm
  | cons b r ih =>
      have hnext : r'.head? = some b := (hxs.next hsplit').symm.trans (hxs.next hsplit)
      obtain ⟨r₁, rfl⟩ := List.head?_eq_some_iff.mp hnext
      rw [List.append_cons] at hsplit hsplit'
      rw [ih hsplit hsplit']

/-- No node occurs twice. -/
theorem nodup (hxs : Linked h first xs) : xs.Nodup := by
  suffices hsuffix : ∀ l r, xs = l ++ r → r.Nodup from hsuffix [] xs rfl
  intro l r
  induction r generalizing l with
  | nil => exact fun _ ↦ List.nodup_nil
  | cons a r ih =>
      intro hsplit
      refine List.nodup_cons.mpr ⟨fun hmem ↦ ?_, ih (l ++ [a]) (hsplit.trans (by simp))⟩
      obtain ⟨r₁, r₂, rfl⟩ := List.append_of_mem hmem
      have htail : r₁ ++ a :: r₂ = r₂ :=
        hxs.tail_unique hsplit (hsplit.trans (by simp : _ = (l ++ a :: r₁) ++ a :: r₂))
      have hlength := congrArg List.length htail
      simp only [List.length_append, List.length_cons] at hlength
      omega

/-- Where a node of two lists in a row stands. -/
theorem split_append {l r l₁ r₁ : List α} {b : α} (hsplit : l ++ r = l₁ ++ b :: r₁) :
    (∃ m, l = l₁ ++ b :: m ∧ r₁ = m ++ r) ∨ ∃ m, l₁ = l ++ m ∧ r = m ++ b :: r₁ := by
  rcases List.append_eq_append_iff.mp hsplit with ⟨m, rfl, rfl⟩ | ⟨m, rfl, hm⟩
  · exact .inr ⟨m, rfl, rfl⟩
  · rcases m with _ | ⟨c, m⟩
    · exact .inr ⟨[], by simp, hm.symm⟩
    · obtain ⟨rfl, rfl⟩ := List.cons.inj hm
      exact .inl ⟨m, rfl, rfl⟩

/-- A node that others follow is not the last one. -/
theorem getLast?_ne {l m : List α} {b : α} (hnodup : (l ++ b :: m).Nodup) (hm : m ≠ []) :
    (l ++ b :: m).getLast? ≠ some b := by
  have hb : b ∉ m := (List.nodup_cons.mp (List.nodup_append.mp hnodup).2.1).1
  obtain ⟨m, c, rfl⟩ := (List.eq_nil_or_concat' m).resolve_left hm
  rw [← List.cons_append, ← List.append_assoc, List.getLast?_concat]
  rintro ⟨⟩
  exact hb (by simp)

variable [DecidableEq α]

/-- **A node is taken out.**  The others are linked in the same order, and the node still leads to
the one after it. -/
theorem unlink {l r : List α} {a : α} (hxs : Linked h first (l ++ a :: r)) :
    Linked (h.unlink a) (if (h.prev a).isSome then first else h.next a) (l ++ r) ∧
      (h.unlink a).next a = r.head? := by
  have hnodup := hxs.nodup
  rw [List.nodup_append, List.nodup_cons] at hnodup
  obtain ⟨hl, ⟨har, hr⟩, hdisjoint⟩ := hnodup
  have hbefore : h.prev a = l.getLast? := hxs.prev rfl
  have hafter : h.next a = r.head? := hxs.next rfl
  have hal : h.prev a ≠ some a := by
    rw [hbefore]
    exact fun hlast ↦ hdisjoint a (List.mem_of_getLast? hlast) a List.mem_cons_self rfl
  refine ⟨⟨?_, ?_, ?_⟩, ?_⟩
  · rw [hbefore, hafter, hxs.first]
    rcases l with _ | ⟨b, l⟩
    · rfl
    · simp
  · intro l₁ b r₁ hsplit
    rw [Links.next_unlink, hbefore, hafter]
    rcases split_append hsplit with ⟨m, rfl, rfl⟩ | ⟨m, rfl, rfl⟩
    · have hb : l₁ ++ b :: m ++ a :: r = l₁ ++ b :: (m ++ a :: r) := by simp
      rcases m with _ | ⟨c, m⟩
      · rw [List.getLast?_concat, if_pos rfl, List.nil_append]
      · rw [if_neg (getLast?_ne hl (List.cons_ne_nil c m)), hxs.next hb]
        rfl
    · have hb : l ++ a :: (m ++ b :: r₁) = (l ++ a :: m) ++ b :: r₁ := by simp
      have hlast : l.getLast? ≠ some b := fun hlast ↦
        hdisjoint b (List.mem_of_getLast? hlast) b (by simp) rfl
      rw [if_neg hlast, hxs.next hb]
  · intro l₁ b r₁ hsplit
    rw [Links.prev_unlink h hal, hbefore, hafter]
    rcases split_append hsplit with ⟨m, rfl, rfl⟩ | ⟨m, rfl, rfl⟩
    · have hb : l₁ ++ b :: m ++ a :: r = l₁ ++ b :: (m ++ a :: r) := by simp
      have hhead : r.head? ≠ some b := fun hhead ↦
        hdisjoint b (by simp) b (List.mem_cons_of_mem a (List.mem_of_head? hhead)) rfl
      rw [if_neg hhead, hxs.prev hb]
    · have hb : l ++ a :: (m ++ b :: r₁) = (l ++ a :: m) ++ b :: r₁ := by simp
      rcases m with _ | ⟨c, m⟩
      · rw [List.nil_append, List.head?_cons, if_pos rfl, List.append_nil]
      · have hcb : some c ≠ some b := by
          rintro ⟨⟩
          exact (List.nodup_cons.mp hr).1 (by simp)
        rw [List.cons_append, List.head?_cons, if_neg hcb, hxs.prev hb]
        simp
  · rw [Links.next_unlink, if_neg hal, hafter]

end Linked

end CodeToolKit.Lib
