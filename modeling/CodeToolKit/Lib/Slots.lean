import Mathlib.Data.List.Induction

/-!
# Slots

Values that sit at marked places of a structure.  `Slots S L V` says where they are: `get`
lists the places of a structure with a label each, and `map` changes every value as its
label tells and leaves everything else alone.  Labels do not depend on the values.

Slots are built along the structure: of a part of it (`focus`), and of the elements of a
list with a state that is carried over the elements before (`scan`).

A write overwrites the values of the slots it hits.  Since no write changes a label,
writes that overlap have a simple normal form: after a list of them every slot has the
value of the last write that hits it (`foldl_write`), and the same list once more changes
nothing (`map_last_last`).
-/

universe u v w x

namespace CodeToolKit.Lib

/-- The places of `S` that hold values of type `V`, with labels. -/
structure Slots (S : Type u) (L : Type v) (V : Type w) where
  /-- The labels and values in their order. -/
  get : S → List (L × V)
  /-- Change the values. -/
  map : (L → V → V) → S → S
  get_map : ∀ f s, get (map f s) = (get s).map fun p ↦ (p.1, f p.1 p.2)
  map_map : ∀ f g s, map f (map g s) = map (fun l v ↦ f l (g l v)) s
  map_congr : ∀ {f g : L → V → V} {s : S}, (∀ p ∈ get s, f p.1 p.2 = g p.1 p.2) →
    map f s = map g s
  map_id : ∀ s, map (fun _ v ↦ v) s = s

namespace Slots

variable {S : Type u} {T : Type x} {L : Type v} {V : Type w}

/-- Two changes have the same result exactly when they agree on every value that is
there. -/
theorem map_eq_map_iff (A : Slots S L V) {f g : L → V → V} {s : S} :
    A.map f s = A.map g s ↔ ∀ p ∈ A.get s, f p.1 p.2 = g p.1 p.2 := by
  constructor
  · intro h p hp
    have hget := congrArg A.get h
    rw [A.get_map, A.get_map, List.map_inj_left] at hget
    exact (Prod.mk.inj (hget p hp)).2
  · exact A.map_congr

/-- A change leaves the structure as it is exactly when it keeps every value. -/
theorem map_eq_self_iff (A : Slots S L V) {f : L → V → V} {s : S} :
    A.map f s = s ↔ ∀ p ∈ A.get s, f p.1 p.2 = p.2 := by
  have h := A.map_eq_map_iff (f := f) (g := fun _ v ↦ v) (s := s)
  rwa [A.map_id] at h

/-! ## How slots are built -/

/-- No slot. -/
def none : Slots S L V where
  get _ := []
  map _ s := s
  get_map _ _ := rfl
  map_map _ _ _ := rfl
  map_congr _ := rfl
  map_id _ := rfl

/-- The slots of a part of a structure. -/
def focus (view : T → S) (edit : (S → S) → T → T) (A : Slots S L V)
    (edit_id : ∀ t, edit id t = t)
    (edit_edit : ∀ f g t, edit f (edit g t) = edit (f ∘ g) t)
    (edit_congr : ∀ {f g : S → S} {t : T}, f (view t) = g (view t) → edit f t = edit g t)
    (view_edit : ∀ f t, view (edit (A.map f) t) = A.map f (view t)) : Slots T L V where
  get t := A.get (view t)
  map f := edit (A.map f)
  get_map f t := by rw [view_edit, A.get_map]
  map_map f g t := by
    rw [edit_edit]
    apply edit_congr
    exact A.map_map f g (view t)
  map_congr h := edit_congr (A.map_congr h)
  map_id t := by
    have hid : A.map (fun _ v ↦ v) = id := by
      funext s
      exact A.map_id s
    rw [hid, edit_id]

section scan

variable {C : Type x} (advance : C → S → C) (A : C → Slots S L V)

/-- The slots of the elements of a list: `advance` carries a state over the elements. -/
def scanGet : C → List S → List (L × V)
  | _, [] => []
  | c, s :: rest => (A c).get s ++ scanGet (advance c s) rest

/-- The change of the elements of a list. -/
def scanMap (f : L → V → V) : C → List S → List S
  | _, [] => []
  | c, s :: rest => (A c).map f s :: scanMap f (advance c s) rest

variable {advance A}

/-- The slots of a list, from a state that no change of the values reaches. -/
def scan (advance_map : ∀ c f s, advance c ((A c).map f s) = advance c s) (c : C) :
    Slots (List S) L V where
  get := scanGet advance A c
  map f := scanMap advance A f c
  get_map f l := by
    induction l generalizing c with
    | nil => rfl
    | cons s rest ih =>
        rw [scanMap, scanGet, scanGet, (A c).get_map, advance_map, ih, List.map_append]
  map_map f g l := by
    induction l generalizing c with
    | nil => rfl
    | cons s rest ih => rw [scanMap, scanMap, scanMap, (A c).map_map, advance_map, ih]
  map_congr {f g l} h := by
    induction l generalizing c with
    | nil => rfl
    | cons s rest ih =>
        rw [scanGet, List.forall_mem_append] at h
        rw [scanMap, scanMap, (A c).map_congr h.1, ih _ h.2]
  map_id l := by
    induction l generalizing c with
    | nil => rfl
    | cons s rest ih => rw [scanMap, (A c).map_id, ih]

/-- What a view of a list shows of a change, from what the view of each element shows. -/
theorem scanMap_view {V' : Type x} {view : S → V'} {Q : L × V → Prop} {f : L → V → V}
    (h : ∀ c s, view ((A c).map f s) = view s ↔ ∀ p ∈ (A c).get s, Q p) (c : C) (l : List S) :
    (scanMap advance A f c l).map view = l.map view ↔ ∀ p ∈ scanGet advance A c l, Q p := by
  induction l generalizing c with
  | nil => exact ⟨fun _ ↦ nofun, fun _ ↦ rfl⟩
  | cons s rest ih =>
      rw [scanMap, scanGet, List.map_cons, List.map_cons, List.cons_eq_cons, h, ih,
        List.forall_mem_append]

end scan

end Slots

/-! ## Writes -/

/-- A write: which slots it hits, and the value it leaves there. -/
structure Write (L : Type v) (V : Type w) where
  hits : L → Bool
  value : V

namespace Write

variable {L : Type v} {V : Type w}

/-- What a write makes of a value. -/
def run (w : Write L V) (l : L) (v : V) : V := if w.hits l then w.value else v

/-- The value a slot has after a list of writes: that of the last one that hits it. -/
def last (ws : List (Write L V)) (l : L) (v : V) : V :=
  ((ws.filter fun w ↦ w.hits l).getLast?.map value).getD v

theorem last_append (ws : List (Write L V)) (w : Write L V) (l : L) (v : V) :
    last (ws ++ [w]) l v = w.run l (last ws l v) := by
  unfold last run
  rw [List.filter_append]
  cases hw : w.hits l with
  | true =>
      rw [List.filter_cons_of_pos (p := fun w : Write L V ↦ w.hits l) hw, List.filter_nil,
        List.getLast?_append]
      rfl
  | false =>
      rw [List.filter_cons_of_neg (by simp [hw]), List.filter_nil, List.append_nil]
      rfl

/-- The same writes once more leave a value as it is. -/
theorem last_last (ws : List (Write L V)) (l : L) (v : V) :
    last ws l (last ws l v) = last ws l v := by
  unfold last
  cases (ws.filter fun w ↦ w.hits l).getLast? <;> rfl

end Write

namespace Slots

variable {S : Type u} {L : Type v} {V : Type w} (A : Slots S L V)

/-- A write that hits no slot changes nothing. -/
theorem map_run_of_not_hits {w : Write L V} {s : S} (h : ∀ p ∈ A.get s, w.hits p.1 = false) :
    A.map w.run s = s := by
  rw [map_eq_self_iff]
  intro p hp
  rw [Write.run, h p hp, if_neg Bool.false_ne_true]

/-- **Overlapping writes**: the last write that hits a slot wins. -/
theorem foldl_write (ws : List (Write L V)) (s : S) :
    ws.foldl (fun s w ↦ A.map w.run s) s = A.map (Write.last ws) s := by
  induction ws using List.reverseRecOn with
  | nil => exact (A.map_id s).symm
  | append_singleton ws w ih =>
      rw [List.foldl_append, ih, List.foldl_cons, List.foldl_nil, A.map_map]
      congr 1
      funext l v
      exact (Write.last_append ws w l v).symm

/-- **Idempotence**: the same writes once more change nothing. -/
theorem map_last_last (ws : List (Write L V)) (s : S) :
    A.map (Write.last ws) (A.map (Write.last ws) s) = A.map (Write.last ws) s := by
  rw [A.map_map]
  congr 1
  funext l v
  exact Write.last_last ws l v

end Slots

end CodeToolKit.Lib
