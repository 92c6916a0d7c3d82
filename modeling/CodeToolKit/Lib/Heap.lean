import Mathlib.Data.List.Nodup
import Mathlib.Data.Nat.Notation

/-!
# A heap of blocks

Blocks have identities that are never used again, so that two pointers to one block can
be told from pointers to two.  The heap keeps a record of what was done to it: of every
release, and of every read with whether the block was live.  Nothing is refused: a
program that releases a block twice or reads a released one goes on, and `Heap.Safe` no
longer holds of its heap.
-/

universe u

namespace CodeToolKit.Lib

/-- Blocks with contents of type `V`. -/
structure Heap (V : Type u) where
  /-- The contents, by identity. -/
  blocks : List V
  /-- The releases. -/
  freed : List ℕ
  /-- The reads, with whether the block was live. -/
  reads : List (ℕ × Bool)

namespace Heap

variable {V : Type u} {h : Heap V} {b c : ℕ} {v : V}

/-- A heap without blocks. -/
def empty : Heap V := ⟨[], [], []⟩

/-- The block was allocated and not released. -/
def Live (h : Heap V) (b : ℕ) : Prop := b < h.blocks.length ∧ b ∉ h.freed

instance instDecidableLive (h : Heap V) (b : ℕ) : Decidable (h.Live b) :=
  inferInstanceAs (Decidable (_ ∧ _))

/-- Allocate a block with contents. -/
def alloc (h : Heap V) (v : V) : Heap V := { h with blocks := h.blocks ++ [v] }

/-- The identity the next block gets. -/
def fresh (h : Heap V) : ℕ := h.blocks.length

/-- Release a block. -/
def free (h : Heap V) (b : ℕ) : Heap V := { h with freed := h.freed ++ [b] }

/-- Read a block. -/
def read (h : Heap V) (b : ℕ) : Heap V := { h with reads := h.reads ++ [(b, decide (h.Live b))] }

/-- No block was released twice, and none was read that was not live. -/
structure Safe (h : Heap V) : Prop where
  freed_nodup : h.freed.Nodup
  reads_live : ∀ r ∈ h.reads, r.2 = true

@[simp] theorem blocks_read : (h.read b).blocks = h.blocks := rfl

theorem safe_empty : (empty : Heap V).Safe := ⟨List.nodup_nil, nofun⟩

/-! ## What is kept -/

theorem Safe.alloc (hs : h.Safe) (v : V) : (h.alloc v).Safe := ⟨hs.freed_nodup, hs.reads_live⟩

/-- Releasing a live block is safe. -/
theorem Safe.free (hs : h.Safe) (hb : h.Live b) : (h.free b).Safe where
  freed_nodup := List.nodup_append.mpr ⟨hs.freed_nodup, List.nodup_singleton b, by
    rintro c hc d hd rfl
    rw [List.mem_singleton] at hd
    exact hb.2 (hd ▸ hc)⟩
  reads_live := hs.reads_live

/-- Reading a live block is safe. -/
theorem Safe.read (hs : h.Safe) (hb : h.Live b) : (h.read b).Safe where
  freed_nodup := hs.freed_nodup
  reads_live := by
    intro r hr
    rcases List.mem_append.mp hr with hr | hr
    · exact hs.reads_live r hr
    · rw [List.mem_singleton.mp hr]
      exact decide_eq_true hb

/-- Releasing a block a second time is not safe. -/
theorem not_safe_free (hb : b ∈ h.freed) : ¬ (h.free b).Safe := by
  intro hs
  exact (List.nodup_append.mp hs.freed_nodup).2.2 b hb b (List.mem_singleton_self b) rfl

/-- Reading a released block is not safe. -/
theorem not_safe_read (hb : b ∈ h.freed) : ¬ (h.read b).Safe := by
  intro hs
  have hlive := hs.reads_live _ (List.mem_append_right _ (List.mem_singleton_self _))
  exact (of_decide_eq_true hlive).2 hb

theorem Live.alloc (hb : h.Live b) (v : V) : (h.alloc v).Live b := by
  refine ⟨?_, hb.2⟩
  rw [Heap.alloc, List.length_append]
  exact Nat.lt_add_right _ hb.1

theorem live_fresh (hfreed : ∀ c ∈ h.freed, c < h.blocks.length) : (h.alloc v).Live h.fresh := by
  refine ⟨?_, fun hmem ↦ Nat.lt_irrefl _ (hfreed _ hmem)⟩
  rw [Heap.alloc, List.length_append]
  exact Nat.lt_succ_self _

theorem Live.free (hb : h.Live b) (hne : b ≠ c) : (h.free c).Live b := by
  refine ⟨hb.1, ?_⟩
  intro hmem
  rcases List.mem_append.mp hmem with hmem | hmem
  · exact hb.2 hmem
  · exact hne (List.mem_singleton.mp hmem)

/-- Only allocated blocks are released. -/
theorem freed_lt_alloc (hfreed : ∀ c ∈ h.freed, c < h.blocks.length) (v : V) :
    ∀ c ∈ (h.alloc v).freed, c < (h.alloc v).blocks.length := by
  intro c hc
  rw [Heap.alloc, List.length_append]
  exact Nat.lt_add_right _ (hfreed c hc)

theorem freed_lt_free (hfreed : ∀ c ∈ h.freed, c < h.blocks.length) (hb : b < h.blocks.length) :
    ∀ c ∈ (h.free b).freed, c < (h.free b).blocks.length := by
  intro c hc
  rcases List.mem_append.mp hc with hc | hc
  · exact hfreed c hc
  · rw [List.mem_singleton.mp hc]
    exact hb

theorem getElem?_alloc (hb : b < h.blocks.length) (v : V) :
    (h.alloc v).blocks[b]? = h.blocks[b]? := List.getElem?_append_left hb

theorem getElem?_fresh (v : V) : (h.alloc v).blocks[h.fresh]? = some v := by
  show (h.blocks ++ [v])[h.blocks.length]? = some v
  rw [List.getElem?_append_right (Nat.le_refl _), Nat.sub_self]
  rfl

/-! ## One owner -/

/-- The heap is safe, and a pointer is null or points to a live block. -/
structure Owns (h : Heap V) (p : Option ℕ) : Prop where
  safe : h.Safe
  freed_lt : ∀ c ∈ h.freed, c < h.blocks.length
  live : ∀ b, p = some b → h.Live b

theorem owns_empty : (empty : Heap V).Owns none := ⟨safe_empty, nofun, nofun⟩

variable {p : Option ℕ}

/-- The pointer is forgotten. -/
theorem Owns.forget (ho : h.Owns p) : h.Owns none := ⟨ho.safe, ho.freed_lt, nofun⟩

theorem Owns.alloc (ho : h.Owns p) (v : V) : (h.alloc v).Owns (some h.fresh) where
  safe := ho.safe.alloc v
  freed_lt := freed_lt_alloc ho.freed_lt v
  live := by
    rintro b ⟨⟩
    exact live_fresh ho.freed_lt

theorem Owns.free (ho : h.Owns (some b)) : (h.free b).Owns none where
  safe := ho.safe.free (ho.live b rfl)
  freed_lt := freed_lt_free ho.freed_lt (ho.live b rfl).1
  live := nofun

theorem Owns.read (ho : h.Owns (some b)) : (h.read b).Owns (some b) where
  safe := ho.safe.read (ho.live b rfl)
  freed_lt := ho.freed_lt
  live := ho.live

end Heap

end CodeToolKit.Lib
