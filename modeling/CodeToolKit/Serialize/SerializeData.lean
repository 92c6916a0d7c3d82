import CodeToolKit.Lib.Heap
import CodeToolKit.Lib.Transition
import Mathlib.Algebra.GroupWithZero.Nat
import Mathlib.Data.Int.Notation

/-!
# `SerializeData`

An object keeps a copy of the floats that were encoded last in `m_data`, and `decode`
gives a new copy of them to the caller.  `intelptr` is there to release a decoded buffer
that the caller does not release: the next `decode` and the destructor release what it
points to, and `freeSpace` resets it.

Blocks hold 4-byte words, so `m_size` is four times the length of the block `m_data`.
`System.next` is a caller that uses an object as it is meant to be used: it encodes arrays
that are not empty, decodes into a null pointer, releases each buffer it got at most once,
and destroys the object at the end.
-/

namespace CodeToolKit.Serialize

open CodeToolKit.Lib

/-- A `float`, by its bits. -/
abbrev Word := BitVec 32

/-- The object and the heap. -/
structure SerializeData where
  m_data : Option ℕ
  m_size : ℤ
  intelptr : Option ℕ
  heap : Heap (List Word)

/-- The conversion to `int`. -/
def toInt (x : ℤ) : ℤ := x.bmod (2 ^ 32)

namespace SerializeData

/-- `SerializeData`. -/
def new : SerializeData := ⟨none, 0, none, .empty⟩

/-- `if( m_data ) { delete []m_data; m_data = NULL; }`. -/
def deleteData (o : SerializeData) : SerializeData :=
  match o.m_data with
  | some b => { o with heap := o.heap.free b, m_data := none }
  | none => o

/-- `if( intelptr ) { delete []intelptr; intelptr = NULL; }`. -/
def deleteIntel (o : SerializeData) : SerializeData :=
  match o.intelptr with
  | some b => { o with heap := o.heap.free b, intelptr := none }
  | none => o

/-- `m_size = size; m_data = new char[ m_size ];` and the copy into it.  A block cannot have
a negative size; the exception leaves the object as it is by then. -/
def store (o : SerializeData) (data : List Word) (size : ℤ) : SerializeData :=
  if size < 0 then { o with m_size := size }
  else { o with
    m_size := size
    m_data := some o.heap.fresh
    heap := o.heap.alloc (data.take (size.toNat / 4)) }

/-- `encode`, with the pointer it returns. -/
def encode (o : SerializeData) (data : Option (List Word)) (num : ℤ) : SerializeData × Option ℕ :=
  match data with
  | none => (o, none)
  | some data =>
      if num ≤ 0 then (o, none)
      else
        let o := o.deleteData.store data (toInt (num * 4))
        (o, o.m_data)

/-- `decode`, with what it leaves in `*data` and the number it returns. -/
def decode (o : SerializeData) (data : Option ℕ) : SerializeData × Option ℕ × ℤ :=
  match o.m_data, data with
  | some block, none =>
      if o.m_size ≤ 0 then (o, none, 0)
      else
        let o := o.deleteIntel
        let num := o.m_size.toNat / 4
        if num > 0 then
          let b := o.heap.fresh
          let floats := (o.heap.blocks.getD block []).take num
          ({ o with heap := (o.heap.alloc floats).read block, intelptr := some block },
            some b, num)
        else (o, none, num)
  | _, data => (o, data, 0)

/-- `freeSpace`. -/
def freeSpace (o : SerializeData) (buff : Option ℕ) (num : ℤ) : SerializeData :=
  match buff with
  | none => o
  | some b => if num ≤ 0 then o else { o with heap := o.heap.free b, intelptr := none }

/-- `~SerializeData`. -/
def destroy (o : SerializeData) : SerializeData := o.deleteData.deleteIntel

end SerializeData

/-! ## A caller -/

/-- The object and its caller.  `buffers` are those that the caller got from `decode` and has
not released; `encoded` are the floats of the last call of `encode`, and `decoded` has for
every call of `decode` these floats and those it returned.  No step reads the latter two. -/
structure St extends SerializeData where
  buffers : List ℕ
  encoded : Option (List Word)
  decoded : List (Option (List Word) × List Word)
  destroyed : Bool

/-- The calls. -/
inductive Act where
  | encode (data : List Word)
  | decode
  | freeSpace (buff : ℕ) (num : ℤ)
  | destroy

namespace St

/-- The step of a call. -/
def next (s : St) : Act → Option St
  | .encode data =>
      if s.destroyed = false ∧ data ≠ [] ∧ data.length < 2 ^ 31 then
        some { s with
          toSerializeData := (s.encode (some data) data.length).1
          encoded := some data }
      else none
  | .decode =>
      if s.destroyed = false then
        let (o, data, _) := s.toSerializeData.decode none
        some { s with
          toSerializeData := o
          buffers := s.buffers ++ data.toList
          decoded := s.decoded ++
            [(s.encoded, (data.map fun b ↦ o.heap.blocks.getD b []).getD [])] }
      else none
  | .freeSpace buff num =>
      if s.destroyed = false ∧ buff ∈ s.buffers then
        some { s with
          toSerializeData := s.toSerializeData.freeSpace (some buff) num
          buffers := if num ≤ 0 then s.buffers else s.buffers.erase buff }
      else none
  | .destroy =>
      if s.destroyed = false then
        some { s with toSerializeData := s.toSerializeData.destroy, destroyed := true }
      else none

/-- An object that was not used. -/
def initial : St := { SerializeData.new with
  buffers := []
  encoded := none
  decoded := []
  destroyed := false }

end St

/-- The runs of an object and its caller. -/
def system : System St Act where
  start s := s = .initial
  next := St.next

/-- The blocks are owned as they should be: none is released twice and none is read after
its release, `m_data` is null or a live block of `m_size` bytes, and every call of `decode`
returned the floats that were encoded last. -/
structure Owned (s : St) : Prop where
  safe : s.heap.Safe
  m_data : ∀ b, s.m_data = some b → s.heap.Live b ∧
    ∃ floats, s.heap.blocks[b]? = some floats ∧ s.m_size = 4 * floats.length
  decoded : ∀ floats returned, (some floats, returned) ∈ s.decoded → returned = floats

end CodeToolKit.Serialize
