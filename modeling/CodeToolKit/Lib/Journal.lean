import Mathlib.Data.List.Basic

/-!
# The journal of a transactional store

What a connection with `BEGIN`/`COMMIT` guarantees does not depend on what the
statements do, only on which of them are safe.  A `Journal` keeps exactly that:
the writes that are durable and, while a transaction is open, the writes that
wait for its `COMMIT`.

* a write inside a transaction waits, a write outside one is durable at once;
* `COMMIT` makes the waiting writes durable and closes the transaction; without
  an open transaction it fails and changes nothing;
* `BEGIN` opens an empty transaction; inside one it fails and changes nothing;
* closing the connection rolls the open transaction back.
-/

universe u v

namespace CodeToolKit.Lib

/-- The writes of a store, split into the durable ones and those of the open
transaction. -/
structure Journal (W : Type u) where
  /-- The writes that survive a crash. -/
  durable : List W
  /-- The writes of the open transaction; `none` when there is no transaction. -/
  waiting : Option (List W)
deriving DecidableEq, Repr

namespace Journal

variable {W : Type u}

/-- A store nothing was written to, with no transaction open. -/
def empty : Journal W := ⟨[], none⟩

/-- The writes that a crash or a rollback would lose. -/
def uncommitted (j : Journal W) : List W := j.waiting.getD []

/-- The effect of a write that was executed. -/
def write (j : Journal W) (w : W) : Journal W :=
  match j.waiting with
  | some ws => { j with waiting := some (ws ++ [w]) }
  | none => { j with durable := j.durable ++ [w] }

/-- `BEGIN`. -/
def begin (j : Journal W) : Journal W :=
  match j.waiting with
  | some _ => j
  | none => { j with waiting := some [] }

/-- `COMMIT`. -/
def commit (j : Journal W) : Journal W :=
  match j.waiting with
  | some ws => ⟨j.durable ++ ws, none⟩
  | none => j

/-- Closing the connection. -/
def close (j : Journal W) : Journal W := { j with waiting := none }

/-- Every write of the journal, durable or waiting. -/
def writes (j : Journal W) : List W := j.durable ++ j.uncommitted

@[simp] theorem uncommitted_begin (j : Journal W) : j.begin.uncommitted = j.uncommitted := by
  obtain ⟨d, _ | ws⟩ := j <;> rfl

@[simp] theorem uncommitted_commit (j : Journal W) : j.commit.uncommitted = [] := by
  obtain ⟨d, _ | ws⟩ := j <;> rfl

@[simp] theorem uncommitted_close (j : Journal W) : j.close.uncommitted = [] := rfl

@[simp] theorem writes_begin (j : Journal W) : j.begin.writes = j.writes := by
  obtain ⟨d, _ | ws⟩ := j <;> rfl

@[simp] theorem writes_commit (j : Journal W) : j.commit.writes = j.writes := by
  obtain ⟨d, _ | ws⟩ := j <;> simp [commit, writes, uncommitted]

@[simp] theorem writes_write (j : Journal W) (w : W) : (j.write w).writes = j.writes ++ [w] := by
  obtain ⟨d, _ | ws⟩ := j <;> simp [write, writes, uncommitted]

/-- Nothing is lost by a rollback once there is nothing to roll back. -/
theorem writes_close_of_uncommitted {j : Journal W} (h : j.uncommitted = []) :
    j.close.writes = j.writes := by
  rw [writes, writes, h]
  rfl

/-- When nothing waits, every write is durable. -/
theorem mem_durable_of_uncommitted {j : Journal W} (h : j.uncommitted = []) {w : W}
    (hw : w ∈ j.writes) : w ∈ j.durable := by
  simpa [writes, h] using hw

/-- Execute a list of statements, each of which either succeeds or fails without a
trace. -/
def writeAll (j : Journal W) : List (W × Bool) → Journal W
  | [] => j
  | (w, ok) :: ws => writeAll (if ok then j.write w else j) ws

end Journal

end CodeToolKit.Lib
