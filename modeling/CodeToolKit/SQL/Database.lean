import CodeToolKit.SQL.Statement
import Mathlib.Data.List.Nodup
import Mathlib.Logic.Function.Basic

/-!
# A database

Tables with an `INTEGER PRIMARY KEY AUTOINCREMENT`, and what the statements do to them.  A table
carries the laws of its rows: each has a value for each column, and the keys are increasing
and not above the largest key that was given out, which is counted from 0 on.

`exec` has three kinds of results: the statement is done, it is an error and changes nothing,
or it is outside of the model.
-/

namespace CodeToolKit.SQL

open CodeToolKit.Lib

/-- A stored value. -/
inductive Value where
  | null
  | int (value : ℤ)
  /-- A number that is no 64-bit integer, by its text. -/
  | real (text : List Char)
  | text (value : List Char)
  | blob (bytes : List Char)
deriving DecidableEq, Repr

/-- A row: its key, and the values of the columns after it. -/
structure Row where
  id : ℤ
  cells : List Value
deriving DecidableEq, Repr

/-- A table. -/
structure Table where
  key : List Char
  columns : List Column
  /-- The rows in the order of their keys. -/
  rows : List Row
  /-- The largest key that was given out. -/
  seq : ℤ
  full : ∀ r ∈ rows, r.cells.length = columns.length
  sorted : rows.Pairwise fun r r' ↦ r.id < r'.id
  bounded : ∀ r ∈ rows, r.id ≤ seq
  counted : 0 ≤ seq

/-- A database: its tables by their names. -/
abbrev Database := List Char → Option Table

/-- Why a statement is not done. -/
inductive Failure where
  /-- The statement is rejected and changes nothing. -/
  | error
  /-- The model does not say what the statement does. -/
  | outside
deriving DecidableEq, Repr

theorem bind_eq_ok {α β : Type} {x : Except Failure α} {f : α → Except Failure β} {b : β} :
    x >>= f = .ok b ↔ ∃ a, x = .ok a ∧ f a = .ok b := by
  constructor
  · intro h
    rcases x with e | a
    · exact nomatch h
    · exact ⟨a, rfl, h⟩
  · rintro ⟨a, rfl, h⟩
    exact h

/-! ## Values -/

/-- The number that digits stand for, if it has 64 bits. -/
def natural (digits : List Char) : Except Failure ℤ :=
  if digits.all Char.isDigit && Nat.ofDigitChars 10 digits 0 < 2 ^ 63 then
    .ok (Nat.ofDigitChars 10 digits 0)
  else .error .outside

/-- The integer that a literal stands for. -/
def integer : List Char → Except Failure ℤ
  | '-' :: digits => (natural digits).map (- ·)
  | digits => natural digits

/-- The value of a literal. -/
def Literal.value : Literal → Except Failure Value
  | null => .ok .null
  | number text => (integer text).map .int
  | string s => .ok (.text s)

/-- The value that a column stores.  Text in a column of integers is outside of the model, and so
are values that no literal stands for. -/
def Affinity.store : Affinity → Value → Except Failure Value
  | _, .null => .ok .null
  | integer, .int z => .ok (.int z)
  | integer, .text _ => .error .outside
  | text, .int z => .ok (.text (decimal z))
  | text, .text s => .ok (.text s)
  | _, .real _ | _, .blob _ => .error .outside

/-- Whether a value of a column is an integer. -/
def Affinity.eqInt : Affinity → Value → ℤ → Bool
  | integer, .int z', z => z' = z
  | text, .text s, z => s = decimal z
  | _, _, _ => false

/-- A number of 64 bits is read as it is written. -/
theorem integer_decimal {z : ℤ} (h : z.natAbs < 2 ^ 63) : integer (decimal z) = .ok z := by
  have hdigits : (Nat.toDigits 10 z.natAbs).all Char.isDigit :=
    List.all_eq_true.mpr fun c ↦ Nat.isDigit_of_mem_toDigits (by decide) (by decide)
  have hnatural : natural (Nat.toDigits 10 z.natAbs) = .ok (z.natAbs : ℤ) := by
    rw [natural, Nat.ofDigitChars_toDigits (by decide) (by decide), hdigits]
    exact if_pos (decide_eq_true h)
  rw [decimal]
  split
  · rw [integer, hnatural]
    exact congrArg Except.ok (show -(z.natAbs : ℤ) = z by omega)
  · rcases List.exists_cons_of_ne_nil (Nat.toDigits_ne_nil : Nat.toDigits 10 z.natAbs ≠ []) with
      ⟨d, ds, hds⟩
    have hd : d ≠ '-' := by
      rintro rfl
      rw [hds] at hdigits
      exact absurd (List.all_eq_true.mp hdigits '-' List.mem_cons_self) (by decide)
    have hinteger : integer (d :: ds) = natural (d :: ds) := by
      rw [integer]
      intro digits heq
      exact hd (List.cons.inj heq).1
    rw [hds, hinteger, ← hds, hnatural]
    exact congrArg Except.ok (show (z.natAbs : ℤ) = z by omega)

/-! ## Conditions -/

namespace Table

/-- Where a column is: the key, or one after it. -/
def find (t : Table) (name : List Char) : Except Failure (Option ℕ) :=
  if name = t.key then .ok none
  else
    match t.columns.findIdx? fun c ↦ c.name = name with
    | some i => .ok (some i)
    | none => .error .error

/-- Whether a row meets an equation with an integer. -/
def meets (t : Table) (at? : Option ℕ) (z : ℤ) (r : Row) : Bool :=
  match at? with
  | none => r.id = z
  | some i =>
      match t.columns[i]?, r.cells[i]? with
      | some c, some v => c.affinity.eqInt v z
      | _, _ => false

/-- A condition on a column of integers. -/
theorem meets_int {t : Table} {i : ℕ} {c : Column} (hc : t.columns[i]? = some c)
    (hint : c.affinity = .integer) (z : ℤ) (r : Row) :
    t.meets (some i) z r = decide (r.cells[i]? = some (.int z)) := by
  rw [meets, hc]
  rcases r.cells[i]? with _ | v
  · rfl
  · show c.affinity.eqInt v z = decide (some v = some (.int z))
    rw [hint]
    rcases v with _ | z' | s | s | s <;> simp [Affinity.eqInt]

/-- The test of the conditions of a statement.  Conditions with other values than integers are
outside of the model. -/
def test (t : Table) : List Equation → Except Failure (Row → Bool)
  | [] => .ok fun _ ↦ true
  | (name, .number s) :: es => do
      let i ← t.find name
      let z ← integer s
      let rest ← t.test es
      .ok fun r ↦ t.meets i z r && rest r
  | _ => .error .outside

/-! ## Keys -/

theorem nodup_ids (t : Table) : (t.rows.map Row.id).Nodup :=
  List.pairwise_map.mpr (t.sorted.imp Int.ne_of_lt)

/-- The laws of a table say nothing more than its fields. -/
theorem ext {t t' : Table} (hkey : t.key = t'.key) (hcolumns : t.columns = t'.columns)
    (hrows : t.rows = t'.rows) (hseq : t.seq = t'.seq) : t = t' := by
  rcases t with ⟨key, columns, rows, seq, _, _, _, _⟩
  rcases t' with ⟨key', columns', rows', seq', _, _, _, _⟩
  cases hkey
  cases hcolumns
  cases hrows
  cases hseq
  rfl

/-- A key stands for one row. -/
theorem eq_of_id {t : Table} {r r' : Row} (hr : r ∈ t.rows) (hr' : r' ∈ t.rows)
    (h : r.id = r'.id) : r = r' :=
  List.inj_on_of_nodup_map t.nodup_ids hr hr' h

/-! ## Operations -/

/-- The count before the first key. -/
theorem counted_empty : (0 : ℤ) ≤ 0 := Int.le_refl 0

/-- The table without rows. -/
def empty (key : List Char) (columns : List Column) : Table :=
  ⟨key, columns, [], 0, nofun, .nil, nofun, counted_empty⟩

/-- The rows that pass a test. -/
def filter (p : Row → Bool) (t : Table) : Table where
  key := t.key
  columns := t.columns
  rows := t.rows.filter p
  seq := t.seq
  full r hr := t.full r (List.mem_of_mem_filter hr)
  sorted := t.sorted.filter p
  bounded r hr := t.bounded r (List.mem_of_mem_filter hr)
  counted := t.counted

/-- A new row under the next key. -/
def push (t : Table) (cells : List Value) (h : cells.length = t.columns.length) : Table where
  key := t.key
  columns := t.columns
  rows := t.rows ++ [⟨t.seq + 1, cells⟩]
  seq := t.seq + 1
  full := by
    rw [List.forall_mem_append]
    exact ⟨t.full, by simpa using h⟩
  sorted := by
    rw [List.pairwise_append]
    refine ⟨t.sorted, List.pairwise_singleton _ _, ?_⟩
    intro r hr r' hr'
    rw [List.mem_singleton.mp hr']
    exact Int.lt_add_one_of_le (t.bounded r hr)
  bounded := by
    rw [List.forall_mem_append]
    refine ⟨?_, by simp⟩
    intro r hr
    exact Int.le_add_one (t.bounded r hr)
  counted := Int.le_add_one t.counted

/-- New values at some of the columns. -/
def assign (sets : List (ℕ × Value)) (r : Row) : Row :=
  ⟨r.id, sets.foldl (fun cells s ↦ cells.set s.1 s.2) r.cells⟩

theorem length_assign (sets : List (ℕ × Value)) (r : Row) :
    (assign sets r).cells.length = r.cells.length := by
  rw [assign]
  induction sets generalizing r with
  | nil => rfl
  | cons s sets ih =>
      rw [List.foldl_cons]
      exact (ih ⟨r.id, r.cells.set s.1 s.2⟩).trans List.length_set

/-- The new values for the rows that pass a test. -/
def modify (p : Row → Bool) (sets : List (ℕ × Value)) (t : Table) : Table where
  key := t.key
  columns := t.columns
  rows := t.rows.map fun r ↦ if p r then assign sets r else r
  seq := t.seq
  full := by
    rw [List.forall_mem_map]
    intro r hr
    split
    · rw [length_assign]
      exact t.full r hr
    · exact t.full r hr
  sorted := by
    have hid : ∀ r : Row, (if p r then assign sets r else r).id = r.id := by
      intro r
      split <;> rfl
    rw [List.pairwise_map]
    refine t.sorted.imp ?_
    intro r r' h
    rw [hid, hid]
    exact h
  bounded := by
    rw [List.forall_mem_map]
    intro r hr
    split
    · exact t.bounded r hr
    · exact t.bounded r hr
  counted := t.counted

/-- Where the columns of an assignment are, and what they store.  Assignments to the key are
outside of the model. -/
def places (t : Table) : List Equation → Except Failure (List (ℕ × Value))
  | [] => .ok []
  | (name, l) :: es => do
      match ← t.find name with
      | none => .error .outside
      | some i =>
          let v ← l.value
          let c := t.columns[i]?
          let v ← match c with
            | some c => c.affinity.store v
            | none => .error .error
          let rest ← t.places es
          .ok ((i, v) :: rest)

/-- The values that the columns store. -/
def stores : List Column → List Literal → Except Failure (List Value)
  | c :: cs, l :: ls => do
      let v ← l.value
      let v ← c.affinity.store v
      let vs ← stores cs ls
      .ok (v :: vs)
  | [], [] => .ok []
  | _, _ => .error .error

theorem length_stores {cs : List Column} {ls : List Literal} {vs : List Value}
    (h : stores cs ls = .ok vs) : vs.length = cs.length := by
  induction cs generalizing ls vs with
  | nil =>
      rcases ls with _ | ⟨l, ls⟩
      · exact congrArg List.length (Except.ok.inj h).symm
      · exact nomatch h
  | cons c cs ih =>
      rcases ls with _ | ⟨l, ls⟩
      · exact nomatch h
      · rw [stores, bind_eq_ok] at h
        rcases h with ⟨v, -, h⟩
        rcases bind_eq_ok.mp h with ⟨v', -, h⟩
        rcases bind_eq_ok.mp h with ⟨vs', hvs', h⟩
        rw [← Except.ok.inj h, List.length_cons, List.length_cons, ih hvs']

end Table

/-! ## Statements -/

/-- The table of a name. -/
def Database.table (db : Database) (name : List Char) : Except Failure Table :=
  match db name with
  | some t => .ok t
  | none => .error .error

/-- The largest key of a table. -/
def maxRowid : ℤ := 2 ^ 63 - 1

/-- An insertion under the next key.  A wrong number of values is an error, and so is a table
without a key left; values for the key are outside of the model. -/
def execInsert (t : Table) (ls : List Literal) : Except Failure Table :=
  if ls.length ≠ t.columns.length + 1 then .error .error
  else if t.seq = maxRowid then .error .error
  else
    match ls with
    | .null :: ls =>
        match h : Table.stores t.columns ls with
        | .ok cells => .ok (t.push cells (Table.length_stores h))
        | .error e => .error e
    | _ => .error .outside

/-- What a statement does. -/
def exec (db : Database) : Statement → Except Failure Database
  | .createTable name key columns =>
      if (db name).isSome || !(key :: columns.map Column.name).Nodup then .error .error
      else .ok (Function.update db name (some (.empty key columns)))
  | .dropTable name => do
      let _ ← db.table name
      .ok (Function.update db name none)
  | .insert name ls => do
      let t ← execInsert (← db.table name) ls
      .ok (Function.update db name (some t))
  | .update name sets es => do
      let t ← db.table name
      let sets ← t.places sets
      let p ← t.test es
      .ok (Function.update db name (some (t.modify p sets)))
  | .delete name es => do
      let t ← db.table name
      let p ← t.test es
      .ok (Function.update db name (some (t.filter fun r ↦ !p r)))
  | .select name es => do
      let t ← db.table name
      let _ ← t.test es
      .ok db

/-- The rows of a query. -/
def query (db : Database) : Statement → Except Failure (Table × List Row)
  | .select name es => do
      let t ← db.table name
      let p ← t.test es
      .ok (t, t.rows.filter p)
  | _ => .error .outside

theorem eq_of_table {db : Database} {name : List Char} {t : Table} (h : db.table name = .ok t) :
    db name = some t := by
  unfold Database.table at h
  split at h
  · rename_i hname
    rw [hname, Except.ok.inj h]
  · cases h

/-- An insertion that is done adds a row under the next key. -/
theorem exec_insert_ok {db db' : Database} {name : List Char} {ls : List Literal}
    (h : exec db (.insert name ls) = .ok db') :
    ∃ (t : Table) (cells : List Value) (hcells : cells.length = t.columns.length),
      db name = some t ∧ db' = Function.update db name (some (t.push cells hcells)) := by
  rw [exec, bind_eq_ok] at h
  obtain ⟨t, ht, h⟩ := h
  obtain ⟨t', ht', h⟩ := bind_eq_ok.mp h
  obtain ⟨cells, hcells, rfl⟩ : ∃ cells hcells, t' = t.push cells hcells := by
    unfold execInsert at ht'
    split at ht'
    · cases ht'
    · split at ht'
      · cases ht'
      · split at ht'
        · split at ht'
          · exact ⟨_, _, (Except.ok.inj ht').symm⟩
          · cases ht'
        · cases ht'
  exact ⟨t, cells, hcells, eq_of_table ht, (Except.ok.inj h).symm⟩

/-- An update gives out no key. -/
theorem seq_exec_update {db db' : Database} {name : List Char} {sets es : List Equation}
    (h : exec db (.update name sets es) = .ok db') (name' : List Char) :
    (db' name').map Table.seq = (db name').map Table.seq := by
  rw [exec, bind_eq_ok] at h
  obtain ⟨t, ht, h⟩ := h
  obtain ⟨ps, -, h⟩ := bind_eq_ok.mp h
  obtain ⟨p, -, h⟩ := bind_eq_ok.mp h
  rw [← Except.ok.inj h]
  by_cases hname : name' = name
  · subst hname
    rw [Function.update_self, eq_of_table ht]
    rfl
  · rw [Function.update_of_ne hname]

/-- A deletion keeps the rows that do not pass the test. -/
theorem exec_delete {db : Database} {name : List Char} {es : List Equation} {t : Table}
    {p : Row → Bool} (ht : db name = some t) (hp : t.test es = .ok p) :
    exec db (.delete name es) =
      .ok (Function.update db name (some (t.filter fun r ↦ !p r))) := by
  rw [exec, Database.table, ht]
  show (t.test es >>= _) = _
  rw [hp]
  rfl

/-- A query returns the rows that pass the test. -/
theorem query_select {db : Database} {name : List Char} {es : List Equation} {t : Table}
    {p : Row → Bool} (ht : db name = some t) (hp : t.test es = .ok p) :
    query db (.select name es) = .ok (t, t.rows.filter p) := by
  rw [query, Database.table, ht]
  show (t.test es >>= _) = _
  rw [hp]
  rfl

end CodeToolKit.SQL
