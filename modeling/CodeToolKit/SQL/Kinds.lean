import CodeToolKit.SQL.Database

/-!
# Kinds of columns

SQLite does not keep the width of a column, and stores `NULL` anywhere.  What a column does hold
is an invariant of the statements that write it: a table whose cells are of the kinds of its
columns (`Holds`) remains so when rows are added, changed or removed, if what is written is
of the kinds, too.
-/

namespace CodeToolKit.SQL

open CodeToolKit.Lib

/-- What a column holds. -/
inductive Kind where
  /-- Integers of 32 bits. -/
  | int
  /-- C strings that fit into `n` bytes. -/
  | text (n : ℕ)
deriving DecidableEq, Repr

/-- A value of a kind: never `NULL`. -/
def Kind.Has : Kind → Value → Prop
  | int, .int z => -2 ^ 31 ≤ z ∧ z < 2 ^ 31
  | text n, .text s => (∀ c ∈ s, c ≠ '\x00' ∧ c.toNat < 256) ∧ s.length < n
  | _, _ => False

/-- Cells that are of the kinds, one after the other. -/
abbrev Fits (kinds : List Kind) (cells : List Value) : Prop := List.Forall₂ Kind.Has kinds cells

/-- A new value at a column of its kind. -/
theorem Fits.set {kinds : List Kind} {cells : List Value} (h : Fits kinds cells) {i : ℕ} {v : Value}
    (hv : ∀ k, kinds[i]? = some k → k.Has v) : Fits kinds (cells.set i v) := by
  induction h generalizing i with
  | nil => exact .nil
  | cons hk hks ih =>
      rcases i with _ | i
      · exact .cons (hv _ rfl) hks
      · exact .cons hk (ih fun k hk' ↦ hv k hk')

/-- The cell of a column. -/
theorem Fits.getElem? {kinds : List Kind} {cells : List Value} (h : Fits kinds cells) {i : ℕ}
    {k : Kind} (hk : kinds[i]? = some k) : ∃ v, cells[i]? = some v ∧ k.Has v := by
  induction h generalizing i with
  | nil => cases hk
  | cons hv _ ih =>
      rcases i with _ | i
      · rw [← Option.some.inj hk]
        exact ⟨_, rfl, hv⟩
      · exact ih hk

namespace Table

/-- All rows of the table are of the kinds. -/
def Holds (kinds : List Kind) (t : Table) : Prop := ∀ r ∈ t.rows, Fits kinds r.cells

variable {kinds : List Kind} {t : Table}

theorem holds_empty (key : List Char) (columns : List Column) : (empty key columns).Holds kinds :=
  nofun

theorem Holds.filter (h : t.Holds kinds) (p : Row → Bool) : (t.filter p).Holds kinds :=
  fun r hr ↦ h r (List.mem_of_mem_filter hr)

theorem Holds.push (h : t.Holds kinds) {cells : List Value} (hcells : Fits kinds cells)
    (hlength : cells.length = t.columns.length) : (t.push cells hlength).Holds kinds := by
  intro r hr
  rcases List.mem_append.mp hr with hr | hr
  · exact h r hr
  · rw [List.mem_singleton.mp hr]
    exact hcells

theorem Fits.assign {sets : List (ℕ × Value)} {r : Row} (h : Fits kinds r.cells)
    (hsets : ∀ s ∈ sets, ∀ k, kinds[s.1]? = some k → k.Has s.2) :
    Fits kinds (assign sets r).cells := by
  rw [Table.assign]
  induction sets generalizing r with
  | nil => exact h
  | cons s sets ih =>
      have hs := h.set (hsets s List.mem_cons_self)
      exact ih (r := ⟨r.id, r.cells.set s.1 s.2⟩) hs
        fun s' hs' ↦ hsets s' (List.mem_cons_of_mem _ hs')

theorem Holds.modify (h : t.Holds kinds) (p : Row → Bool) {sets : List (ℕ × Value)}
    (hsets : ∀ s ∈ sets, ∀ k, kinds[s.1]? = some k → k.Has s.2) :
    (t.modify p sets).Holds kinds := by
  intro r hr
  obtain ⟨r', hr', rfl⟩ := List.mem_map.mp hr
  split
  · exact Fits.assign (h r' hr') hsets
  · exact h r' hr'

end Table

/-! ## Data in statements -/

/-- A value that a program writes into a statement. -/
inductive Datum where
  | int (z : ℤ) (h : z.natAbs < 2 ^ 63)
  | text (s : List Char)

namespace Datum

/-- How it is written, with the quote of strings. -/
def token (delim : Char) : Datum → Token
  | int z _ => .number (decimal z)
  | text s => .quoted delim s

/-- How it is read. -/
def literal : Datum → Literal
  | int z _ => .number (decimal z)
  | text s => .string s

/-- What is stored. -/
def value : Datum → Value
  | int z _ => .int z
  | text s => .text s

/-- The affinity of its columns. -/
def affinity : Datum → Affinity
  | int _ _ => .integer
  | text _ => .text

theorem literal_token (d : Datum) : SQL.literal (d.token '\'') = some d.literal := by
  cases d <;> rfl

theorem insertLiteral_token {delim : Char} (h : delim = '\'' ∨ delim = '"') (d : Datum) :
    insertLiteral (d.token delim) = some d.literal := by
  rcases d with ⟨z, hz⟩ | s
  · rfl
  · rcases h with rfl | rfl <;> rfl

theorem value_literal (d : Datum) : d.literal.value = .ok d.value := by
  rcases d with ⟨z, hz⟩ | s
  · show (integer (decimal z)).map Value.int = _
    rw [integer_decimal hz]
    rfl
  · rfl

theorem store_value (d : Datum) : d.affinity.store d.value = .ok d.value := by
  cases d <;> rfl

end Datum

namespace Table

/-- Data for columns of its affinities is stored as it is. -/
theorem stores_data {cs : List Column} {ds : List Datum}
    (h : cs.map Column.affinity = ds.map Datum.affinity) :
    stores cs (ds.map Datum.literal) = .ok (ds.map Datum.value) := by
  induction cs generalizing ds with
  | nil =>
      rcases ds with _ | ⟨d, ds⟩
      · rfl
      · cases h
  | cons c cs ih =>
      rcases ds with _ | ⟨d, ds⟩
      · cases h
      · obtain ⟨hc, hcs⟩ := List.cons.inj h
        rw [List.map_cons, stores, d.value_literal]
        show (c.affinity.store d.value >>= _) = _
        rw [hc, d.store_value]
        show (stores cs (ds.map Datum.literal) >>= _) = _
        rw [ih hcs]
        rfl

/-- As many values as columns. -/
theorem length_values {t : Table} {ds : List Datum}
    (h : t.columns.map Column.affinity = ds.map Datum.affinity) :
    (ds.map Datum.value).length = t.columns.length := by
  have hlength := congrArg List.length h
  rw [List.length_map, List.length_map] at hlength
  rw [List.length_map, hlength]

/-- An assignment of data to a column of its affinity. -/
structure Places (t : Table) (i : ℕ) (s : List Char × Datum) : Prop where
  find : t.find s.1 = .ok (some i)
  affinity : t.columns[i]?.map Column.affinity = some s.2.affinity

theorem forall₂_places {t : Table} {is : List ℕ} {sets : List (List Char × Datum)}
    (hfind : sets.map (fun s ↦ t.find s.1) = is.map fun i ↦ .ok (some i))
    (haffinity : is.map (fun i ↦ t.columns[i]?.map Column.affinity) =
      sets.map fun s ↦ some s.2.affinity) :
    List.Forall₂ t.Places is sets := by
  induction is generalizing sets with
  | nil =>
      rcases sets with _ | ⟨s, sets⟩
      · exact .nil
      · cases haffinity
  | cons i is ih =>
      rcases sets with _ | ⟨s, sets⟩
      · cases haffinity
      · obtain ⟨hs, hsets⟩ := List.cons.inj hfind
        obtain ⟨hi, his⟩ := List.cons.inj haffinity
        exact .cons ⟨hs, hi⟩ (ih hsets his)

/-- Assignments of data store data. -/
theorem places_eq {t : Table} {is : List ℕ} {sets : List (List Char × Datum)}
    (h : List.Forall₂ t.Places is sets) :
    t.places (sets.map fun s ↦ (s.1, s.2.literal)) = .ok (is.zip (sets.map fun s ↦ s.2.value)) := by
  induction h with
  | nil => rfl
  | @cons i s is sets hs _ ih =>
      obtain ⟨c, hc, haffinity⟩ := Option.map_eq_some_iff.mp hs.affinity
      rw [List.map_cons, places, hs.find]
      show (s.2.literal.value >>= _) = _
      rw [s.2.value_literal, hc]
      show (c.affinity.store s.2.value >>= _) = _
      rw [haffinity, s.2.store_value]
      show (t.places _ >>= _) = _
      rw [ih]
      rfl

/-- An assignment of data of the kind of its column. -/
structure Assigns (t : Table) (kinds : List Kind) (name : List Char) (d : Datum) (i : ℕ) :
    Prop where
  find : t.find name = .ok (some i)
  affinity : t.columns[i]?.map Column.affinity = some d.affinity
  kind : ∀ k, kinds[i]? = some k → k.Has d.value

/-- Assignments of data store data of the kinds of the columns. -/
theorem places_data {t : Table} {kinds : List Kind} {sets : List (List Char × Datum)}
    (h : ∀ s ∈ sets, ∃ i, t.Assigns kinds s.1 s.2 i) :
    ∃ ps, t.places (sets.map fun s ↦ (s.1, s.2.literal)) = .ok ps ∧
      ∀ p ∈ ps, ∀ k, kinds[p.1]? = some k → k.Has p.2 := by
  have hindices : ∃ is, List.Forall₂ t.Places is sets ∧
      ∀ p ∈ is.zip (sets.map fun s ↦ s.2.value), ∀ k, kinds[p.1]? = some k → k.Has p.2 := by
    induction sets with
    | nil => exact ⟨[], .nil, nofun⟩
    | cons s sets ih =>
        obtain ⟨i, hi⟩ := h s List.mem_cons_self
        obtain ⟨is, his, hkinds⟩ := ih fun s' hs' ↦ h s' (List.mem_cons_of_mem _ hs')
        refine ⟨i :: is, .cons ⟨hi.find, hi.affinity⟩ his, ?_⟩
        rw [List.map_cons, List.zip_cons_cons, List.forall_mem_cons]
        exact ⟨hi.kind, hkinds⟩
  obtain ⟨is, his, hkinds⟩ := hindices
  exact ⟨_, places_eq his, hkinds⟩

/-- New values from a column on to the last one. -/
theorem foldl_set_range (cells vs : List Value) (i : ℕ) (h : cells.length = i + vs.length) :
    ((List.range' i vs.length).zip vs).foldl (fun cells s ↦ cells.set s.1 s.2) cells =
      cells.take i ++ vs := by
  induction vs generalizing cells i with
  | nil => exact ((List.append_nil _).trans (List.take_of_length_le h.le)).symm
  | cons v vs ih =>
      have hlength : i < cells.length := by
        rw [h, List.length_cons]
        omega
      have hrest : (cells.set i v).length = i + 1 + vs.length := by
        rw [List.length_set, h, List.length_cons]
        omega
      rw [List.length_cons, List.range'_succ, List.zip_cons_cons, List.foldl_cons, ih _ _ hrest,
        List.take_add_one, List.take_set_of_le (Nat.le_refl i), List.getElem?_set_self hlength,
        Option.toList_some, List.append_assoc, List.singleton_append]

end Table

/-! ## Statements with data -/

section

variable {db : Database} {name : List Char} {t : Table}

/-- An insertion of data adds a row under the next key. -/
theorem exec_insert_eq {ds : List Datum} (ht : db name = some t)
    (haffinity : t.columns.map Column.affinity = ds.map Datum.affinity)
    (hseq : t.seq ≠ maxRowid) :
    exec db (.insert name (.null :: ds.map Datum.literal)) =
      .ok (Function.update db name
        (some (t.push (ds.map Datum.value) (Table.length_values haffinity)))) := by
  have hlength : (.null :: ds.map Datum.literal : List Literal).length = t.columns.length + 1 := by
    rw [List.length_cons, List.length_map, ← Table.length_values haffinity, List.length_map]
  have hinsert : execInsert t (.null :: ds.map Datum.literal) =
      .ok (t.push (ds.map Datum.value) (Table.length_values haffinity)) := by
    rw [execInsert, if_neg (not_not_intro hlength), if_neg hseq]
    have hstores := Table.stores_data haffinity
    split
    · rename_i cells hcells
      obtain rfl : ds.map Datum.value = cells := Except.ok.inj (hstores.symm.trans hcells)
      rfl
    · rename_i e he
      cases hstores.symm.trans he
  rw [exec, Database.table, ht]
  show (execInsert t _ >>= _) = _
  rw [hinsert]
  rfl

/-- Without a key left an insertion is an error. -/
theorem exec_insert_full {ls : List Literal} (ht : db name = some t) (hseq : t.seq = maxRowid) :
    exec db (.insert name ls) = .error .error := by
  have hinsert : execInsert t ls = .error .error := by
    unfold execInsert
    by_cases hlength : ls.length ≠ t.columns.length + 1
    · exact if_pos hlength
    · exact (if_neg hlength).trans (if_pos hseq)
  rw [exec, Database.table, ht]
  show (execInsert t ls >>= _) = _
  rw [hinsert]
  rfl

theorem exec_update_eq {sets es : List Equation} {ps : List (ℕ × Value)} {p : Row → Bool}
    (ht : db name = some t) (hps : t.places sets = .ok ps) (hp : t.test es = .ok p) :
    exec db (.update name sets es) = .ok (Function.update db name (some (t.modify p ps))) := by
  rw [exec, Database.table, ht]
  show (t.places sets >>= _) = _
  rw [hps]
  show (t.test es >>= _) = _
  rw [hp]
  rfl

/-- An insertion adds a row of the kinds, or is an error. -/
theorem exec_insert_data {kinds : List Kind} {ds : List Datum} (ht : db name = some t)
    (h : t.Holds kinds) (haffinity : t.columns.map Column.affinity = ds.map Datum.affinity)
    (hkinds : Fits kinds (ds.map Datum.value)) :
    exec db (.insert name (.null :: ds.map Datum.literal)) = .error .error ∨
      ∃ t', exec db (.insert name (.null :: ds.map Datum.literal)) =
        .ok (Function.update db name (some t')) ∧ t'.Holds kinds ∧
        t'.key = t.key ∧ t'.columns = t.columns := by
  by_cases hseq : t.seq = maxRowid
  · exact .inl (exec_insert_full ht hseq)
  · exact .inr ⟨_, exec_insert_eq ht haffinity hseq, h.push hkinds _, rfl, rfl⟩

/-- An update keeps the kinds. -/
theorem exec_update_data {kinds : List Kind} {sets : List (List Char × Datum)}
    {es : List Equation} {p : Row → Bool} (ht : db name = some t) (h : t.Holds kinds)
    (hsets : ∀ s ∈ sets, ∃ i, t.Assigns kinds s.1 s.2 i) (hp : t.test es = .ok p) :
    ∃ t', exec db (.update name (sets.map fun s ↦ (s.1, s.2.literal)) es) =
      .ok (Function.update db name (some t')) ∧ t'.Holds kinds ∧
      t'.key = t.key ∧ t'.columns = t.columns := by
  obtain ⟨ps, hps, hkinds⟩ := Table.places_data hsets
  exact ⟨t.modify p ps, exec_update_eq ht hps hp, h.modify p hkinds, rfl, rfl⟩

end

end CodeToolKit.SQL
