import CodeToolKit.HwbrapSqlite.RuleDelete
import CodeToolKit.HwbrapSqlite.RuleRoundTrip
import CodeToolKit.HwbrapSqlite.WriteStatement

/-!
# What is in the tables

The widths of the columns are only names for SQLite.  That the tables hold what `GetLinkInfo` and
`GetRuleInfo` can read is an invariant of the statements that change records (`Stored`): each of
them puts data of the record's own fields into columns of the widths of these fields.
-/

namespace CodeToolKit.HwbrapSqlite

open CodeToolKit.SQL CodeToolKit.Lib

/-! ## The invariant -/

/-- A table of `CreateTable`, with the kinds of its columns after `id`. -/
structure Schema where
  name : List Char
  columns : List Column
  kinds : List Kind

/-- `table_channels`. -/
def channels : Schema where
  name := TBCHAN
  columns := channelColumns
  kinds := [.int, .text 64, .text 64, .int, .int, .text 32, .text 64, .text 64, .int, .int, .int]

/-- `table_rules`. -/
def rules : Schema where
  name := TBRULE
  columns := ruleColumns
  kinds := List.replicate 4 .int ++ List.replicate 15 (.text 256) ++ [.int]

/-- The tables of `CreateTable`. -/
def schemas : List Schema := [channels, rules]

namespace Schema

/-- A table of the schema. -/
structure Keeps (s : Schema) (t : Table) : Prop extends HasColumns t s.columns where
  holds : t.Holds s.kinds

/-- Where a column is, its affinity and its kind. -/
def column (s : Schema) (name : List Char) : Option (ℕ × Affinity × Kind) :=
  if name = "id".toList then none
  else do
    let i ← s.columns.findIdx? fun c ↦ c.name = name
    let c ← s.columns[i]?
    let k ← s.kinds[i]?
    some (i, c.affinity, k)

theorem assigns {s : Schema} {t : Table} (h : HasColumns t s.columns) {name : List Char} {d : Datum}
    {k : Kind} (hcolumn : (s.column name).map Prod.snd = some (d.affinity, k))
    (hk : k.Has d.value) : ∃ i, t.Assigns s.kinds name d i := by
  obtain ⟨⟨j, p⟩, hi, rfl⟩ := Option.map_eq_some_iff.mp hcolumn
  rw [column] at hi
  split at hi
  · cases hi
  · rename_i hname
    obtain ⟨i, hindex, hi⟩ := Option.bind_eq_some_iff.mp hi
    obtain ⟨c, hc, hi⟩ := Option.bind_eq_some_iff.mp hi
    obtain ⟨k', hk', hi⟩ := Option.bind_eq_some_iff.mp hi
    obtain ⟨haffinity, rfl⟩ := Prod.mk.inj (Prod.mk.inj (Option.some.inj hi)).2
    refine ⟨i, ?_, ?_, ?_⟩
    · rw [Table.find, h.key, if_neg hname, h.columns, hindex]
    · rw [h.columns, hc, ← haffinity]
      rfl
    · intro k hk''
      rw [hk'] at hk''
      rw [← Option.some.inj hk'']
      exact hk

end Schema

/-- Both tables are there, and all their cells are of the kinds of their columns. -/
def Stored (db : Database) : Prop := ∀ s ∈ schemas, ∃ t, db s.name = some t ∧ s.Keeps t

theorem eq_of_name {s s' : Schema} (hs : s ∈ schemas) (hs' : s' ∈ schemas)
    (h : s'.name = s.name) : s' = s := by
  simp only [schemas, List.mem_cons, List.not_mem_nil, or_false] at hs hs'
  rcases hs with rfl | rfl <;> rcases hs' with rfl | rfl
  · rfl
  · exact absurd h TBRULE_ne_TBCHAN
  · exact absurd h TBRULE_ne_TBCHAN.symm
  · rfl

section

variable {db : Database} {s : Schema}

theorem Stored.update (hdb : Stored db) (hs : s ∈ schemas) {t : Table} (ht : s.Keeps t) :
    Stored (Function.update db s.name (some t)) := by
  intro s' hs'
  by_cases hname : s'.name = s.name
  · rw [eq_of_name hs hs' hname]
    exact ⟨t, Function.update_self _ _ _, ht⟩
  · obtain ⟨t', ht', hkeeps⟩ := hdb s' hs'
    exact ⟨t', (Function.update_of_ne hname _ _).trans ht', hkeeps⟩

theorem stored_createdTables (db : Database) : Stored (createdTables db) := by
  rw [Stored, schemas, List.forall_mem_cons, List.forall_mem_singleton]
  exact ⟨⟨_, createdTables_channels db, ⟨rfl, rfl⟩, Table.holds_empty _ _⟩,
    _, createdTables_rules db, ⟨rfl, rfl⟩, Table.holds_empty _ _⟩

theorem Stored.created (hdb : Stored db) : Created db := by
  obtain ⟨t, ht, hkeeps⟩ := hdb channels List.mem_cons_self
  obtain ⟨t', ht', hkeeps'⟩ := hdb rules (List.mem_cons_of_mem _ List.mem_cons_self)
  exact ⟨⟨t, ht, hkeeps.toHasColumns⟩, t', ht', hkeeps'.toHasColumns⟩

/-! ## Statements -/

/-- The statement is rejected, or it is done and keeps the kinds. -/
def Maintains (db : Database) (stmt : Statement) : Prop :=
  exec db stmt = .error .error ∨ ∃ db', exec db stmt = .ok db' ∧ Stored db'

/-- A call that sends the statement. -/
theorem Maintains.stored {stmt : Statement} (h : Maintains db stmt) (hdb : Stored db)
    {sql : Option (List Char)} (hparse : (sql >>= parse) = some stmt) :
    ∃ r, (sql >>= sqliteExec db) = some r ∧ Stored r.1 := by
  rcases h with h | ⟨db', h, hdb'⟩
  · exact ⟨_, bind_sqliteExec_error hparse h, hdb⟩
  · exact ⟨_, bind_sqliteExec hparse h, hdb'⟩

/-- Insertions of data of the kinds. -/
theorem maintains_insert (hdb : Stored db) (hs : s ∈ schemas) {ds : List Datum}
    (haffinity : s.columns.map Column.affinity = ds.map Datum.affinity)
    (hkinds : Fits s.kinds (ds.map Datum.value)) :
    Maintains db (.insert s.name (.null :: ds.map Datum.literal)) := by
  obtain ⟨t, ht, hkeeps⟩ := hdb s hs
  rcases exec_insert_data ht hkeeps.holds (hkeeps.columns ▸ haffinity) hkinds with
    h | ⟨t', h, hholds, hkey, hcolumns⟩
  · exact .inl h
  · exact .inr ⟨_, h, hdb.update hs
      ⟨⟨hkey.trans hkeeps.key, hcolumns.trans hkeeps.columns⟩, hholds⟩⟩

/-- Updates with data of the kinds. -/
theorem maintains_update (hdb : Stored db) (hs : s ∈ schemas) {sets : List (List Char × Datum)}
    {cs : Filter} {place : FilterColumn → Option ℕ}
    (hsets : ∀ x ∈ sets, ∃ k, (s.column x.1).map Prod.snd = some (x.2.affinity, k) ∧
      k.Has x.2.value)
    (hcs : ∀ t : Table, HasColumns t s.columns →
      ∀ c ∈ cs, t.find c.1.name.toList = .ok (place c.1)) :
    Maintains db (.update s.name (sets.map fun x ↦ (x.1, x.2.literal)) (cs.map equation)) := by
  obtain ⟨t, ht, hkeeps⟩ := hdb s hs
  have hassigns : ∀ x ∈ sets, ∃ i, t.Assigns s.kinds x.1 x.2 i := by
    intro x hx
    obtain ⟨k, hcolumn, hk⟩ := hsets x hx
    exact Schema.assigns hkeeps.toHasColumns hcolumn hk
  obtain ⟨t', h, hholds, hkey, hcolumns⟩ :=
    exec_update_data ht hkeeps.holds hassigns (test_filter (hcs t hkeeps.toHasColumns))
  exact .inr ⟨_, h, hdb.update hs
    ⟨⟨hkey.trans hkeeps.key, hcolumns.trans hkeeps.columns⟩, hholds⟩⟩

/-- Deletions. -/
theorem Stored.filter (hdb : Stored db) (hs : s ∈ schemas) {t : Table} (ht : db s.name = some t)
    (p : Row → Bool) : Stored (Function.update db s.name (some (t.filter p))) := by
  obtain ⟨t', ht', hkeeps⟩ := hdb s hs
  rw [ht] at ht'
  cases Option.some.inj ht'
  exact hdb.update hs ⟨⟨hkeeps.key, hkeeps.columns⟩, hkeeps.holds.filter p⟩

end

/-! ## The data of records -/

theorem has_int32 (z : Int32) : Kind.int.Has (int32 z).value := ⟨z.le_toInt, z.toInt_lt⟩

theorem has_string {n : ℕ} (s : CharArray n) : (Kind.text n).Has (string s).value := by
  refine ⟨fun c hc ↦ ?_, s.fits⟩
  have hbyte := List.all_eq_true.mp s.bytes c hc
  rw [isByte, Bool.and_eq_true, decide_eq_true_iff, decide_eq_true_iff] at hbyte
  exact hbyte

/-- A linkage record fits into a row of `table_channels`. -/
theorem fits_linkData (r : LinkData) : Fits channels.kinds ((linkData r).map Datum.value) := by
  repeat first
    | exact .nil
    | refine .cons (has_int32 _) ?_
    | refine .cons (has_string _) ?_

/-- A rule fits into a row of `table_rules`. -/
theorem fits_ruleData (nChanId : Int32) (r : LinkData) :
    Fits rules.kinds ((ruleData nChanId r).map Datum.value) := by
  repeat first
    | exact .nil
    | refine .cons (has_int32 _) ?_
    | refine .cons (has_string _) ?_

theorem columns_link :
    linkColumns.map (fun name ↦ (channels.column name).map Prod.snd) =
      [some (.text, .text 64), some (.text, .text 64), some (.integer, .int),
        some (.integer, .int), some (.text, .text 32), some (.text, .text 64),
        some (.text, .text 64), some (.integer, .int), some (.integer, .int),
        some (.integer, .int)] := by
  decide +kernel

/-- The update of a linkage record writes data of the kinds of its columns, also where it writes
`szDevIP` to `devicename`. -/
theorem kinds_linkSets (r : LinkData) :
    ∀ x ∈ ("devicename".toList, string r.szDevIP) :: linkSets r, ∃ k,
      (channels.column x.1).map Prod.snd = some (x.2.affinity, k) ∧ k.Has x.2.value := by
  have h := columns_link
  simp only [linkColumns, List.map_cons, List.map_nil, List.cons.injEq, and_true] at h
  obtain ⟨hname, hip, hport, hchan, hmanu, huser, hpass, hi, ht, hlimit⟩ := h
  simp only [linkSets, List.forall_mem_cons, List.not_mem_nil, false_implies, implies_true,
    and_true]
  exact ⟨⟨_, hname, has_string _⟩, ⟨_, hip, has_string _⟩, ⟨_, hport, has_int32 _⟩,
    ⟨_, hchan, has_int32 _⟩, ⟨_, hmanu, has_string _⟩, ⟨_, huser, has_string _⟩,
    ⟨_, hpass, has_string _⟩, ⟨_, hi, has_int32 _⟩, ⟨_, ht, has_int32 _⟩,
    _, hlimit, has_int32 _⟩

theorem columns_rule :
    ∀ name ∈ ruleStringColumns, (rules.column name).map Prod.snd = some (.text, .text 256) := by
  decide +kernel

/-- The update of a rule writes data of the kinds of its columns. -/
theorem kinds_ruleSets (r : LinkData) :
    ∀ x ∈ ("linenum".toList, int32 r.nLineNum) :: ruleSets r, ∃ k,
      (rules.column x.1).map Prod.snd = some (x.2.affinity, k) ∧ k.Has x.2.value := by
  have hlinenum : (rules.column "linenum".toList).map Prod.snd = some (.integer, .int) := by
    decide +kernel
  have hlimit : (rules.column "hlimit".toList).map Prod.snd = some (.integer, .int) := by
    decide +kernel
  rw [List.forall_mem_cons, ruleSets, List.forall_mem_append, List.forall_mem_singleton]
  refine ⟨⟨_, hlinenum, has_int32 _⟩, ?_, _, hlimit, has_int32 _⟩
  rintro ⟨name, d⟩ hx
  obtain ⟨hname, hd⟩ := List.of_mem_zip hx
  obtain ⟨s, -, rfl⟩ := List.mem_map.mp hd
  exact ⟨_, columns_rule name hname, has_string s⟩

end CodeToolKit.HwbrapSqlite
