import CodeToolKit.HwbrapSqlite.LinkData
import CodeToolKit.SQL.Database

/-!
# The wrapper of SQLite

`CZenoSQL` on an open connection: `SQLiteExec` runs a statement, `SQLiteSearch` keeps the
result of a query as the array that `sqlite3_get_table` returns, and `GetTableData` reads a cell
of it.  A result is `none` where the program has no defined behaviour or the statement is
outside of the model.
-/

namespace CodeToolKit.HwbrapSqlite

open CodeToolKit.SQL CodeToolKit.Lib

/-- `SQLiteExec`: the database after the statement, and the value that is returned. -/
def sqliteExec (db : Database) (pSQL : List Char) : Option (Database × ℤ) := do
  match exec db (← parse pSQL) with
  | .ok db' => some (db', 0)
  | .error .error => some (db, -1)
  | .error .outside => none

/-- The result of `sqlite3_get_table`: a row of names, then the rows of the query.  `none` in it is
a null pointer. -/
structure ResultTable where
  nRow : ℕ
  nCol : ℕ
  pResult : List (Option (List Char))

/-- The C string of a value. -/
def cString : Value → Option (List Char)
  | .null => none
  | .int z => some (decimal z)
  | .real s => some s
  | .text s | .blob s => some (s.takeWhile (· ≠ '\x00'))

/-- The cells of a row. -/
def rowCells (r : Row) : List (Option (List Char)) := cString (.int r.id) :: r.cells.map cString

/-- The names of the columns. -/
def headerCells (t : Table) : List (Option (List Char)) :=
  some t.key :: t.columns.map fun c ↦ some c.name

/-- The result of a query; it has no columns when it has no rows. -/
def getTable (t : Table) (rows : List Row) : ResultTable :=
  if rows.isEmpty then ⟨0, 0, []⟩
  else ⟨rows.length, t.columns.length + 1, headerCells t ++ rows.flatMap rowCells⟩

/-- `SQLiteSearch`. -/
def sqliteSearch (db : Database) (pSearch : List Char) : Option ResultTable := do
  match query db (← parse pSearch) with
  | .ok (t, rows) => some (getTable t rows)
  | .error .error => some ⟨0, 0, []⟩
  | .error .outside => none

/-! ## Composed statements -/

theorem bind_sqliteExec {sql : Option (List Char)} {s : Statement} {db db' : Database}
    (hparse : (sql >>= parse) = some s) (h : exec db s = .ok db') :
    (sql >>= sqliteExec db) = some (db', 0) := by
  rcases sql with _ | szSql
  · exact nomatch hparse
  · rw [Option.bind_eq_bind, Option.bind_some] at hparse ⊢
    rw [sqliteExec, hparse, Option.bind_eq_bind, Option.bind_some, h]

/-- A statement that is an error changes nothing. -/
theorem bind_sqliteExec_error {sql : Option (List Char)} {s : Statement} {db : Database}
    (hparse : (sql >>= parse) = some s) (h : exec db s = .error .error) :
    (sql >>= sqliteExec db) = some (db, -1) := by
  rcases sql with _ | szSql
  · exact nomatch hparse
  · rw [Option.bind_eq_bind, Option.bind_some] at hparse ⊢
    rw [sqliteExec, hparse, Option.bind_eq_bind, Option.bind_some, h]

theorem bind_sqliteSearch {sql : Option (List Char)} {s : Statement} {db : Database} {t : Table}
    {rows : List Row} (hparse : (sql >>= parse) = some s) (h : query db s = .ok (t, rows)) :
    (sql >>= sqliteSearch db) = some (getTable t rows) := by
  rcases sql with _ | szSql
  · exact nomatch hparse
  · rw [Option.bind_eq_bind, Option.bind_some] at hparse ⊢
    rw [sqliteSearch, hparse, Option.bind_eq_bind, Option.bind_some, h]

/-- `GetTableData`; row 0 is the row of names. -/
def ResultTable.getTableData (res : ResultTable) (col row : ℕ) : Option (List Char) :=
  (res.pResult[col + row * res.nCol]?).join

/-! ## Reading rows -/

/-- In an array of rows of one length the cells of a row are where `GetTableData` looks. -/
theorem getElem?_flatMap {α β : Type} {f : α → List β} {n : ℕ} {xs : List α}
    (h : ∀ x ∈ xs, (f x).length = n) {i j : ℕ} (hj : j < n) :
    (xs.flatMap f)[j + i * n]? = xs[i]?.bind fun x ↦ (f x)[j]? := by
  induction xs generalizing i with
  | nil => rfl
  | cons x xs ih =>
      have hx : (f x).length = n := h x List.mem_cons_self
      have hxs : ∀ x' ∈ xs, (f x').length = n := fun x' hx' ↦ h x' (List.mem_cons_of_mem _ hx')
      rw [List.flatMap_cons]
      rcases i with _ | i
      · rw [List.getElem?_append_left (by omega), Nat.zero_mul, Nat.add_zero]
        rfl
      · have hi : j + (i + 1) * n = n + (j + i * n) := by
          rw [Nat.add_mul]
          omega
        rw [List.getElem?_append_right (by omega), hi, hx, Nat.add_sub_cancel_left, ih hxs]
        rfl

/-- The cell of a row in a column. -/
def cellOf (r : Row) (col : ℕ) : Option (List Char) := ((rowCells r)[col]?).join

theorem cellOf_succ (r : Row) (j : ℕ) : cellOf r (j + 1) = r.cells[j]?.bind cString := by
  rw [cellOf, rowCells, List.getElem?_cons_succ, List.getElem?_map]
  cases r.cells[j]? <;> rfl

theorem cellOf_zero (r : Row) : cellOf r 0 = some (decimal r.id) := rfl

/-- The string of a `char` array is stored and read as it is. -/
theorem cString_chars {n : ℕ} (s : CharArray n) : cString (.text s.chars) = some s.chars := by
  refine congrArg some (List.takeWhile_eq_self_iff.mpr fun c hc ↦ ?_)
  have hbyte := List.all_eq_true.mp s.bytes c hc
  rw [isByte, Bool.and_eq_true] at hbyte
  exact hbyte.1

/-- The key of a row, as a number. -/
theorem atoi_cellOf_id {r : Row} {id : Int32} (h : r.id = id.toInt) :
    (cellOf r 0 >>= atoi) = some id := by
  rw [cellOf_zero, h]
  exact atoi_decimal_toInt id

/-- A number is read as it was stored. -/
theorem atoi_cellOf_int {r : Row} {j : ℕ} {z : Int32} (h : r.cells[j]? = some (.int z.toInt)) :
    (cellOf r (j + 1) >>= atoi) = some z := by
  rw [cellOf_succ, h]
  exact atoi_decimal_toInt z

theorem cellOf_text {n : ℕ} {r : Row} {j : ℕ} {s : CharArray n}
    (h : r.cells[j]? = some (.text s.chars)) : cellOf r (j + 1) = some s.chars := by
  rw [cellOf_succ, h]
  exact cString_chars s

/-- A string is read as it was stored. -/
theorem ofList_cellOf_text {n : ℕ} {r : Row} {j : ℕ} {s : CharArray n}
    (h : r.cells[j]? = some (.text s.chars)) :
    (cellOf r (j + 1) >>= CharArray.ofList? n) = some s := by
  rw [cellOf_text h]
  exact s.ofList_chars

theorem nRow_getTable (t : Table) (rows : List Row) : (getTable t rows).nRow = rows.length := by
  rcases rows with _ | ⟨r, rows⟩ <;> rfl

/-- The search finds something if a row meets the condition. -/
theorem nRow_pos_filter {t : Table} {P : Row → Prop} [DecidablePred P] {found : Bool}
    (hfound : found ↔ ∃ r ∈ t.rows, P r) :
    decide (0 < (getTable t (t.rows.filter fun r ↦ P r)).nRow) = found := by
  rw [Bool.eq_iff_iff, hfound, decide_eq_true_iff, nRow_getTable, List.length_pos_iff_exists_mem]
  simp only [List.mem_filter, decide_eq_true_iff]

theorem getTableData_getTable {t : Table} {rows : List Row}
    (h : ∀ r ∈ rows, r.cells.length = t.columns.length) {i j : ℕ} {r : Row}
    (hr : rows[i]? = some r) (hj : j < t.columns.length + 1) :
    (getTable t rows).getTableData j (i + 1) = cellOf r j := by
  have hne : rows.isEmpty = false := by
    rcases rows with _ | _
    · exact nomatch hr
    · rfl
  have hheader : (headerCells t).length = t.columns.length + 1 := by
    rw [headerCells, List.length_cons, List.length_map]
  have hcells : ∀ r ∈ rows, (rowCells r).length = t.columns.length + 1 := by
    intro r hr
    rw [rowCells, List.length_cons, List.length_map, h r hr]
  have hindex : j + (i + 1) * (t.columns.length + 1) =
      (headerCells t).length + (j + i * (t.columns.length + 1)) := by
    rw [hheader, Nat.add_mul]
    omega
  rw [getTable, hne, cellOf]
  show ((headerCells t ++ rows.flatMap rowCells)[j + (i + 1) * (t.columns.length + 1)]?).join = _
  rw [hindex, List.getElem?_append_right (Nat.le_add_right _ _), Nat.add_sub_cancel_left,
    getElem?_flatMap hcells hj, hr]
  rfl

/-- A loop over the rows of a result reads them one after the other. -/
theorem mapM_range {α β : Type} {f : α → Option β} {g : ℕ → Option β} {xs : List α}
    (h : ∀ i x, xs[i]? = some x → g i = f x) : (List.range xs.length).mapM g = xs.mapM f := by
  have hrange : ∀ k, (∀ i x, xs[i]? = some x → g (k + i) = f x) →
      (List.range' k xs.length).mapM g = xs.mapM f := by
    clear h
    induction xs with
    | nil =>
        intro _ _
        rfl
    | cons x xs ih =>
        intro k h
        have hx : g k = f x := h 0 x rfl
        have hxs := ih (k + 1) fun i x' hx' ↦ by
          rw [Nat.add_assoc, Nat.add_comm 1 i]
          exact h (i + 1) x' hx'
        rw [List.length_cons, List.range'_succ, List.mapM_cons, List.mapM_cons, hx, hxs]
  rw [List.range_eq_range']
  exact hrange 0 fun i x hx ↦ by
    rw [Nat.zero_add]
    exact h i x hx

theorem mapM_eq_some_iff {α β : Type} {f : α → Option β} {xs : List α} {ys : List β} :
    xs.mapM f = some ys ↔ xs.map f = ys.map some := by
  induction xs generalizing ys with
  | nil =>
      rcases ys with _ | ⟨y, ys⟩
      · exact iff_of_true rfl rfl
      · exact iff_of_false nofun nofun
  | cons x xs ih =>
      rw [List.mapM_cons, List.map_cons, Option.bind_eq_bind, Option.bind_eq_some_iff]
      constructor
      · rintro ⟨y, hy, h⟩
        rcases Option.bind_eq_some_iff.mp h with ⟨ys', hys', h⟩
        rw [← Option.some.inj h, List.map_cons, hy, ih.mp hys']
      · intro h
        rcases ys with _ | ⟨y, ys⟩
        · exact nomatch h
        · rcases List.cons.inj h with ⟨hy, hys⟩
          refine ⟨y, hy, ?_⟩
          rw [ih.mpr hys]
          rfl

/-- The records that a loop over rows reads. -/
theorem mem_of_mapM {α β : Type} {f : α → Option β} {xs : List α} {ys : List β}
    (h : xs.mapM f = some ys) {y : β} : y ∈ ys ↔ ∃ x ∈ xs, f x = some y := by
  rw [← List.mem_map, mapM_eq_some_iff.mp h, List.mem_map]
  constructor
  · intro hy
    exact ⟨y, hy, rfl⟩
  · rintro ⟨y', hy', heq⟩
    rw [← Option.some.inj heq]
    exact hy'

/-- The records one after the other, each with its row. -/
theorem forall₂_of_mapM {α β : Type} {f : α → Option β} {R : α → β → Prop} {xs : List α}
    {ys : List β} (h : xs.mapM f = some ys) (hR : ∀ x y, f x = some y → R x y) :
    List.Forall₂ R xs ys := by
  have hmap := mapM_eq_some_iff.mp h
  clear h
  induction xs generalizing ys with
  | nil =>
      rcases ys with _ | ⟨y, ys⟩
      · exact .nil
      · cases hmap
  | cons x xs ih =>
      rcases ys with _ | ⟨y, ys⟩
      · cases hmap
      · obtain ⟨hy, hys⟩ := List.cons.inj hmap
        exact .cons (hR x y hy) (ih hys)

/-- The loop comes to its end exactly if it can read every row. -/
theorem exists_mapM_iff {α β : Type} {f : α → Option β} {xs : List α} :
    (∃ ys, xs.mapM f = some ys) ↔ ∀ x ∈ xs, (f x).isSome := by
  constructor
  · rintro ⟨ys, h⟩ x hx
    have hmem : f x ∈ ys.map some := mapM_eq_some_iff.mp h ▸ List.mem_map_of_mem hx
    rcases List.mem_map.mp hmem with ⟨y, -, hy⟩
    rw [← hy]
    rfl
  · intro h
    refine ⟨xs.filterMap f, mapM_eq_some_iff.mpr ?_⟩
    induction xs with
    | nil => rfl
    | cons x xs ih =>
        rcases Option.isSome_iff_exists.mp (h x List.mem_cons_self) with ⟨y, hy⟩
        rw [List.map_cons, List.filterMap_cons, hy, List.map_cons,
          ← ih fun x' hx' ↦ h x' (List.mem_cons_of_mem _ hx')]

/-- The loop of a query over its result: the records that the cells of the rows stand for.  There
are none when the result has no rows or not enough columns. -/
def readRows {α : Type} (minCol : ℕ) (record : (ℕ → Option (List Char)) → Option α)
    (res : ResultTable) : Option (List α) :=
  if res.nRow = 0 || res.nCol < minCol then some []
  else (List.range res.nRow).mapM fun i ↦ record fun j ↦ res.getTableData j (i + 1)

/-- The records are those of the rows, where the loop only reads columns of the table. -/
theorem readRows_getTable {α : Type} {minCol : ℕ} {record : (ℕ → Option (List Char)) → Option α}
    {t : Table} {rows : List Row} (h : ∀ r ∈ rows, r.cells.length = t.columns.length)
    (hcol : minCol ≤ t.columns.length + 1)
    (hrecord : ∀ data data', (∀ j < t.columns.length + 1, data j = data' j) →
      record data = record data') :
    readRows minCol record (getTable t rows) = rows.mapM fun r ↦ record (cellOf r) := by
  rcases rows with _ | ⟨r, rows⟩
  · rfl
  · have hguard : ((getTable t (r :: rows)).nRow = 0 ||
        (getTable t (r :: rows)).nCol < minCol) = false := by
      rw [Bool.or_eq_false_iff, decide_eq_false_iff_not, decide_eq_false_iff_not]
      exact ⟨nofun, Nat.not_lt.mpr hcol⟩
    rw [readRows, hguard]
    refine mapM_range ?_
    intro i r' hr'
    exact hrecord _ _ fun j hj ↦ getTableData_getTable h hr' hj

end CodeToolKit.HwbrapSqlite
