import CodeToolKit.HwbrapSqlite.Handle
import CodeToolKit.Lib.Performed

/-!
# The cells that the queries read

`GetTableData(j, i + 1)` does not test its arguments, so the loops of `GetLinkInfo` and
`GetRuleInfo` must not count `j` beyond the columns of the result.  `GetLinkInfo` wants
twelve columns and reads twelve.  `GetRuleInfo` wants twenty and reads twenty-one: where there are
just twenty, the last cell of a rule is the first one of the next row, or none at all
(`addressesRows_iff`).
-/

namespace CodeToolKit.HwbrapSqlite

open CodeToolKit.SQL CodeToolKit.Lib

namespace CDBManage

/-! ## The loops with their counter -/

/-- The body of the loop of `GetLinkInfo`, with the counter of the columns. -/
def readLinkCounting (i : ℕ) : Prog LinkData := do
  let mut j := 0
  let id ← intCell j i
  j := j + 1
  let nAnaChannel ← intCell j i
  j := j + 1
  let szDevName ← textCell 64 j i
  j := j + 1
  let szDevIP ← textCell 64 j i
  j := j + 1
  let nDevPort ← intCell j i
  j := j + 1
  let nDevChan ← intCell j i
  j := j + 1
  let szDevManu ← textCell 32 j i
  j := j + 1
  let szLoginUser ← textCell 64 j i
  j := j + 1
  let szLoginPass ← textCell 64 j i
  j := j + 1
  let nPtziPos ← intCell j i
  j := j + 1
  let nPtztPos ← intCell j i
  j := j + 1
  let nHLimit ← intCell j i
  pure { LinkData.zero with
    id, nAnaChannel, szDevName, szDevIP, nDevPort, nDevChan, szDevManu, szLoginUser, szLoginPass,
    nPtziPos, nPtztPos, nHLimit }

theorem readLinkCounting_eq (i : ℕ) : readLinkCounting i = readLink i := rfl

/-- The strings with the numbers 0 to 4. -/
def five (s₀ s₁ s₂ s₃ s₄ : CharArray 256) : Fin 5 → CharArray 256
  | 0 => s₀
  | 1 => s₁
  | 2 => s₂
  | 3 => s₃
  | 4 => s₄

/-- The body of the loop of `GetRuleInfo`, with the counter of the columns. -/
def readRuleCounting (i : ℕ) : Prog LinkData := do
  let mut j := 0
  let id ← intCell j i
  j := j + 1
  let nAnaChannel ← intCell j i
  j := j + 1
  let nAnaMainType ← intCell j i
  j := j + 1
  let nAnaSubType ← intCell j i
  j := j + 1
  let nLineNum ← intCell j i
  j := j + 1
  let line₀ ← textCell 256 j i
  j := j + 1
  let line₁ ← textCell 256 j i
  j := j + 1
  let line₂ ← textCell 256 j i
  j := j + 1
  let line₃ ← textCell 256 j i
  j := j + 1
  let line₄ ← textCell 256 j i
  j := j + 1
  let line2₀ ← textCell 256 j i
  j := j + 1
  let line2₁ ← textCell 256 j i
  j := j + 1
  let line2₂ ← textCell 256 j i
  j := j + 1
  let line2₃ ← textCell 256 j i
  j := j + 1
  let line2₄ ← textCell 256 j i
  j := j + 1
  let direct₀ ← textCell 256 j i
  j := j + 1
  let direct₁ ← textCell 256 j i
  j := j + 1
  let direct₂ ← textCell 256 j i
  j := j + 1
  let direct₃ ← textCell 256 j i
  j := j + 1
  let direct₄ ← textCell 256 j i
  j := j + 1
  let nHLimit ← intCell j i
  pure { LinkData.zero with
    id, nAnaChannel, nAnaMainType, nAnaSubType, nLineNum
    szBZSLineType := five line₀ line₁ line₂ line₃ line₄
    szBZSLineType_2 := five line2₀ line2₁ line2₂ line2₃ line2₄
    szAlarmDirect := five direct₀ direct₁ direct₂ direct₃ direct₄
    nHLimit }

theorem readRuleCounting_eq (i : ℕ) : readRuleCounting i = readRule i := by
  simp only [readRule, readStrings, bind_assoc, pure_bind]
  rfl

end CDBManage

/-! ## Cells in their rows -/

/-- `GetTableData(col, row)` looks at a cell of the data row `row`; row 0 is the row of names.  The
place is below the number of cells, so it is an `int` if this is one. -/
structure ResultTable.InRow (res : ResultTable) (col row : ℕ) : Prop where
  isColumn : col < res.nCol
  isData : 1 ≤ row
  isRow : (col + row * res.nCol) / res.nCol = row
  inside : col + row * res.nCol < (res.nRow + 1) * res.nCol

theorem ResultTable.InRow.of_lt {res : ResultTable} {i j : ℕ} (hj : j < res.nCol)
    (hi : i < res.nRow) : res.InRow j (i + 1) := by
  refine ⟨hj, Nat.le_add_left 1 i, ?_, ?_⟩
  · rw [Nat.add_mul_div_right _ _ (Nat.zero_lt_of_lt hj), Nat.div_eq_of_lt hj, Nat.zero_add]
  · calc
      j + (i + 1) * res.nCol < res.nCol + (i + 1) * res.nCol := Nat.add_lt_add_right hj _
      _ = (i + 2) * res.nCol := by rw [Nat.succ_mul (i + 1), Nat.add_comm]
      _ ≤ (res.nRow + 1) * res.nCol := Nat.mul_le_mul_right _ (Nat.succ_le_succ hi)

/-- An operation that reads a cell reads one of its row. -/
def ResultTable.Allows (res : ResultTable) : Op → Prop
  | .getTableData col row => res.InRow col row
  | _ => True

section

variable {σ α : Type} {step : (o : Op) → σ → Option (σ × o.Res)} {result : σ → ResultTable}

variable (step result) in
/-- A triple whose operations read cells of their rows. -/
abbrev Rows (I : σ → Prop) (p : Prog α) (Q : α → σ → Prop) : Prop :=
  Program.Triple step (fun x o ↦ (result x).Allows o) I p Q

variable (step result) in
/-- The program reads cells of their rows, and leaves the state as it is. -/
abbrev ReadsRows (x : σ) (p : Prog α) : Prop := Rows step result (· = x) p fun _ x' ↦ x' = x

namespace CDBManage

variable {x : σ} {i j n minCol : ℕ}

/-! ## What is read is in its row -/

theorem readsRows_intCell (h : Serves step result) (hj : j < (result x).nCol)
    (hi : i < (result x).nRow) : ReadsRows step result x (intCell j i) :=
  .op_of_eq (h.getTableData x j (i + 1)) (ResultTable.InRow.of_lt hj hi)
    (.ofOption _ fun _ _ _ hx ↦ hx)

theorem readsRows_textCell (h : Serves step result) (hj : j < (result x).nCol)
    (hi : i < (result x).nRow) : ReadsRows step result x (textCell n j i) :=
  .op_of_eq (h.getTableData x j (i + 1)) (ResultTable.InRow.of_lt hj hi)
    (.ofOption _ fun _ _ _ hx ↦ hx)

theorem readsRows_readLink (h : Serves step result) (hcol : 12 ≤ (result x).nCol)
    (hi : i < (result x).nRow) : ReadsRows step result x (readLink i) := by
  rw [← readLinkCounting_eq]
  repeat first
    | refine .bind (readsRows_intCell h (by omega) hi) fun _ ↦ ?_
    | refine .bind (readsRows_textCell h (by omega) hi) fun _ ↦ ?_
  exact .ret fun _ hx ↦ hx

theorem readsRows_readLinks (h : Serves step result) (hcol : 12 ≤ (result x).nCol) :
    ReadsRows step result x (readLinks n i) := by
  induction n generalizing i with
  | zero =>
      rw [readLinks]
      refine .op_of_eq (h.getTableRow x) trivial ?_
      split
      · exact .stuck
      · exact .ret fun _ hx ↦ hx
  | succ n ih =>
      rw [readLinks]
      refine .op_of_eq (h.getTableRow x) trivial ?_
      split
      · rename_i hi
        exact (readsRows_readLink h hcol hi).bind fun _ ↦ ih.bind fun _ ↦ .ret fun _ hx ↦ hx
      · exact .ret fun _ hx ↦ hx

theorem readsRows_readRule (h : Serves step result) (hcol : 21 ≤ (result x).nCol)
    (hi : i < (result x).nRow) : ReadsRows step result x (readRule i) := by
  rw [← readRuleCounting_eq]
  iterate 5 refine .bind (readsRows_intCell h (by omega) hi) fun _ ↦ ?_
  iterate 15 refine .bind (readsRows_textCell h (by omega) hi) fun _ ↦ ?_
  refine .bind (readsRows_intCell h (by omega) hi) fun _ ↦ ?_
  exact .ret fun _ hx ↦ hx

theorem readsRows_readRules (h : Serves step result) (hcol : 21 ≤ (result x).nCol)
    (hn : i + n ≤ (result x).nRow) : ReadsRows step result x (readRules n i) := by
  induction n generalizing i with
  | zero => exact .ret fun _ hx ↦ hx
  | succ n ih =>
      refine (readsRows_readRule h hcol (by omega)).bind fun _ ↦ ?_
      exact (ih (by omega)).bind fun _ ↦ .ret fun _ hx ↦ hx

/-- The guard. -/
theorem rows_tooSmall (h : Serves step result) :
    Rows step result (· = x) (tooSmall minCol) fun small x' ↦ x' = x ∧
      (small = false → 0 < (result x).nRow ∧ minCol ≤ (result x).nCol) := by
  refine .op_of_eq (h.getTableRow x) trivial ?_
  show Rows step result (· = x) (if (result x).nRow = 0 then _ else _ : Prog Bool) _
  split
  · exact .ret fun _ hx ↦ ⟨hx, nofun⟩
  · rename_i hrow
    refine .op_of_eq (h.getTableColumn x) trivial (.ret fun _ hx ↦ ⟨hx, fun hcol ↦ ?_⟩)
    exact ⟨Nat.pos_of_ne_zero hrow, Nat.le_of_not_lt (of_decide_eq_false hcol)⟩

/-- A query reads cells of their rows if its loop does, on the result that it finds. -/
theorem rows_queried {szSql : Option (List Char)} {read : ℕ → Prog (List LinkData)}
    (h : Serves step result)
    (hread : ∀ sql s, szSql = some sql → step (.search sql) x = some s → 0 < (result s.1).nRow →
      minCol ≤ (result s.1).nCol → ReadsRows step result s.1 (read (result s.1).nRow)) :
    Rows step result (· = x) (queried szSql minCol read) fun _ _ ↦ True := by
  rcases szSql with _ | sql
  · exact .stuck
  · refine .op (fun _ _ ↦ trivial) fun r ↦ .of_forall ?_
    rintro x' ⟨_, rfl, hsearch⟩
    refine (rows_tooSmall h).bind fun small ↦ .of_forall ?_
    rintro _ ⟨rfl, hguard⟩
    rcases small with _ | _
    · obtain ⟨hrow, hcol⟩ := hguard rfl
      refine .op_of_eq (h.getTableRow _) trivial ?_
      refine (hread sql _ rfl hsearch hrow hcol).bind fun _ ↦ ?_
      exact .op (fun _ _ ↦ trivial) fun _ ↦ .unlock (.ret fun _ _ ↦ trivial)
    · exact .unlock (.ret fun _ _ ↦ trivial)

/-- The tests at the start of a call read no cell. -/
theorem rows_entered {π : Type} {param : Option π} {rejected : Bool} {failed : Reply}
    {body : π → Prog Reply} (h : Serves step result)
    (hbody : ∀ p, Rows step result (· = x) (body p) fun _ _ ↦ True) :
    Rows step result (· = x) (entered param rejected failed body) fun _ _ ↦ True := by
  refine .lock ?_
  rcases param with _ | p
  · exact .unlock (.ret fun _ _ ↦ trivial)
  · refine .op_of_eq (h.isNull x) trivial ?_
    rcases rejected with _ | _
    · exact hbody p
    · exact .unlock (.ret fun _ _ ↦ trivial)

/-- **`GetLinkInfo` reads cells of their rows, whatever its query finds.** -/
theorem rows_getLinkInfo (h : Serves step result) (param : Option LinkData) (hasResult : Bool) :
    Rows step result (· = x) (getLinkInfo param hasResult) fun _ _ ↦ True :=
  rows_entered h fun _ ↦ rows_queried h fun _ _ _ _ _ hcol ↦ readsRows_readLinks h hcol

/-- **`GetRuleInfo` does where its query does not find just twenty columns.** -/
theorem rows_getRuleInfo (h : Serves step result) {param : Option LinkData} {hasResult : Bool}
    (hsearch : ∀ pInfo sql s, getRuleInfoSql pInfo = some sql → step (.search sql) x = some s →
      (result s.1).nRow = 0 ∨ (result s.1).nCol ≠ 20) :
    Rows step result (· = x) (getRuleInfo param hasResult) fun _ _ ↦ True := by
  refine rows_entered h fun pInfo ↦ rows_queried h fun sql s hsql hs hrow hcol ↦ ?_
  have hne := (hsearch pInfo sql s hsql hs).resolve_left hrow.ne'
  exact readsRows_readRules h (by omega) (by omega)

/-! ## What is read of a row of twenty columns -/

theorem mem_performed_intCell {a : σ × Op} {k : Int32 → Prog α} (h : Serves step result)
    (hcell : ((result x).getTableData j (i + 1) >>= atoi).isSome)
    (hk : ∀ z, a ∈ (k z).performed step x) : a ∈ (intCell j i >>= k).performed step x := by
  obtain ⟨z, hz⟩ := Option.isSome_iff_exists.mp hcell
  refine Program.mem_performed_op (h.getTableData x j (i + 1)) ?_
  show a ∈ (.ofOption ((result x).getTableData j (i + 1) >>= atoi) >>= k : Prog α).performed step x
  rw [hz]
  exact hk z

theorem mem_performed_textCell {a : σ × Op} {k : CharArray n → Prog α} (h : Serves step result)
    (hcell : ((result x).getTableData j (i + 1) >>= CharArray.ofList? n).isSome)
    (hk : ∀ s, a ∈ (k s).performed step x) : a ∈ (textCell n j i >>= k).performed step x := by
  obtain ⟨s, hs⟩ := Option.isSome_iff_exists.mp hcell
  refine Program.mem_performed_op (h.getTableData x j (i + 1)) ?_
  show a ∈ (.ofOption ((result x).getTableData j (i + 1) >>= CharArray.ofList? n) >>= k :
    Prog α).performed step x
  rw [hs]
  exact hk s

end CDBManage

/-- The first twenty cells of a row are those of a rule: five numbers, and fifteen texts that fit
into their fields. -/
structure StartsRule (data : ℕ → Option (List Char)) : Prop where
  ints : ∀ j < 5, (data j >>= atoi).isSome
  texts : ∀ j, 5 ≤ j → j < 20 → (data j >>= CharArray.ofList? 256).isSome

namespace CDBManage

variable {x x' : σ} {i : ℕ}

/-- The twenty-first cell is read after them. -/
theorem mem_performed_readRule (h : Serves step result)
    (hrow : StartsRule fun j ↦ (result x).getTableData j (i + 1)) :
    (x, .getTableData 20 (i + 1)) ∈ (readRule i).performed step x := by
  rw [← readRuleCounting_eq]
  iterate 5 refine mem_performed_intCell h (hrow.ints _ (by decide)) fun _ ↦ ?_
  iterate 15 refine mem_performed_textCell h (hrow.texts _ (by decide) (by decide)) fun _ ↦ ?_
  exact List.mem_cons_self

/-- The guard lets a result that is large enough through. -/
theorem run_tooSmall_eq (h : Serves step result) {minCol : ℕ} (hrow : 0 < (result x).nRow)
    (hcol : minCol ≤ (result x).nCol) : (tooSmall minCol).run step x = some (x, false) := by
  rw [run_tooSmall h, decide_eq_false hrow.ne', decide_eq_false (Nat.not_lt.mpr hcol)]
  rfl

/-- The loop of a query runs on a result that is large enough. -/
theorem mem_performed_queried (h : Serves step result) {a : σ × Op} {szSql : Option (List Char)}
    {minCol : ℕ} {read : ℕ → Prog (List LinkData)} {sql : List Char} (hsql : szSql = some sql)
    (hsearch : step (.search sql) x = some (x', ())) (hrow : 0 < (result x').nRow)
    (hcol : minCol ≤ (result x').nCol) (hmem : a ∈ (read (result x').nRow).performed step x') :
    a ∈ (queried szSql minCol read).performed step x := by
  rw [hsql]
  refine Program.mem_performed_op hsearch ?_
  show a ∈ (tooSmall minCol >>= _ : Prog Reply).performed step x'
  refine Program.mem_performed_right (run_tooSmall_eq h hrow hcol) ?_
  refine Program.mem_performed_op (h.getTableRow x') ?_
  show a ∈ (read (result x').nRow >>= _ : Prog Reply).performed step x'
  exact Program.mem_performed_left _ hmem

/-- **`GetRuleInfo` reads the twenty-first cell of the first row** of a result that it takes. -/
theorem mem_performed_getRuleInfo (h : Serves step result) {pInfo : LinkData} {sql : List Char}
    (hsql : getRuleInfoSql pInfo = some sql) (hsearch : step (.search sql) x = some (x', ()))
    (hrow : 0 < (result x').nRow) (hcol : 20 ≤ (result x').nCol)
    (hrule : StartsRule fun j ↦ (result x').getTableData j 1) :
    (x', .getTableData 20 1) ∈ (getRuleInfo (some pInfo) false).performed step x := by
  rw [getRuleInfo, entered, Program.performed_lock]
  refine Program.mem_performed_op (h.isNull x) (mem_performed_queried h hsql hsearch hrow hcol ?_)
  obtain ⟨n, hn⟩ := Nat.exists_eq_add_of_lt hrow
  rw [hn, Nat.zero_add]
  exact Program.mem_performed_left _ (mem_performed_readRule h hrule)

end CDBManage

end

theorem not_allows_twenty {res : ResultTable} (hcol : res.nCol = 20) (row : ℕ) :
    ¬res.Allows (.getTableData 20 row) := by
  intro h
  exact absurd h.isColumn (by omega)

/-! ## All results -/

/-- The operations of a query whose search finds `found`; a query does no others. -/
def answering (found : ResultTable) : (o : Op) → ResultTable → Option (ResultTable × o.Res)
  | .isNull, res => some (res, false)
  | .search _, _ => some (found, ())
  | .getTableRow, res => some (res, res.nRow)
  | .getTableColumn, res => some (res, res.nCol)
  | .getTableData col row, res => some (res, res.getTableData col row)
  | .freeTableData, _ => some (⟨0, 0, []⟩, ())
  | .exec _, _ | .transaction _, _ | .getLastInsertId, _ | .getErrorMsg, _ | .setCommit _, _ => none

theorem serves_answering (found : ResultTable) : Serves (answering found) id :=
  ⟨fun _ ↦ rfl, fun _ ↦ rfl, fun _ ↦ rfl, fun _ _ _ ↦ rfl⟩

/-- A result of `sqlite3_get_table` with `nRow` rows after the row of names. -/
structure ResultTable.HasShape (res : ResultTable) (nRow nCol : ℕ) : Prop where
  rows : res.nRow = nRow
  columns : res.nCol = nCol
  cells : res.pResult.length = (nRow + 1) * nCol

/-- All cells that the two queries read of the results of a shape are in their rows. -/
def AddressesRows (nRow nCol : ℕ) : Prop :=
  ∀ found before : ResultTable, found.HasShape nRow nCol →
    ∀ (param : Option LinkData) (hasResult : Bool),
      (∀ a ∈ (CDBManage.getLinkInfo param hasResult).performed (answering found) before,
        a.1.Allows a.2) ∧
      ∀ a ∈ (CDBManage.getRuleInfo param hasResult).performed (answering found) before,
        a.1.Allows a.2

/-- A result with a zero in each cell. -/
def zeros (nRow nCol : ℕ) : ResultTable :=
  ⟨nRow, nCol, List.replicate ((nRow + 1) * nCol) (some ['0'])⟩

theorem getTableData_zeros {nRow nCol i j : ℕ} (hj : j < nCol) (hi : i < nRow) :
    (zeros nRow nCol).getTableData j (i + 1) = some ['0'] := by
  have hinside : j + (i + 1) * nCol < (nRow + 1) * nCol :=
    (ResultTable.InRow.of_lt (show j < (zeros nRow nCol).nCol from hj) hi).inside
  rw [ResultTable.getTableData]
  show ((List.replicate ((nRow + 1) * nCol) (some ['0']))[j + (i + 1) * nCol]?).join = _
  rw [List.getElem?_replicate, if_pos hinside]
  rfl

/-- With twenty columns a cell is read beyond its row. -/
theorem not_addressesRows_twenty (n : ℕ) : ¬AddressesRows (n + 1) 20 := by
  intro h
  have hrule : StartsRule fun j ↦ (zeros (n + 1) 20).getTableData j 1 := by
    refine ⟨fun j hj ↦ ?_, fun j _ hj ↦ ?_⟩
    · rw [getTableData_zeros (by omega) (Nat.succ_pos n)]
      decide
    · rw [getTableData_zeros hj (Nat.succ_pos n)]
      decide
  have hmem := CDBManage.mem_performed_getRuleInfo (serves_answering (zeros (n + 1) 20))
    (x := zeros 0 0) (getRuleInfoSql_eq LinkData.zero) rfl (Nat.succ_pos n) le_rfl hrule
  have hallows := (h (zeros (n + 1) 20) _ ⟨rfl, rfl, List.length_replicate⟩ _ _).2 _ hmem
  exact not_allows_twenty rfl 1 hallows

/-- **The cells that are read are in their rows exactly if the result has no rows or not just
twenty columns.** -/
theorem addressesRows_iff (nRow nCol : ℕ) : AddressesRows nRow nCol ↔ nRow = 0 ∨ nCol ≠ 20 := by
  constructor
  · intro h
    by_contra hshape
    rw [not_or, not_not] at hshape
    obtain ⟨hrow, rfl⟩ := hshape
    obtain ⟨n, rfl⟩ := Nat.exists_eq_succ_of_ne_zero hrow
    exact not_addressesRows_twenty n h
  · intro hshape found before hfound param hasResult
    have hserves := serves_answering found
    refine ⟨(CDBManage.rows_getLinkInfo hserves param hasResult).allowed before rfl, ?_⟩
    refine (CDBManage.rows_getRuleInfo hserves fun _ _ s _ hsearch ↦ ?_).allowed before rfl
    rw [← Option.some.inj hsearch]
    show found.nRow = 0 ∨ found.nCol ≠ 20
    rw [hfound.rows, hfound.columns]
    exact hshape

/-- So not in every result with a row: in a table without the column `hlimit` a rule has twenty
columns. -/
theorem not_addressesRows : ¬∀ nRow nCol : ℕ, 1 ≤ nRow → AddressesRows nRow nCol :=
  fun h ↦ not_addressesRows_twenty 0 (h 1 20 le_rfl)

/-! ## Databases -/

/-- What a search leaves behind. -/
theorem Handle.step_search {h : Handle} {sql : List Char} {res : ResultTable}
    (hres : sqliteSearch h.db sql = some res) :
    Handle.step (.search sql) h = some ({ h with result := res }, ()) := by
  show (sqliteSearch h.db sql).map _ = _
  rw [hres]
  rfl

/-- **In a database with the tables of `CreateTable` the cells that are read are in their rows.** -/
theorem rows_of_created {h : Handle} (hdb : Created h.db) (param : Option LinkData)
    (hasResult : Bool) :
    (∀ a ∈ (CDBManage.getLinkInfo param hasResult).performed Handle.step h,
      a.1.result.Allows a.2) ∧
    ∀ a ∈ (CDBManage.getRuleInfo param hasResult).performed Handle.step h,
      a.1.result.Allows a.2 := by
  obtain ⟨t, ht, hcolumns⟩ := hdb.rules
  refine ⟨(CDBManage.rows_getLinkInfo serves_handle param hasResult).allowed h rfl, ?_⟩
  refine (CDBManage.rows_getRuleInfo serves_handle fun pInfo sql s hsql hs ↦ ?_).allowed h rfl
  have hquery := bind_sqliteSearch (parse_getRuleInfo pInfo)
    (query_select ht (test_filter fun c _ ↦ find_rule hcolumns c.1))
  rw [hsql, Option.bind_eq_bind, Option.bind_some] at hquery
  rw [Handle.step_search hquery] at hs
  rw [← Option.some.inj hs]
  rcases hrows : t.rows.filter _ with _ | ⟨r, rows⟩
  · exact .inl rfl
  · refine .inr ?_
    show t.columns.length + 1 ≠ 20
    rw [hcolumns.columns]
    decide

theorem find_older {t : Table} (h : HasColumns t ruleColumns.dropLast) (col : FilterColumn) :
    t.find col.name.toList = .ok (rulePlace col) := by
  rw [Table.find, h.key, h.columns]
  rcases col <;> decide

/-- **In a table of rules without the last column, `hlimit`,** the first rule that is selected is
read beyond its row. -/
theorem exists_outside_of_older {h : Handle} {t : Table} (ht : h.db TBRULE = some t)
    (hcolumns : HasColumns t ruleColumns.dropLast) {pInfo : LinkData} {r : Row} {rows : List Row}
    (hrows : t.rows.filter (isSelected t pInfo) = r :: rows) (hrule : StartsRule (cellOf r)) :
    ∃ a ∈ (CDBManage.getRuleInfo (some pInfo) false).performed Handle.step h,
      ¬a.1.result.Allows a.2 := by
  have hquery : (getRuleInfoSql pInfo >>= sqliteSearch h.db) = some (getTable t (r :: rows)) := by
    rw [← hrows]
    exact bind_sqliteSearch (parse_getRuleInfo pInfo)
      (query_select ht (test_filter fun c _ ↦ find_older hcolumns c.1))
  have hlength : t.columns.length = 19 := by
    rw [hcolumns.columns]
    rfl
  have hfull : ∀ r' ∈ r :: rows, r'.cells.length = t.columns.length := by
    intro r' hr'
    rw [← hrows] at hr'
    exact t.full r' (List.mem_of_mem_filter hr')
  have hcell : ∀ j < 20, (getTable t (r :: rows)).getTableData j 1 = cellOf r j :=
    fun j hj ↦ getTableData_getTable hfull rfl (by omega)
  have hstarts : StartsRule fun j ↦ (getTable t (r :: rows)).getTableData j 1 := by
    refine ⟨fun j hj ↦ ?_, fun j hlo hj ↦ ?_⟩
    · rw [hcell j (by omega)]
      exact hrule.ints j hj
    · rw [hcell j hj]
      exact hrule.texts j hlo hj
  have hcol : (getTable t (r :: rows)).nCol = 20 := congrArg (· + 1) hlength
  rw [getRuleInfoSql_eq, Option.bind_eq_bind, Option.bind_some] at hquery
  refine ⟨_, CDBManage.mem_performed_getRuleInfo serves_handle (getRuleInfoSql_eq pInfo)
    (Handle.step_search hquery) (Nat.succ_pos _) hcol.ge hstarts, not_allows_twenty hcol 1⟩

end CodeToolKit.HwbrapSqlite
