import CodeToolKit.HwbrapSqlite.LinkQuery
import CodeToolKit.HwbrapSqlite.RuleDelete
import CodeToolKit.HwbrapSqlite.RuleRoundTrip
import CodeToolKit.HwbrapSqlite.WriteStatement

/-!
# The rules that a record selects

A record selects the rules that have its id, its channel and its two types, as far as these are
positive (`Matches`).

`DelRuleInfo` tests the types together: with only one of them the condition is left out, and rules
of any type are removed (`removesMatching_iff`).  `GetRuleInfo` compares the main type with
the sub type where this is its first condition (`returnsMatching_iff`).  The records that it
returns are the rows that it selects, column by column (`readsRule_of_ruleOf`).
-/

namespace CodeToolKit.HwbrapSqlite

open CodeToolKit.SQL CodeToolKit.Lib

/-- The row has the number in the column. -/
def hasInt (i : ℕ) (z : Int32) (r : Row) : Bool := r.cells[i]? = some (.int z.toInt)

/-- The row has the value of each selector that is positive.  The columns after `id` begin with
`anachannel`, `anamaintype` and `anasubtype`. -/
structure Matches (pInfo : LinkData) (r : Row) : Prop where
  id : pInfo.id > 0 → r.id = pInfo.id.toInt
  nAnaChannel : pInfo.nAnaChannel > 0 → hasInt 0 pInfo.nAnaChannel r
  nAnaMainType : pInfo.nAnaMainType > 0 → hasInt 1 pInfo.nAnaMainType r
  nAnaSubType : pInfo.nAnaSubType > 0 → hasInt 2 pInfo.nAnaSubType r

theorem matches_iff {pInfo : LinkData} {r : Row} :
    Matches pInfo r ↔ isReturned pInfo r ∧
      (pInfo.nAnaMainType > 0 → hasInt 1 pInfo.nAnaMainType r) ∧
      (pInfo.nAnaSubType > 0 → hasInt 2 pInfo.nAnaSubType r) := by
  have hreturned : isReturned pInfo r ↔ (pInfo.id > 0 → r.id = pInfo.id.toInt) ∧
      (pInfo.nAnaChannel > 0 → hasInt 0 pInfo.nAnaChannel r) := by
    simp [isReturned, isChannel, hasInt, imp_iff_not_or]
  rw [hreturned]
  constructor
  · rintro ⟨hid, hchannel, hmain, hsub⟩
    exact ⟨⟨hid, hchannel⟩, hmain, hsub⟩
  · rintro ⟨⟨hid, hchannel⟩, hmain, hsub⟩
    exact ⟨hid, hchannel, hmain, hsub⟩

instance instDecidableMatches (pInfo : LinkData) (r : Row) : Decidable (Matches pInfo r) :=
  decidable_of_iff _ matches_iff.symm

section

variable {db : Database} {t : Table}

theorem columnTest_rule (h : HasColumns t ruleColumns) (col : FilterColumn) {i : ℕ}
    (hi : rulePlace col = some i) (z : Int32) (r : Row) :
    columnTest t rulePlace (col, z) r = hasInt i z r := by
  have hcolumn : ∃ c, t.columns[i]? = some c ∧ c.affinity = .integer := by
    rw [h.columns]
    cases col <;> cases hi <;> exact ⟨_, rfl, rfl⟩
  obtain ⟨c, hc, hint⟩ := hcolumn
  rw [columnTest, hi]
  exact Table.meets_int hc hint z.toInt r

/-- The conditions on `id` and `anachannel` ask for the same rows in both tables. -/
theorem all_linkFilter (h : HasColumns t ruleColumns) (pInfo : LinkData) (r : Row) :
    ((linkFilter .id pInfo).all fun c ↦ columnTest t rulePlace c r) = isReturned pInfo r := by
  rw [linkFilter, all_addCondition, all_addCondition, List.all_nil, Bool.true_and, ite_self,
    ite_self, columnTest_rule h .anachannel rfl]
  rfl

/-! ## Deletions -/

theorem isDeleted_eq (h : HasColumns t ruleColumns) (pInfo : LinkData) (r : Row) :
    isDeleted t pInfo r = (isReturned pInfo r &&
      (!hasTypes pInfo || hasInt 1 pInfo.nAnaMainType r && hasInt 2 pInfo.nAnaSubType r)) := by
  rw [isDeleted, delRuleFilter, List.all_append, all_linkFilter h]
  cases hasTypes pInfo
  · rfl
  · rw [if_pos rfl, List.all_cons, List.all_cons, List.all_nil,
      columnTest_rule h .anamaintype rfl, columnTest_rule h .anasubtype rfl]
    simp

/-- `DelRuleInfo` removes the rows that the record selects, and nothing else. -/
def RemovesMatching (db : Database) (pInfo : LinkData) : Prop :=
  ∃ db', delRuleInfo db pInfo = some (db', 0) ∧
    (db' TBRULE).map Table.rows = (db TBRULE).map (fun t ↦ t.rows.filter fun r ↦ ¬Matches pInfo r) ∧
    ∀ name ≠ TBRULE, db' name = db name

theorem removesMatching_iff_forall (ht : db TBRULE = some t) (h : HasColumns t ruleColumns)
    (pInfo : LinkData) :
    RemovesMatching db pInfo ↔ ∀ r ∈ t.rows, (isDeleted t pInfo r ↔ Matches pInfo r) := by
  have hfilter : (t.rows.filter fun r ↦ !isDeleted t pInfo r) =
        (t.rows.filter fun r ↦ ¬Matches pInfo r) ↔
      ∀ r ∈ t.rows, (isDeleted t pInfo r ↔ Matches pInfo r) := by
    rw [filter_eq_filter_iff]
    refine forall₂_congr fun r _ ↦ ?_
    by_cases hr : Matches pInfo r <;> simp [hr]
  rw [← hfilter]
  constructor
  · rintro ⟨db', hdel, htable, -⟩
    rw [delRuleInfo_eq ht h] at hdel
    rw [← (Prod.mk.inj (Option.some.inj hdel)).1, ht, Function.update_self] at htable
    exact Option.some.inj htable
  · intro heq
    refine ⟨_, delRuleInfo_eq ht h pInfo, ?_, ?_⟩
    · rw [ht, Function.update_self]
      exact congrArg some heq
    · intro name hname
      exact Function.update_of_ne hname _ _

/-- **The rows that are removed are those that are selected exactly if both types are selectors or
none is, or the rows of the id and the channel have the type that is.** -/
theorem removesMatching_iff (ht : db TBRULE = some t) (h : HasColumns t ruleColumns)
    (pInfo : LinkData) :
    RemovesMatching db pInfo ↔
      (pInfo.nAnaMainType > 0 ↔ pInfo.nAnaSubType > 0) ∨
        ∀ r ∈ t.rows, isReturned pInfo r →
          (pInfo.nAnaMainType > 0 → hasInt 1 pInfo.nAnaMainType r) ∧
            (pInfo.nAnaSubType > 0 → hasInt 2 pInfo.nAnaSubType r) := by
  rw [removesMatching_iff_forall ht h]
  by_cases htypes : pInfo.nAnaMainType > 0 ↔ pInfo.nAnaSubType > 0
  · refine iff_of_true (fun r _ ↦ ?_) (.inl htypes)
    rw [isDeleted_eq h, matches_iff, hasTypes]
    by_cases hmain : pInfo.nAnaMainType > 0
    · simp [hmain, htypes.mp hmain]
    · simp [hmain, mt htypes.mpr hmain]
  · rw [or_iff_right htypes]
    -- Only one of the types is a selector, and the deletion has no condition on it.
    have hone : hasTypes pInfo = false := by
      rw [hasTypes, Bool.and_eq_false_iff, decide_eq_false_iff_not, decide_eq_false_iff_not,
        ← not_and_or]
      exact fun hboth ↦ htypes (iff_of_true hboth.1 hboth.2)
    refine forall₂_congr fun r _ ↦ ?_
    rw [isDeleted_eq h, matches_iff, hone, Bool.not_false, Bool.true_or, Bool.and_true]
    constructor
    · intro hiff hreturned
      exact (hiff.mp hreturned).2
    · intro htype
      exact ⟨fun hreturned ↦ ⟨hreturned, htype hreturned⟩, And.left⟩

end

/-- The rule of the test is deleted by its key. -/
theorem removesMatching_storedRule : RemovesMatching (ruleDatabase storedRule) (ruleKey testRule) :=
  (removesMatching_iff (t := storedRule) rfl ⟨rfl, rfl⟩ _).mpr (.inl (by decide))

/-- A deletion by the main type 5 removes the rule with the main type 2, too. -/
theorem not_removesMatching : ¬∀ (db : Database) (t : Table), db TBRULE = some t →
    HasColumns t ruleColumns → ∀ pInfo, RemovesMatching db pInfo := by
  intro h
  have hremoves := h (ruleDatabase storedRule) storedRule rfl ⟨rfl, rfl⟩
    { LinkData.zero with nAnaMainType := 5 }
  rw [removesMatching_iff_forall (t := storedRule) rfl ⟨rfl, rfl⟩] at hremoves
  exact absurd hremoves (by decide)

/-! ## Queries -/

/-- The names of the columns. -/
def ruleNames : List (List Char) := "id".toList :: ruleColumns.map Column.name

/-- The C string of a row in the column of a name. -/
def ruleCell (r : Row) (name : List Char) : Option (List Char) := do
  cellOf r (← ruleNames.findIdx? (· = name))

/-- The columns of the numbers of a rule. -/
def ruleInts (p : LinkData) : List (List Char × Int32) :=
  [("id".toList, p.id), ("anachannel".toList, p.nAnaChannel),
    ("anamaintype".toList, p.nAnaMainType), ("anasubtype".toList, p.nAnaSubType),
    ("linenum".toList, p.nLineNum), ("hlimit".toList, p.nHLimit)]

/-- The record is what a row has in its twenty-one columns. -/
structure ReadsRule (r : Row) (p : LinkData) : Prop where
  ints : ∀ f ∈ ruleInts p, ruleCell r f.1 >>= atoi = some f.2
  strings : ruleStringColumns.map (ruleCell r) = p.ruleStrings.map fun s ↦ some s.chars

theorem bind_ofList_eq_some {n : ℕ} {data : Option (List Char)} {s : CharArray n} :
    (data >>= CharArray.ofList? n) = some s ↔ data = some s.chars := by
  constructor
  · intro h
    obtain ⟨chars, hdata, hchars⟩ := Option.bind_eq_some_iff.mp h
    rw [CharArray.ofList?] at hchars
    split at hchars
    · rw [hdata, ← Option.some.inj hchars]
    · cases hchars
  · rintro rfl
    exact s.ofList_chars

theorem forall_five {P : Fin 5 → Prop} (h₀ : P 0) (h₁ : P 1) (h₂ : P 2) (h₃ : P 3) (h₄ : P 4)
    (i : Fin 5) : P i := by
  rcases i with ⟨_ | _ | _ | _ | _ | i, hi⟩
  · exact h₀
  · exact h₁
  · exact h₂
  · exact h₃
  · exact h₄
  · omega

/-- Five strings are read exactly as the cells have them. -/
theorem stringsOf_eq_some {data : ℕ → Option (List Char)} {j : ℕ} {f : Fin 5 → CharArray 256} :
    stringsOf data j = some f ↔ ∀ i : Fin 5, data (j + i) = some (f i).chars := by
  simp only [stringsOf, Option.bind_eq_bind]
  constructor
  · intro h
    obtain ⟨s₀, h₀, h⟩ := Option.bind_eq_some_iff.mp h
    obtain ⟨s₁, h₁, h⟩ := Option.bind_eq_some_iff.mp h
    obtain ⟨s₂, h₂, h⟩ := Option.bind_eq_some_iff.mp h
    obtain ⟨s₃, h₃, h⟩ := Option.bind_eq_some_iff.mp h
    obtain ⟨s₄, h₄, h⟩ := Option.bind_eq_some_iff.mp h
    rw [← Option.some.inj h]
    exact forall_five (bind_ofList_eq_some.mp h₀) (bind_ofList_eq_some.mp h₁)
      (bind_ofList_eq_some.mp h₂) (bind_ofList_eq_some.mp h₃) (bind_ofList_eq_some.mp h₄)
  · intro h
    have hbind (i : Fin 5) : (data (j + i)).bind (CharArray.ofList? 256) = some (f i) :=
      bind_ofList_eq_some.mpr (h i)
    have h₀ : (data j).bind (CharArray.ofList? 256) = some (f 0) := hbind 0
    have h₁ : (data (j + 1)).bind (CharArray.ofList? 256) = some (f 1) := hbind 1
    have h₂ : (data (j + 2)).bind (CharArray.ofList? 256) = some (f 2) := hbind 2
    have h₃ : (data (j + 3)).bind (CharArray.ofList? 256) = some (f 3) := hbind 3
    have h₄ : (data (j + 4)).bind (CharArray.ofList? 256) = some (f 4) := hbind 4
    rw [h₀, h₁, h₂, h₃, h₄]
    exact congrArg some (funext (forall_five rfl rfl rfl rfl rfl))

theorem map_range_of_stringsOf {data : ℕ → Option (List Char)} {j : ℕ}
    {f : Fin 5 → CharArray 256} (h : stringsOf data j = some f) :
    (List.range' j 5).map data = [f 0, f 1, f 2, f 3, f 4].map fun s ↦ some s.chars := by
  have hdata := stringsOf_eq_some.mp h
  show [data (j + (0 : Fin 5)), data (j + (1 : Fin 5)), data (j + (2 : Fin 5)),
    data (j + (3 : Fin 5)), data (j + (4 : Fin 5))] = _
  rw [hdata 0, hdata 1, hdata 2, hdata 3, hdata 4]
  rfl

theorem findIdx_ruleInts :
    (ruleInts LinkData.zero).map (fun f ↦ ruleNames.findIdx? (· = f.1)) =
      [some 0, some 1, some 2, some 3, some 4, some 20] := by
  decide

theorem findIdx_ruleStrings :
    ruleStringColumns.map (fun name ↦ ruleNames.findIdx? (· = name)) =
      (List.range' 5 15).map some := by
  decide

/-- The positions that the loop of `GetRuleInfo` reads are those of the columns. -/
theorem readsRule_of_ruleOf {r : Row} {p : LinkData} (h : ruleOf (cellOf r) = some p) :
    ReadsRule r p := by
  simp only [ruleOf, Option.bind_eq_bind] at h
  obtain ⟨id, hid, h⟩ := Option.bind_eq_some_iff.mp h
  obtain ⟨nAnaChannel, hchannel, h⟩ := Option.bind_eq_some_iff.mp h
  obtain ⟨nAnaMainType, hmain, h⟩ := Option.bind_eq_some_iff.mp h
  obtain ⟨nAnaSubType, hsub, h⟩ := Option.bind_eq_some_iff.mp h
  obtain ⟨nLineNum, hline, h⟩ := Option.bind_eq_some_iff.mp h
  obtain ⟨szBZSLineType, hstrings, h⟩ := Option.bind_eq_some_iff.mp h
  obtain ⟨szBZSLineType_2, hstrings₂, h⟩ := Option.bind_eq_some_iff.mp h
  obtain ⟨szAlarmDirect, hdirect, h⟩ := Option.bind_eq_some_iff.mp h
  obtain ⟨nHLimit, hlimit, h⟩ := Option.bind_eq_some_iff.mp h
  rw [← Option.some.inj h]
  constructor
  · have hints := findIdx_ruleInts
    simp only [ruleInts, List.map_cons, List.map_nil, List.cons.injEq, and_true] at hints
    obtain ⟨h₀, h₁, h₂, h₃, h₄, h₂₀⟩ := hints
    simp only [ruleInts, List.forall_mem_cons, List.not_mem_nil, false_implies, implies_true,
      and_true, ruleCell]
    rw [h₀, h₁, h₂, h₃, h₄, h₂₀]
    exact ⟨hid, hchannel, hmain, hsub, hline, hlimit⟩
  · have hcells : ruleStringColumns.map (ruleCell r) = (List.range' 5 15).map (cellOf r) := by
      have hfind := congrArg (List.map fun j? ↦ j? >>= cellOf r) findIdx_ruleStrings
      rw [List.map_map, List.map_map] at hfind
      exact hfind
    have hrange : List.range' 5 15 = List.range' 5 5 ++ List.range' 10 5 ++ List.range' 15 5 := rfl
    rw [hcells, hrange, List.map_append, List.map_append, map_range_of_stringsOf hstrings,
      map_range_of_stringsOf hstrings₂, map_range_of_stringsOf hdirect]
    rfl

/-- The key of a row is the id of its record. -/
theorem ReadsRule.id_eq {r : Row} {p : LinkData} (h : ReadsRule r p) : r.id = p.id.toInt := by
  have hid := h.ints ("id".toList, p.id) List.mem_cons_self
  have hcell : ruleCell r "id".toList = some (decimal r.id) := by
    rw [ruleCell, (by decide : ruleNames.findIdx? (· = "id".toList) = some 0)]
    rfl
  rw [hcell] at hid
  exact eq_toInt_of_atoi hid

/-- The records that are returned are the rows that the record selects, in their order. -/
def ReturnsMatching (t : Table) (pInfo : LinkData) (rs : List LinkData) : Prop :=
  List.Forall₂ ReadsRule (t.rows.filter fun r ↦ Matches pInfo r) rs

section

variable {db : Database} {t : Table}

theorem isEmpty_linkFilter (pInfo : LinkData) :
    (linkFilter .id pInfo).isEmpty =
      (!decide (pInfo.id > 0) && !decide (pInfo.nAnaChannel > 0)) := by
  rw [linkFilter, addCondition, addCondition]
  by_cases hid : pInfo.id > 0 <;> by_cases hchannel : pInfo.nAnaChannel > 0 <;> simp [hid, hchannel]

/-- The main type is compared with the sub type where it is the first condition. -/
theorem isSelected_eq (h : HasColumns t ruleColumns) (pInfo : LinkData) (r : Row) :
    isSelected t pInfo r = (isReturned pInfo r &&
      (!decide (pInfo.nAnaMainType > 0) ||
        hasInt 1 (if (linkFilter .id pInfo).isEmpty then pInfo.nAnaSubType
          else pInfo.nAnaMainType) r) &&
      (!decide (pInfo.nAnaSubType > 0) || hasInt 2 pInfo.nAnaSubType r)) := by
  rw [isSelected, ruleFilter, all_addCondition, all_addCondition, all_linkFilter h, ite_self,
    columnTest_rule h .anamaintype rfl, columnTest_rule h .anasubtype rfl]

theorem ids_eq {rows : List Row} {rs : List LinkData} (h : List.Forall₂ ReadsRule rows rs) :
    rows.map Row.id = rs.map fun p ↦ p.id.toInt := by
  induction h with
  | nil => rfl
  | cons hr _ ih => rw [List.map_cons, List.map_cons, hr.id_eq, ih]

/-- The ids of the records tell which rows they are. -/
theorem returnsMatching_iff_forall (ht : db TBRULE = some t) (h : HasColumns t ruleColumns)
    {pInfo : LinkData} {rs : List LinkData} (hget : getRuleInfo db pInfo = some rs) :
    ReturnsMatching t pInfo rs ↔ ∀ r ∈ t.rows, (isSelected t pInfo r ↔ Matches pInfo r) := by
  have hselected : List.Forall₂ ReadsRule (t.rows.filter (isSelected t pInfo)) rs := by
    rw [getRuleInfo_eq ht h] at hget
    exact forall₂_of_mapM hget fun r p ↦ readsRule_of_ruleOf
  constructor
  · intro hmatching r hr
    have hids : (t.rows.filter (isSelected t pInfo)).map Row.id =
        (t.rows.filter fun r ↦ Matches pInfo r).map Row.id :=
      (ids_eq hselected).trans (ids_eq hmatching).symm
    have hmem : ∀ p : Row → Bool, r.id ∈ (t.rows.filter p).map Row.id ↔ p r := by
      intro p
      rw [List.mem_map]
      constructor
      · rintro ⟨r', hr', heq⟩
        rw [List.mem_filter] at hr'
        rw [← Table.eq_of_id hr'.1 hr heq]
        exact hr'.2
      · intro hp
        exact ⟨r, List.mem_filter.mpr ⟨hr, hp⟩, rfl⟩
    rw [← hmem, hids, hmem, decide_eq_true_iff]
  · intro hiff
    rw [ReturnsMatching, ← List.filter_congr (p := isSelected t pInfo)]
    · exact hselected
    · intro r hr
      exact Bool.eq_iff_iff.mpr ((hiff r hr).trans decide_eq_true_iff.symm)

/-- **The records that are returned are the rows that are selected exactly if the main type is no
selector or comes after another condition, or among the rows of the sub type its value makes no
difference.** -/
theorem returnsMatching_iff (ht : db TBRULE = some t) (h : HasColumns t ruleColumns)
    {pInfo : LinkData} {rs : List LinkData} (hget : getRuleInfo db pInfo = some rs) :
    ReturnsMatching t pInfo rs ↔
      pInfo.id > 0 ∨ pInfo.nAnaChannel > 0 ∨ ¬pInfo.nAnaMainType > 0 ∨
        ∀ r ∈ t.rows, (pInfo.nAnaSubType > 0 → hasInt 2 pInfo.nAnaSubType r) →
          (hasInt 1 pInfo.nAnaSubType r ↔ hasInt 1 pInfo.nAnaMainType r) := by
  rw [returnsMatching_iff_forall ht h hget]
  have hselected : ∀ r, isSelected t pInfo r ↔ isReturned pInfo r ∧
      (pInfo.nAnaMainType > 0 → hasInt 1 (if (linkFilter .id pInfo).isEmpty then
        pInfo.nAnaSubType else pInfo.nAnaMainType) r) ∧
      (pInfo.nAnaSubType > 0 → hasInt 2 pInfo.nAnaSubType r) := by
    intro r
    rw [isSelected_eq h]
    simp [imp_iff_not_or, and_assoc]
  simp only [hselected, matches_iff, isEmpty_linkFilter]
  by_cases hid : pInfo.id > 0
  · simp [hid]
  by_cases hchannel : pInfo.nAnaChannel > 0
  · simp [hchannel]
  by_cases hmain : pInfo.nAnaMainType > 0
  · -- The main type is the first condition.
    have hall : ∀ r, isReturned pInfo r := by
      intro r
      simp [isReturned, hid, hchannel]
    simp only [hall, hid, hchannel, hmain, true_and, true_imp_iff, false_or, not_true_eq_false]
    refine forall₂_congr fun r _ ↦ ?_
    rw [and_congr_left_iff]
    exact Iff.rfl
  · simp [hmain]

end

/-- The query by channel and main type. -/
theorem returnsMatching_storedRule : ∃ rs,
    getRuleInfo (ruleDatabase storedRule)
      { LinkData.zero with nAnaChannel := 1, nAnaMainType := 2 } = some rs ∧
    ReturnsMatching storedRule { LinkData.zero with nAnaChannel := 1, nAnaMainType := 2 } rs :=
  have hget : getRuleInfo (ruleDatabase storedRule)
      { LinkData.zero with nAnaChannel := 1, nAnaMainType := 2 } = some _ :=
    (getRuleInfo_eq (t := storedRule) rfl ⟨rfl, rfl⟩ _).trans rfl
  ⟨_, hget,
    (returnsMatching_iff (t := storedRule) rfl ⟨rfl, rfl⟩ hget).mpr (.inr (.inl (by decide)))⟩

/-- The query by both types of the rule does not find it. -/
theorem not_returnsMatching : ¬∀ (db : Database) (t : Table), db TBRULE = some t →
    HasColumns t ruleColumns → ∀ pInfo rs, getRuleInfo db pInfo = some rs →
      ReturnsMatching t pInfo rs := by
  intro h
  have hget : getRuleInfo (ruleDatabase storedRule)
      { LinkData.zero with nAnaMainType := 2, nAnaSubType := 3 } = some [] :=
    (getRuleInfo_eq (t := storedRule) rfl ⟨rfl, rfl⟩ _).trans rfl
  have hreturns := h (ruleDatabase storedRule) storedRule rfl ⟨rfl, rfl⟩ _ _ hget
  rw [returnsMatching_iff_forall (t := storedRule) rfl ⟨rfl, rfl⟩ hget] at hreturns
  exact absurd hreturns (by decide)

end CodeToolKit.HwbrapSqlite
