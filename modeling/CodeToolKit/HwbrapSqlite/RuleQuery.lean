import CodeToolKit.HwbrapSqlite.FilterStatement
import CodeToolKit.HwbrapSqlite.Tables

/-!
# Queries of rules

`GetRuleInfo` returns the records of the rows of `table_rules` that meet its conditions
(`getRuleInfo_eq`).
-/

namespace CodeToolKit.HwbrapSqlite

open CodeToolKit.SQL CodeToolKit.Lib

/-! ## The call -/

/-- Five strings from one column on. -/
def stringsOf (data : ℕ → Option (List Char)) (j : ℕ) : Option (Fin 5 → CharArray 256) := do
  let s₀ ← data j >>= CharArray.ofList? 256
  let s₁ ← data (j + 1) >>= CharArray.ofList? 256
  let s₂ ← data (j + 2) >>= CharArray.ofList? 256
  let s₃ ← data (j + 3) >>= CharArray.ofList? 256
  let s₄ ← data (j + 4) >>= CharArray.ofList? 256
  some fun
    | 0 => s₀
    | 1 => s₁
    | 2 => s₂
    | 3 => s₃
    | 4 => s₄

/-- A rule from the cells of a row. -/
def ruleOf (data : ℕ → Option (List Char)) : Option LinkData := do
  let id ← data 0 >>= atoi
  let nAnaChannel ← data 1 >>= atoi
  let nAnaMainType ← data 2 >>= atoi
  let nAnaSubType ← data 3 >>= atoi
  let nLineNum ← data 4 >>= atoi
  let szBZSLineType ← stringsOf data 5
  let szBZSLineType_2 ← stringsOf data 10
  let szAlarmDirect ← stringsOf data 15
  let nHLimit ← data 20 >>= atoi
  some { LinkData.zero with
    id, nAnaChannel, nAnaMainType, nAnaSubType, nLineNum, szBZSLineType, szBZSLineType_2,
    szAlarmDirect, nHLimit }

/-- A rule is read from the first twenty-one columns. -/
theorem ruleOf_congr {data data' : ℕ → Option (List Char)} (h : ∀ j < 21, data j = data' j) :
    ruleOf data = ruleOf data' := by
  simp only [ruleOf, stringsOf, h, Nat.reduceLT, Nat.reduceAdd]

/-- `GetRuleInfo` on an open connection: the records that it returns. -/
def getRuleInfo (db : Database) (pInfo : LinkData) : Option (List LinkData) :=
  getRuleInfoSql pInfo >>= sqliteSearch db >>= readRows 20 ruleOf

/-! ## What it selects -/

/-- The column of a row that a condition on rules compares. -/
def rulePlace : FilterColumn → Option ℕ
  | .id => none
  | .anachannel => some 0
  | .anamaintype => some 1
  | .anasubtype => some 2

/-- The rows that meet the conditions of a query. -/
def isSelected (t : Table) (pInfo : LinkData) (r : Row) : Bool :=
  (ruleFilter pInfo).all fun c ↦ columnTest t rulePlace c r

section

variable {db : Database} {t : Table}

theorem find_rule (h : HasColumns t ruleColumns) (col : FilterColumn) :
    t.find col.name.toList = .ok (rulePlace col) := by
  rw [Table.find, h.key, h.columns]
  rcases col <;> decide

theorem parse_getRuleInfo (pInfo : LinkData) :
    (getRuleInfoSql pInfo >>= parse) = some (.select TBRULE ((ruleFilter pInfo).map equation)) := by
  rw [getRuleInfoSql_eq]
  exact parse_selectRules _

/-- **`GetRuleInfo` returns the records of the rows that meet its conditions.** -/
theorem getRuleInfo_eq (ht : db TBRULE = some t) (h : HasColumns t ruleColumns)
    (pInfo : LinkData) :
    getRuleInfo db pInfo =
      (t.rows.filter (isSelected t pInfo)).mapM fun r ↦ ruleOf (cellOf r) := by
  have hquery : query db (.select TBRULE ((ruleFilter pInfo).map equation)) =
      .ok (t, t.rows.filter (isSelected t pInfo)) :=
    query_select ht (test_filter fun c _ ↦ find_rule h c.1)
  have hfull : ∀ r ∈ t.rows.filter (isSelected t pInfo), r.cells.length = t.columns.length :=
    fun r hr ↦ t.full r (List.mem_of_mem_filter hr)
  have hcol : t.columns.length = 20 := by rw [h.columns]; rfl
  rw [getRuleInfo, bind_sqliteSearch (parse_getRuleInfo pInfo) hquery]
  refine readRows_getTable hfull (by omega) ?_
  intro data data' hdata
  exact ruleOf_congr fun j hj ↦ hdata j (by omega)

end

end CodeToolKit.HwbrapSqlite
