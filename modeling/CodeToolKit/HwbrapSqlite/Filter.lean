import CodeToolKit.HwbrapSqlite.Pieces
import CodeToolKit.SQL.Database

/-!
# The conditions of queries and deletions

The queries and the deletions append a condition to their text for each selector that is
positive.  Their texts always fit into the buffer (`delLinkInfoSql_eq` and its siblings), and they
are read as a statement with these conditions (`parse_filterText`).
-/

namespace CodeToolKit.HwbrapSqlite

open CodeToolKit.SQL CodeToolKit.Lib

/-- The columns of the conditions. -/
inductive FilterColumn where
  | id | anachannel | anamaintype | anasubtype
deriving DecidableEq, Repr

/-- The name of the column. -/
def FilterColumn.name : FilterColumn → String
  | id => "id"
  | anachannel => "anachannel"
  | anamaintype => "anamaintype"
  | anasubtype => "anasubtype"

/-- Conditions on columns. -/
abbrev Filter := List (FilterColumn × Int32)

/-- What stands in front of the number of a condition. -/
def conditionText (first : Bool) (col : FilterColumn) : List Char :=
  (if first then " WHERE " else " AND ").toList ++ col.name.toList ++ " = ".toList

/-- A condition. -/
def condition (first : Bool) (c : FilterColumn × Int32) : List Char :=
  conditionText first c.1 ++ decimal c.2.toInt

/-- A statement with its conditions. -/
def filterText (stmt : String) : Filter → List Char
  | [] => stmt.toList
  | c :: cs => stmt.toList ++ condition true c ++ cs.flatMap (condition false)

theorem filterText_append (stmt : String) (cs : Filter) (c : FilterColumn × Int32) :
    filterText stmt (cs ++ [c]) = filterText stmt cs ++ condition cs.isEmpty c := by
  rcases cs with _ | ⟨c', cs⟩
  · exact List.append_nil _
  · show stmt.toList ++ condition true c' ++ (cs ++ [c]).flatMap (condition false) = _
    rw [List.flatMap_append, List.flatMap_singleton, ← List.append_assoc]
    rfl

/-! ## The length of the text -/

theorem length_decimal_le (z : Int32) : (decimal z.toInt).length ≤ 11 := by
  have hdigits : (Nat.toDigits 10 z.toInt.natAbs).length ≤ 10 := by
    rw [Nat.length_toDigits_le_iff (by decide) (by decide)]
    have hlo := z.le_toInt
    have hhi := z.toInt_lt
    omega
  rw [decimal]
  split
  · exact Nat.succ_le_succ hdigits
  · exact hdigits.trans (by decide)

theorem length_condition_le (first : Bool) (c : FilterColumn × Int32) :
    (condition first c).length ≤ 40 := by
  have htext : ∀ first col, (conditionText first col).length ≤ 29 := by
    intro first col
    rcases first <;> rcases col <;> decide
  have hdecimal := length_decimal_le c.2
  have hfirst := htext first c.1
  rw [condition, List.length_append]
  omega

theorem length_filterText_le (stmt : String) (cs : Filter) :
    (filterText stmt cs).length ≤ stmt.toList.length + 40 * cs.length := by
  induction cs using List.reverseRecOn with
  | nil => exact Nat.le_refl _
  | append_singleton cs c ih =>
      have hc := length_condition_le cs.isEmpty c
      rw [filterText_append, List.length_append, List.length_append, List.length_singleton]
      omega

/-! ## The composed texts -/

/-- The format that appends a condition to the text. -/
def conditionFormat (first : Bool) : FilterColumn → String
  | .id => if first then "%s WHERE id = %d" else "%s AND id = %d"
  | .anachannel => if first then "%s WHERE anachannel = %d" else "%s AND anachannel = %d"
  | .anamaintype => if first then "%s WHERE anamaintype = %d" else "%s AND anamaintype = %d"
  | .anasubtype => if first then "%s WHERE anasubtype = %d" else "%s AND anasubtype = %d"

theorem sprintf_s_condition (first : Bool) (col : FilterColumn) (z : Int32) {szSql : List Char}
    (h : szSql.length + 40 < 1024) :
    sprintf_s 1024 (conditionFormat first col) [.str szSql, .int32 z] =
      some (szSql ++ condition first (col, z)) := by
  have hfit : conversionsFit (conditionFormat first col).toList [.str szSql, .int32 z] = true := by
    rcases first <;> rcases col <;> rfl
  have htext : formatted (conditionFormat first col).toList [.str szSql, .int32 z] =
      szSql ++ (conditionText first col ++ (decimal z.toInt ++ [])) := by
    rcases first <;> rcases col <;> rfl
  have hle := length_condition_le first (col, z)
  rw [sprintf_s_eq_some, sprintf, if_pos hfit, htext, List.append_nil, List.length_append]
  exact ⟨rfl, Nat.lt_of_le_of_lt (Nat.add_le_add_left hle _) h⟩

/-- The conditions after one more selector. -/
def addCondition (selector : Int32) (col : FilterColumn) (andArg whereArg : Int32)
    (cs : Filter) : Filter :=
  if selector > 0 then cs ++ [(col, if cs.isEmpty then whereArg else andArg)] else cs

theorem length_addCondition_le (selector : Int32) (col : FilterColumn) (andArg whereArg : Int32)
    (cs : Filter) : (addCondition selector col andArg whereArg cs).length ≤ cs.length + 1 := by
  rw [addCondition]
  split
  · rw [List.length_append, List.length_singleton]
  · exact Nat.le_succ _

theorem mem_addCondition {selector : Int32} {col : FilterColumn} {andArg whereArg : Int32}
    {cs : Filter} {c : FilterColumn × Int32}
    (h : c ∈ addCondition selector col andArg whereArg cs) : c ∈ cs ∨ c.1 = col := by
  rw [addCondition] at h
  split at h
  · rcases List.mem_append.mp h with h | h
    · exact .inl h
    · exact .inr (congrArg Prod.fst (List.mem_singleton.mp h))
  · exact .inl h

/-- What the conditions say after one more selector. -/
theorem all_addCondition (selector : Int32) (col : FilterColumn) (andArg whereArg : Int32)
    (cs : Filter) (p : FilterColumn × Int32 → Bool) :
    (addCondition selector col andArg whereArg cs).all p =
      (cs.all p &&
        (!decide (selector > 0) || p (col, if cs.isEmpty then whereArg else andArg))) := by
  rw [addCondition]
  split <;> simp [*]

theorem firstFilter_eq {stmt : String} (h : stmt.toList.length + 40 < 1024) (selector : Int32)
    (col : FilterColumn) (format : String) (hformat : format = conditionFormat true col) :
    firstFilter selector format stmt.toList =
      some (filterText stmt (addCondition selector col selector selector []),
        !(addCondition selector col selector selector []).isEmpty) := by
  rw [firstFilter, addCondition, hformat]
  split
  · rw [sprintf_s_condition true col selector h]
    exact congrArg some (Prod.ext (List.append_nil _).symm rfl)
  · rfl

/-- The step of the conditions after the first one. -/
theorem appendFilter_eq {stmt : String} {cs : Filter}
    (h : stmt.toList.length + 40 * cs.length + 40 < 1024) (selector : Int32) (col : FilterColumn)
    (andFormat : String) (handFormat : andFormat = conditionFormat false col) (andArg : Int32)
    (whereFormat : String) (hwhereFormat : whereFormat = conditionFormat true col)
    (whereArg : Int32) :
    appendFilter selector andFormat andArg whereFormat whereArg (filterText stmt cs, !cs.isEmpty) =
      some (filterText stmt (addCondition selector col andArg whereArg cs),
        !(addCondition selector col andArg whereArg cs).isEmpty) := by
  have hlength := length_filterText_le stmt cs
  have hfits : (filterText stmt cs).length + 40 < 1024 := by omega
  rw [appendFilter, addCondition, handFormat, hwhereFormat]
  split
  · rw [filterText_append]
    rcases cs with _ | ⟨c, cs⟩
    · rw [if_neg nofun, sprintf_s_condition true col whereArg hfits]
      rfl
    · rw [if_pos (by rfl), sprintf_s_condition false col andArg hfits]
      rfl
  · rfl

/-- The conditions of `DelLinkInfo` and `GetLinkInfo`, which compare different columns with the
first selector. -/
def linkFilter (col : FilterColumn) (pInfo : LinkData) : Filter :=
  addCondition pInfo.nAnaChannel .anachannel pInfo.nAnaChannel pInfo.nAnaChannel
    (addCondition pInfo.id col pInfo.id pInfo.id [])

/-- The conditions of `GetRuleInfo`. -/
def ruleFilter (pInfo : LinkData) : Filter :=
  addCondition pInfo.nAnaSubType .anasubtype pInfo.nAnaSubType pInfo.nAnaSubType
    (addCondition pInfo.nAnaMainType .anamaintype pInfo.nAnaMainType pInfo.nAnaSubType
      (linkFilter .id pInfo))

theorem length_linkFilter_le (col : FilterColumn) (pInfo : LinkData) :
    (linkFilter col pInfo).length ≤ 2 :=
  (length_addCondition_le _ _ _ _ _).trans
    (Nat.add_le_add_right (length_addCondition_le _ _ _ _ _) 1)

/-- The conditions that the functions begin with. -/
theorem bind_linkFilter {α : Type} {stmt : String} (h : stmt.toList.length + 80 < 1024)
    (pInfo : LinkData) (col : FilterColumn) (format : String)
    (hformat : format = conditionFormat true col) (k : List Char × Bool → Option α) :
    (firstFilter pInfo.id format stmt.toList >>= fun st ↦
      appendFilter pInfo.nAnaChannel "%s AND anachannel = %d" pInfo.nAnaChannel
        "%s WHERE anachannel = %d" pInfo.nAnaChannel st >>= k) =
      k (filterText stmt (linkFilter col pInfo), !(linkFilter col pInfo).isEmpty) := by
  have hid := length_addCondition_le pInfo.id col pInfo.id pInfo.id []
  rw [List.length_nil] at hid
  rw [firstFilter_eq (by omega) _ col format hformat, Option.bind_eq_bind, Option.bind_some,
    appendFilter_eq (by omega) _ .anachannel "%s AND anachannel = %d" rfl _
      "%s WHERE anachannel = %d" rfl _, Option.bind_some, ← linkFilter]

theorem delLinkInfoSql_eq (pInfo : LinkData) :
    delLinkInfoSql pInfo =
      some (filterText "DELETE FROM \"table_channels\"" (linkFilter .anachannel pInfo)) := by
  have hstmt : sprintf_s 1024 "DELETE FROM \"%s\"" [.str TBCHAN] =
      some "DELETE FROM \"table_channels\"".toList := by decide
  have hfits : "DELETE FROM \"table_channels\"".toList.length = 28 := by decide
  rw [delLinkInfoSql, hstmt, Option.bind_eq_bind, Option.bind_some]
  exact bind_linkFilter (by omega) pInfo .anachannel "%s WHERE anachannel = %d" rfl _

theorem getLinkInfoSql_eq (pInfo : LinkData) :
    getLinkInfoSql pInfo =
      some (filterText "SELECT * FROM table_channels" (linkFilter .id pInfo)) := by
  have hstmt : sprintf_s 1024 "SELECT * FROM %s" [.str TBCHAN] =
      some "SELECT * FROM table_channels".toList := by decide
  have hfits : "SELECT * FROM table_channels".toList.length = 28 := by decide
  rw [getLinkInfoSql, hstmt, Option.bind_eq_bind, Option.bind_some]
  exact bind_linkFilter (by omega) pInfo .id "%s WHERE id = %d" rfl _

theorem getRuleInfoSql_eq (pInfo : LinkData) :
    getRuleInfoSql pInfo = some (filterText "SELECT * FROM table_rules" (ruleFilter pInfo)) := by
  have hstmt : sprintf_s 1024 "SELECT * FROM %s" [.str TBRULE] =
      some "SELECT * FROM table_rules".toList := by decide
  have hlink := length_linkFilter_le .id pInfo
  have hmain := length_addCondition_le pInfo.nAnaMainType .anamaintype pInfo.nAnaMainType
    pInfo.nAnaSubType (linkFilter .id pInfo)
  have hfits : "SELECT * FROM table_rules".toList.length = 25 := by decide
  rw [getRuleInfoSql, hstmt, Option.bind_eq_bind, Option.bind_some]
  rw [bind_linkFilter (by omega) pInfo .id "%s WHERE id = %d" rfl]
  rw [appendFilter_eq (by omega) _ .anamaintype "%s AND anamaintype = %d" rfl _
    "%s WHERE anamaintype = %d" rfl _, Option.bind_eq_bind, Option.bind_some]
  rw [appendFilter_eq (by omega) _ .anasubtype "%s AND anasubtype = %d" rfl _
    "%s WHERE anasubtype = %d" rfl _]
  rfl

end CodeToolKit.HwbrapSqlite
