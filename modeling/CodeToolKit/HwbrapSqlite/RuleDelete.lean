import CodeToolKit.HwbrapSqlite.RuleQuery

/-!
# Deletions of rules

`DelRuleInfo` has the conditions on `id` and `anachannel` that the queries have, and one on
both types of a rule, where both are positive.  It removes the rows that meet all of its
conditions (`delRuleInfo_eq`).
-/

namespace CodeToolKit.HwbrapSqlite

open CodeToolKit.SQL CodeToolKit.Lib

/-- `DelRuleInfo` on an open connection. -/
def delRuleInfo (db : Database) (pInfo : LinkData) : Option (Database × ℤ) :=
  delRuleInfoSql pInfo >>= sqliteExec db

/-! ## The text -/

/-- The condition on the types is there. -/
def hasTypes (pInfo : LinkData) : Bool := pInfo.nAnaMainType > 0 && pInfo.nAnaSubType > 0

/-- What stands in front of the main type. -/
def typesText (first : Bool) : String :=
  if first then " WHERE anamaintype=" else " AND anamaintype="

/-- The condition on the types. -/
def typesPieces (first : Bool) (pInfo : LinkData) : List Piece :=
  [lit (typesText first), num pInfo.nAnaMainType, lit " and anasubtype=", num pInfo.nAnaSubType]

/-- The statement. -/
def delRulePieces (pInfo : LinkData) : List Piece :=
  filterPieces "DELETE FROM \"table_rules\"" (linkFilter .id pInfo) ++
    if hasTypes pInfo then typesPieces (linkFilter .id pInfo).isEmpty pInfo else []

/-- The conditions of `DelRuleInfo`. -/
def delRuleFilter (pInfo : LinkData) : Filter :=
  linkFilter .id pInfo ++
    if hasTypes pInfo then
      [(.anamaintype, pInfo.nAnaMainType), (.anasubtype, pInfo.nAnaSubType)]
    else []

theorem length_typesPieces_le (first : Bool) (pInfo : LinkData) :
    (text (typesPieces first pInfo)).length ≤ 57 := by
  have hmain := length_decimal_le pInfo.nAnaMainType
  have hsub := length_decimal_le pInfo.nAnaSubType
  have hfirst : (typesText first).toList.length ≤ 19 := by cases first <;> decide
  have hand : " and anasubtype=".toList.length = 16 := by decide
  rw [typesPieces, text_cons, text_cons, text_cons, text_cons, List.length_append,
    List.length_append, List.length_append, List.length_append]
  show (typesText first).toList.length + ((decimal _).length + (" and anasubtype=".toList.length +
    ((decimal _).length + 0))) ≤ 57
  omega

/-- The format that appends the condition on the types. -/
def typesFormat (first : Bool) : String :=
  if first then "%s WHERE anamaintype=%d and anasubtype=%d"
  else "%s AND anamaintype=%d and anasubtype=%d"

theorem sprintf_s_types (first : Bool) (pInfo : LinkData) {szSql : List Char}
    (h : szSql.length + 57 < 1024) :
    sprintf_s 1024 (typesFormat first)
        [.str szSql, .int32 pInfo.nAnaMainType, .int32 pInfo.nAnaSubType] =
      some (szSql ++ text (typesPieces first pInfo)) := by
  have hfit : conversionsFit (typesFormat first).toList
      [.str szSql, .int32 pInfo.nAnaMainType, .int32 pInfo.nAnaSubType] = true := by
    cases first <;> rfl
  have htext : formatted (typesFormat first).toList
      [.str szSql, .int32 pInfo.nAnaMainType, .int32 pInfo.nAnaSubType] =
      szSql ++ text (typesPieces first pInfo) := by
    rw [text_eq_foldr]
    cases first <;> rfl
  have hle := length_typesPieces_le first pInfo
  rw [sprintf_s_eq_some, sprintf, if_pos hfit, htext, List.length_append]
  exact ⟨rfl, by omega⟩

theorem delRuleInfoSql_eq (pInfo : LinkData) :
    delRuleInfoSql pInfo = some (text (delRulePieces pInfo)) := by
  have hstmt : sprintf_s 1024 "DELETE FROM \"%s\"" [.str TBRULE] =
      some "DELETE FROM \"table_rules\"".toList := by decide
  have hfits : "DELETE FROM \"table_rules\"".toList.length = 25 := by decide
  have hlength := length_filterText_le "DELETE FROM \"table_rules\"" (linkFilter .id pInfo)
  have hfilter := length_linkFilter_le .id pInfo
  have htext := text_filterPieces "DELETE FROM \"table_rules\"" (linkFilter .id pInfo)
  rw [delRuleInfoSql, hstmt, Option.bind_eq_bind, Option.bind_some]
  refine (bind_linkFilter (by omega) pInfo .id "%s WHERE id = %d" rfl _).trans ?_
  rw [delRulePieces, text_append, htext]
  show (if hasTypes pInfo then _ else _) = _
  by_cases htypes : hasTypes pInfo
  · rw [if_pos htypes, if_pos htypes]
    have hsprintf := @sprintf_s_types (linkFilter .id pInfo).isEmpty pInfo
      (filterText "DELETE FROM \"table_rules\"" (linkFilter .id pInfo)) (by omega)
    rcases hempty : (linkFilter .id pInfo).isEmpty with _ | _
    · rw [hempty] at hsprintf
      exact hsprintf
    · rw [hempty] at hsprintf
      exact hsprintf
  · rw [if_neg htypes, if_neg htypes]
    exact congrArg some (List.append_nil _).symm

/-! ## The statement -/

theorem joins_append {ps qs : List Piece} (hps : joins ps) (hqs : joins qs)
    (h : ∀ p ∈ ps.getLast?, joins (p :: qs)) : joins (ps ++ qs) := by
  induction ps with
  | nil => exact hqs
  | cons p ps ih =>
      rcases ps with _ | ⟨p', ps⟩
      · exact h p rfl
      · rw [List.getLast?_cons_cons] at h
        have hrest := ih (joins_of_cons hps) h
        rw [joins, Bool.and_eq_true] at hps
        show joins (p :: p' :: (ps ++ qs))
        rw [joins, hps.1]
        exact hrest

/-- The last piece of a statement with conditions is a number, if there is a condition. -/
theorem getLast_filterPieces {stmt : String} {cs : Filter} {p : Piece}
    (h : p ∈ (filterPieces stmt cs).getLast?) : p = lit stmt ∨ ∃ z, p = .int z := by
  have hconditions : ∀ (z : ℤ) (cs : Filter),
      p ∈ (Piece.int z :: cs.flatMap (conditionPieces false)).getLast? → ∃ z', p = .int z' := by
    intro z cs hp
    induction cs generalizing z with
    | nil => exact ⟨z, (Option.some.inj hp).symm⟩
    | cons c cs ih =>
        rw [List.flatMap_cons, conditionPieces, List.cons_append, List.cons_append,
          List.nil_append, List.getLast?_cons_cons, List.getLast?_cons_cons] at hp
        exact ih _ hp
  rcases cs with _ | ⟨c, cs⟩
  · exact .inl (Option.some.inj h).symm
  · rw [filterPieces, conditionPieces, List.cons_append, List.cons_append, List.cons_append,
      List.nil_append, List.getLast?_cons_cons, List.getLast?_cons_cons] at h
    exact .inr (hconditions _ _ h)

theorem joins_delRule (pInfo : LinkData) : joins (delRulePieces pInfo) := by
  have hfilter : joins (filterPieces "DELETE FROM \"table_rules\"" (linkFilter .id pInfo)) :=
    joins_filterPieces (by decide) _
  rw [delRulePieces]
  split
  · refine joins_append hfilter ?_ ?_
    · cases (linkFilter .id pInfo).isEmpty <;> rfl
    · intro p hp
      rcases getLast_filterPieces hp with rfl | ⟨z, rfl⟩
      · cases (linkFilter .id pInfo).isEmpty <;> rfl
      · cases (linkFilter .id pInfo).isEmpty <;> rfl
  · rw [List.append_nil]
    exact hfilter

theorem forall_mem_delRule {r : LinkData} {P : Piece → Prop}
    (hfilter : ∀ p ∈ filterPieces "DELETE FROM \"table_rules\"" (linkFilter .id r), P p)
    (htypes : ∀ first, ∀ p ∈ typesPieces first r, P p) : ∀ p ∈ delRulePieces r, P p := by
  rw [delRulePieces]
  split
  · exact List.forall_mem_append.mpr ⟨hfilter, htypes _⟩
  · rw [List.append_nil]
    exact hfilter

/-- The condition on the types; its `and` is in small letters. -/
def typesItems (first : Bool) (pInfo : LinkData) : List Item :=
  [whereItem (if first then "WHERE" else "AND") (.anamaintype, pInfo.nAnaMainType),
    whereItem "and" (.anasubtype, pInfo.nAnaSubType)]

theorem reads_typesItems (first : Bool) (pInfo : LinkData) :
    ∀ i ∈ typesItems first pInfo, i.Reads := by
  rw [typesItems, List.forall_mem_cons, List.forall_mem_singleton]
  exact ⟨reads_whereItem _ _, reads_whereItem _ _⟩

/-- The tokens of the conditions of a deletion. -/
def delRuleTokens (pInfo : LinkData) : List Token :=
  filterTokens (linkFilter .id pInfo) ++
    if hasTypes pInfo then
      (typesItems (linkFilter .id pInfo).isEmpty pInfo).flatMap Item.tokens
    else []

/-- The conditions are read as those of the filter. -/
theorem conditions_delRule (pInfo : LinkData) :
    conditions (delRuleTokens pInfo) = some ((delRuleFilter pInfo).map equation) := by
  rw [delRuleTokens, delRuleFilter]
  split
  · have hreads := reads_typesItems (linkFilter .id pInfo).isEmpty pInfo
    rcases hcs : linkFilter .id pInfo with _ | ⟨c, cs⟩
    · rw [hcs] at hreads
      exact conditions_items hreads rfl (List.forall_mem_singleton.mpr rfl)
    · rw [hcs] at hreads
      rw [← tokens_whereItems, whereItems, ← List.flatMap_append, List.cons_append]
      refine (conditions_items ?_ rfl ?_).trans ?_
      · rw [← List.cons_append, List.forall_mem_append, List.forall_mem_cons, List.forall_mem_map]
        exact ⟨⟨reads_whereItem _ c, fun c' _ ↦ reads_whereItem _ c'⟩, hreads⟩
      · rw [List.forall_mem_append, List.forall_mem_map]
        refine ⟨fun _ _ ↦ rfl, ?_⟩
        show ∀ i ∈ typesItems false pInfo, _
        rw [typesItems, List.forall_mem_cons, List.forall_mem_singleton]
        exact ⟨rfl, rfl⟩
      · rw [List.map_cons, List.map_append, List.map_map, List.cons_append, List.map_cons,
          List.map_append]
        rfl
  · rw [List.append_nil, List.append_nil]
    exact conditions_filter _

theorem lex_delRule (pInfo : LinkData) :
    lex (text (delRulePieces pInfo)) = tokens (delRulePieces pInfo) := by
  refine lex_text (joins_delRule pInfo) (forall_mem_delRule (safe_filterPieces _ _) ?_)
  intro first
  simp [typesPieces, lit, num, Piece.Safe]

theorem unsigned_delRule (pInfo : LinkData) : ∀ p ∈ delRulePieces pInfo, p.unsigned := by
  refine forall_mem_delRule (unsigned_filterPieces (by decide) _) fun first ↦ ?_
  cases first <;> exact List.all_eq_true.mp rfl

theorem signed_delRule (pInfo : LinkData) :
    (delRulePieces pInfo).flatMap Piece.signed =
      .word "DELETE".toList :: .word "FROM".toList :: .quoted '"' TBRULE ::
        delRuleTokens pInfo := by
  have hstmt : lex "DELETE FROM \"table_rules\"".toList =
      [.word "DELETE".toList, .word "FROM".toList, .quoted '"' TBRULE] := by decide
  have htypes : ∀ first, (typesPieces first pInfo).flatMap Piece.signed =
      (typesItems first pInfo).flatMap Item.tokens := by
    intro first
    simp only [typesItems, whereItem, List.flatMap_cons, List.flatMap_nil, Item.tokens,
      Item.equationTokens, List.cons_append, List.nil_append]
    cases first <;> rfl
  rw [delRulePieces, List.flatMap_append, signed_filterPieces, hstmt, delRuleTokens]
  split
  · rw [htypes]
    rfl
  · rfl

/-- **The deletion has the conditions of its filter.** -/
theorem parse_delRuleInfo (pInfo : LinkData) :
    (delRuleInfoSql pInfo >>= parse) =
      some (.delete TBRULE ((delRuleFilter pInfo).map equation)) := by
  rw [delRuleInfoSql_eq, Option.bind_eq_bind, Option.bind_some, parse, lex_delRule,
    joinSign_tokens (unsigned_delRule pInfo), signed_delRule]
  exact deleteStatement_eq (by decide) (by decide) (conditions_delRule pInfo)

/-- The rows that meet the conditions of a deletion. -/
def isDeleted (t : Table) (pInfo : LinkData) (r : Row) : Bool :=
  (delRuleFilter pInfo).all fun c ↦ columnTest t rulePlace c r

/-- **`DelRuleInfo` removes the rows that meet its conditions.** -/
theorem delRuleInfo_eq {db : Database} {t : Table} (ht : db TBRULE = some t)
    (h : HasColumns t ruleColumns) (pInfo : LinkData) :
    delRuleInfo db pInfo =
      some (Function.update db TBRULE (some (t.filter fun r ↦ !isDeleted t pInfo r)), 0) :=
  bind_sqliteExec (parse_delRuleInfo pInfo)
    (exec_delete ht (test_filter fun c _ ↦ find_rule h c.1))

end CodeToolKit.HwbrapSqlite
