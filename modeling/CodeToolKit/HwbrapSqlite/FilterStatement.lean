import CodeToolKit.HwbrapSqlite.Filter

/-!
# Queries and deletions as statements

The text of a filter is read as the statement with its conditions (`conditions_filter`), and in a
table with the columns of the filter the conditions test a row for the numbers of the filter
(`test_filter`).
-/

namespace CodeToolKit.HwbrapSqlite

open CodeToolKit.SQL CodeToolKit.Lib

/-! ## Pieces -/

/-- The pieces of a condition. -/
def conditionPieces (first : Bool) (c : FilterColumn × Int32) : List Piece :=
  [.lit (conditionText first c.1), .int c.2.toInt]

/-- The pieces of a statement with its conditions. -/
def filterPieces (stmt : String) : Filter → List Piece
  | [] => [lit stmt]
  | c :: cs => lit stmt :: conditionPieces true c ++ cs.flatMap (conditionPieces false)

theorem text_conditionPieces (first : Bool) (c : FilterColumn × Int32) :
    text (conditionPieces first c) = condition first c := by
  rw [conditionPieces, text_cons, text_cons]
  exact congrArg (_ ++ ·) (List.append_nil _)

theorem text_filterPieces (stmt : String) (cs : Filter) :
    text (filterPieces stmt cs) = filterText stmt cs := by
  have htail : ∀ cs : Filter, text (cs.flatMap (conditionPieces false)) =
      cs.flatMap (condition false) := by
    intro cs
    induction cs with
    | nil => rfl
    | cons c cs ih =>
        rw [List.flatMap_cons, text_append, text_conditionPieces, ih, List.flatMap_cons]
  rcases cs with _ | ⟨c, cs⟩
  · exact List.append_nil _
  · rw [filterPieces, text_append, text_cons, text_conditionPieces, htail]
    rfl

theorem joins_condition (first : Bool) (col : FilterColumn) (z : ℤ) {ps : List Piece}
    (h : joins (.int z :: ps)) : joins (.lit (conditionText first col) :: .int z :: ps) := by
  have hbreaks : (!(Piece.int z).firsts.isEmpty &&
      (Piece.int z).firsts.all (Piece.lit (conditionText first col)).breaks) = true := by
    rcases first <;> rcases col <;> rfl
  rw [joins, hbreaks, h]
  rfl

theorem joins_conditions (z : ℤ) (cs : Filter) :
    joins (.int z :: cs.flatMap (conditionPieces false)) := by
  induction cs generalizing z with
  | nil => rfl
  | cons c cs ih =>
      have hbreaks : (!(Piece.lit (conditionText false c.1)).firsts.isEmpty &&
          (Piece.lit (conditionText false c.1)).firsts.all (Piece.int z).breaks) = true := by
        rcases c.1 <;> rfl
      rw [List.flatMap_cons, conditionPieces, List.cons_append, List.cons_append, List.nil_append,
        joins, hbreaks, joins_condition false c.1 c.2.toInt (ih c.2.toInt)]
      rfl

theorem joins_filterPieces {stmt : String} (h : (scan .between stmt.toList).2.breaks ' ')
    (cs : Filter) : joins (filterPieces stmt cs) := by
  rcases cs with _ | ⟨c, cs⟩
  · rfl
  · have hbreaks : (!(Piece.lit (conditionText true c.1)).firsts.isEmpty &&
        (Piece.lit (conditionText true c.1)).firsts.all (lit stmt).breaks) = true := by
      have hfirst : (Piece.lit (conditionText true c.1)).firsts = [' '] := by
        rcases c.1 <;> rfl
      rw [hfirst]
      show (true && ((scan .between stmt.toList).2.breaks ' ' && true)) = true
      rw [h]
      rfl
    rw [filterPieces, conditionPieces, List.cons_append, List.cons_append, List.cons_append,
      List.nil_append, joins, hbreaks,
      joins_condition true c.1 c.2.toInt (joins_conditions c.2.toInt cs)]
    rfl

theorem forall_mem_filterPieces {P : Piece → Prop} {stmt : String} (hstmt : P (lit stmt))
    (h : ∀ first c, ∀ p ∈ conditionPieces first c, P p) (cs : Filter) :
    ∀ p ∈ filterPieces stmt cs, P p := by
  intro p hp
  rcases cs with _ | ⟨c, cs⟩
  · rw [List.mem_singleton.mp hp]
    exact hstmt
  · rcases List.mem_cons.mp hp with rfl | hp
    · exact hstmt
    · rcases List.mem_append.mp hp with hp | hp
      · exact h true c p hp
      · rcases List.mem_flatMap.mp hp with ⟨c', -, hp⟩
        exact h false c' p hp

theorem safe_filterPieces (stmt : String) (cs : Filter) : ∀ p ∈ filterPieces stmt cs, p.Safe := by
  refine forall_mem_filterPieces trivial ?_ cs
  intro first c p hp
  simp only [conditionPieces, List.mem_cons, List.not_mem_nil, or_false] at hp
  rcases hp with rfl | rfl <;> trivial

/-! ## Tokens -/

/-- The tokens of a condition, with the sign of its number. -/
def conditionTokens (first : Bool) (c : FilterColumn × Int32) : List Token :=
  [.word (if first then "WHERE" else "AND").toList, .word c.1.name.toList, .op ['='],
    .number (decimal c.2.toInt)]

/-- The tokens of conditions. -/
def filterTokens : Filter → List Token
  | [] => []
  | c :: cs => conditionTokens true c ++ cs.flatMap (conditionTokens false)

theorem unsigned_filterPieces {stmt : String} (hstmt : (lit stmt).unsigned) (cs : Filter) :
    ∀ p ∈ filterPieces stmt cs, p.unsigned := by
  have hcondition : ∀ first c, ∀ p ∈ conditionPieces first c, p.unsigned := by
    intro first c p hp
    simp only [conditionPieces, List.mem_cons, List.not_mem_nil, or_false] at hp
    rcases hp with rfl | rfl
    · rcases first <;> rcases c.1 <;> decide
    · rfl
  exact forall_mem_filterPieces hstmt hcondition cs

theorem signed_condition (first : Bool) (c : FilterColumn × Int32) :
    (conditionPieces first c).flatMap Piece.signed = conditionTokens first c := by
  have hlex : lex (conditionText first c.1) =
      [.word (if first then "WHERE" else "AND").toList, .word c.1.name.toList, .op ['=']] := by
    rcases first <;> rcases c.1 <;> rfl
  rw [conditionPieces, List.flatMap_cons, Piece.signed, hlex]
  rfl

theorem signed_filterPieces (stmt : String) (cs : Filter) :
    (filterPieces stmt cs).flatMap Piece.signed = lex stmt.toList ++ filterTokens cs := by
  rcases cs with _ | ⟨c, cs⟩
  · rfl
  · rw [filterPieces, List.flatMap_append, List.flatMap_cons, signed_condition, List.flatMap_assoc,
      List.append_assoc, filterTokens]
    simp only [signed_condition]
    rfl

/-! ## Statements -/

/-- A condition as it is read. -/
def equation (c : FilterColumn × Int32) : Equation := (c.1.name.toList, .number (decimal c.2.toInt))

theorem columnName_filter (col : FilterColumn) :
    columnName (.word col.name.toList) = some col.name.toList := by
  rcases col <;> decide

/-- A condition with the token in front of it. -/
def whereItem (keyword : String) (c : FilterColumn × Int32) : Item :=
  ⟨.word keyword.toList, c.1.name.toList, .number (decimal c.2.toInt),
    .number (decimal c.2.toInt)⟩

/-- The conditions with the tokens in front of them. -/
def whereItems : Filter → List Item
  | [] => []
  | c :: cs => whereItem "WHERE" c :: cs.map (whereItem "AND")

theorem tokens_whereItems (cs : Filter) :
    (whereItems cs).flatMap Item.tokens = filterTokens cs := by
  rcases cs with _ | ⟨c, cs⟩
  · rfl
  · rw [whereItems, List.flatMap_cons, List.flatMap_map]
    rfl

theorem reads_whereItem (keyword : String) (c : FilterColumn × Int32) :
    (whereItem keyword c).Reads :=
  ⟨columnName_filter c.1, rfl⟩

theorem conditions_filter (cs : Filter) :
    conditions (filterTokens cs) = some (cs.map equation) := by
  rcases cs with _ | ⟨c, cs⟩
  · rfl
  · rw [← tokens_whereItems, whereItems]
    refine (conditions_items ?_ rfl ?_).trans ?_
    · rw [List.forall_mem_cons, List.forall_mem_map]
      exact ⟨reads_whereItem _ c, fun c' _ ↦ reads_whereItem _ c'⟩
    · rw [List.forall_mem_map]
      exact fun _ _ ↦ rfl
    · rw [List.map_cons, List.map_map]
      rfl

/-- **The text of a filter is read as the statement with its conditions.** -/
theorem parse_filterText {stmt : String} (hbreaks : (scan .between stmt.toList).2.breaks ' ')
    (hsign : (lit stmt).unsigned) (cs : Filter) :
    parse (filterText stmt cs) = statement (lex stmt.toList ++ filterTokens cs) := by
  have hlex : lex (filterText stmt cs) = tokens (filterPieces stmt cs) := by
    rw [← text_filterPieces]
    exact lex_text (joins_filterPieces hbreaks cs) (safe_filterPieces stmt cs)
  rw [parse, hlex, joinSign_tokens (unsigned_filterPieces hsign cs), signed_filterPieces]

theorem parse_delete (cs : Filter) :
    parse (filterText "DELETE FROM \"table_channels\"" cs) =
      some (.delete TBCHAN (cs.map equation)) := by
  have hlex : lex "DELETE FROM \"table_channels\"".toList =
      [.word "DELETE".toList, .word "FROM".toList, .quoted '"' TBCHAN] := by decide
  rw [parse_filterText (by decide) (by decide), hlex]
  exact deleteStatement_eq (by decide) (by decide) (conditions_filter cs)

theorem parse_selectChannels (cs : Filter) :
    parse (filterText "SELECT * FROM table_channels" cs) =
      some (.select TBCHAN (cs.map equation)) := by
  have hlex : lex "SELECT * FROM table_channels".toList =
      [.word "SELECT".toList, .op ['*'], .word "FROM".toList, .word TBCHAN] := by decide
  rw [parse_filterText (by decide) (by decide), hlex]
  exact selectStatement_eq (by decide) (by decide) (conditions_filter cs)

theorem parse_selectRules (cs : Filter) :
    parse (filterText "SELECT * FROM table_rules" cs) =
      some (.select TBRULE (cs.map equation)) := by
  have hlex : lex "SELECT * FROM table_rules".toList =
      [.word "SELECT".toList, .op ['*'], .word "FROM".toList, .word TBRULE] := by decide
  rw [parse_filterText (by decide) (by decide), hlex]
  exact selectStatement_eq (by decide) (by decide) (conditions_filter cs)

/-! ## Tests -/

/-- The value of a row in the column of a condition. -/
def columnTest (t : Table) (place : FilterColumn → Option ℕ) (c : FilterColumn × Int32)
    (r : Row) : Bool := t.meets (place c.1) c.2.toInt r

/-- In a table with the columns of the filter its conditions test the rows. -/
theorem test_filter {t : Table} {place : FilterColumn → Option ℕ} {cs : Filter}
    (h : ∀ c ∈ cs, t.find c.1.name.toList = .ok (place c.1)) :
    t.test (cs.map equation) = .ok fun r ↦ cs.all fun c ↦ columnTest t place c r := by
  induction cs with
  | nil => rfl
  | cons c cs ih =>
      have hc := h c List.mem_cons_self
      have hz : integer (decimal c.2.toInt) = .ok c.2.toInt := by
        have hlo := c.2.le_toInt
        have hhi := c.2.toInt_lt
        exact integer_decimal (by omega)
      rw [List.map_cons, equation, Table.test, hc, hz,
        ih fun c' hc' ↦ h c' (List.mem_cons_of_mem _ hc')]
      rfl

end CodeToolKit.HwbrapSqlite
