import CodeToolKit.HwbrapSqlite.Pieces
import CodeToolKit.HwbrapSqlite.RuleQuery

/-!
# Adding a rule

`AddRuleInfo` sends the twenty values of a rule to `table_channels`, which has twelve columns.
The statement is an error: nothing is stored (`addRuleInfo_eq`), so the rule can be read
afterwards only if it was there before (`roundTrips_iff`).
-/

namespace CodeToolKit.HwbrapSqlite

open CodeToolKit.SQL CodeToolKit.Lib

/-- `AddRuleInfo` on an open connection: the database after it.  The id that it returns is that of
the last insertion that was done. -/
def addRuleInfo (db : Database) (pChan : LinkData) : Option Database :=
  (addRuleInfoSql pChan >>= sqliteExec db).map Prod.fst

/-! ## The statement -/

/-- The values of the statement. -/
def addRuleValues (r : LinkData) : List Token :=
  [.word "NULL".toList, .number (decimal r.nAnaChannel.toInt),
    .number (decimal r.nAnaMainType.toInt), .number (decimal r.nAnaSubType.toInt),
    .number (decimal r.nLineNum.toInt)] ++ r.ruleStrings.map fun s ↦ .quoted '"' s.chars

/-- The values as they are read. -/
def addRuleLiterals (r : LinkData) : List Literal :=
  [.null, .number (decimal r.nAnaChannel.toInt), .number (decimal r.nAnaMainType.toInt),
    .number (decimal r.nAnaSubType.toInt), .number (decimal r.nLineNum.toInt)] ++
    r.ruleStrings.map fun s ↦ .string s.chars

set_option maxRecDepth 1000 in
theorem signed_addRule (r : LinkData) :
    (addRulePieces r).flatMap Piece.signed =
      .word "INSERT".toList :: .word "INTO".toList :: .quoted '"' TBCHAN ::
        .word "VALUES".toList :: .op ['('] :: listed (addRuleValues r) := rfl

theorem unsigned_addRule (r : LinkData) : ∀ p ∈ addRulePieces r, p.unsigned :=
  List.all_eq_true.mp rfl

theorem mapM_addRuleValues (r : LinkData) :
    (addRuleValues r).mapM insertLiteral = some (addRuleLiterals r) := rfl

/-- Without double quotes in its strings the statement is an insertion into the channel table. -/
theorem parse_addRuleInfo {r : LinkData} (h : ∀ s ∈ r.ruleStrings, '"' ∉ s.chars) :
    parse (text (addRulePieces r)) = some (.insert TBCHAN (addRuleLiterals r)) := by
  have hplain : ∀ p ∈ addRulePieces r, p.Plain := by
    simp [addRulePieces, fields, LinkData.ruleStrings, lit, num, field, Piece.Plain]
  have hlex : lex (text (addRulePieces r)) = tokens (addRulePieces r) := by
    have hdata : data (addRulePieces r) = r.ruleStrings.map CharArray.chars := rfl
    rw [lex_text_iff (q := '"') rfl (joins_addRule r) (tight_addRule r) hplain, hdata,
      List.forall_mem_map]
    exact h
  rw [parse, hlex, joinSign_tokens (unsigned_addRule r), signed_addRule]
  exact insertStatement_eq (by decide) (by decide) (by decide) (List.cons_ne_nil _ _)
    (mapM_addRuleValues r)

/-- **`AddRuleInfo` stores nothing.** -/
theorem addRuleInfo_eq {db : Database} {r : LinkData} {szSql : List Char} (hdb : Created db)
    (hquotes : ∀ s ∈ r.ruleStrings, '"' ∉ s.chars) (hsql : addRuleInfoSql r = some szSql) :
    addRuleInfo db r = some db := by
  rcases hdb.channels with ⟨t, ht, hcolumns⟩
  have hparse : (addRuleInfoSql r >>= parse) = some (.insert TBCHAN (addRuleLiterals r)) := by
    rw [addRuleInfoSql_eq, composed_eq_some] at hsql
    rw [addRuleInfoSql_eq, composed_eq_some.mpr ⟨rfl, hsql.2⟩]
    exact parse_addRuleInfo hquotes
  have hexec : exec db (.insert TBCHAN (addRuleLiterals r)) = .error .error := by
    have hcol : t.columns.length = 11 := by rw [hcolumns.columns]; rfl
    have hlength : (addRuleLiterals r).length = 20 := rfl
    have hinsert : execInsert t (addRuleLiterals r) = .error .error := if_pos (by omega)
    rw [exec, Database.table, ht]
    show (execInsert t (addRuleLiterals r) >>= _) = _
    rw [hinsert]
    rfl
  rw [addRuleInfo, bind_sqliteExec_error hparse hexec]
  rfl

/-! ## Reading the rule back -/

/-- The record of the query by the keys of a rule. -/
def ruleKey (r : LinkData) : LinkData :=
  { LinkData.zero with
    nAnaChannel := r.nAnaChannel, nAnaMainType := r.nAnaMainType, nAnaSubType := r.nAnaSubType }

/-- The records have the same rule. -/
structure SameRule (r r' : LinkData) : Prop where
  nAnaChannel : r.nAnaChannel = r'.nAnaChannel
  nAnaMainType : r.nAnaMainType = r'.nAnaMainType
  nAnaSubType : r.nAnaSubType = r'.nAnaSubType
  nLineNum : r.nLineNum = r'.nLineNum
  szBZSLineType : r.szBZSLineType = r'.szBZSLineType
  szBZSLineType_2 : r.szBZSLineType_2 = r'.szBZSLineType_2
  szAlarmDirect : r.szAlarmDirect = r'.szAlarmDirect
  nHLimit : r.nHLimit = r'.nHLimit

/-- The rule can be read after it was added, and the channel table is as before. -/
def RoundTrips (db : Database) (r : LinkData) : Prop :=
  ∃ db' rs r', addRuleInfo db r = some db' ∧ getRuleInfo db' (ruleKey r) = some rs ∧ r' ∈ rs ∧
    SameRule r' r ∧ db' TBCHAN = db TBCHAN

/-- The row has the keys of the rule. -/
def hasKeys (r : LinkData) (row : Row) : Bool :=
  row.cells[0]? = some (.int r.nAnaChannel.toInt) &&
    row.cells[1]? = some (.int r.nAnaMainType.toInt) &&
    row.cells[2]? = some (.int r.nAnaSubType.toInt)

/-- The rule is in the table already, and the other rows with its keys can be read, too. -/
def IsStored (t : Table) (r : LinkData) : Prop :=
  (∀ row ∈ t.rows, hasKeys r row → (ruleOf (cellOf row)).isSome) ∧
    ∃ row ∈ t.rows, hasKeys r row ∧ ∃ r', ruleOf (cellOf row) = some r' ∧ SameRule r' r

theorem isSelected_ruleKey {t : Table} (h : HasColumns t ruleColumns) {r : LinkData}
    (hchannel : r.nAnaChannel > 0) (hmain : r.nAnaMainType > 0) (hsub : r.nAnaSubType > 0)
    (row : Row) : isSelected t (ruleKey r) row = hasKeys r row := by
  have hid : ¬(ruleKey r).id > 0 := (by decide : ¬(0 : Int32) > 0)
  have hfilter : ruleFilter (ruleKey r) = [(.anachannel, r.nAnaChannel),
      (.anamaintype, r.nAnaMainType), (.anasubtype, r.nAnaSubType)] := by
    rw [ruleFilter, linkFilter, addCondition, addCondition, addCondition, addCondition,
      if_pos (show (ruleKey r).nAnaSubType > 0 from hsub),
      if_pos (show (ruleKey r).nAnaMainType > 0 from hmain),
      if_pos (show (ruleKey r).nAnaChannel > 0 from hchannel), if_neg hid]
    rfl
  have hmeets : ∀ i name z, ruleColumns[i]? = some (intColumn name) →
      t.meets (some i) z row = decide (row.cells[i]? = some (.int z)) :=
    fun i name z hi ↦ Table.meets_int (c := intColumn name) (by rw [h.columns, hi]) rfl z row
  rw [isSelected, hfilter, List.all_cons, List.all_cons, List.all_cons, List.all_nil, columnTest,
    columnTest, columnTest, rulePlace, rulePlace, rulePlace, hmeets 0 "anachannel" _ rfl,
    hmeets 1 "anamaintype" _ rfl, hmeets 2 "anasubtype" _ rfl, Bool.and_true, hasKeys,
    Bool.and_assoc]

/-- **A rule that is added can be read exactly if it was there before.** -/
theorem roundTrips_iff {db : Database} {t : Table} {r : LinkData} {szSql : List Char}
    (hdb : Created db) (ht : db TBRULE = some t) (hquotes : r.QuoteFree)
    (hsql : addRuleInfoSql r = some szSql) (hchannel : r.nAnaChannel > 0)
    (hmain : r.nAnaMainType > 0) (hsub : r.nAnaSubType > 0) :
    RoundTrips db r ↔ IsStored t r := by
  have hadd : addRuleInfo db r = some db := addRuleInfo_eq hdb (hquotes.not_mem rfl) hsql
  have hcolumns : HasColumns t ruleColumns := by
    rcases hdb.rules with ⟨t', ht', h⟩
    rw [ht] at ht'
    rw [Option.some.inj ht']
    exact h
  have hget : getRuleInfo db (ruleKey r) =
      (t.rows.filter (hasKeys r)).mapM fun row ↦ ruleOf (cellOf row) := by
    rw [getRuleInfo_eq ht hcolumns, List.filter_congr fun row _ ↦
      isSelected_ruleKey hcolumns hchannel hmain hsub row]
  constructor
  · rintro ⟨db', rs, r', hadd', hrs, hr', hsame, -⟩
    rw [hadd] at hadd'
    rw [← Option.some.inj hadd', hget] at hrs
    constructor
    · intro row hrow hkeys
      exact exists_mapM_iff.mp ⟨rs, hrs⟩ row (List.mem_filter.mpr ⟨hrow, hkeys⟩)
    · rcases (mem_of_mapM hrs).mp hr' with ⟨row, hrow, hread⟩
      rcases List.mem_filter.mp hrow with ⟨hrow, hkeys⟩
      exact ⟨row, hrow, hkeys, r', hread, hsame⟩
  · rintro ⟨hreads, row, hrow, hkeys, r', hread, hsame⟩
    have hreads' : ∀ row ∈ t.rows.filter (hasKeys r), (ruleOf (cellOf row)).isSome := by
      intro row hrow
      rcases List.mem_filter.mp hrow with ⟨hrow, hkeys⟩
      exact hreads row hrow hkeys
    rcases exists_mapM_iff.mpr hreads' with ⟨rs, hrs⟩
    refine ⟨db, rs, r', hadd, hget.trans hrs, ?_, hsame, rfl⟩
    exact (mem_of_mapM hrs).mpr ⟨row, List.mem_filter.mpr ⟨hrow, hkeys⟩, hread⟩

/-- A rule with empty strings. -/
def testRule : LinkData :=
  { LinkData.zero with nAnaChannel := 1, nAnaMainType := 2, nAnaSubType := 3, nLineNum := 1 }

theorem addRuleInfoSql_testRule : addRuleInfoSql testRule = some (text (addRulePieces testRule)) :=
  (addRuleInfoSql_eq _).trans (composed_eq_some.mpr ⟨rfl, by decide +kernel⟩)

theorem quoteFree_testRule : testRule.QuoteFree := by
  intro s hs c hc
  have hnil : ∀ s ∈ testRule.linkStrings ++ testRule.ruleStrings.map CharArray.chars, s = [] := by
    decide
  rw [hnil s hs] at hc
  exact nomatch hc

/-- A database with the tables of `CreateTable` and these rules. -/
def ruleDatabase (t : Table) : Database := fun name ↦
  if name = TBCHAN then some (.empty "id".toList channelColumns)
  else if name = TBRULE then some t
  else none

theorem created_ruleDatabase {t : Table} (h : HasColumns t ruleColumns) :
    Created (ruleDatabase t) :=
  ⟨⟨_, if_pos rfl, rfl, rfl⟩, t, (if_neg (by decide)).trans (if_pos rfl), h⟩

/-- The table with the rule, as `SetRuleInfo` stores it. -/
def storedRule : Table :=
  (Table.empty "id".toList ruleColumns).push
    ([.int 1, .int 2, .int 3, .int 1] ++ List.replicate 15 (.text []) ++ [.int 0]) rfl

theorem strings_ext {f g : Fin 5 → CharArray 256} (h : ∀ i, (f i).chars = (g i).chars) : f = g :=
  funext fun i ↦ CharArray.ext (h i)

/-- A rule that was stored before. -/
theorem roundTrips_storedRule : RoundTrips (ruleDatabase storedRule) testRule :=
  (roundTrips_iff (created_ruleDatabase ⟨rfl, rfl⟩) rfl quoteFree_testRule
    addRuleInfoSql_testRule (by decide) (by decide) (by decide)).mpr
    ⟨by decide, _, List.mem_singleton_self _, by decide, _, rfl, rfl, rfl, rfl, rfl,
      strings_ext (by decide), strings_ext (by decide), strings_ext (by decide), rfl⟩

/-- Not for the tables as `CreateTable` makes them. -/
theorem not_roundTrips : ¬∀ (db : Database) (r : LinkData) (szSql : List Char), Created db →
    r.QuoteFree → addRuleInfoSql r = some szSql → r.nAnaChannel > 0 → r.nAnaMainType > 0 →
      r.nAnaSubType > 0 → RoundTrips db r := by
  intro h
  rcases h (ruleDatabase (.empty "id".toList ruleColumns)) testRule _
    (created_ruleDatabase ⟨rfl, rfl⟩) quoteFree_testRule addRuleInfoSql_testRule (by decide)
    (by decide) (by decide) with ⟨db', rs, r', hadd, hrs, hr', -, -⟩
  rw [addRuleInfo_eq (created_ruleDatabase ⟨rfl, rfl⟩) (quoteFree_testRule.not_mem rfl)
    addRuleInfoSql_testRule] at hadd
  rw [← Option.some.inj hadd, getRuleInfo_eq rfl ⟨rfl, rfl⟩] at hrs
  rw [← Option.some.inj (hrs : some [] = some rs)] at hr'
  exact nomatch hr'

end CodeToolKit.HwbrapSqlite
