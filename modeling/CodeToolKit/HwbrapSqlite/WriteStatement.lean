import CodeToolKit.HwbrapSqlite.FilterStatement
import CodeToolKit.HwbrapSqlite.Quoting
import CodeToolKit.HwbrapSqlite.ZenoSQL
import CodeToolKit.SQL.Kinds

/-!
# The writing statements

How the insertions and updates of quote-free records are read: the data of the record at the
columns that the statement names.
-/

namespace CodeToolKit.HwbrapSqlite

open CodeToolKit.SQL CodeToolKit.Lib

/-- A 32-bit integer as data. -/
def int32 (z : Int32) : Datum :=
  .int z.toInt (by
    have hlo := z.le_toInt
    have hhi := z.toInt_lt
    omega)

/-- A string as data. -/
def string {n : ℕ} (s : CharArray n) : Datum := .text s.chars

namespace LinkData

theorem QuoteFree.links {r : LinkData} (h : r.QuoteFree) {q : Char} (hq : isQuote q) :
    ∀ s ∈ r.linkStrings, q ∉ s := fun s hs hmem ↦ h s (List.mem_append_left _ hs) q hmem hq

end LinkData

/-- A statement that fits, with its text as it is parsed. -/
theorem bind_parse {sql : Option (List Char)} {ps : List Piece} {stmt : Statement}
    (hsql : sql = composed ps) (hsome : sql.isSome) (hparse : parse (text ps) = some stmt) :
    (sql >>= parse) = some stmt := by
  obtain ⟨szSql, hszSql⟩ := Option.isSome_iff_exists.mp hsome
  rw [hsql] at hszSql
  rw [hsql, hszSql, Option.bind_eq_bind, Option.bind_some, ← (composed_eq_some.mp hszSql).1,
    hparse]

/-- What comes of a statement that was sent and is done. -/
theorem sent_ok {sql : Option (List Char)} {ps : List Piece} {stmt : Statement}
    {db db₁ db' : Database} {lRet : ℤ} (hsql : sql = composed ps)
    (hparse : parse (text ps) = some stmt) (hexec : exec db stmt = .ok db₁)
    (h : (sql >>= sqliteExec db) = some (db', lRet)) : lRet = 0 ∧ db' = db₁ := by
  have hsome : sql.isSome := Option.isSome_of_mem (Option.bind_eq_some_iff.mp h).choose_spec.1
  rw [bind_sqliteExec (bind_parse hsql hsome hparse) hexec] at h
  cases h
  exact ⟨rfl, rfl⟩

/-- What comes of a statement that was sent and is an error. -/
theorem sent_error {sql : Option (List Char)} {ps : List Piece} {stmt : Statement}
    {db db' : Database} {lRet : ℤ} (hsql : sql = composed ps)
    (hparse : parse (text ps) = some stmt) (hexec : exec db stmt = .error .error)
    (h : (sql >>= sqliteExec db) = some (db', lRet)) : lRet = -1 ∧ db' = db := by
  have hsome : sql.isSome := Option.isSome_of_mem (Option.bind_eq_some_iff.mp h).choose_spec.1
  rw [bind_sqliteExec_error (bind_parse hsql hsome hparse) hexec] at h
  cases h
  exact ⟨rfl, rfl⟩

/-! ## Insertions -/

/-- The values of a linkage record after its id. -/
def linkData (r : LinkData) : List Datum :=
  [int32 r.nAnaChannel, string r.szDevName, string r.szDevIP, int32 r.nDevPort, int32 r.nDevChan,
    string r.szDevManu, string r.szLoginUser, string r.szLoginPass, int32 r.nPtziPos,
    int32 r.nPtztPos, int32 r.nHLimit]

/-- The values of a rule after its id, as `SetRuleInfo` stores it. -/
def ruleData (nChanId : Int32) (r : LinkData) : List Datum :=
  [int32 nChanId, int32 r.nAnaMainType, int32 r.nAnaSubType, int32 r.nLineNum] ++
    r.ruleStrings.map string ++ [int32 r.nHLimit]

/-- The tokens of the values of an insertion. -/
def valueTokens (delim : Char) (ds : List Datum) : List Token :=
  .word "NULL".toList :: ds.map (Datum.token delim)

theorem mapM_valueTokens {delim : Char} (h : delim = '\'' ∨ delim = '"') (ds : List Datum) :
    (valueTokens delim ds).mapM insertLiteral = some (.null :: ds.map Datum.literal) := by
  refine mapM_eq_some_iff.mpr ?_
  rw [valueTokens, List.map_cons, List.map_cons, List.map_map, List.map_map]
  refine congrArg (_ :: ·) (List.map_congr_left fun d _ ↦ ?_)
  exact Datum.insertLiteral_token h d

set_option maxRecDepth 1000 in
theorem signed_insertLink (r : LinkData) :
    (insertLinkPieces r).flatMap Piece.signed =
      .word "INSERT".toList :: .word "INTO".toList :: .quoted '"' TBCHAN ::
        .word "VALUES".toList :: .op ['('] :: listed (valueTokens '"' (linkData r)) := rfl

theorem unsigned_insertLink (r : LinkData) : ∀ p ∈ insertLinkPieces r, p.unsigned :=
  List.all_eq_true.mp rfl

/-- The insertion of a linkage record. -/
theorem parse_insertLink {r : LinkData} (h : ∀ s ∈ r.linkStrings, '"' ∉ s) :
    parse (text (insertLinkPieces r)) =
      some (.insert TBCHAN (.null :: (linkData r).map Datum.literal)) := by
  rw [parse, (lex_insertLink_iff r).mpr h, joinSign_tokens (unsigned_insertLink r),
    signed_insertLink]
  exact insertStatement_eq (by decide) (by decide) (by decide) (List.cons_ne_nil _ _)
    (mapM_valueTokens (.inr rfl) (linkData r))

set_option maxRecDepth 2000 in
theorem signed_insertRule (nChanId : Int32) (r : LinkData) :
    (insertRulePieces nChanId r).flatMap Piece.signed =
      .word "INSERT".toList :: .word "INTO".toList :: .word TBRULE ::
        .word "VALUES".toList :: .op ['('] :: listed (valueTokens '\'' (ruleData nChanId r)) := rfl

theorem unsigned_insertRule (nChanId : Int32) (r : LinkData) :
    ∀ p ∈ insertRulePieces nChanId r, p.unsigned := List.all_eq_true.mp rfl

/-- The insertion of a rule. -/
theorem parse_insertRule {nChanId : Int32} {r : LinkData}
    (h : ∀ s ∈ r.ruleStrings, '\'' ∉ s.chars) :
    parse (text (insertRulePieces nChanId r)) =
      some (.insert TBRULE (.null :: (ruleData nChanId r).map Datum.literal)) := by
  rw [parse, (lex_insertRule_iff nChanId r).mpr h,
    joinSign_tokens (unsigned_insertRule nChanId r), signed_insertRule]
  exact insertStatement_eq (by decide) (by decide) (by decide) (List.cons_ne_nil _ _)
    (mapM_valueTokens (.inl rfl) (ruleData nChanId r))

/-! ## Updates -/

/-- An assignment after a token. -/
def setItem (sep : Token) (s : List Char × Datum) : Item :=
  ⟨sep, s.1, s.2.token '\'', s.2.literal⟩

/-- The tokens of an update. -/
def updateTokens (table : List Char) (s : List Char × Datum) (sets : List (List Char × Datum))
    (cs : Filter) : List Token :=
  .word "UPDATE".toList :: .word table :: .word "SET".toList ::
    ((setItem (.op [',']) s).equationTokens ++
      (sets.map (setItem (.op [',']))).flatMap Item.tokens ++ filterTokens cs)

/-- An update with its conditions. -/
theorem parse_update {ps : List Piece} {table : List Char} {s : List Char × Datum}
    {sets : List (List Char × Datum)} {cs : Filter} (hlex : lex (text ps) = tokens ps)
    (hunsigned : ∀ p ∈ ps, p.unsigned)
    (hsigned : ps.flatMap Piece.signed = updateTokens table s sets cs)
    (htable : SQL.name (.word table) = some table)
    (hnames : ∀ x ∈ s :: sets, columnName (.word x.1) = some x.1) :
    parse (text ps) =
      some (.update table ((s :: sets).map fun s ↦ (s.1, s.2.literal)) (cs.map equation)) := by
  have hreads : ∀ j ∈ (s :: sets).map (setItem (.op [','])), j.Reads := by
    rw [List.forall_mem_map]
    intro x hx
    exact ⟨hnames x hx, x.2.literal_token⟩
  have hseps : ∀ j ∈ sets.map (setItem (.op [','])), j.sep = .op [','] := by
    rw [List.forall_mem_map]
    intro x _
    rfl
  have hhead : ∀ t ∈ (filterTokens cs).head?, t ≠ .op [','] := by
    rintro t ht rfl
    rcases cs with _ | ⟨c, cs⟩
    · cases ht
    · cases Option.some.inj ht
  have hset : isWord "set" (.word "SET".toList) := by decide
  have hupdate := updateStatement_eq htable hset hreads hseps hhead (conditions_filter cs)
  rw [parse, hlex, joinSign_tokens hunsigned, hsigned]
  refine hupdate.trans ?_
  rw [← List.map_cons, List.map_map]
  rfl

theorem columnName_hlimit : columnName (.word "hlimit".toList) = some "hlimit".toList := by
  decide

/-- The assignment of the update of the height limit. -/
def limitSet (r : LinkData) : List Char × Datum := ("hlimit".toList, int32 r.nHLimit)

theorem signed_updateLimit (nChanId : Int32) (r : LinkData) :
    (updateLimitPieces nChanId r).flatMap Piece.signed =
      updateTokens TBCHAN (limitSet r) [] [(.anachannel, nChanId)] := by
  -- unfolding `limitSet` by its equation would evaluate the name of the column
  unfold limitSet
  simp only [updateTokens, List.map_nil, List.flatMap_nil, List.append_nil,
    Item.equationTokens, setItem, List.cons_append, List.nil_append, int32, Datum.token,
    filterTokens, conditionTokens]
  rfl

/-- The update of the height limit. -/
theorem parse_updateLimit (nChanId : Int32) (r : LinkData) :
    parse (text (updateLimitPieces nChanId r)) =
      some (.update TBCHAN ([limitSet r].map fun s ↦ (s.1, s.2.literal))
        ([(.anachannel, nChanId)].map equation)) :=
  parse_update (lex_updateLimit nChanId r) (List.all_eq_true.mp rfl)
    (signed_updateLimit nChanId r) (by decide) (List.forall_mem_singleton.mpr columnName_hlimit)

/-- The update of a linkage record as it is written: `devicename` gets `szDevIP`. -/
def writtenLinkPieces (nChanId : Int32) (r : LinkData) : List Piece :=
  lit "UPDATE table_channels SET devicename=" :: field '\'' r.szDevIP :: lit ", deviceip = " ::
    field '\'' r.szDevIP :: updateLinkTail nChanId r

theorem text_writtenLink (nChanId : Int32) (r : LinkData) :
    text (updateLinkPieces nChanId r) = text (writtenLinkPieces nChanId r) := rfl

/-- The columns of the update of a linkage record. -/
def linkColumns : List (List Char) :=
  ["devicename".toList, "deviceip".toList, "deviceport".toList, "devicechan".toList,
    "devicemanu".toList, "loginuser".toList, "loginpass".toList, "ptzipos".toList,
    "ptztpos".toList, "hlimit".toList]

/-- The assignments of the update of a linkage record after the first one. -/
def linkSets (r : LinkData) : List (List Char × Datum) :=
  [("deviceip".toList, string r.szDevIP), ("deviceport".toList, int32 r.nDevPort),
    ("devicechan".toList, int32 r.nDevChan), ("devicemanu".toList, string r.szDevManu),
    ("loginuser".toList, string r.szLoginUser), ("loginpass".toList, string r.szLoginPass),
    ("ptzipos".toList, int32 r.nPtziPos), ("ptztpos".toList, int32 r.nPtztPos),
    ("hlimit".toList, int32 r.nHLimit)]

theorem map_fst_linkSets (r : LinkData) :
    (("devicename".toList, string r.szDevIP) :: linkSets r).map Prod.fst = linkColumns := rfl

theorem columnName_link : ∀ name ∈ linkColumns, columnName (.word name) = some name := by
  decide

set_option maxRecDepth 1000 in
theorem signed_writtenLink (nChanId : Int32) (r : LinkData) :
    (writtenLinkPieces nChanId r).flatMap Piece.signed =
      updateTokens TBCHAN ("devicename".toList, string r.szDevIP) (linkSets r)
        [(.anachannel, nChanId)] := by
  simp only [updateTokens, linkSets, List.map_cons, List.map_nil, List.flatMap_cons,
    List.flatMap_nil, Item.tokens, Item.equationTokens, setItem, List.cons_append, List.nil_append,
    List.append_nil, int32, string, Datum.token, filterTokens, conditionTokens]
  rfl

theorem lex_writtenLink {nChanId : Int32} {r : LinkData} (h : ∀ s ∈ r.linkStrings, '\'' ∉ s) :
    lex (text (writtenLinkPieces nChanId r)) = tokens (writtenLinkPieces nChanId r) := by
  have hplain : ∀ p ∈ writtenLinkPieces nChanId r, p.Plain := by
    rw [writtenLinkPieces, List.forall_mem_cons, List.forall_mem_cons, List.forall_mem_cons,
      List.forall_mem_cons]
    exact ⟨trivial, rfl, trivial, rfl, plain_updateLinkTail nChanId r⟩
  rw [lex_text_iff (q := '\'') rfl rfl (List.all_eq_true.mp rfl) hplain]
  rw [forall_mem_linkStrings] at h
  show ∀ s ∈ [r.szDevIP.chars, r.szDevIP.chars, r.szDevManu.chars, r.szLoginUser.chars,
    r.szLoginPass.chars], '\'' ∉ s
  rw [List.forall_mem_cons, List.forall_mem_cons]
  exact ⟨h.2.1, h.2.1, h.2.2⟩

/-- The update of a linkage record. -/
theorem parse_updateLink {nChanId : Int32} {r : LinkData} (h : ∀ s ∈ r.linkStrings, '\'' ∉ s) :
    parse (text (updateLinkPieces nChanId r)) =
      some (.update TBCHAN ((("devicename".toList, string r.szDevIP) :: linkSets r).map
        fun s ↦ (s.1, s.2.literal)) ([(.anachannel, nChanId)].map equation)) := by
  rw [text_writtenLink]
  refine parse_update (lex_writtenLink h) (List.all_eq_true.mp rfl) (signed_writtenLink nChanId r)
    (by decide) ?_
  intro x hx
  refine columnName_link x.1 ?_
  rw [← map_fst_linkSets r]
  exact List.mem_map_of_mem hx

/-- The columns of the strings of a rule. -/
def ruleStringColumns : List (List Char) :=
  ["line1_1".toList, "line1_2".toList, "line1_3".toList, "line1_4".toList, "line1_5".toList,
    "line2_1".toList, "line2_2".toList, "line2_3".toList, "line2_4".toList, "line2_5".toList,
    "direct_1".toList, "direct_2".toList, "direct_3".toList, "direct_4".toList,
    "direct_5".toList]

/-- The assignments of the update of a rule after the first one. -/
def ruleSets (r : LinkData) : List (List Char × Datum) :=
  ruleStringColumns.zip (r.ruleStrings.map string) ++ [("hlimit".toList, int32 r.nHLimit)]

/-- The conditions of the update of a rule. -/
def ruleKeyFilter (nChanId : Int32) (r : LinkData) : Filter :=
  [(.anachannel, nChanId), (.anamaintype, r.nAnaMainType), (.anasubtype, r.nAnaSubType)]

set_option maxRecDepth 2000 in
theorem signed_updateRule (nChanId : Int32) (r : LinkData) :
    (updateRulePieces nChanId r).flatMap Piece.signed =
      updateTokens TBRULE ("linenum".toList, int32 r.nLineNum) (ruleSets r)
        (ruleKeyFilter nChanId r) := by
  simp only [updateTokens, ruleSets, ruleStringColumns, LinkData.ruleStrings, List.zip_cons_cons,
    List.zip_nil_left, List.map_cons, List.map_nil, List.flatMap_cons, List.flatMap_nil,
    Item.tokens, Item.equationTokens, setItem, List.cons_append, List.nil_append, List.append_nil,
    int32, string, Datum.token, ruleKeyFilter, filterTokens, conditionTokens]
  rfl

theorem columnName_rule : ∀ name ∈ ruleStringColumns, columnName (.word name) = some name := by
  decide

/-- The update of a rule. -/
theorem parse_updateRule {nChanId : Int32} {r : LinkData}
    (h : ∀ s ∈ r.ruleStrings, '\'' ∉ s.chars) :
    parse (text (updateRulePieces nChanId r)) =
      some (.update TBRULE ((("linenum".toList, int32 r.nLineNum) :: ruleSets r).map
        fun s ↦ (s.1, s.2.literal)) ((ruleKeyFilter nChanId r).map equation)) := by
  refine parse_update ((lex_updateRule_iff nChanId r).mpr h)
    (List.all_eq_true.mp rfl) (signed_updateRule nChanId r) (by decide) ?_
  have hlinenum : columnName (.word "linenum".toList) = some "linenum".toList := by decide
  rw [List.forall_mem_cons, ruleSets, List.forall_mem_append, List.forall_mem_singleton]
  refine ⟨hlinenum, ?_, columnName_hlimit⟩
  rintro ⟨name, d⟩ hs
  exact columnName_rule name (List.of_mem_zip hs).1

/-! ## The queries in front of updates -/

/-- The query of `SetLinkInfo`. -/
def findLinkPieces (nChanId : Int32) : List Piece :=
  [lit "SELECT * FROM table_channels WHERE anachannel=", num nChanId]

/-- The query of `SetRuleInfo`. -/
def findRulePieces (nChanId : Int32) (r : LinkData) : List Piece :=
  [lit "SELECT * FROM table_rules WHERE anachannel=", num nChanId, lit " AND anamaintype=",
    num r.nAnaMainType, lit " AND anasubtype=", num r.nAnaSubType]

/-- The length of a text with one number at its end. -/
theorem length_text_num (front : List Char) (z : Int32) (ps : List Piece) :
    (text (.lit front :: num z :: ps)).length ≤ front.length + 11 + (text ps).length := by
  have hle := length_decimal_le z
  rw [text_cons, text_cons, List.length_append, List.length_append]
  show front.length + ((decimal z.toInt).length + _) ≤ _
  omega

theorem findLinkSql_eq (nChanId : Int32) (r : LinkData) :
    findLinkSql nChanId r = some (text (findLinkPieces nChanId)) := by
  have hle := length_text_num "SELECT * FROM table_channels WHERE anachannel=".toList nChanId []
  refine Eq.trans (b := composed (findLinkPieces nChanId))
    (sprintf_s_eq_composed String.toList_ofList rfl rfl) (composed_eq_some.mpr ⟨rfl, ?_⟩)
  exact Nat.lt_of_le_of_lt hle (by decide)

theorem findRuleSql_eq (nChanId : Int32) (r : LinkData) :
    findRuleSql nChanId r = some (text (findRulePieces nChanId r)) := by
  have hchan := length_text_num "SELECT * FROM table_rules WHERE anachannel=".toList nChanId
    [lit " AND anamaintype=", num r.nAnaMainType, lit " AND anasubtype=", num r.nAnaSubType]
  have hmain := length_text_num " AND anamaintype=".toList r.nAnaMainType
    [lit " AND anasubtype=", num r.nAnaSubType]
  have hsub := length_text_num " AND anasubtype=".toList r.nAnaSubType []
  refine Eq.trans (b := composed (findRulePieces nChanId r))
    (sprintf_s_eq_composed String.toList_ofList rfl rfl) (composed_eq_some.mpr ⟨rfl, ?_⟩)
  exact Nat.lt_of_le_of_lt (hchan.trans (Nat.add_le_add_left (hmain.trans
    (Nat.add_le_add_left hsub _)) _)) (by decide)

/-- A selection with its conditions. -/
theorem parse_select {ps : List Piece} {table : List Char} {cs : Filter}
    (hlex : lex (text ps) = tokens ps) (hunsigned : ∀ p ∈ ps, p.unsigned)
    (hsigned : ps.flatMap Piece.signed =
      .word "SELECT".toList :: .op ['*'] :: .word "FROM".toList :: .word table :: filterTokens cs)
    (htable : SQL.name (.word table) = some table) :
    parse (text ps) = some (.select table (cs.map equation)) := by
  rw [parse, hlex, joinSign_tokens hunsigned, hsigned]
  exact selectStatement_eq (by decide) htable (conditions_filter cs)

theorem signed_findLink (nChanId : Int32) :
    (findLinkPieces nChanId).flatMap Piece.signed =
      .word "SELECT".toList :: .op ['*'] :: .word "FROM".toList :: .word TBCHAN ::
        filterTokens [(.anachannel, nChanId)] := by
  simp only [filterTokens, conditionTokens, List.flatMap_nil, List.append_nil]
  rfl

theorem signed_findRule (nChanId : Int32) (r : LinkData) :
    (findRulePieces nChanId r).flatMap Piece.signed =
      .word "SELECT".toList :: .op ['*'] :: .word "FROM".toList :: .word TBRULE ::
        filterTokens (ruleKeyFilter nChanId r) := by
  simp only [ruleKeyFilter, filterTokens, conditionTokens, List.flatMap_cons, List.flatMap_nil,
    List.append_nil, List.cons_append, List.nil_append]
  rfl

theorem parse_findLink (nChanId : Int32) (r : LinkData) :
    (findLinkSql nChanId r >>= parse) =
      some (.select TBCHAN ([(.anachannel, nChanId)].map equation)) := by
  rw [findLinkSql_eq, Option.bind_eq_bind, Option.bind_some]
  refine parse_select (lex_text rfl ?_) (List.all_eq_true.mp rfl) (signed_findLink nChanId)
    (by decide)
  simp [findLinkPieces, lit, num, Piece.Safe]

theorem parse_findRule (nChanId : Int32) (r : LinkData) :
    (findRuleSql nChanId r >>= parse) =
      some (.select TBRULE ((ruleKeyFilter nChanId r).map equation)) := by
  rw [findRuleSql_eq, Option.bind_eq_bind, Option.bind_some]
  refine parse_select (lex_text rfl ?_) (List.all_eq_true.mp rfl) (signed_findRule nChanId r)
    (by decide)
  simp [findRulePieces, lit, num, Piece.Safe]

end CodeToolKit.HwbrapSqlite
