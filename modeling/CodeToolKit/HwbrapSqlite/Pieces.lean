import CodeToolKit.HwbrapSqlite.Compose
import CodeToolKit.SQL.QuoteCount

/-!
# The pieces of the composed statements

Each statement by its pieces: what its format writes, and the numbers and fields in it.  The text
of the pieces is the text of `szSql` (`addLinkInfoSql_eq` and its siblings), and no piece runs
into the next one.
-/

namespace CodeToolKit.HwbrapSqlite

open CodeToolKit.SQL CodeToolKit.Lib

/-- A part of a format. -/
def lit (s : String) : Piece := .lit s.toList

/-- A number. -/
def num (z : Int32) : Piece := .int z.toInt

/-- A field between quotes. -/
def field {n : ℕ} (delim : Char) (s : CharArray n) : Piece := .str delim s.chars s.chars

/-- Fields in front of which the same part of a format stands. -/
def fields {n : ℕ} (delim : Char) (sep : String) (ss : List (CharArray n)) : List Piece :=
  ss.flatMap fun s ↦ [lit sep, field delim s]

namespace LinkData

/-- The strings of a linkage record. -/
def linkStrings (r : LinkData) : List (List Char) :=
  [r.szDevName.chars, r.szDevIP.chars, r.szDevManu.chars, r.szLoginUser.chars, r.szLoginPass.chars]

/-- The strings of a rule, in the order of the columns. -/
def ruleStrings (r : LinkData) : List (CharArray 256) :=
  [r.szBZSLineType 0, r.szBZSLineType 1, r.szBZSLineType 2, r.szBZSLineType 3, r.szBZSLineType 4,
    r.szBZSLineType_2 0, r.szBZSLineType_2 1, r.szBZSLineType_2 2, r.szBZSLineType_2 3,
    r.szBZSLineType_2 4, r.szAlarmDirect 0, r.szAlarmDirect 1, r.szAlarmDirect 2,
    r.szAlarmDirect 3, r.szAlarmDirect 4]

/-- No string of the record has a quote in it. -/
def QuoteFree (r : LinkData) : Prop :=
  ∀ s ∈ r.linkStrings ++ r.ruleStrings.map CharArray.chars, ∀ c ∈ s, ¬isQuote c

theorem QuoteFree.not_mem {r : LinkData} (h : r.QuoteFree) {q : Char} (hq : isQuote q) :
    ∀ s ∈ r.ruleStrings, q ∉ s.chars :=
  fun s hs hmem ↦ h s.chars (List.mem_append_right _ (List.mem_map_of_mem hs)) q hmem hq

end LinkData

/-- The insertion of a linkage record. -/
def insertLinkPieces (r : LinkData) : List Piece :=
  [lit "INSERT INTO \"table_channels\" VALUES( NULL, ", num r.nAnaChannel,
    lit ", ", field '"' r.szDevName, lit ", ", field '"' r.szDevIP, lit ", ", num r.nDevPort,
    lit ", ", num r.nDevChan, lit ", ", field '"' r.szDevManu, lit ", ", field '"' r.szLoginUser,
    lit ", ", field '"' r.szLoginPass, lit ", ", num r.nPtziPos, lit ", ", num r.nPtztPos,
    lit ", ", num r.nHLimit, lit " )"]

/-- The update of the height limit. -/
def updateLimitPieces (nChanId : Int32) (r : LinkData) : List Piece :=
  [lit "UPDATE table_channels SET hlimit = ", num r.nHLimit, lit " WHERE anachannel = ",
    num nChanId]

/-- The update of a linkage record after the two names of the device. -/
def updateLinkTail (nChanId : Int32) (r : LinkData) : List Piece :=
  [lit ", deviceport = ", num r.nDevPort, lit ", devicechan = ", num r.nDevChan,
    lit ", devicemanu = ", field '\'' r.szDevManu, lit ", loginuser = ", field '\'' r.szLoginUser,
    lit ", loginpass = ", field '\'' r.szLoginPass, lit ", ptzipos = ", num r.nPtziPos,
    lit ", ptztpos = ", num r.nPtztPos, lit ", hlimit = ", num r.nHLimit,
    lit " WHERE anachannel = ", num nChanId]

/-- The update of a linkage record: `devicename` is meant to be `szDevName`. -/
def updateLinkPieces (nChanId : Int32) (r : LinkData) : List Piece :=
  lit "UPDATE table_channels SET devicename=" ::
    .str '\'' r.szDevIP.chars r.szDevName.chars :: lit ", deviceip = " ::
    .str '\'' r.szDevIP.chars r.szDevIP.chars :: updateLinkTail nChanId r

/-- The insertion of a rule by `AddRuleInfo`, into the channel table and without the height
limit. -/
def addRulePieces (r : LinkData) : List Piece :=
  [lit "INSERT INTO \"table_channels\" VALUES( NULL, ", num r.nAnaChannel, lit ", ",
    num r.nAnaMainType, lit ", ", num r.nAnaSubType, lit ", ", num r.nLineNum] ++
    fields '"' ", " r.ruleStrings ++ [lit " )"]

/-- The insertion of a rule by `SetRuleInfo`. -/
def insertRulePieces (nChanId : Int32) (r : LinkData) : List Piece :=
  [lit "INSERT INTO table_rules VALUES (NULL, ", num nChanId, lit ", ", num r.nAnaMainType,
    lit ", ", num r.nAnaSubType, lit ", ", num r.nLineNum] ++
    fields '\'' ", " r.ruleStrings ++ [lit ", ", num r.nHLimit, lit ")"]

/-- The update of a rule. -/
def updateRulePieces (nChanId : Int32) (r : LinkData) : List Piece :=
  [lit "UPDATE table_rules SET linenum=", num r.nLineNum,
    lit ", line1_1=", field '\'' (r.szBZSLineType 0),
    lit ", line1_2=", field '\'' (r.szBZSLineType 1),
    lit ", line1_3=", field '\'' (r.szBZSLineType 2),
    lit ", line1_4=", field '\'' (r.szBZSLineType 3),
    lit ", line1_5=", field '\'' (r.szBZSLineType 4),
    lit ", line2_1=", field '\'' (r.szBZSLineType_2 0),
    lit ", line2_2=", field '\'' (r.szBZSLineType_2 1),
    lit ", line2_3=", field '\'' (r.szBZSLineType_2 2),
    lit ", line2_4=", field '\'' (r.szBZSLineType_2 3),
    lit ", line2_5=", field '\'' (r.szBZSLineType_2 4),
    lit ", direct_1=", field '\'' (r.szAlarmDirect 0),
    lit ", direct_2=", field '\'' (r.szAlarmDirect 1),
    lit ", direct_3=", field '\'' (r.szAlarmDirect 2),
    lit ", direct_4=", field '\'' (r.szAlarmDirect 3),
    lit ", direct_5=", field '\'' (r.szAlarmDirect 4),
    lit ", hlimit=", num r.nHLimit, lit " WHERE anachannel = ", num nChanId,
    lit " AND anamaintype=", num r.nAnaMainType, lit " AND anasubtype=", num r.nAnaSubType]

/-! ## The texts -/

/-- The text of the pieces, if it fits into the buffer. -/
def composed (ps : List Piece) : Option (List Char) :=
  (some (text ps)).filter fun szSql ↦ szSql.length < 1024

theorem composed_eq_some {ps : List Piece} {szSql : List Char} :
    composed ps = some szSql ↔ text ps = szSql ∧ (text ps).length < 1024 := by
  rw [composed, Option.filter_eq_some_iff, Option.some.injEq, decide_eq_true_iff]
  constructor
  · rintro ⟨rfl, hfits⟩
    exact ⟨rfl, hfits⟩
  · rintro ⟨rfl, hfits⟩
    exact ⟨rfl, hfits⟩

/-- A format whose text is that of the pieces. -/
theorem sprintf_s_eq_composed {format : String} {chars : List Char} {args : List Arg}
    {ps : List Piece} (hchars : format.toList = chars) (hfit : conversionsFit chars args = true)
    (h : formatted chars args = ps.foldr Piece.write []) :
    sprintf_s 1024 format args = composed ps := by
  rw [sprintf_s, hchars, sprintf, if_pos hfit, composed, text_eq_foldr, h]

theorem addLinkInfoSql_eq (r : LinkData) : addLinkInfoSql r = composed (insertLinkPieces r) :=
  sprintf_s_eq_composed (toList_append_ofList String.toList_ofList) rfl rfl

theorem setLinkInfoSql_insert (nChanId : Int32) (r : LinkData) :
    setLinkInfoSql nChanId false r = composed (insertLinkPieces r) :=
  (if_pos rfl).trans (addLinkInfoSql_eq r)

theorem setLinkInfoSql_limit (nChanId : Int32) {r : LinkData} (h : r.nHLimit > 0) :
    setLinkInfoSql nChanId true r = composed (updateLimitPieces nChanId r) :=
  (if_neg nofun).trans ((if_pos h).trans (sprintf_s_eq_composed String.toList_ofList rfl rfl))

set_option maxRecDepth 2000 in
theorem setLinkInfoSql_update (nChanId : Int32) {r : LinkData} (h : ¬r.nHLimit > 0) :
    setLinkInfoSql nChanId true r = composed (updateLinkPieces nChanId r) :=
  (if_neg nofun).trans ((if_neg h).trans (sprintf_s_eq_composed
    (toList_append_ofList (toList_append_ofList String.toList_ofList)) rfl rfl))

set_option maxRecDepth 2000 in
theorem addRuleInfoSql_eq (r : LinkData) : addRuleInfoSql r = composed (addRulePieces r) :=
  sprintf_s_eq_composed (toList_append_ofList String.toList_ofList) rfl rfl

set_option maxRecDepth 2000 in
theorem setRuleInfoSql_insert (nChanId : Int32) (r : LinkData) :
    setRuleInfoSql nChanId false r = composed (insertRulePieces nChanId r) :=
  (if_pos rfl).trans (sprintf_s_eq_composed (toList_append_ofList String.toList_ofList) rfl rfl)

set_option maxRecDepth 2000 in
theorem setRuleInfoSql_update (nChanId : Int32) (r : LinkData) :
    setRuleInfoSql nChanId true r = composed (updateRulePieces nChanId r) :=
  (if_neg nofun).trans (sprintf_s_eq_composed (toList_append_ofList
    (toList_append_ofList (toList_append_ofList String.toList_ofList))) rfl rfl)

/-! ## Their joints and their quotes -/

theorem joins_insertLink (r : LinkData) : joins (insertLinkPieces r) := rfl
theorem joins_updateLimit (nChanId : Int32) (r : LinkData) :
    joins (updateLimitPieces nChanId r) := rfl
theorem joins_updateLink (nChanId : Int32) (r : LinkData) :
    joins (updateLinkPieces nChanId r) := rfl
theorem joins_addRule (r : LinkData) : joins (addRulePieces r) := rfl
theorem joins_insertRule (nChanId : Int32) (r : LinkData) :
    joins (insertRulePieces nChanId r) := rfl
theorem joins_updateRule (nChanId : Int32) (r : LinkData) :
    joins (updateRulePieces nChanId r) := rfl

theorem tight_insertLink (r : LinkData) : ∀ p ∈ insertLinkPieces r, p.tight '"' :=
  List.all_eq_true.mp rfl

theorem tight_updateLink (nChanId : Int32) (r : LinkData) :
    ∀ p ∈ updateLinkPieces nChanId r, p.tight '\'' := List.all_eq_true.mp rfl

theorem tight_addRule (r : LinkData) : ∀ p ∈ addRulePieces r, p.tight '"' :=
  List.all_eq_true.mp rfl

theorem tight_insertRule (nChanId : Int32) (r : LinkData) :
    ∀ p ∈ insertRulePieces nChanId r, p.tight '\'' := List.all_eq_true.mp rfl

theorem tight_updateRule (nChanId : Int32) (r : LinkData) :
    ∀ p ∈ updateRulePieces nChanId r, p.tight '\'' := List.all_eq_true.mp rfl

end CodeToolKit.HwbrapSqlite
