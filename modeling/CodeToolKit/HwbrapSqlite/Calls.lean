import CodeToolKit.HwbrapSqlite.LinkQuery
import CodeToolKit.HwbrapSqlite.RuleQuery
import CodeToolKit.Lib.Critical

/-!
# The calls of `CDBManage`, step by step

Each function of `CDBManage` as the program of its steps: `m_csCommit.Lock()` and `Unlock()`, the
test of `m_db`, each use of `*m_db`, and the writes to `m_bCommit`.  What is between two of these
steps only concerns the arguments and the locals of the call.

A pointer argument is `none` where it is null.  `sprintf_s` into a buffer that is too small,
`atoi` of a null pointer and `strcpy_s` into a field that is too small end the program:
the call is stuck.
-/

namespace CodeToolKit.HwbrapSqlite

open CodeToolKit.Lib

/-- What a call does outside of its own memory, apart from the lock. -/
inductive Op where
  /-- `NULL==m_db`. -/
  | isNull
  /-- `m_db->SQLiteExec`. -/
  | exec (szSql : List Char)
  /-- `m_db->SQLiteExec` of `BEGIN TRANSACTION` or `COMMIT TRANSACTION`, with its result. -/
  | transaction (lRet : ℤ)
  /-- `m_db->SQLiteSearch`. -/
  | search (szSql : List Char)
  /-- `m_db->GetTableRow()`. -/
  | getTableRow
  /-- `m_db->GetTableColumn()`. -/
  | getTableColumn
  /-- `m_db->GetTableData`. -/
  | getTableData (col row : ℕ)
  /-- `m_db->FreeTableData()`. -/
  | freeTableData
  /-- `m_db->getLastInsertId()`. -/
  | getLastInsertId
  /-- `m_db->GetErrorMsg()`. -/
  | getErrorMsg
  /-- `m_bCommit = …`. -/
  | setCommit (b : Bool)

namespace Op

/-- What an operation returns. -/
abbrev Res : Op → Type
  | isNull => Bool
  | exec _ | transaction _ | getLastInsertId => ℤ
  | getTableRow | getTableColumn => ℕ
  | getTableData _ _ => Option (List Char)
  | getErrorMsg => List Char
  | search _ | freeTableData | setCommit _ => Unit

/-- The operation dereferences `m_db`. -/
def usesDb : Op → Bool
  | isNull | setCommit _ => false
  | _ => true

end Op

/-- The program of a call. -/
abbrev Prog (α : Type) : Type := Program Op Op.Res α

/-- What a call returns. -/
inductive Reply where
  /-- A status. -/
  | status (lRet : ℤ)
  /-- The id of a new row. -/
  | added (lNewId : ℤ)
  /-- A status and `pResult`, an array of `lResCount` records. -/
  | selected (lRet : ℤ) (pResult : Option (List LinkData))
  /-- The text of the last error. -/
  | message (szErrMsg : Option (List Char))

namespace CDBManage

/-! ## Parts of calls -/

/-- One step of a call. -/
abbrev act (o : Op) : Prog o.Res := Program.act o

/-- `m_csCommit.Unlock()`. -/
def unlock : Prog Unit := .unlock (.ret ())

/-- The start of a call: `Lock`, and the tests of a pointer before the one of `m_db` and of the
other arguments after it. -/
def entered {π : Type} (param : Option π) (rejected : Bool) (failed : Reply)
    (body : π → Prog Reply) : Prog Reply :=
  .lock <|
    match param with
    | none => .unlock (.ret failed)
    | some p => .op .isNull fun isNull ↦
        if isNull || rejected then .unlock (.ret failed) else body p

/-- A statement, `Unlock`, and the request for a commit: the end of all calls that change a
table. -/
def executed (szSql : Option (List Char)) (reply : ℤ → Prog Reply) : Prog Reply := do
  let szSql ← .ofOption szSql
  let lRet ← act (.exec szSql)
  unlock
  act (.setCommit true)
  reply lRet

/-- A query whether there is a row, and the statement that depends on it: `SetLinkInfo` and
`SetRuleInfo`. -/
def updated (find : Option (List Char)) (szSql : Bool → Option (List Char)) : Prog Reply := do
  let find ← .ofOption find
  act (.search find)
  let nRow ← act .getTableRow
  act .freeTableData
  executed (szSql (0 < nRow)) fun lRet ↦ pure (.status lRet)

/-- `m_db->GetTableRow()<=0 || m_db->GetTableColumn()<minCol`. -/
def tooSmall (minCol : ℕ) : Prog Bool := do
  let nRow ← act .getTableRow
  if nRow = 0 then pure true
  else do
    let nCol ← act .getTableColumn
    pure (nCol < minCol : Bool)

/-- A query whose result has at least `minCol` columns and is read by a loop: `GetLinkInfo` and
`GetRuleInfo`.  A result that is too small is not freed. -/
def queried (szSql : Option (List Char)) (minCol : ℕ) (read : ℕ → Prog (List LinkData)) :
    Prog Reply := do
  let szSql ← .ofOption szSql
  act (.search szSql)
  let none? ← tooSmall minCol
  if none? then do
    unlock
    pure (.selected 0 none)
  else do
    let lResCount ← act .getTableRow
    let records ← read lResCount
    act .freeTableData
    unlock
    pure (.selected 0 (some records))

/-- `atoi` of a cell. -/
def intCell (j i : ℕ) : Prog Int32 := do
  let data ← act (.getTableData j (i + 1))
  .ofOption (data >>= atoi)

/-- `strcpy_s` of a cell into a field of `n` bytes. -/
def textCell (n j i : ℕ) : Prog (CharArray n) := do
  let data ← act (.getTableData j (i + 1))
  .ofOption (data >>= CharArray.ofList? n)

/-! ## Transactions -/

/-- `BeginTransaction`, with the result of its statement. -/
def beginTransaction (lRet : ℤ) : Prog Reply :=
  entered (some ()) false (.status (-1)) fun _ ↦ do
    let lRet ← act (.transaction lRet)
    unlock
    pure (.status lRet)

/-- `EndTransaction`, with the result of its statement. -/
def endTransaction (lRet : ℤ) : Prog Reply :=
  entered (some ()) false (.status (-1)) fun _ ↦ do
    let lRet ← act (.transaction lRet)
    unlock
    pure (.status lRet)

/-- `GetDBLastError`, which does not take the lock. -/
def getDBLastError : Prog Reply :=
  .op .isNull fun isNull ↦
    if isNull then .ret (.message none)
    else do
      let szErrMsg ← act .getErrorMsg
      pure (.message (some szErrMsg))

/-! ## Tables -/

/-- `CreateTable`. -/
def createTable : Prog Reply :=
  .lock <| .op (.setCommit false) fun _ ↦ .op .isNull fun isNull ↦
    if isNull then .unlock (.ret (.status (-1)))
    else do
      let szSql ← .ofOption createChannelsSql
      let _ ← act (.exec szSql)
      executed createRulesSql fun lRet ↦ pure (.status lRet)

/-- `DropTable`. -/
def dropTable (pTabName : Option (List Char)) : Prog Reply :=
  entered (some ()) pTabName.isNone (.status (-1)) fun _ ↦
    executed (pTabName >>= dropTableSql) fun lRet ↦ pure (.status lRet)

/-! ## Linkage records -/

/-- `AddLinkInfo`; the id is asked for after `Unlock`, without a test of `m_db`. -/
def addLinkInfo (param : Option LinkData) : Prog Reply :=
  entered param false (.added (-1)) fun pChan ↦
    executed (addLinkInfoSql pChan) fun _ ↦ do
      let lNewId ← act .getLastInsertId
      pure (.added lNewId)

/-- `DelLinkInfo`. -/
def delLinkInfo (param : Option LinkData) : Prog Reply :=
  entered param false (.status (-1)) fun pInfo ↦
    executed (delLinkInfoSql pInfo) fun lRet ↦ pure (.status lRet)

/-- The body of the loop of `GetLinkInfo`. -/
def readLink (i : ℕ) : Prog LinkData := do
  let id ← intCell 0 i
  let nAnaChannel ← intCell 1 i
  let szDevName ← textCell 64 2 i
  let szDevIP ← textCell 64 3 i
  let nDevPort ← intCell 4 i
  let nDevChan ← intCell 5 i
  let szDevManu ← textCell 32 6 i
  let szLoginUser ← textCell 64 7 i
  let szLoginPass ← textCell 64 8 i
  let nPtziPos ← intCell 9 i
  let nPtztPos ← intCell 10 i
  let nHLimit ← intCell 11 i
  pure { LinkData.zero with
    id, nAnaChannel, szDevName, szDevIP, nDevPort, nDevChan, szDevManu, szLoginUser, szLoginPass,
    nPtziPos, nPtztPos, nHLimit }

/-- The loop of `GetLinkInfo` from row `i` on, with `n` records of the array after it.  The number
of rows is asked for each time. -/
def readLinks : ℕ → ℕ → Prog (List LinkData)
  | n, i => .op .getTableRow fun nRow ↦
      if i < nRow then
        match n with
        | 0 => .stuck
        | n + 1 => do
            let r ← readLink i
            let rs ← readLinks n (i + 1)
            pure (r :: rs)
      else .ret (List.replicate n LinkData.zero)

/-- `GetLinkInfo`; `hasResult` says whether `pResult` points to something already. -/
def getLinkInfo (param : Option LinkData) (hasResult : Bool) : Prog Reply :=
  entered param hasResult (.selected (-1) none) fun pInfo ↦
    queried (getLinkInfoSql pInfo) 12 fun lResCount ↦ readLinks lResCount 0

/-- `SetLinkInfo`. -/
def setLinkInfo (nChanId : Int32) (param : Option LinkData) : Prog Reply :=
  entered param (0 > nChanId) (.status (-1)) fun pChan ↦
    updated (findLinkSql nChanId pChan) fun found ↦ setLinkInfoSql nChanId found pChan

/-! ## Rules -/

/-- `AddRuleInfo`. -/
def addRuleInfo (param : Option LinkData) : Prog Reply :=
  entered param false (.added (-1)) fun pChan ↦
    executed (addRuleInfoSql pChan) fun _ ↦ do
      let lNewId ← act .getLastInsertId
      pure (.added lNewId)

/-- Five strings of a rule. -/
def readStrings (j i : ℕ) : Prog (Fin 5 → CharArray 256) := do
  let s₀ ← textCell 256 j i
  let s₁ ← textCell 256 (j + 1) i
  let s₂ ← textCell 256 (j + 2) i
  let s₃ ← textCell 256 (j + 3) i
  let s₄ ← textCell 256 (j + 4) i
  pure fun
    | 0 => s₀
    | 1 => s₁
    | 2 => s₂
    | 3 => s₃
    | 4 => s₄

/-- The body of the loop of `GetRuleInfo`. -/
def readRule (i : ℕ) : Prog LinkData := do
  let id ← intCell 0 i
  let nAnaChannel ← intCell 1 i
  let nAnaMainType ← intCell 2 i
  let nAnaSubType ← intCell 3 i
  let nLineNum ← intCell 4 i
  let szBZSLineType ← readStrings 5 i
  let szBZSLineType_2 ← readStrings 10 i
  let szAlarmDirect ← readStrings 15 i
  let nHLimit ← intCell 20 i
  pure { LinkData.zero with
    id, nAnaChannel, nAnaMainType, nAnaSubType, nLineNum, szBZSLineType, szBZSLineType_2,
    szAlarmDirect, nHLimit }

/-- The loop of `GetRuleInfo` over the `n` rows from row `i` on. -/
def readRules : ℕ → ℕ → Prog (List LinkData)
  | 0, _ => pure []
  | n + 1, i => do
      let r ← readRule i
      let rs ← readRules n (i + 1)
      pure (r :: rs)

/-- `GetRuleInfo`. -/
def getRuleInfo (param : Option LinkData) (hasResult : Bool) : Prog Reply :=
  entered param hasResult (.selected (-1) none) fun pInfo ↦
    queried (getRuleInfoSql pInfo) 20 fun lResCount ↦ readRules lResCount 0

/-- `SetRuleInfo`. -/
def setRuleInfo (nChanId : Int32) (param : Option LinkData) : Prog Reply :=
  entered param (0 > nChanId) (.status (-1)) fun pChan ↦
    updated (findRuleSql nChanId pChan) fun found ↦ setRuleInfoSql nChanId found pChan

/-- `DelRuleInfo`. -/
def delRuleInfo (param : Option LinkData) : Prog Reply :=
  entered param false (.status (-1)) fun pInfo ↦
    executed (delRuleInfoSql pInfo) fun lRet ↦ pure (.status lRet)

end CDBManage

/-! ## Calls -/

/-- A call that begins with `m_csCommit.Lock()`: all but `GetDBLastError`. -/
inductive Request where
  | beginTransaction (lRet : ℤ)
  | endTransaction (lRet : ℤ)
  | createTable
  | dropTable (pTabName : Option (List Char))
  | addLinkInfo (param : Option LinkData)
  | delLinkInfo (param : Option LinkData)
  | getLinkInfo (param : Option LinkData) (hasResult : Bool)
  | setLinkInfo (nChanId : Int32) (param : Option LinkData)
  | addRuleInfo (param : Option LinkData)
  | getRuleInfo (param : Option LinkData) (hasResult : Bool)
  | setRuleInfo (nChanId : Int32) (param : Option LinkData)
  | delRuleInfo (param : Option LinkData)

/-- The program of a call. -/
def Request.program : Request → Prog Reply
  | beginTransaction lRet => CDBManage.beginTransaction lRet
  | endTransaction lRet => CDBManage.endTransaction lRet
  | createTable => CDBManage.createTable
  | dropTable pTabName => CDBManage.dropTable pTabName
  | addLinkInfo param => CDBManage.addLinkInfo param
  | delLinkInfo param => CDBManage.delLinkInfo param
  | getLinkInfo param hasResult => CDBManage.getLinkInfo param hasResult
  | setLinkInfo nChanId param => CDBManage.setLinkInfo nChanId param
  | addRuleInfo param => CDBManage.addRuleInfo param
  | getRuleInfo param hasResult => CDBManage.getRuleInfo param hasResult
  | setRuleInfo nChanId param => CDBManage.setRuleInfo nChanId param
  | delRuleInfo param => CDBManage.delRuleInfo param

namespace CDBManage

/-! ## The loops do not touch the lock -/

theorem plain_intCell (j i : ℕ) : (intCell j i).Plain := fun _ ↦ Program.plain_ofOption _

theorem plain_textCell (n j i : ℕ) : (textCell n j i).Plain := fun _ ↦ Program.plain_ofOption _

theorem plain_tooSmall (minCol : ℕ) : (tooSmall minCol).Plain := by
  rw [tooSmall]
  intro nRow
  show Program.Plain (if nRow = 0 then _ else _ : Prog Bool)
  split
  · trivial
  · exact fun _ ↦ trivial

theorem plain_readLink (i : ℕ) : (readLink i).Plain := by
  repeat first
    | refine Program.plain_bind (plain_intCell _ _) fun _ ↦ ?_
    | refine Program.plain_bind (plain_textCell _ _ _) fun _ ↦ ?_
  trivial

theorem plain_readLinks (n i : ℕ) : (readLinks n i).Plain := by
  induction n generalizing i with
  | zero =>
      rw [readLinks]
      intro nRow
      beta_reduce
      split <;> trivial
  | succ n ih =>
      rw [readLinks]
      intro nRow
      beta_reduce
      split
      · exact Program.plain_bind (plain_readLink i) fun _ ↦
          Program.plain_bind (ih (i + 1)) fun _ ↦ trivial
      · trivial

theorem plain_readStrings (j i : ℕ) : (readStrings j i).Plain := by
  repeat refine Program.plain_bind (plain_textCell _ _ _) fun _ ↦ ?_
  trivial

theorem plain_readRule (i : ℕ) : (readRule i).Plain := by
  repeat first
    | refine Program.plain_bind (plain_intCell _ _) fun _ ↦ ?_
    | refine Program.plain_bind (plain_readStrings _ _) fun _ ↦ ?_
  trivial

theorem plain_readRules (n i : ℕ) : (readRules n i).Plain := by
  induction n generalizing i with
  | zero => trivial
  | succ n ih =>
      exact Program.plain_bind (plain_readRule i) fun _ ↦
        Program.plain_bind (ih (i + 1)) fun _ ↦ trivial

end CDBManage

end CodeToolKit.HwbrapSqlite
