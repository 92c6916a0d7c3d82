import CodeToolKit.HwbrapSqlite.LinkData
import CodeToolKit.Lib.Printf

/-!
# The statements that `CDBManage` composes

The texts of `szSql`, with the formats and the arguments as they stand in `DBManage.cpp`.
There is no text where it does not fit into the 1024 bytes of the buffer.
-/

namespace CodeToolKit.HwbrapSqlite

open CodeToolKit.Lib

/-- The channel table. -/
def TBCHAN : List Char := "table_channels".toList

/-- The rule table. -/
def TBRULE : List Char := "table_rules".toList

/-- The string of a `char` array as an argument. -/
def CharArray.arg {n : ℕ} (s : CharArray n) : Arg := .str s.chars

/-! ## Tables -/

/-- The first statement of `CreateTable`. -/
def createChannelsSql : Option (List Char) :=
  sprintf_s 1024
    ("CREATE TABLE %s ( id INTEGER PRIMARY KEY autoincrement, " ++
     "anachannel INTEGER, devicename VARCHAR(64), deviceip VARCHAR(64), deviceport INTEGER, " ++
     "devicechan INTEGER, devicemanu VARCHAR(32), loginuser VARCHAR(64), loginpass VARCHAR(64), " ++
     "ptzipos INTEGER, ptztpos INTEGER, hlimit INTEGER );") [.str TBCHAN]

/-- The second statement of `CreateTable`. -/
def createRulesSql : Option (List Char) :=
  sprintf_s 1024
    ("CREATE TABLE %s ( id INTEGER PRIMARY KEY autoincrement, " ++
     "anachannel INTEGER, anamaintype INTEGER, anasubtype INTEGER, linenum INTEGER, " ++
     "line1_1 VARCHAR(256), line1_2 VARCHAR(256), line1_3 VARCHAR(256), line1_4 VARCHAR(256), " ++
     "line1_5 VARCHAR(256), line2_1 VARCHAR(256), line2_2 VARCHAR(256), line2_3 VARCHAR(256), " ++
     "line2_4 VARCHAR(256), line2_5 VARCHAR(256), direct_1 VARCHAR(256), direct_2 VARCHAR(256), " ++
     "direct_3 VARCHAR(256), direct_4 VARCHAR(256), direct_5 VARCHAR(256), hlimit INTEGER );")
    [.str TBRULE]

/-- The statement of `DropTable`. -/
def dropTableSql (pTabName : List Char) : Option (List Char) :=
  sprintf_s 1024 "DROP TABLE %s" [.str pTabName]

/-! ## Linkage records -/

/-- The statement of `AddLinkInfo`. -/
def addLinkInfoSql (pChan : LinkData) : Option (List Char) :=
  sprintf_s 1024
    ("INSERT INTO \"%s\" VALUES( NULL, %d, \"%s\", \"%s\", %d, %d, \"%s\", \"%s\", " ++
     "\"%s\", %d, %d, %d )")
    [.str TBCHAN, .int32 pChan.nAnaChannel, pChan.szDevName.arg, pChan.szDevIP.arg,
      .int32 pChan.nDevPort, .int32 pChan.nDevChan, pChan.szDevManu.arg, pChan.szLoginUser.arg,
      pChan.szLoginPass.arg, .int32 pChan.nPtziPos, .int32 pChan.nPtztPos, .int32 pChan.nHLimit]

/-- The query of `SetLinkInfo`; the format has no conversion for the types. -/
def findLinkSql (nChanId : Int32) (pChan : LinkData) : Option (List Char) :=
  sprintf_s 1024 "SELECT * FROM %s WHERE anachannel=%d"
    [.str TBCHAN, .int32 nChanId, .int32 pChan.nAnaMainType, .int32 pChan.nAnaSubType]

/-- The statement of `SetLinkInfo`, after its query has found rows of the channel or not.  The
last update writes `szDevIP` to `devicename`. -/
def setLinkInfoSql (nChanId : Int32) (found : Bool) (pChan : LinkData) : Option (List Char) :=
  if !found then
    sprintf_s 1024
      ("INSERT INTO \"%s\" VALUES( NULL, %d, \"%s\", \"%s\", %d, %d, \"%s\", \"%s\", " ++
       "\"%s\", %d, %d, %d )")
      [.str TBCHAN, .int32 pChan.nAnaChannel, pChan.szDevName.arg, pChan.szDevIP.arg,
        .int32 pChan.nDevPort, .int32 pChan.nDevChan, pChan.szDevManu.arg, pChan.szLoginUser.arg,
        pChan.szLoginPass.arg, .int32 pChan.nPtziPos, .int32 pChan.nPtztPos,
        .int32 pChan.nHLimit]
  else if pChan.nHLimit > 0 then
    sprintf_s 1024 "UPDATE %s SET hlimit = %d WHERE anachannel = %d"
      [.str TBCHAN, .int32 pChan.nHLimit, .int32 nChanId]
  else
    sprintf_s 1024
      ("UPDATE %s SET devicename='%s', deviceip = '%s', deviceport = %d, " ++
       "devicechan = %d, devicemanu = '%s', loginuser = '%s', loginpass = '%s', ptzipos = %d, " ++
       "ptztpos = %d, hlimit = %d WHERE anachannel = %d")
      [.str TBCHAN, pChan.szDevIP.arg, pChan.szDevIP.arg, .int32 pChan.nDevPort,
        .int32 pChan.nDevChan, pChan.szDevManu.arg, pChan.szLoginUser.arg, pChan.szLoginPass.arg,
        .int32 pChan.nPtziPos, .int32 pChan.nPtztPos, .int32 pChan.nHLimit, .int32 nChanId]

/-! ## Rules -/

/-- The statement of `AddRuleInfo`; the table is the channel table. -/
def addRuleInfoSql (pChan : LinkData) : Option (List Char) :=
  sprintf_s 1024
    ("INSERT INTO \"%s\" VALUES( NULL, %d, %d, %d, %d, \"%s\", \"%s\", \"%s\", \"%s\", " ++
     "\"%s\", \"%s\", \"%s\", \"%s\", \"%s\", \"%s\", \"%s\", \"%s\", \"%s\", \"%s\", \"%s\" )")
    [.str TBCHAN, .int32 pChan.nAnaChannel, .int32 pChan.nAnaMainType, .int32 pChan.nAnaSubType,
      .int32 pChan.nLineNum, (pChan.szBZSLineType 0).arg, (pChan.szBZSLineType 1).arg,
      (pChan.szBZSLineType 2).arg, (pChan.szBZSLineType 3).arg, (pChan.szBZSLineType 4).arg,
      (pChan.szBZSLineType_2 0).arg, (pChan.szBZSLineType_2 1).arg, (pChan.szBZSLineType_2 2).arg,
      (pChan.szBZSLineType_2 3).arg, (pChan.szBZSLineType_2 4).arg, (pChan.szAlarmDirect 0).arg,
      (pChan.szAlarmDirect 1).arg, (pChan.szAlarmDirect 2).arg, (pChan.szAlarmDirect 3).arg,
      (pChan.szAlarmDirect 4).arg]

/-- The query of `SetRuleInfo`. -/
def findRuleSql (nChanId : Int32) (pChan : LinkData) : Option (List Char) :=
  sprintf_s 1024 "SELECT * FROM %s WHERE anachannel=%d AND anamaintype=%d AND anasubtype=%d"
    [.str TBRULE, .int32 nChanId, .int32 pChan.nAnaMainType, .int32 pChan.nAnaSubType]

/-- The statement of `SetRuleInfo`, after its query has found rows of the rule or not. -/
def setRuleInfoSql (nChanId : Int32) (found : Bool) (pChan : LinkData) : Option (List Char) :=
  if !found then
    sprintf_s 1024
      ("INSERT INTO %s VALUES (NULL, %d, %d, %d, %d, '%s', '%s', '%s', '%s', '%s', " ++
       "'%s', '%s', '%s', '%s', '%s', '%s', '%s', '%s', '%s', '%s', %d)")
      [.str TBRULE, .int32 nChanId, .int32 pChan.nAnaMainType, .int32 pChan.nAnaSubType,
        .int32 pChan.nLineNum, (pChan.szBZSLineType 0).arg, (pChan.szBZSLineType 1).arg,
        (pChan.szBZSLineType 2).arg, (pChan.szBZSLineType 3).arg, (pChan.szBZSLineType 4).arg,
        (pChan.szBZSLineType_2 0).arg, (pChan.szBZSLineType_2 1).arg,
        (pChan.szBZSLineType_2 2).arg, (pChan.szBZSLineType_2 3).arg,
        (pChan.szBZSLineType_2 4).arg, (pChan.szAlarmDirect 0).arg, (pChan.szAlarmDirect 1).arg,
        (pChan.szAlarmDirect 2).arg, (pChan.szAlarmDirect 3).arg, (pChan.szAlarmDirect 4).arg,
        .int32 pChan.nHLimit]
  else
    sprintf_s 1024
      ("UPDATE %s SET linenum=%d, line1_1='%s', line1_2='%s', line1_3='%s', " ++
       "line1_4='%s', line1_5='%s', line2_1='%s', line2_2='%s', line2_3='%s', line2_4='%s', " ++
       "line2_5='%s', direct_1='%s', direct_2='%s', direct_3='%s', direct_4='%s', direct_5='%s', " ++
       "hlimit=%d WHERE anachannel = %d AND anamaintype=%d AND anasubtype=%d")
      [.str TBRULE, .int32 pChan.nLineNum, (pChan.szBZSLineType 0).arg,
        (pChan.szBZSLineType 1).arg, (pChan.szBZSLineType 2).arg, (pChan.szBZSLineType 3).arg,
        (pChan.szBZSLineType 4).arg, (pChan.szBZSLineType_2 0).arg,
        (pChan.szBZSLineType_2 1).arg, (pChan.szBZSLineType_2 2).arg,
        (pChan.szBZSLineType_2 3).arg, (pChan.szBZSLineType_2 4).arg,
        (pChan.szAlarmDirect 0).arg, (pChan.szAlarmDirect 1).arg, (pChan.szAlarmDirect 2).arg,
        (pChan.szAlarmDirect 3).arg, (pChan.szAlarmDirect 4).arg, .int32 pChan.nHLimit,
        .int32 nChanId, .int32 pChan.nAnaMainType, .int32 pChan.nAnaSubType]

/-! ## Filters

The queries and the deletions begin with a statement for the whole table and append a
condition for each selector of the record that is positive. -/

/-- One condition: `bMulti` says whether it is not the first one. -/
def appendFilter (selector : Int32) (andFormat : String) (andArg : Int32) (whereFormat : String)
    (whereArg : Int32) : List Char × Bool → Option (List Char × Bool)
  | (szSql, bMulti) =>
      if selector > 0 then
        if bMulti then
          (sprintf_s 1024 andFormat [.str szSql, .int32 andArg]).map (·, bMulti)
        else (sprintf_s 1024 whereFormat [.str szSql, .int32 whereArg]).map (·, true)
      else some (szSql, bMulti)

/-- The first condition of all the functions. -/
def firstFilter (selector : Int32) (whereFormat : String) (szSql : List Char) :
    Option (List Char × Bool) :=
  if selector > 0 then
    (sprintf_s 1024 whereFormat [.str szSql, .int32 selector]).map (·, true)
  else some (szSql, false)

/-- The statement of `DelLinkInfo`; both conditions are on `anachannel`. -/
def delLinkInfoSql (pInfo : LinkData) : Option (List Char) := do
  let szSql ← sprintf_s 1024 "DELETE FROM \"%s\"" [.str TBCHAN]
  let st ← firstFilter pInfo.id "%s WHERE anachannel = %d" szSql
  let st ← appendFilter pInfo.nAnaChannel "%s AND anachannel = %d" pInfo.nAnaChannel
    "%s WHERE anachannel = %d" pInfo.nAnaChannel st
  pure st.1

/-- The query of `GetLinkInfo`. -/
def getLinkInfoSql (pInfo : LinkData) : Option (List Char) := do
  let szSql ← sprintf_s 1024 "SELECT * FROM %s" [.str TBCHAN]
  let st ← firstFilter pInfo.id "%s WHERE id = %d" szSql
  let st ← appendFilter pInfo.nAnaChannel "%s AND anachannel = %d" pInfo.nAnaChannel
    "%s WHERE anachannel = %d" pInfo.nAnaChannel st
  pure st.1

/-- The query of `GetRuleInfo`.  Where the main type is the first condition, its value is that of
the sub type. -/
def getRuleInfoSql (pInfo : LinkData) : Option (List Char) := do
  let szSql ← sprintf_s 1024 "SELECT * FROM %s" [.str TBRULE]
  let st ← firstFilter pInfo.id "%s WHERE id = %d" szSql
  let st ← appendFilter pInfo.nAnaChannel "%s AND anachannel = %d" pInfo.nAnaChannel
    "%s WHERE anachannel = %d" pInfo.nAnaChannel st
  let st ← appendFilter pInfo.nAnaMainType "%s AND anamaintype = %d" pInfo.nAnaMainType
    "%s WHERE anamaintype = %d" pInfo.nAnaSubType st
  let st ← appendFilter pInfo.nAnaSubType "%s AND anasubtype = %d" pInfo.nAnaSubType
    "%s WHERE anasubtype = %d" pInfo.nAnaSubType st
  pure st.1

/-- The statement of `DelRuleInfo`.  The types are a condition only together. -/
def delRuleInfoSql (pInfo : LinkData) : Option (List Char) := do
  let szSql ← sprintf_s 1024 "DELETE FROM \"%s\"" [.str TBRULE]
  let st ← firstFilter pInfo.id "%s WHERE id = %d" szSql
  let st ← appendFilter pInfo.nAnaChannel "%s AND anachannel = %d" pInfo.nAnaChannel
    "%s WHERE anachannel = %d" pInfo.nAnaChannel st
  if pInfo.nAnaMainType > 0 && pInfo.nAnaSubType > 0 then
    if st.2 then
      sprintf_s 1024 "%s AND anamaintype=%d and anasubtype=%d"
        [.str st.1, .int32 pInfo.nAnaMainType, .int32 pInfo.nAnaSubType]
    else
      sprintf_s 1024 "%s WHERE anamaintype=%d and anasubtype=%d"
        [.str st.1, .int32 pInfo.nAnaMainType, .int32 pInfo.nAnaSubType]
  else pure st.1

end CodeToolKit.HwbrapSqlite
