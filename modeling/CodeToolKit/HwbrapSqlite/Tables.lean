import CodeToolKit.HwbrapSqlite.Compose
import CodeToolKit.HwbrapSqlite.ZenoSQL

/-!
# The tables of `CreateTable`

`table_channels` with a row for each linked device and `table_rules` with a row for each rule.
-/

namespace CodeToolKit.HwbrapSqlite

open CodeToolKit.SQL CodeToolKit.Lib

/-- A column of integers. -/
def intColumn (name : String) : Column := ⟨name.toList, .integer⟩

/-- A column of strings. -/
def textColumn (name : String) : Column := ⟨name.toList, .text⟩

/-- The columns of `table_channels` after `id`. -/
def channelColumns : List Column :=
  [intColumn "anachannel", textColumn "devicename", textColumn "deviceip", intColumn "deviceport",
    intColumn "devicechan", textColumn "devicemanu", textColumn "loginuser",
    textColumn "loginpass", intColumn "ptzipos", intColumn "ptztpos", intColumn "hlimit"]

/-- The columns of `table_rules` after `id`. -/
def ruleColumns : List Column :=
  [intColumn "anachannel", intColumn "anamaintype", intColumn "anasubtype", intColumn "linenum",
    textColumn "line1_1", textColumn "line1_2", textColumn "line1_3", textColumn "line1_4",
    textColumn "line1_5", textColumn "line2_1", textColumn "line2_2", textColumn "line2_3",
    textColumn "line2_4", textColumn "line2_5", textColumn "direct_1", textColumn "direct_2",
    textColumn "direct_3", textColumn "direct_4", textColumn "direct_5", intColumn "hlimit"]

/-- `CreateTable`: the value of the second statement is returned. -/
def createTable (db : Database) : Option (Database × ℤ) := do
  let (db, _) ← createChannelsSql >>= sqliteExec db
  createRulesSql >>= sqliteExec db

/-- A table of `CreateTable`, with any rows. -/
structure HasColumns (t : Table) (columns : List Column) : Prop where
  key : t.key = "id".toList
  columns : t.columns = columns

/-- The columns are found where they are in the table without rows. -/
theorem HasColumns.find_eq {t : Table} {columns : List Column} (h : HasColumns t columns) :
    t.find = (Table.empty "id".toList columns).find := by
  funext name
  rw [Table.find, Table.find, h.key, h.columns]
  rfl

/-- A database with the tables of `CreateTable`, whatever is in them. -/
structure Created (db : Database) : Prop where
  channels : ∃ t, db TBCHAN = some t ∧ HasColumns t channelColumns
  rules : ∃ t, db TBRULE = some t ∧ HasColumns t ruleColumns

theorem parse_createChannels :
    (createChannelsSql >>= parse) = some (.createTable TBCHAN "id".toList channelColumns) := by
  rw [createChannelsSql, sprintf_s, toList_append_ofList (toList_append_ofList
    (toList_append_ofList String.toList_ofList))]
  decide +kernel

theorem parse_createRules :
    (createRulesSql >>= parse) = some (.createTable TBRULE "id".toList ruleColumns) := by
  rw [createRulesSql, sprintf_s, toList_append_ofList (toList_append_ofList (toList_append_ofList
    (toList_append_ofList (toList_append_ofList String.toList_ofList))))]
  decide +kernel

/-- The tables of `CreateTable`, without rows. -/
def createdTables (db : Database) : Database :=
  Function.update (Function.update db TBCHAN (some (.empty "id".toList channelColumns)))
    TBRULE (some (.empty "id".toList ruleColumns))

theorem TBRULE_ne_TBCHAN : TBRULE ≠ TBCHAN := by decide

theorem createdTables_channels (db : Database) :
    createdTables db TBCHAN = some (.empty "id".toList channelColumns) := by
  rw [createdTables, Function.update_of_ne TBRULE_ne_TBCHAN.symm, Function.update_self]

theorem createdTables_rules (db : Database) :
    createdTables db TBRULE = some (.empty "id".toList ruleColumns) := Function.update_self _ _ _

/-- The first statement of `CreateTable`. -/
theorem bind_createChannels {db : Database} (h : db TBCHAN = none) :
    (createChannelsSql >>= sqliteExec db) =
      some (Function.update db TBCHAN (some (.empty "id".toList channelColumns)), 0) := by
  refine bind_sqliteExec parse_createChannels ?_
  rw [exec, h]
  rfl

/-- The second statement of `CreateTable`. -/
theorem bind_createRules {db : Database} (h : db TBRULE = none) :
    (createRulesSql >>= sqliteExec db) =
      some (Function.update db TBRULE (some (.empty "id".toList ruleColumns)), 0) := by
  refine bind_sqliteExec parse_createRules ?_
  rw [exec, h]
  rfl

/-- **On a database without the tables `CreateTable` makes them.** -/
theorem createTable_eq {db : Database} (hchannels : db TBCHAN = none) (hrules : db TBRULE = none) :
    createTable db = some (createdTables db, 0) := by
  rw [createTable, bind_createChannels hchannels, Option.bind_eq_bind, Option.bind_some]
  refine bind_createRules ?_
  rw [Function.update_of_ne TBRULE_ne_TBCHAN, hrules]

theorem created_createdTables (db : Database) : Created (createdTables db) :=
  ⟨⟨_, createdTables_channels db, rfl, rfl⟩, _, createdTables_rules db, rfl, rfl⟩

theorem created_createTable {db : Database} (hchannels : db TBCHAN = none)
    (hrules : db TBRULE = none) : ∃ db', createTable db = some (db', 0) ∧ Created db' :=
  ⟨createdTables db, createTable_eq hchannels hrules, created_createdTables db⟩

end CodeToolKit.HwbrapSqlite
