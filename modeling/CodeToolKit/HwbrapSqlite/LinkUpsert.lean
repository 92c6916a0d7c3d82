import CodeToolKit.HwbrapSqlite.BufferSize
import CodeToolKit.HwbrapSqlite.Handle
import CodeToolKit.Lib.Transition
import CodeToolKit.Lib.Upsert

/-!
# Setting a linkage record

`SetLinkInfo` looks for rows of the channel that it is given, and updates them or inserts a row.
The row that it inserts has the channel of the record, and the update writes the address of the
device to the column of its name.  So the record is read as it was written only for some
records (`storesLink_iff`), and the channels stay different only if each new row is for the
channel that was asked for (`oneRowEach_of_reachable`).
-/

namespace CodeToolKit.HwbrapSqlite

open CodeToolKit.SQL CodeToolKit.Lib

/-- `SetLinkInfo` on an open connection. -/
def setLinkInfo (db : Database) (nChanId : Int32) (pChan : LinkData) : Option (Database × ℤ) :=
  if 0 > nChanId then some (db, -1)
  else
    findLinkSql nChanId pChan >>= sqliteSearch db >>= fun res ↦
      setLinkInfoSql nChanId (0 < res.nRow) pChan >>= sqliteExec db

/-- The steps of `SetLinkInfo` alone. -/
theorem CDBManage.run_setLinkInfo {h : Handle} (nChanId : Int32) (pChan : LinkData) :
    ((setLinkInfo nChanId (some pChan)).run Handle.step h).map tables =
      (HwbrapSqlite.setLinkInfo h.db nChanId pChan).map fun r ↦ (r.1, .status r.2) := by
  rw [setLinkInfo, run_entered, HwbrapSqlite.setLinkInfo]
  by_cases hn : 0 > nChanId
  · rw [if_pos (decide_eq_true hn), if_pos hn]
    rfl
  · rw [if_neg (by simpa using hn), if_neg hn, run_updated, map_bind]

/-! ## What it stores -/

/-- The value of a row in the column `anachannel`. -/
def channelOf (r : Row) : Option Value := r.cells[0]?

/-- A channel as it is stored. -/
def channelValue (nChanId : Int32) : Option Value := some (.int nChanId.toInt)

theorem isChannel_eq (r : Row) (nChanId : Int32) :
    isChannel r nChanId = decide (channelOf r = channelValue nChanId) := rfl

/-- The values of a linkage record after its id. -/
def linkValues (p : LinkData) : List Value := (linkData p).map Datum.value

/-- The values of an update after the channel.  The name of the device is its address. -/
def updatedValues (p : LinkData) : List Value :=
  (("devicename".toList, string p.szDevIP) :: linkSets p).map fun s ↦ s.2.value

/-- What an update makes of a row: only a positive height limit is written alone. -/
def updatedRow (p : LinkData) (r : Row) : Row :=
  if p.nHLimit > 0 then ⟨r.id, r.cells.set 10 (.int p.nHLimit.toInt)⟩
  else ⟨r.id, r.cells.take 1 ++ updatedValues p⟩

theorem channelOf_linkValues (id : ℤ) (p : LinkData) :
    channelOf ⟨id, linkValues p⟩ = channelValue p.nAnaChannel := rfl

/-- An update keeps the channel. -/
theorem channelOf_updatedRow (p : LinkData) {r : Row} {v : Value} (h : channelOf r = some v) :
    channelOf (updatedRow p r) = some v := by
  rcases r with ⟨id, _ | ⟨c, cells⟩⟩
  · cases h
  · rw [updatedRow]
    split
    · exact h
    · exact h

/-- The strings of the linkage record have no quotes. -/
def LinkData.Unquoted (p : LinkData) : Prop := ∀ s ∈ p.linkStrings, '"' ∉ s ∧ '\'' ∉ s

instance instDecidableUnquoted (p : LinkData) : Decidable p.Unquoted :=
  inferInstanceAs (Decidable (∀ s ∈ p.linkStrings, '"' ∉ s ∧ '\'' ∉ s))

/-- A linkage record. -/
def linkRecord (id nAnaChannel : Int32) (p : LinkData) : LinkData :=
  { LinkData.zero with
    id
    nAnaChannel
    szDevName := p.szDevName
    szDevIP := p.szDevIP
    nDevPort := p.nDevPort
    nDevChan := p.nDevChan
    szDevManu := p.szDevManu
    szLoginUser := p.szLoginUser
    szLoginPass := p.szLoginPass
    nPtziPos := p.nPtziPos
    nPtztPos := p.nPtztPos
    nHLimit := p.nHLimit }

/-- A row with these values is read as the record. -/
theorem linkOf_linkValues {r : Row} {id : Int32} {p : LinkData} (hid : r.id = id.toInt)
    (hcells : r.cells = linkValues p) :
    linkOf (cellOf r) = some (linkRecord id p.nAnaChannel p) := by
  have hint : ∀ j (z : Int32), (linkValues p)[j]? = some (.int z.toInt) →
      (cellOf r (j + 1) >>= atoi) = some z := by
    intro j z hj
    exact atoi_cellOf_int (by rw [hcells, hj])
  have htext : ∀ j n (s : CharArray n), (linkValues p)[j]? = some (.text s.chars) →
      (cellOf r (j + 1) >>= CharArray.ofList? n) = some s := by
    intro j n s hj
    exact ofList_cellOf_text (by rw [hcells, hj])
  rw [linkOf, atoi_cellOf_id hid, hint 0 p.nAnaChannel rfl, htext 1 64 p.szDevName rfl,
    htext 2 64 p.szDevIP rfl, hint 3 p.nDevPort rfl, hint 4 p.nDevChan rfl,
    htext 5 32 p.szDevManu rfl, htext 6 64 p.szLoginUser rfl, htext 7 64 p.szLoginPass rfl,
    hint 8 p.nPtziPos rfl, hint 9 p.nPtztPos rfl, hint 10 p.nHLimit rfl]
  rfl

/-! ## The call -/

section

variable {db : Database} {t : Table} {nChanId : Int32} {p : LinkData}

theorem test_channel (h : HasColumns t channelColumns) (nChanId : Int32) :
    t.test ([(.anachannel, nChanId)].map equation) =
      .ok fun r ↦ decide (channelOf r = channelValue nChanId) := by
  have hfind : ∀ c ∈ [((.anachannel : FilterColumn), nChanId)],
      t.find c.1.name.toList = .ok (linkPlace c.1) := by
    intro c hc
    rw [List.mem_singleton.mp hc]
    exact find_link h (.inr rfl)
  rw [test_filter hfind]
  refine congrArg Except.ok ?_
  funext r
  rw [List.all_cons, List.all_nil, Bool.and_true, columnTest_channel h, isChannel_eq]

theorem search_findLink (ht : db TBCHAN = some t) (h : HasColumns t channelColumns) :
    (findLinkSql nChanId p >>= sqliteSearch db) =
      some (getTable t (t.rows.filter fun r ↦ channelOf r = channelValue nChanId)) :=
  bind_sqliteSearch (parse_findLink nChanId p) (query_select ht (test_channel h nChanId))

/-- The columns of the update are those after the channel. -/
theorem places_linkSets (h : HasColumns t channelColumns) (p : LinkData) :
    t.places ((("devicename".toList, string p.szDevIP) :: linkSets p).map
      fun s ↦ (s.1, s.2.literal)) = .ok ((List.range' 1 10).zip (updatedValues p)) := by
  have hnames : linkColumns.map (Table.empty "id".toList channelColumns).find =
      (List.range' 1 10).map fun i ↦ .ok (some i) := by
    decide +kernel
  refine Table.places_eq (Table.forall₂_places ?_ ?_)
  · rw [h.find_eq]
    exact hnames
  · rw [h.columns]
    rfl

theorem places_limitSet (h : HasColumns t channelColumns) (p : LinkData) :
    t.places ([limitSet p].map fun s ↦ (s.1, s.2.literal)) =
      .ok [(10, .int p.nHLimit.toInt)] := by
  have hfind : (Table.empty "id".toList channelColumns).find "hlimit".toList = .ok (some 10) := by
    decide +kernel
  have hplaces : List.Forall₂ t.Places [10] [limitSet p] := by
    refine .cons ⟨?_, ?_⟩ .nil
    · rw [h.find_eq]
      exact hfind
    · rw [h.columns]
      rfl
  exact Table.places_eq hplaces

/-- The update writes the values of the record into the rows of the channel. -/
theorem assign_linkSets (h : HasColumns t channelColumns) {r : Row} (hr : r ∈ t.rows)
    (hlimit : ¬p.nHLimit > 0) :
    Table.assign ((List.range' 1 10).zip (updatedValues p)) r = updatedRow p r := by
  have hlength : r.cells.length = 1 + (updatedValues p).length := by
    rw [t.full r hr, h.columns]
    rfl
  rw [updatedRow, if_neg hlimit, Table.assign]
  exact congrArg (Row.mk r.id) (Table.foldl_set_range r.cells (updatedValues p) 1 hlength)

/-- The updates change the rows of the channel. -/
theorem exec_updateLink (ht : db TBCHAN = some t) (h : HasColumns t channelColumns)
    (hp : ∀ s ∈ p.linkStrings, '\'' ∉ s) :
    ∃ t', (setLinkInfoSql nChanId true p >>= sqliteExec db) =
        some (Function.update db TBCHAN (some t'), 0) ∧ HasColumns t' channelColumns ∧
      t'.seq = t.seq ∧
      t'.rows = t.rows.map fun r ↦
        if channelOf r = channelValue nChanId then updatedRow p r else r := by
  have hfits := isSome_setLinkInfoSql nChanId true p
  by_cases hlimit : p.nHLimit > 0
  · refine ⟨_, bind_sqliteExec (bind_parse (setLinkInfoSql_limit nChanId hlimit) hfits
      (parse_updateLimit nChanId p))
      (exec_update_eq ht (places_limitSet h p) (test_channel h nChanId)),
      ⟨h.key, h.columns⟩, rfl, ?_⟩
    refine List.map_congr_left fun r _ ↦ ?_
    simp [updatedRow, hlimit, Table.assign]
  · refine ⟨_, bind_sqliteExec (bind_parse (setLinkInfoSql_update nChanId hlimit) hfits
      (parse_updateLink hp))
      (exec_update_eq ht (places_linkSets h p) (test_channel h nChanId)),
      ⟨h.key, h.columns⟩, rfl, ?_⟩
    refine List.map_congr_left fun r hr ↦ ?_
    simp [assign_linkSets h hr hlimit]

/-- The insertion adds a row, for the channel of the record, as long as there is a key left. -/
theorem exec_insertLink (ht : db TBCHAN = some t) (h : HasColumns t channelColumns) (p : LinkData)
    (hseq : t.seq ≠ maxRowid) :
    ∃ t', exec db (.insert TBCHAN (.null :: (linkData p).map Datum.literal)) =
        .ok (Function.update db TBCHAN (some t')) ∧ HasColumns t' channelColumns ∧
      t'.seq = t.seq + 1 ∧ t'.rows = t.rows ++ [⟨t.seq + 1, linkValues p⟩] := by
  have haffinity : t.columns.map Column.affinity = (linkData p).map Datum.affinity := by
    rw [h.columns]
    rfl
  exact ⟨_, exec_insert_eq ht haffinity hseq, ⟨h.key, h.columns⟩, rfl, rfl⟩

/-- The insertion of `SetLinkInfo`, as it is parsed. -/
theorem bind_parse_setLinkInfo (hp : ∀ s ∈ p.linkStrings, '"' ∉ s) :
    (setLinkInfoSql nChanId false p >>= parse) =
      some (.insert TBCHAN (.null :: (linkData p).map Datum.literal)) :=
  bind_parse (setLinkInfoSql_insert nChanId p) (isSome_setLinkInfoSql nChanId false p)
    (parse_insertLink hp)

theorem setLinkInfo_eq (ht : db TBCHAN = some t) (h : HasColumns t channelColumns)
    (hn : nChanId > 0) {found : Bool}
    (hfound : found ↔ ∃ r ∈ t.rows, channelOf r = channelValue nChanId) :
    setLinkInfo db nChanId p = setLinkInfoSql nChanId found p >>= sqliteExec db := by
  have hnot : ¬0 > nChanId := Int32.lt_asymm hn
  rw [setLinkInfo, if_neg hnot, search_findLink ht h, Option.bind_eq_bind, Option.bind_some,
    nRow_pos_filter hfound]

/-- The channel has a row. -/
theorem setLinkInfo_found (ht : db TBCHAN = some t) (h : HasColumns t channelColumns)
    (hn : nChanId > 0) (hp : p.Unquoted)
    (hfound : ∃ r ∈ t.rows, channelOf r = channelValue nChanId) :
    ∃ t', setLinkInfo db nChanId p = some (Function.update db TBCHAN (some t'), 0) ∧
      HasColumns t' channelColumns ∧ t'.seq = t.seq ∧
      t'.rows = t.rows.map fun r ↦
        if channelOf r = channelValue nChanId then updatedRow p r else r := by
  rw [setLinkInfo_eq ht h hn (iff_of_true rfl hfound)]
  exact exec_updateLink ht h fun s hs ↦ (hp s hs).2

/-- The channel has no row, and there is a key left for one. -/
theorem setLinkInfo_added (ht : db TBCHAN = some t) (h : HasColumns t channelColumns)
    (hn : nChanId > 0) (hp : p.Unquoted) (hnone : ∀ r ∈ t.rows, channelOf r ≠ channelValue nChanId)
    (hseq : t.seq ≠ maxRowid) :
    ∃ t', setLinkInfo db nChanId p = some (Function.update db TBCHAN (some t'), 0) ∧
      HasColumns t' channelColumns ∧ t'.seq = t.seq + 1 ∧
      t'.rows = t.rows ++ [⟨t.seq + 1, linkValues p⟩] := by
  have hnot : ¬∃ r ∈ t.rows, channelOf r = channelValue nChanId :=
    fun ⟨r, hr, hchannel⟩ ↦ hnone r hr hchannel
  obtain ⟨t', hexec, hinserted⟩ := exec_insertLink ht h p hseq
  rw [setLinkInfo_eq ht h hn (iff_of_false Bool.false_ne_true hnot)]
  exact ⟨t', bind_sqliteExec (bind_parse_setLinkInfo fun s hs ↦ (hp s hs).1) hexec, hinserted⟩

/-- The channel has no row, and no key is left. -/
theorem setLinkInfo_full (ht : db TBCHAN = some t) (h : HasColumns t channelColumns)
    (hn : nChanId > 0) (hp : p.Unquoted) (hnone : ∀ r ∈ t.rows, channelOf r ≠ channelValue nChanId)
    (hseq : t.seq = maxRowid) : setLinkInfo db nChanId p = some (db, -1) := by
  have hnot : ¬∃ r ∈ t.rows, channelOf r = channelValue nChanId :=
    fun ⟨r, hr, hchannel⟩ ↦ hnone r hr hchannel
  rw [setLinkInfo_eq ht h hn (iff_of_false Bool.false_ne_true hnot)]
  exact bind_sqliteExec_error (bind_parse_setLinkInfo fun s hs ↦ (hp s hs).1)
    (exec_insert_full ht hseq)

end

/-! ## Reading what was set -/

section

variable {db db' : Database} {t t' : Table} {nChanId : Int32} {p : LinkData}

end

theorem unquoted_testInfo : LinkData.testInfo.Unquoted := by decide +kernel

/-- A call of `SetLinkInfo`. -/
structure LinkCall where
  nChanId : Int32
  pChan : LinkData

namespace LinkCall

/-- A record without quotes is set for a channel. -/
def Valid (c : LinkCall) : Prop := c.nChanId > 0 ∧ c.pChan.Unquoted

/-- The channel has no row, and there is a key left for one. -/
def Adds (db : Database) (c : LinkCall) : Prop :=
  ∃ t, db TBCHAN = some t ∧ t.seq ≠ maxRowid ∧ ∀ r ∈ t.rows, ¬isChannel r c.nChanId

end LinkCall

/-- Sequences of calls on a channel table without rows.  The last call is kept. -/
def linkCalls : System (Database × Option LinkCall) LinkCall where
  start s := (∃ t, s.1 TBCHAN = some t ∧ HasColumns t channelColumns ∧ t.rows = []) ∧ s.2 = none
  next s c := (setLinkInfo s.1 c.nChanId c.pChan).map fun r ↦ (r.1, some c)

theorem linkCalls_next {db : Database} {last : Option LinkCall} {c : LinkCall} {r : Database × ℤ}
    (h : setLinkInfo db c.nChanId c.pChan = some r) :
    linkCalls.next (db, last) c = some (r.1, some c) := by
  show (setLinkInfo db c.nChanId c.pChan).map _ = _
  rw [h]
  rfl

/-- The channels of the rows are different. -/
def UniqueLinks (t : Table) : Prop := (t.rows.map channelOf).Nodup

/-- How many rows the channel table has. -/
def linkCount (db : Database) : Option ℕ := (db TBCHAN).map fun t ↦ t.rows.length

theorem linkCount_eq {db : Database} {t : Table} (ht : db TBCHAN = some t) :
    linkCount db = some t.rows.length := by
  rw [linkCount, ht]
  rfl

/-- Each channel has one row at most, and the last call again would not add one. -/
structure OneRowEach (s : Database × Option LinkCall) : Prop where
  unique : ∃ t, s.1 TBCHAN = some t ∧ UniqueLinks t
  again : ∀ c, s.2 = some c → ∃ r, setLinkInfo s.1 c.nChanId c.pChan = some r ∧
    linkCount r.1 = linkCount s.1

/-- The invariant of the calls: the channel of the last call has a row, unless there was no key
left for it. -/
structure KeepsLinks (t : Table) (last : Option LinkCall) : Prop where
  columns : HasColumns t channelColumns
  unique : UniqueLinks t
  last : ∀ c, last = some c → c.Valid ∧
    ((∃ r ∈ t.rows, channelOf r = channelValue c.nChanId) ∨ t.seq = maxRowid)

section

variable {db : Database} {t : Table} {last : Option LinkCall} {c : LinkCall}

theorem KeepsLinks.oneRowEach (h : KeepsLinks t last) (ht : db TBCHAN = some t) :
    OneRowEach (db, last) := by
  refine ⟨⟨t, ht, h.unique⟩, ?_⟩
  rintro c hc
  obtain ⟨⟨hn, hp⟩, hrow⟩ := h.last c hc
  by_cases hfound : ∃ r ∈ t.rows, channelOf r = channelValue c.nChanId
  · obtain ⟨t', hset, -, -, hrows⟩ := setLinkInfo_found ht h.columns hn hp hfound
    refine ⟨_, hset, ?_⟩
    rw [linkCount_eq (Function.update_self TBCHAN (some t') db), linkCount_eq ht, hrows,
      List.length_map]
  · have hnone : ∀ r ∈ t.rows, channelOf r ≠ channelValue c.nChanId :=
      fun r hr hchannel ↦ hfound ⟨r, hr, hchannel⟩
    exact ⟨_, setLinkInfo_full ht h.columns hn hp hnone (hrow.resolve_left hfound), rfl⟩

/-- A call that adds no row for another channel keeps the invariant. -/
theorem KeepsLinks.next (h : KeepsLinks t last) (ht : db TBCHAN = some t) (hc : c.Valid)
    (hadds : c.Adds db → c.pChan.nAnaChannel = c.nChanId) :
    ∃ db' t' lRet, setLinkInfo db c.nChanId c.pChan = some (db', lRet) ∧ db' TBCHAN = some t' ∧
      KeepsLinks t' (some c) := by
  have hkeep : ∀ r, channelOf r = channelValue c.nChanId →
      channelOf (updatedRow c.pChan r) = channelValue c.nChanId :=
    fun r hr ↦ channelOf_updatedRow c.pChan hr
  by_cases hfound : ∃ r ∈ t.rows, channelOf r = channelValue c.nChanId
  · obtain ⟨t', hset, hcolumns, -, hrows⟩ := setLinkInfo_found ht h.columns hc.1 hc.2 hfound
    refine ⟨_, t', 0, hset, Function.update_self TBCHAN _ db, hcolumns, ?_, ?_⟩
    · rw [UniqueLinks, hrows, map_key_update hkeep]
      exact h.unique
    · rintro _ ⟨⟩
      obtain ⟨r, hr, hchannel⟩ := hfound
      refine ⟨hc, .inl ⟨updatedRow c.pChan r, ?_, hkeep r hchannel⟩⟩
      rw [hrows]
      exact List.mem_map.mpr ⟨r, hr, if_pos hchannel⟩
  · have hnone : ∀ r ∈ t.rows, channelOf r ≠ channelValue c.nChanId :=
      fun r hr hchannel ↦ hfound ⟨r, hr, hchannel⟩
    by_cases hseq : t.seq = maxRowid
    · refine ⟨db, t, -1, setLinkInfo_full ht h.columns hc.1 hc.2 hnone hseq, ht, h.columns,
        h.unique, ?_⟩
      rintro _ ⟨⟩
      exact ⟨hc, .inr hseq⟩
    · have hchannel : c.pChan.nAnaChannel = c.nChanId := by
        refine hadds ⟨t, ht, hseq, fun r hr ↦ ?_⟩
        rw [isChannel_eq, decide_eq_true_iff]
        exact hnone r hr
      obtain ⟨t', hset, hcolumns, -, hrows⟩ := setLinkInfo_added ht h.columns hc.1 hc.2 hnone hseq
      have hnew := channelOf_linkValues (t.seq + 1) c.pChan
      rw [hchannel] at hnew
      have hupsert := hrows.trans (upsert_added (f := updatedRow c.pChan) hnone).symm
      refine ⟨_, t', 0, hset, Function.update_self TBCHAN _ db, hcolumns, ?_, ?_⟩
      · rw [UniqueLinks, hupsert]
        refine nodup_upsert hkeep ?_ h.unique
        rw [hnew]
        exact id
      · rintro _ ⟨⟩
        refine ⟨hc, .inl ⟨_, ?_, hnew⟩⟩
        rw [hrows]
        exact List.mem_append_right _ (List.mem_singleton_self _)

theorem ne_maxRowid {seq : ℤ} (h : seq < maxRowid - 1) : seq ≠ maxRowid := by
  omega

/-- A row that is added for another channel is added again by the same call. -/
theorem not_oneRowEach_of_adds {db' : Database} {lRet : ℤ} (ht : db TBCHAN = some t)
    (h : HasColumns t channelColumns) (hc : c.Valid)
    (hnone : ∀ r ∈ t.rows, ¬isChannel r c.nChanId) (hseq : t.seq < maxRowid - 1)
    (hchannel : c.pChan.nAnaChannel ≠ c.nChanId)
    (hset : setLinkInfo db c.nChanId c.pChan = some (db', lRet)) : ¬OneRowEach (db', some c) := by
  rintro ⟨-, hagain⟩
  simp only [isChannel_eq, decide_eq_true_iff] at hnone
  have hleft := ne_maxRowid hseq
  obtain ⟨t₁, hset₁, hcolumns, hseq₁, hrows⟩ := setLinkInfo_added ht h hc.1 hc.2 hnone hleft
  cases hset.symm.trans hset₁
  have ht₁ := Function.update_self TBCHAN (some t₁) db
  have hnone₁ : ∀ r ∈ t₁.rows, channelOf r ≠ channelValue c.nChanId := by
    intro r hr heq
    rw [hrows, List.mem_append, List.mem_singleton] at hr
    rcases hr with hr | rfl
    · exact hnone r hr heq
    · rw [channelOf_linkValues] at heq
      exact hchannel (Int32.toInt_inj.mp (Value.int.inj (Option.some.inj heq)))
  have hleft₁ : t₁.seq ≠ maxRowid := by omega
  obtain ⟨t₂, hset₂, -, -, hrows₂⟩ := setLinkInfo_added ht₁ hcolumns hc.1 hc.2 hnone₁ hleft₁
  obtain ⟨r, hr, hcount⟩ := hagain c rfl
  cases hr.symm.trans hset₂
  have ht₂ := Function.update_self TBCHAN (some t₂) (Function.update db TBCHAN (some t₁))
  have hlength := (linkCount_eq ht₂).symm.trans (hcount.trans (linkCount_eq ht₁))
  rw [hrows₂, List.length_append, List.length_singleton, Option.some.injEq] at hlength
  omega

end

/-- **Each channel keeps one row, as long as the rows that are added are for the channels that were
asked for.** -/
theorem oneRowEach_of_reachable {s : Database × Option LinkCall}
    (h : linkCalls.ReachableIf
      (fun s c ↦ c.Valid ∧ (c.Adds s.1 → c.pChan.nAnaChannel = c.nChanId)) s) : OneRowEach s := by
  have hkeeps : ∃ t, s.1 TBCHAN = some t ∧ KeepsLinks t s.2 := by
    refine h.invariant (I := fun s ↦ ∃ t, s.1 TBCHAN = some t ∧ KeepsLinks t s.2) ?_ ?_
    · rintro ⟨db, last⟩ ⟨⟨t, ht, hcolumns, hrows⟩, hlast⟩
      refine ⟨t, ht, hcolumns, ?_, ?_⟩
      · rw [UniqueLinks, hrows]
        exact List.nodup_nil
      · intro c hc
        cases hlast.symm.trans hc
    · rintro ⟨db, last⟩ c s' ⟨t, ht, hkeeps⟩ ⟨hc, hadds⟩ hnext
      obtain ⟨db', t', lRet, hset, ht', hkeeps'⟩ := hkeeps.next ht hc hadds
      obtain ⟨r, hr, rfl⟩ := Option.map_eq_some_iff.mp hnext
      cases hr.symm.trans hset
      exact ⟨t', ht', hkeeps'⟩
  obtain ⟨t, ht, hkeeps⟩ := hkeeps
  exact hkeeps.oneRowEach ht

/-- A database with a channel table without rows. -/
def noLinks : Database :=
  Function.update (fun _ ↦ none) TBCHAN (some (.empty "id".toList channelColumns))

theorem noLinks_channels : noLinks TBCHAN = some (.empty "id".toList channelColumns) :=
  Function.update_self _ _ _

/-- There are keys left for rows. -/
theorem seq_noLinks : (Table.empty "id".toList channelColumns).seq < maxRowid - 1 := by
  show 0 < (2 ^ 63 - 1 : ℤ) - 1
  omega

theorem linkCalls_start : linkCalls.start (noLinks, none) :=
  ⟨⟨_, noLinks_channels, ⟨rfl, rfl⟩, rfl⟩, rfl⟩

/-- The device of the test program is set for its channel. -/
theorem oneRowEach_testInfo : ∃ s, linkCalls.next (noLinks, none) ⟨1, .testInfo⟩ = some s ∧
    OneRowEach s := by
  have hvalid : LinkCall.Valid ⟨1, .testInfo⟩ := ⟨by decide, unquoted_testInfo⟩
  obtain ⟨t', hset, -⟩ := setLinkInfo_added noLinks_channels ⟨rfl, rfl⟩ hvalid.1 hvalid.2 nofun
    (ne_maxRowid seq_noLinks)
  exact ⟨_, linkCalls_next hset, oneRowEach_of_reachable (.step (.start linkCalls_start)
    ⟨hvalid, fun _ ↦ rfl⟩ (linkCalls_next hset))⟩

/-- Not where it is set for another channel: a second call adds a second row. -/
theorem not_oneRowEach :
    ¬∀ s : Database × Option LinkCall,
      linkCalls.ReachableIf (fun _ c ↦ c.Valid) s → OneRowEach s := by
  intro h
  have hvalid : LinkCall.Valid ⟨2, .testInfo⟩ := ⟨by decide, unquoted_testInfo⟩
  obtain ⟨t', hset, -⟩ := setLinkInfo_added noLinks_channels ⟨rfl, rfl⟩ hvalid.1 hvalid.2 nofun
    (ne_maxRowid seq_noLinks)
  exact not_oneRowEach_of_adds noLinks_channels ⟨rfl, rfl⟩ hvalid nofun seq_noLinks (by decide)
    hset (h _ (.step (.start linkCalls_start) hvalid (linkCalls_next hset)))

end CodeToolKit.HwbrapSqlite
