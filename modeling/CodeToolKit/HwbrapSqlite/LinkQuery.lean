import CodeToolKit.HwbrapSqlite.FilterStatement
import CodeToolKit.HwbrapSqlite.Tables

/-!
# Queries and deletions of linkage records

`GetLinkInfo` selects the rows whose `id` and `anachannel` are those of the record that it is given,
where these are positive (`linkRows_eq`).  `DelLinkInfo` compares both selectors with
`anachannel`.  It removes the rows that the query returns only where the two columns
agree (`removesReturned_iff`).
-/

namespace CodeToolKit.HwbrapSqlite

open CodeToolKit.SQL CodeToolKit.Lib

/-! ## The calls -/

/-- `DelLinkInfo` on an open connection. -/
def delLinkInfo (db : Database) (pInfo : LinkData) : Option (Database × ℤ) :=
  delLinkInfoSql pInfo >>= sqliteExec db

/-- A linkage record from the cells of a row. -/
def linkOf (data : ℕ → Option (List Char)) : Option LinkData := do
  let id ← data 0 >>= atoi
  let nAnaChannel ← data 1 >>= atoi
  let szDevName ← data 2 >>= CharArray.ofList? 64
  let szDevIP ← data 3 >>= CharArray.ofList? 64
  let nDevPort ← data 4 >>= atoi
  let nDevChan ← data 5 >>= atoi
  let szDevManu ← data 6 >>= CharArray.ofList? 32
  let szLoginUser ← data 7 >>= CharArray.ofList? 64
  let szLoginPass ← data 8 >>= CharArray.ofList? 64
  let nPtziPos ← data 9 >>= atoi
  let nPtztPos ← data 10 >>= atoi
  let nHLimit ← data 11 >>= atoi
  some { LinkData.zero with
    id, nAnaChannel, szDevName, szDevIP, nDevPort, nDevChan, szDevManu, szLoginUser, szLoginPass,
    nPtziPos, nPtztPos, nHLimit }

/-- A linkage record is read from the first twelve columns. -/
theorem linkOf_congr {data data' : ℕ → Option (List Char)} (h : ∀ j < 12, data j = data' j) :
    linkOf data = linkOf data' := by
  simp only [linkOf, h, Nat.reduceLT]

/-- `GetLinkInfo` on an open connection: the records that it returns. -/
def getLinkInfo (db : Database) (pInfo : LinkData) : Option (List LinkData) :=
  getLinkInfoSql pInfo >>= sqliteSearch db >>= readRows 12 linkOf

/-- The rows that the query of `GetLinkInfo` returns. -/
def linkRows (db : Database) (pInfo : LinkData) : Option (List Row) := do
  match query db (← getLinkInfoSql pInfo >>= parse) with
  | .ok (_, rows) => some rows
  | .error _ => none

/-! ## What they select -/

/-- The column of a row that a condition on linkage records compares. -/
def linkPlace : FilterColumn → Option ℕ
  | .id => none
  | _ => some 0

/-- The value of a row in the column `anachannel`. -/
def isChannel (r : Row) (nAnaChannel : Int32) : Bool := r.cells[0]? = some (.int nAnaChannel.toInt)

/-- The rows that are asked for: those with the `id` and the channel of the record, as far as
these are positive. -/
def isReturned (pInfo : LinkData) (r : Row) : Bool :=
  (!decide (pInfo.id > 0) || r.id = pInfo.id.toInt) &&
    (!decide (pInfo.nAnaChannel > 0) || isChannel r pInfo.nAnaChannel)

/-- The rows that are removed. -/
def isRemoved (pInfo : LinkData) (r : Row) : Bool :=
  (!decide (pInfo.id > 0) || isChannel r pInfo.id) &&
    (!decide (pInfo.nAnaChannel > 0) || isChannel r pInfo.nAnaChannel)

section

variable {db : Database} {t : Table}

theorem find_link (h : HasColumns t channelColumns) {col : FilterColumn}
    (hcol : col = .id ∨ col = .anachannel) :
    t.find col.name.toList = .ok (linkPlace col) := by
  rw [Table.find, h.key, h.columns]
  rcases hcol with rfl | rfl <;> decide

theorem columnTest_channel (h : HasColumns t channelColumns) (z : Int32) (r : Row) :
    columnTest t linkPlace (.anachannel, z) r = isChannel r z :=
  Table.meets_int (c := intColumn "anachannel") (by rw [h.columns]; rfl) rfl z.toInt r

theorem test_link (h : HasColumns t channelColumns) {col : FilterColumn}
    (hcol : col = .id ∨ col = .anachannel) (pInfo : LinkData) :
    t.test ((linkFilter col pInfo).map equation) =
      .ok fun r ↦ (!decide (pInfo.id > 0) || columnTest t linkPlace (col, pInfo.id) r) &&
        (!decide (pInfo.nAnaChannel > 0) || isChannel r pInfo.nAnaChannel) := by
  have hfind : ∀ c ∈ linkFilter col pInfo, t.find c.1.name.toList = .ok (linkPlace c.1) := by
    intro c hc
    refine find_link h ?_
    rcases mem_addCondition hc with hc | hc
    · rcases mem_addCondition hc with hc | hc
      · exact nomatch hc
      · rw [hc]
        exact hcol
    · exact .inr hc
  rw [test_filter hfind]
  refine congrArg Except.ok ?_
  funext r
  rw [linkFilter, all_addCondition, all_addCondition, List.all_nil, Bool.true_and, ite_self,
    ite_self, columnTest_channel h]

theorem parse_getLinkInfo (pInfo : LinkData) :
    (getLinkInfoSql pInfo >>= parse) =
      some (.select TBCHAN ((linkFilter .id pInfo).map equation)) := by
  rw [getLinkInfoSql_eq]
  exact parse_selectChannels _

theorem parse_delLinkInfo (pInfo : LinkData) :
    (delLinkInfoSql pInfo >>= parse) =
      some (.delete TBCHAN ((linkFilter .anachannel pInfo).map equation)) := by
  rw [delLinkInfoSql_eq]
  exact parse_delete _

/-- **The query returns the rows that are asked for.** -/
theorem query_getLinkInfo (ht : db TBCHAN = some t) (h : HasColumns t channelColumns)
    (pInfo : LinkData) :
    query db (.select TBCHAN ((linkFilter .id pInfo).map equation)) =
      .ok (t, t.rows.filter (isReturned pInfo)) :=
  query_select ht (test_link h (.inl rfl) pInfo)

theorem linkRows_eq (ht : db TBCHAN = some t) (h : HasColumns t channelColumns)
    (pInfo : LinkData) : linkRows db pInfo = some (t.rows.filter (isReturned pInfo)) := by
  rw [linkRows, parse_getLinkInfo, Option.bind_eq_bind, Option.bind_some, query_getLinkInfo ht h]

/-- **`GetLinkInfo` returns the records of the rows that are asked for.** -/
theorem getLinkInfo_eq (ht : db TBCHAN = some t) (h : HasColumns t channelColumns)
    (pInfo : LinkData) :
    getLinkInfo db pInfo =
      linkRows db pInfo >>= fun rows ↦ rows.mapM fun r ↦ linkOf (cellOf r) := by
  have hfull : ∀ r ∈ t.rows.filter (isReturned pInfo), r.cells.length = t.columns.length :=
    fun r hr ↦ t.full r (List.mem_of_mem_filter hr)
  have hcol : t.columns.length = 11 := by rw [h.columns]; rfl
  rw [getLinkInfo, bind_sqliteSearch (parse_getLinkInfo pInfo) (query_getLinkInfo ht h pInfo),
    linkRows_eq ht h]
  refine readRows_getTable hfull (by omega) ?_
  intro data data' hdata
  exact linkOf_congr fun j hj ↦ hdata j (by omega)

/-- `DelLinkInfo` removes the rows whose channel is both selectors. -/
theorem delLinkInfo_eq (ht : db TBCHAN = some t) (h : HasColumns t channelColumns)
    (pInfo : LinkData) :
    delLinkInfo db pInfo =
      some (Function.update db TBCHAN (some (t.filter fun r ↦ !isRemoved pInfo r)), 0) := by
  refine bind_sqliteExec (parse_delLinkInfo pInfo) (exec_delete ht ?_)
  rw [test_link h (.inr rfl)]
  refine congrArg Except.ok ?_
  funext r
  rw [columnTest_channel h, isRemoved]

/-! ## Deleting what is returned -/

/-- `DelLinkInfo` removes the rows that `GetLinkInfo` would have returned, and nothing else. -/
def RemovesReturned (db : Database) (pInfo : LinkData) : Prop :=
  ∃ db' rows, delLinkInfo db pInfo = some (db', 0) ∧ linkRows db pInfo = some rows ∧
    (db' TBCHAN).map Table.rows = (db TBCHAN).map (fun t ↦ t.rows.filter fun r ↦ r ∉ rows) ∧
    ∀ name ≠ TBCHAN, db' name = db name

theorem filter_eq_filter_iff {α : Type} {p q : α → Bool} {xs : List α} :
    xs.filter p = xs.filter q ↔ ∀ x ∈ xs, p x = q x := by
  constructor
  · intro h x hx
    have hmem : x ∈ xs.filter p ↔ x ∈ xs.filter q := by rw [h]
    rw [List.mem_filter, List.mem_filter] at hmem
    exact Bool.eq_iff_iff.mpr ⟨fun hp ↦ (hmem.mp ⟨hx, hp⟩).2, fun hq ↦ (hmem.mpr ⟨hx, hq⟩).2⟩
  · exact List.filter_congr

/-- A row is removed exactly if it is asked for. -/
theorem removesReturned_iff_forall (ht : db TBCHAN = some t) (h : HasColumns t channelColumns)
    (pInfo : LinkData) :
    RemovesReturned db pInfo ↔ ∀ r ∈ t.rows, isRemoved pInfo r = isReturned pInfo r := by
  have hreturned : (t.rows.filter fun r ↦ r ∉ t.rows.filter (isReturned pInfo)) =
      t.rows.filter fun r ↦ !isReturned pInfo r := by
    refine List.filter_congr ?_
    intro r hr
    simp [hr]
  have hfilter : (t.rows.filter fun r ↦ !isRemoved pInfo r) =
        (t.rows.filter fun r ↦ !isReturned pInfo r) ↔
      ∀ r ∈ t.rows, isRemoved pInfo r = isReturned pInfo r := by
    rw [filter_eq_filter_iff]
    simp only [Bool.not_eq_eq_eq_not, Bool.not_not]
  rw [← hfilter, ← hreturned]
  constructor
  · rintro ⟨db', rows, hdel, hrows, htable, -⟩
    rw [delLinkInfo_eq ht h] at hdel
    rw [linkRows_eq ht h] at hrows
    rw [← (Prod.mk.inj (Option.some.inj hdel)).1, ← Option.some.inj hrows, ht,
      Function.update_self] at htable
    exact Option.some.inj htable
  · intro heq
    refine ⟨_, _, delLinkInfo_eq ht h pInfo, linkRows_eq ht h pInfo, ?_, ?_⟩
    · rw [ht, Function.update_self]
      exact congrArg some heq
    · intro name hname
      exact Function.update_of_ne hname _ _

/-- **The rows that are removed are those that are returned exactly if the record has no id, or
the rows of its channel have the id as their key if and only if they have it as their channel.** -/
theorem removesReturned_iff (ht : db TBCHAN = some t) (h : HasColumns t channelColumns)
    (pInfo : LinkData) :
    RemovesReturned db pInfo ↔
      ¬pInfo.id > 0 ∨
        ∀ r ∈ t.rows, (pInfo.nAnaChannel > 0 → isChannel r pInfo.nAnaChannel) →
          (r.id = pInfo.id.toInt ↔ isChannel r pInfo.id) := by
  rw [removesReturned_iff_forall ht h]
  by_cases hid : pInfo.id > 0
  · rw [or_iff_right (not_not_intro hid)]
    refine forall₂_congr ?_
    intro r _
    have hselected : ∀ b b' c : Bool, (b && c) = (b' && c) ↔ (c → (b' ↔ b)) := by decide
    have hchannel : (!decide (pInfo.nAnaChannel > 0) || isChannel r pInfo.nAnaChannel) = true ↔
        (pInfo.nAnaChannel > 0 → isChannel r pInfo.nAnaChannel) := by
      rw [Bool.or_eq_true, Bool.not_eq_true', decide_eq_false_iff_not, imp_iff_not_or]
    rw [isRemoved, isReturned, decide_eq_true hid, Bool.not_true, Bool.false_or, Bool.false_or,
      hselected, hchannel, decide_eq_true_iff]
  · refine iff_of_true ?_ (.inl hid)
    intro r _
    rw [isRemoved, isReturned, decide_eq_false hid]
    rfl

end

/-- The channel table with the device of the test program, linked to a channel. -/
def testTable (nAnaChannel : ℤ) : Table :=
  (Table.empty "id".toList channelColumns).push
    [.int nAnaChannel, .text "10.12.15.199".toList, .text "10.12.15.199".toList, .int 8000, .int 1,
      .text "ZL".toList, .text "admin".toList, .text "password".toList, .int 0, .int 0, .int 0] rfl

/-- A database with only this table. -/
def testDatabase (nAnaChannel : ℤ) : Database := fun name ↦
  if name = TBCHAN then some (testTable nAnaChannel) else none

theorem testDatabase_channels (nAnaChannel : ℤ) :
    testDatabase nAnaChannel TBCHAN = some (testTable nAnaChannel) := if_pos rfl

/-- The deletion of the test program, where the device 1 is that of the channel 1. -/
theorem removesReturned_test : RemovesReturned (testDatabase 1) { LinkData.zero with id := 1 } :=
  (removesReturned_iff (testDatabase_channels 1) ⟨rfl, rfl⟩ _).mpr (by decide)

/-- Not where the device 1 is that of the channel 2: nothing is removed. -/
theorem not_removesReturned : ¬∀ (db : Database) (t : Table), db TBCHAN = some t →
    HasColumns t channelColumns → ∀ pInfo, RemovesReturned db pInfo := by
  intro h
  have hremoves := h (testDatabase 2) (testTable 2) (testDatabase_channels 2) ⟨rfl, rfl⟩
    { LinkData.zero with id := 1 }
  rw [removesReturned_iff_forall (testDatabase_channels 2) ⟨rfl, rfl⟩] at hremoves
  exact absurd hremoves (by decide)

end CodeToolKit.HwbrapSqlite
