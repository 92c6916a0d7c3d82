import CodeToolKit.HwbrapSqlite.ZenoSQL
import CodeToolKit.Lib.Heap
import CodeToolKit.Lib.Transition

/-!
# The handles of the wrapper

`CZenoSQL` keeps two pointers that SQLite gave it: `m_db`, a connection, and `m_pResult`, the table
of the last query.  SQLite may fail at any time, and the two pointers can be left behind by what
they point to: a failed `SQLiteConnect` closes the connection and keeps `m_db`, and
`SQLiteDisconnect` frees the table and keeps `m_pResult`.

As long as neither is used after that, no function of SQLite is given a closed connection, no table
is freed twice and none is read after it was freed (`handlesSafe_of_reachable`), and these are
the only ways to get there (`unsafe_of_careless`).

The texts of the errors are left out.
-/

namespace CodeToolKit.HwbrapSqlite

open CodeToolKit.Lib

/-! ## SQLite -/

/-- How `sqlite3_open` ends. -/
inductive Opened where
  | ok
  /-- It fails, with a connection for its error or without one. -/
  | failed (handle : Bool)
deriving DecidableEq

/-- What SQLite has given out: connections to files, and result tables.  Each use of a connection is
a read of its block. -/
structure Sqlite3 where
  connections : Heap (List Char)
  results : Heap (List (Option (List Char)))

namespace Sqlite3

/-- A function that is given a connection; a null pointer is none. -/
def use (db : Option ℕ) (w : Sqlite3) : Sqlite3 :=
  match db with
  | none => w
  | some db => { w with connections := w.connections.read db }

/-- `sqlite3_open`, and the connection that it returns. -/
def «open» (pFileName : List Char) (opened : Opened) (w : Sqlite3) : Sqlite3 × Option ℕ :=
  match opened with
  | .ok | .failed true =>
      ({ w with connections := w.connections.alloc pFileName }, some w.connections.fresh)
  | .failed false => (w, none)

/-- `sqlite3_close`, which may fail. -/
def close (db : Option ℕ) (closed : Bool) (w : Sqlite3) : Sqlite3 :=
  match db, closed with
  | some db, true => { w with connections := (w.connections.read db).free db }
  | db, _ => w.use db

/-- `sqlite3_get_table`, and the table that it returns; none when it fails. -/
def getTable (db : Option ℕ) (res : Option ResultTable) (w : Sqlite3) : Sqlite3 × Option ℕ :=
  match res with
  | some res =>
      ({ w.use db with results := w.results.alloc res.pResult }, some w.results.fresh)
  | none => (w.use db, none)

/-- `sqlite3_free_table`, unless the pointer is null. -/
def freeTable (pResult : Option ℕ) (w : Sqlite3) : Sqlite3 :=
  match pResult with
  | none => w
  | some b => { w with results := w.results.free b }

section

variable {w : Sqlite3} {p : Option ℕ}

@[simp] theorem results_use : (w.use p).results = w.results := by
  cases p <;> rfl

@[simp] theorem results_close (closed : Bool) : (w.close p closed).results = w.results := by
  rcases p with _ | db
  · rfl
  · cases closed <;> rfl

@[simp] theorem results_open (pFileName : List Char) (opened : Opened) :
    (w.open pFileName opened).1.results = w.results := by
  rcases opened with _ | _ | _ <;> rfl

@[simp] theorem connections_freeTable : (w.freeTable p).connections = w.connections := by
  cases p <;> rfl

/-- Using a live connection. -/
theorem owns_use (h : w.connections.Owns p) : (w.use p).connections.Owns p := by
  cases p with
  | none => exact h
  | some db => exact h.read

/-- A connection that cannot be closed is still live. -/
theorem owns_close_failed (h : w.connections.Owns p) : (w.close p false).connections.Owns p := by
  cases p with
  | none => exact h
  | some db => exact h.read

/-- Closing a live connection, and forgetting it. -/
theorem owns_close (h : w.connections.Owns p) (closed : Bool) :
    (w.close p closed).connections.Owns none := by
  cases p with
  | none => exact h
  | some db =>
      cases closed with
      | false => exact h.read.forget
      | true => exact h.read.free

theorem owns_open (h : w.connections.Owns none) (pFileName : List Char) (opened : Opened) :
    (w.open pFileName opened).1.connections.Owns (w.open pFileName opened).2 := by
  rcases opened with _ | _ | _
  · exact h.alloc pFileName
  · exact h
  · exact h.alloc pFileName

theorem owns_freeTable (h : w.results.Owns p) : (w.freeTable p).results.Owns none := by
  cases p with
  | none => exact h
  | some b => exact h.free

theorem connections_getTable (res : Option ResultTable) :
    (w.getTable p res).1.connections = (w.use p).connections := by
  cases res <;> rfl

theorem owns_getTable (h : w.results.Owns none) (res : Option ResultTable) :
    (w.getTable p res).1.results.Owns (w.getTable p res).2 := by
  cases res with
  | none =>
      show (w.use p).results.Owns none
      rw [results_use]
      exact h
  | some res => exact h.alloc res.pResult

theorem safe_of_getTable {res : Option ResultTable} (h : (w.getTable p res).1.results.Safe) :
    w.results.Safe := by
  cases res with
  | none =>
      have h' : (w.use p).results.Safe := h
      rw [results_use] at h'
      exact h'
  | some res => exact ⟨h.freed_nodup, h.reads_live⟩

end

end Sqlite3

/-! ## The wrapper -/

/-- `CZenoSQL`. -/
structure CZenoSQL where
  m_db : Option ℕ
  m_pResult : Option ℕ
  m_nRow : ℕ
  m_nCol : ℕ

namespace CZenoSQL

/-- The constructor. -/
def new : CZenoSQL := ⟨none, none, 0, 0⟩

/-- The destructor. -/
def destroy (closed : Bool) (z : CZenoSQL) (w : Sqlite3) : Sqlite3 := w.close z.m_db closed

/-- `SQLiteConnect`.  After an error the connection is closed, and `m_db` still points to it. -/
def sqliteConnect (pFileName : Option (List Char)) (closed : Bool) (opened : Opened)
    (closedAgain : Bool) (z : CZenoSQL) (w : Sqlite3) : CZenoSQL × Sqlite3 × ℤ :=
  match pFileName with
  | none => (z, w, -1)
  | some pFileName =>
      let (w, m_db) := (w.close z.m_db closed).open pFileName opened
      match opened with
      | .ok => ({ z with m_db }, w, 0)
      | .failed _ => ({ z with m_db }, (w.use m_db).close m_db closedAgain, -1)

/-- `SQLiteExec`. -/
def sqliteExec (pSQL : Option (List Char)) (ok : Bool) (z : CZenoSQL) (w : Sqlite3) :
    CZenoSQL × Sqlite3 × ℤ :=
  if pSQL.isNone || z.m_db.isNone then (z, w, -1) else (z, w.use z.m_db, if ok then 0 else -1)

/-- `SQLiteSearch`. -/
def sqliteSearch (pSearch : Option (List Char)) (res : Option ResultTable) (z : CZenoSQL)
    (w : Sqlite3) : CZenoSQL × Sqlite3 × ℤ :=
  if pSearch.isNone || z.m_db.isNone then (z, w, -1)
  else
    let (w, m_pResult) := (w.freeTable z.m_pResult).getTable z.m_db res
    let table := res.getD ⟨0, 0, []⟩
    ({ z with m_pResult, m_nRow := table.nRow, m_nCol := table.nCol }, w, 0)

/-- `SQLiteDisconnect`.  The table is freed, and `m_pResult` still points to it. -/
def sqliteDisconnect (closed : Bool) (z : CZenoSQL) (w : Sqlite3) : CZenoSQL × Sqlite3 × ℤ :=
  if z.m_db.isNone then (z, w, -1)
  else
    let w := (w.freeTable z.m_pResult).close z.m_db closed
    if closed then ({ z with m_db := none }, w, 0) else (z, w, -1)

/-- `GetTableData`, with the cell that it returns. -/
def getTableData (col row : ℕ) (z : CZenoSQL) (w : Sqlite3) : Sqlite3 × Option (List Char) :=
  match z.m_pResult with
  | none => (w, none)
  | some b =>
      ({ w with results := w.results.read b },
        (w.results.blocks[b]? >>= fun cells ↦ cells[col + row * z.m_nCol]?).join)

/-- `FreeTableData`. -/
def freeTableData (z : CZenoSQL) (w : Sqlite3) : CZenoSQL × Sqlite3 :=
  match z.m_pResult with
  | none => (z, w)
  | some _ => ({ z with m_pResult := none, m_nRow := 0, m_nCol := 0 }, w.freeTable z.m_pResult)

/-- `getLastInsertId`. -/
def getLastInsertId (rowid : ℤ) (z : CZenoSQL) (w : Sqlite3) : Sqlite3 × ℤ :=
  match z.m_db with
  | none => (w, -1)
  | some _ => (w.use z.m_db, (Int32.ofInt rowid).toInt)

end CZenoSQL

/-! ## Sequences of calls -/

namespace Connection

/-- A call on the object, with what SQLite answers. -/
inductive Call where
  | sqliteConnect (pFileName : Option (List Char)) (closed : Bool) (opened : Opened)
      (closedAgain : Bool)
  | sqliteExec (pSQL : Option (List Char)) (ok : Bool)
  | sqliteSearch (pSearch : Option (List Char)) (res : Option ResultTable)
  | getTableData (col row : ℕ)
  | freeTableData
  | getLastInsertId (rowid : ℤ)
  | sqliteDisconnect (closed : Bool)
  | destroy (closed : Bool)

/-- An object until its destruction, and SQLite. -/
structure State where
  object : Option CZenoSQL
  sqlite : Sqlite3
  /-- `SQLiteDisconnect` has freed a table.  No call reads this. -/
  leftTable : Bool

/-- What a call does. -/
def Call.run (z : CZenoSQL) (s : State) : Call → State
  | sqliteConnect pFileName closed opened closedAgain =>
      let r := z.sqliteConnect pFileName closed opened closedAgain s.sqlite
      { s with object := r.1, sqlite := r.2.1 }
  | sqliteExec pSQL ok =>
      let r := z.sqliteExec pSQL ok s.sqlite
      { s with object := r.1, sqlite := r.2.1 }
  | sqliteSearch pSearch res =>
      let r := z.sqliteSearch pSearch res s.sqlite
      { s with object := r.1, sqlite := r.2.1 }
  | getTableData col row => { s with sqlite := (z.getTableData col row s.sqlite).1 }
  | freeTableData =>
      let r := z.freeTableData s.sqlite
      { s with object := r.1, sqlite := r.2 }
  | getLastInsertId rowid => { s with sqlite := (z.getLastInsertId rowid s.sqlite).1 }
  | sqliteDisconnect closed =>
      let r := z.sqliteDisconnect closed s.sqlite
      ⟨r.1, r.2.1, s.leftTable || z.m_db.isSome && z.m_pResult.isSome⟩
  | destroy closed => { s with object := none, sqlite := z.destroy closed s.sqlite }

/-- A new object. -/
def State.initial : State := ⟨some .new, ⟨.empty, .empty⟩, false⟩

/-- A new object and its calls, up to its destruction. -/
def calls : System State Call where
  start s := s = .initial
  next s c := s.object.map fun z ↦ c.run z s

/-- No function of SQLite was given a closed connection, no table was freed twice, and none was read
after it was freed. -/
structure HandlesSafe (s : State) : Prop where
  connections : s.sqlite.connections.Safe
  results : s.sqlite.results.Safe

/-- The object has a connection: `m_db` is not `NULL`. -/
def State.connected (s : State) : Bool := s.object.any fun z ↦ z.m_db.isSome

/-- The call is none of those that go wrong: `SQLiteConnect` whose `sqlite3_open` fails with a
connection that can be closed, and the calls that use `m_pResult` after `SQLiteDisconnect` freed
it. -/
def careful (s : State) : Call → Bool
  | .sqliteConnect (some _) _ (.failed true) closedAgain => !closedAgain
  | .getTableData _ _ | .freeTableData => !s.leftTable
  | .sqliteSearch (some _) _ | .sqliteDisconnect _ => !(s.connected && s.leftTable)
  | _ => true

/-! ## Both pointers -/

end Connection

namespace CZenoSQL

/-- The pointer is null or points to a live table, until the table is left behind. -/
structure OwnsTable (h : Heap (List (Option (List Char)))) (m_pResult : Option ℕ)
    (leftTable : Bool) : Prop where
  owns : h.Owns (if leftTable then none else m_pResult)
  freed : leftTable → ∃ b ∈ h.freed, m_pResult = some b

/-- Both pointers are null or point to what is live, but for the table that is left behind. -/
structure Owned (z : CZenoSQL) (w : Sqlite3) (leftTable : Bool) : Prop where
  connections : w.connections.Owns z.m_db
  results : OwnsTable w.results z.m_pResult leftTable

variable {z : CZenoSQL} {w : Sqlite3} {left : Bool}

theorem owned_sqliteConnect (h : z.Owned w left) {pFileName : Option (List Char)}
    {closed closedAgain : Bool} {opened : Opened}
    (hopened : pFileName.isSome → opened = .failed true → closedAgain = false) :
    (z.sqliteConnect pFileName closed opened closedAgain w).1.Owned
      (z.sqliteConnect pFileName closed opened closedAgain w).2.1 left := by
  cases pFileName with
  | none => exact h
  | some pFileName =>
      have hopen := Sqlite3.owns_open (Sqlite3.owns_close h.connections closed) pFileName opened
      have hresults : ((w.close z.m_db closed).open pFileName opened).1.results = w.results := by
        rw [Sqlite3.results_open, Sqlite3.results_close]
      rcases opened with _ | _ | _
      · exact ⟨hopen, hresults.symm ▸ h.results⟩
      · exact ⟨hopen, hresults.symm ▸ h.results⟩
      · -- the connection of the error is not closed
        obtain rfl : closedAgain = false := hopened rfl rfl
        refine ⟨Sqlite3.owns_close_failed (Sqlite3.owns_use hopen), ?_⟩
        show OwnsTable (Sqlite3.close _ false (Sqlite3.use _ _)).results _ _
        rw [Sqlite3.results_close, Sqlite3.results_use]
        show OwnsTable (w.close z.m_db closed).results _ _
        rw [Sqlite3.results_close]
        exact h.results

theorem owned_sqliteExec (h : z.Owned w left) (pSQL : Option (List Char)) (ok : Bool) :
    (z.sqliteExec pSQL ok w).1.Owned (z.sqliteExec pSQL ok w).2.1 left := by
  rw [sqliteExec]
  split
  · exact h
  · exact ⟨Sqlite3.owns_use h.connections, Sqlite3.results_use.symm ▸ h.results⟩

theorem owned_sqliteSearch (h : z.Owned w left) {pSearch : Option (List Char)}
    (hleft : pSearch.isSome → z.m_db.isSome → left = false) (res : Option ResultTable) :
    (z.sqliteSearch pSearch res w).1.Owned (z.sqliteSearch pSearch res w).2.1 left := by
  rw [sqliteSearch]
  split
  · exact h
  · rename_i hnull
    rw [Bool.or_eq_true, not_or, Option.isNone_iff_eq_none, Option.isNone_iff_eq_none] at hnull
    obtain rfl : left = false := hleft (Option.isSome_iff_ne_none.mpr hnull.1)
      (Option.isSome_iff_ne_none.mpr hnull.2)
    refine ⟨?_, Sqlite3.owns_getTable (Sqlite3.owns_freeTable h.results.owns) res, nofun⟩
    show (Sqlite3.getTable _ _ _).1.connections.Owns _
    rw [Sqlite3.connections_getTable]
    refine Sqlite3.owns_use ?_
    rw [Sqlite3.connections_freeTable]
    exact h.connections

theorem owned_getTableData (h : z.Owned w false) (col row : ℕ) :
    z.Owned (z.getTableData col row w).1 false := by
  rw [getTableData]
  cases hres : z.m_pResult with
  | none => exact h
  | some b =>
      refine ⟨h.connections, ?_⟩
      have hlive := h.results.owns
      rw [if_neg Bool.false_ne_true, hres] at hlive
      exact hres.symm ▸ ⟨hlive.read, nofun⟩

theorem owned_freeTableData (h : z.Owned w false) :
    (z.freeTableData w).1.Owned (z.freeTableData w).2 false := by
  rw [freeTableData]
  cases hres : z.m_pResult with
  | none => exact h
  | some b =>
      have hlive := h.results.owns
      rw [if_neg Bool.false_ne_true, hres] at hlive
      exact ⟨h.connections, hlive.free, nofun⟩

theorem owned_getLastInsertId (h : z.Owned w left) (rowid : ℤ) :
    z.Owned (z.getLastInsertId rowid w).1 left := by
  rw [getLastInsertId]
  cases hdb : z.m_db with
  | none => exact h
  | some db =>
      have hused := Sqlite3.owns_use h.connections
      rw [hdb] at hused
      refine ⟨hdb.symm ▸ hused, ?_⟩
      show OwnsTable (w.use (some db)).results _ _
      rw [Sqlite3.results_use]
      exact h.results

/-- `SQLiteDisconnect` leaves the table behind, if there is one. -/
theorem owned_sqliteDisconnect (h : z.Owned w left) (hleft : z.m_db.isSome → left = false)
    (closed : Bool) :
    (z.sqliteDisconnect closed w).1.Owned (z.sqliteDisconnect closed w).2.1
      (left || z.m_db.isSome && z.m_pResult.isSome) := by
  rw [sqliteDisconnect]
  cases hdb : z.m_db with
  | none => simpa [hdb] using h
  | some db =>
      obtain rfl : left = false := hleft (by rw [hdb]; rfl)
      have hfreed : (w.freeTable z.m_pResult).results.Owns none :=
        Sqlite3.owns_freeTable h.results.owns
      have hconnections : (w.freeTable z.m_pResult).connections.Owns (some db) := by
        rw [Sqlite3.connections_freeTable, ← hdb]
        exact h.connections
      have hresults : OwnsTable ((w.freeTable z.m_pResult).close (some db) closed).results
          z.m_pResult (false || true && z.m_pResult.isSome) := by
        rw [Sqlite3.results_close]
        cases hres : z.m_pResult with
        | none =>
            rw [hres] at hfreed
            exact ⟨hfreed, nofun⟩
        | some b =>
            rw [hres] at hfreed
            exact ⟨hfreed, fun _ ↦ ⟨b, List.mem_append_right _ (List.mem_singleton_self b), rfl⟩⟩
      cases closed with
      | true => exact ⟨Sqlite3.owns_close hconnections true, hresults⟩
      | false => exact ⟨hdb.symm ▸ Sqlite3.owns_close_failed hconnections, hresults⟩

end CZenoSQL

namespace Connection

/-- The invariant of the calls. -/
def Owned (s : State) : Prop :=
  match s.object with
  | some z => z.Owned s.sqlite s.leftTable
  | none => HandlesSafe s

theorem Owned.handlesSafe {s : State} (h : Owned s) : HandlesSafe s := by
  rw [Owned] at h
  split at h
  · exact ⟨h.connections.safe, h.results.owns.safe⟩
  · exact h

/-- A careful call keeps the invariant. -/
theorem Owned.next {s s' : State} {c : Call} (h : Owned s) (hc : careful s c)
    (hnext : calls.next s c = some s') : Owned s' := by
  rcases s with ⟨_ | z, w, left⟩
  · cases hnext
  · obtain rfl : c.run z ⟨some z, w, left⟩ = s' := Option.some.inj hnext
    have hz : z.Owned w left := h
    cases c with
    | sqliteConnect pFileName closed opened closedAgain =>
        refine CZenoSQL.owned_sqliteConnect hz ?_
        rintro hpath rfl
        obtain ⟨path, rfl⟩ := Option.isSome_iff_exists.mp hpath
        simpa [careful] using hc
    | sqliteExec pSQL ok => exact CZenoSQL.owned_sqliteExec hz pSQL ok
    | sqliteSearch pSearch res =>
        refine CZenoSQL.owned_sqliteSearch hz ?_ res
        intro hsearch hdb
        obtain ⟨search, rfl⟩ := Option.isSome_iff_exists.mp hsearch
        simpa [careful, State.connected, hdb] using hc
    | getTableData col row =>
        obtain rfl : left = false := by simpa [careful] using hc
        exact CZenoSQL.owned_getTableData hz col row
    | freeTableData =>
        obtain rfl : left = false := by simpa [careful] using hc
        exact CZenoSQL.owned_freeTableData hz
    | getLastInsertId rowid => exact CZenoSQL.owned_getLastInsertId hz rowid
    | sqliteDisconnect closed =>
        refine CZenoSQL.owned_sqliteDisconnect hz ?_ closed
        intro hdb
        simpa [careful, State.connected, hdb] using hc
    | destroy closed =>
        refine ⟨(Sqlite3.owns_close hz.connections closed).safe, ?_⟩
        show (w.close z.m_db closed).results.Safe
        rw [Sqlite3.results_close]
        exact hz.results.owns.safe

theorem not_safe_close {w : Sqlite3} {b : ℕ} (hb : b ∈ w.connections.freed) (closed : Bool) :
    ¬(w.close (some b) closed).connections.Safe := by
  intro hsafe
  refine Heap.not_safe_read hb ?_
  cases closed with
  | false => exact hsafe
  | true => exact ⟨(List.nodup_append.mp hsafe.freed_nodup).1, hsafe.reads_live⟩

/-- A call that is not careful does not use the handles correctly, or then the destructor does
not. -/
theorem unsafe_of_careless {s s' : State} {c : Call} (h : Owned s) (hc : careful s c = false)
    (hnext : calls.next s c = some s') :
    ¬HandlesSafe s' ∨
      ∀ closed s'', calls.next s' (.destroy closed) = some s'' → ¬HandlesSafe s'' := by
  rcases s with ⟨_ | z, w, left⟩
  · cases hnext
  obtain rfl : c.run z ⟨some z, w, left⟩ = s' := Option.some.inj hnext
  have hz : z.Owned w left := h
  cases c with
  | sqliteConnect pFileName closed opened closedAgain =>
      rcases pFileName with _ | pFileName
      · cases hc
      rcases opened with _ | _ | _
      · cases hc
      · cases hc
      obtain rfl : closedAgain = true := by simpa [careful] using hc
      refine .inr ?_
      rintro closed' s'' hdestroy hsafe
      cases hdestroy
      exact not_safe_close (List.mem_append_right _ (List.mem_singleton_self _)) closed'
        hsafe.connections
  | sqliteExec pSQL ok => cases hc
  | sqliteSearch pSearch res =>
      rcases pSearch with _ | pSearch
      · cases hc
      obtain ⟨hdb, rfl⟩ : z.m_db.isSome ∧ left = true := by
        simpa [careful, State.connected] using hc
      obtain ⟨b, hb, hres⟩ := hz.results.freed rfl
      refine .inl fun hsafe ↦ Heap.not_safe_free hb ?_
      have hresults := hsafe.results
      rw [Call.run, CZenoSQL.sqliteSearch, Option.isNone_some, Bool.false_or,
        Option.isNone_eq_false_iff.mpr hdb, hres] at hresults
      exact Sqlite3.safe_of_getTable hresults
  | getTableData col row =>
      obtain rfl : left = true := by simpa [careful] using hc
      obtain ⟨b, hb, hres⟩ := hz.results.freed rfl
      refine .inl fun hsafe ↦ Heap.not_safe_read hb ?_
      have hresults := hsafe.results
      rw [Call.run, CZenoSQL.getTableData, hres] at hresults
      exact hresults
  | freeTableData =>
      obtain rfl : left = true := by simpa [careful] using hc
      obtain ⟨b, hb, hres⟩ := hz.results.freed rfl
      refine .inl fun hsafe ↦ Heap.not_safe_free hb ?_
      have hresults := hsafe.results
      rw [Call.run, CZenoSQL.freeTableData, hres] at hresults
      exact hresults
  | getLastInsertId rowid => cases hc
  | sqliteDisconnect closed =>
      obtain ⟨hdb, rfl⟩ : z.m_db.isSome ∧ left = true := by
        simpa [careful, State.connected] using hc
      obtain ⟨b, hb, hres⟩ := hz.results.freed rfl
      refine .inl fun hsafe ↦ Heap.not_safe_free hb ?_
      have hresults : ((w.freeTable (some b)).close z.m_db closed).results.Safe := by
        have hsafe := hsafe.results
        rw [Call.run, CZenoSQL.sqliteDisconnect, Option.isNone_eq_false_iff.mpr hdb, hres] at hsafe
        cases closed <;> exact hsafe
      rw [Sqlite3.results_close] at hresults
      exact hresults
  | destroy closed => cases hc

/-- **Careful calls use the handles of SQLite correctly.** -/
theorem handlesSafe_of_reachable {s : State}
    (h : calls.ReachableIf (fun s c ↦ careful s c) s) : HandlesSafe s := by
  refine Owned.handlesSafe (h.invariant (I := Owned) ?_ fun s c s' hs hc hn ↦ hs.next hc hn)
  rintro s rfl
  exact ⟨Heap.owns_empty, Heap.owns_empty, nofun⟩

/-- A query is read, the connection closed and the object destroyed. -/
def queryCalls : List Call :=
  [.sqliteConnect (some "channel.db".toList) true .ok true,
    .sqliteSearch (some "SELECT * FROM table_channels".toList) (some ⟨0, 0, []⟩),
    .getTableData 0 1, .freeTableData, .sqliteDisconnect true, .destroy true]

theorem handlesSafe_query :
    ∃ s, calls.execIf (fun s c ↦ careful s c) .initial queryCalls = some s ∧ HandlesSafe s := by
  have hrun : ∃ s, calls.execIf (fun s c ↦ careful s c) .initial queryCalls = some s := ⟨_, rfl⟩
  obtain ⟨s, hs⟩ := hrun
  have hstart : calls.start .initial := rfl
  exact ⟨s, hs, handlesSafe_of_reachable (.execIf queryCalls (.start hstart) hs)⟩

/-- The file cannot be opened, and the object is destroyed. -/
def failedCalls : List Call :=
  [.sqliteConnect (some "channel.db".toList) true (.failed true) true, .destroy true]

/-- The destructor closes the connection of the error again. -/
theorem not_handlesSafe : ¬∀ s, calls.Reachable s → HandlesSafe s := by
  intro h
  have hrun : ∃ s, calls.exec .initial failedCalls = some s ∧
      s.sqlite.connections.freed = [0, 0] := ⟨_, rfl, rfl⟩
  obtain ⟨s, hs, hfreed⟩ := hrun
  have hstart : calls.start .initial := rfl
  have hsafe := (h s (System.reachable_of_exec failedCalls hstart hs)).connections.freed_nodup
  rw [hfreed] at hsafe
  exact absurd hsafe (by decide)

end Connection

end CodeToolKit.HwbrapSqlite
