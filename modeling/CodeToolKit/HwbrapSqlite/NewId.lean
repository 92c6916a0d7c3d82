import CodeToolKit.HwbrapSqlite.LinkRoundTrip
import CodeToolKit.Lib.RecLock
import CodeToolKit.Lib.Tickets
import CodeToolKit.Lib.Transition

/-!
# The id of a new row

Threads that call `AddLinkInfo` and `SetRuleInfo` on one connection, with the commit thread among
them.  `AddLinkInfo` asks for `sqlite3_last_insert_rowid` after `Unlock`, and whether its statement
was done or not.

The id is that of the row of the call as long as the insertion of each `AddLinkInfo` is done, its
key is a `long`, and no other insertion is done before the id is asked for
(`ownIds_of_reachable`), and after any other insertion a wrong id can be returned
(`exists_not_ownIds`).

Each statement may fail, and a text that is outside of the model of SQL can only fail.
-/

namespace CodeToolKit.HwbrapSqlite

open CodeToolKit.SQL CodeToolKit.Lib

namespace NewId

/-! ## Steps on the connection -/

/-- A `sqlite3_int64` as a `long`. -/
def toLong (z : ℤ) : ℤ := (Int32.ofInt z).toInt

/-- An operation, whose statement SQLite cannot do where `ok` is false. -/
def execute (ok : Bool) : (o : Op) → Handle → Option (Handle × o.Res)
  | .exec szSql, h => if ok then Handle.step (.exec szSql) h else some (h, -1)
  | o, h => Handle.step o h

/-- The row that a statement adds: its table and its key. -/
def newRow (ok : Bool) (h : Handle) (szSql : List Char) : Option (List Char × ℤ) :=
  if ok then
    match parse szSql with
    | some (.insert name _) =>
        match sqliteExec h.db szSql with
        | some (db, 0) => (db name).bind fun t ↦ t.rows.getLast?.map fun r ↦ (name, r.id)
        | _ => none
    | _ => none
  else none

/-- The largest key of `table_channels`. -/
def linkSeq (h : Handle) : ℤ := ((h.db TBCHAN).map Table.seq).getD 0

section

variable {ok : Bool} {h h' : Handle} {szSql name : List Char} {lRet : ℤ}

/-- An insertion adds a row under the next key of its table, or changes nothing. -/
theorem execute_insert (hparse : ∀ stmt, parse szSql = some stmt → ∃ ls, stmt = .insert name ls)
    (hexec : execute ok (.exec szSql) h = some (h', lRet)) :
    (newRow ok h szSql = none ∧ h'.db = h.db ∧ h'.lastInsertId = h.lastInsertId) ∨
      ∃ t t', h.db name = some t ∧ t'.seq = t.seq + 1 ∧
        h'.db = Function.update h.db name (some t') ∧
        newRow ok h szSql = some (name, t'.seq) ∧ h'.lastInsertId = t'.seq := by
  rcases ok with _ | _
  · obtain ⟨rfl, -⟩ := Prod.mk.inj (Option.some.inj hexec)
    exact .inl ⟨rfl, rfl, rfl⟩
  · obtain ⟨⟨db, lRet'⟩, hsql, hr⟩ := Option.map_eq_some_iff.mp hexec
    obtain ⟨rfl, -⟩ := Prod.mk.inj hr
    obtain ⟨stmt, hstmt, hdone⟩ := Option.bind_eq_some_iff.mp hsql
    obtain ⟨ls, rfl⟩ := hparse stmt hstmt
    simp only [newRow, if_true, hstmt, hsql]
    split at hdone
    · rename_i db' hok
      obtain ⟨rfl, rfl⟩ := Prod.mk.inj (Option.some.inj hdone)
      obtain ⟨t, cells, hcells, ht, rfl⟩ := exec_insert_ok hok
      have ht' : Function.update h.db name (some (t.push cells hcells)) name =
          some (t.push cells hcells) := Function.update_self name _ _
      refine .inr ⟨t, t.push cells hcells, ht, rfl, rfl, ?_, insertedId_insert hstmt ht' _⟩
      show ((Function.update h.db name (some (t.push cells hcells)) name).bind _) = _
      rw [ht']
      show (t.rows ++ [Row.mk (t.seq + 1) cells]).getLast?.map _ = _
      rw [List.getLast?_concat]
      rfl
    · obtain ⟨rfl, rfl⟩ := Prod.mk.inj (Option.some.inj hdone)
      refine .inl ⟨rfl, rfl, ?_⟩
      show insertedId h.lastInsertId h.db szSql (-1) = _
      rw [insertedId, hstmt]
      rfl
    · cases hdone

/-- An update adds no row and gives out no key. -/
theorem execute_update
    (hparse : ∀ stmt, parse szSql = some stmt → ∃ name sets es, stmt = .update name sets es)
    (hexec : execute ok (.exec szSql) h = some (h', lRet)) :
    newRow ok h szSql = none ∧ linkSeq h' = linkSeq h ∧ h'.lastInsertId = h.lastInsertId := by
  rcases ok with _ | _
  · obtain ⟨rfl, -⟩ := Prod.mk.inj (Option.some.inj hexec)
    exact ⟨rfl, rfl, rfl⟩
  · obtain ⟨⟨db, lRet'⟩, hsql, hr⟩ := Option.map_eq_some_iff.mp hexec
    obtain ⟨rfl, -⟩ := Prod.mk.inj hr
    obtain ⟨stmt, hstmt, hdone⟩ := Option.bind_eq_some_iff.mp hsql
    obtain ⟨name, sets, es, rfl⟩ := hparse stmt hstmt
    refine ⟨by simp only [newRow, if_true, hstmt], ?_, by
      show insertedId h.lastInsertId db szSql lRet' = _
      rw [insertedId, hstmt]⟩
    split at hdone
    · rename_i db' hok
      obtain ⟨rfl, rfl⟩ := Prod.mk.inj (Option.some.inj hdone)
      exact congrArg (Option.getD · 0) (seq_exec_update hok TBCHAN)
    · obtain ⟨rfl, rfl⟩ := Prod.mk.inj (Option.some.inj hdone)
      rfl
    · cases hdone

end

/-! ## Threads -/

/-- The calls of the threads, and those of the commit thread. -/
def isServed : Request → Bool
  | .addLinkInfo _ | .setRuleInfo _ _ | .beginTransaction _ | .endTransaction _ => true
  | _ => false

/-- The request is `AddLinkInfo`. -/
def isAddLinkInfo : Request → Bool
  | .addLinkInfo _ => true
  | _ => false

/-- A call of a thread.  The last two fields are recorded, and read by no step. -/
structure Call where
  request : Request
  rest : Prog Reply
  /-- It is between its `SQLiteExec` and its `getLastInsertId`. -/
  sent : Bool
  /-- The key of the row of `table_channels` that it added. -/
  own : Option ℤ

/-- The threads on a connection. -/
structure Threads (T : Type) where
  m_csCommit : RecLock T
  handle : Handle
  calls : T → Option Call
  /-- The replies so far, and the keys of the rows that their calls added. -/
  returned : List (Option ℤ × Reply)

/-- What a thread does next. -/
inductive Move (T : Type) where
  | call (t : T) (request : Request)
  | step (t : T) (ok : Bool)

/-- What is recorded of an operation. -/
def Call.afterOp (ok : Bool) (h : Handle) (c : Call) : (o : Op) → Prog Reply → Call
  | .exec szSql, rest => { c with
      rest
      sent := true
      own := match newRow ok h szSql with
        | some (name, id) => if name = TBCHAN then some id else c.own
        | none => c.own }
  | .getLastInsertId, rest => { c with rest, sent := false }
  | _, rest => { c with rest }

namespace Threads

variable {T : Type} [DecidableEq T]

/-- The call of a thread goes on. -/
def setCall (s : Threads T) (t : T) (c : Call) : Threads T :=
  { s with calls := Function.update s.calls t (some c) }

/-- The next step of a call. -/
def advance (s : Threads T) (t : T) (ok : Bool) (c : Call) : Option (Threads T) :=
  match c.rest with
  | .ret reply => some { s with
      calls := Function.update s.calls t none
      returned := s.returned ++ [(c.own, reply)] }
  | .stuck => none
  | .lock rest => (s.m_csCommit.acquire t).map fun l ↦
      { s with m_csCommit := l }.setCall t { c with rest }
  | .unlock rest => some ({ s with m_csCommit := s.m_csCommit.release }.setCall t { c with rest })
  | .op o rest => (execute ok o s.handle).map fun r ↦
      { s with handle := r.1 }.setCall t (c.afterOp ok s.handle o (rest r.2))

/-- The state after a move. -/
def next (s : Threads T) : Move T → Option (Threads T)
  | .call t request =>
      if isServed request && (s.calls t).isNone then
        some (s.setCall t ⟨request, request.program, false, none⟩)
      else none
  | .step t ok => (s.calls t).bind fun c ↦ s.advance t ok c

/-- No thread is in a call. -/
def fresh (h₀ : Handle) : Threads T := ⟨.free, h₀, fun _ ↦ none, []⟩

end Threads

/-- Threads that begin and continue calls at any time. -/
def threads {T : Type} [DecidableEq T] (h₀ : Handle) : System (Threads T) (Move T) where
  start s := s = .fresh h₀
  next := Threads.next

/-- The id that `AddLinkInfo` returns, if it is positive. -/
def newId : Option ℤ × Reply → Option ℤ
  | (_, .added lNewId) => if 0 < lNewId then some lNewId else none
  | _ => none

theorem newId_eq_some {r : Option ℤ × Reply} {id : ℤ} :
    newId r = some id ↔ r.2 = .added id ∧ 0 < id := by
  rcases r with ⟨own, _ | lNewId | _ | _⟩
  · exact iff_of_false nofun fun h ↦ nomatch h.1
  · rw [newId, Option.ite_none_right_eq_some, Option.some.injEq, Reply.added.injEq]
    constructor
    · rintro ⟨hpos, rfl⟩
      exact ⟨rfl, hpos⟩
    · rintro ⟨rfl, hpos⟩
      exact ⟨hpos, rfl⟩
  · exact iff_of_false nofun fun h ↦ nomatch h.1
  · exact iff_of_false nofun fun h ↦ nomatch h.1

/-- Every positive id is that of the row that the call added, and no two calls return the same. -/
def OwnIds {T : Type} (s : Threads T) : Prop :=
  (∀ r ∈ s.returned, ∀ id, newId r = some id → r.1 = some id) ∧ (s.returned.filterMap newId).Nodup

/-! ## Careful steps -/

/-- The call is an `AddLinkInfo` between its statement and its question for the id. -/
def Call.waits (c : Call) : Bool := isAddLinkInfo c.request && c.sent

/-- It would get this id, which is not that of its row. -/
def Call.Misled (last : ℤ) (c : Call) : Prop :=
  c.waits ∧ 0 < toLong last ∧ c.own ≠ some (toLong last)

/-- Another thread would get this id. -/
def Misleads {T : Type} (s : Threads T) (t : T) (last : ℤ) : Prop :=
  ∃ t' ≠ t, ∃ c ∈ s.calls t', c.Misled last

/-- A statement of an `AddLinkInfo` adds a row whose key is a `long`, and no row is added while
another `AddLinkInfo` is about to ask for the id of its own.  An id that is not positive says that
there is none. -/
def CarefulExec {T : Type} (ok : Bool) (s : Threads T) (t : T) (c : Call) (szSql : List Char) :
    Prop :=
  match newRow ok s.handle szSql with
  | some (_, id) => ¬Misleads s t id ∧ (isAddLinkInfo c.request → 0 < toLong id → toLong id = id)
  | none => isAddLinkInfo c.request → toLong s.handle.lastInsertId ≤ 0

/-- The statement that a call does next. -/
def Call.statement (c : Call) : Option (List Char) :=
  match c.rest with
  | .op (.exec szSql) _ => some szSql
  | _ => none

/-- The next step of a thread is no careless statement. -/
def Careful {T : Type} (s : Threads T) : Move T → Prop
  | .call _ _ => True
  | .step t ok => ∀ c ∈ s.calls t, ∀ szSql ∈ c.statement, CarefulExec ok s t c szSql

theorem carefulExec_of_careful {T : Type} {s : Threads T} {t : T} {ok : Bool} {c : Call}
    {szSql : List Char} {rest : ℤ → Prog Reply} (ht : s.calls t = some c)
    (hrest : c.rest = .op (.exec szSql) rest) (hg : Careful s (.step t ok)) :
    CarefulExec ok s t c szSql := by
  refine hg c ht szSql ?_
  rw [Call.statement, hrest]
  rfl

/-! ## The statements -/

/-- All that can be read of the text is an insertion of this table. -/
def InsertsInto (table szSql : List Char) : Prop :=
  ∀ stmt, parse szSql = some stmt → ∃ ls, stmt = .insert table ls

/-- All that can be read of the text is an update. -/
def Updates (szSql : List Char) : Prop :=
  ∀ stmt, parse szSql = some stmt → ∃ name sets es, stmt = .update name sets es

/-- `AddLinkInfo` composes an insertion into `table_channels`, whatever the strings are. -/
theorem insertsInto_addLinkInfo {r : LinkData} {szSql : List Char}
    (hsql : addLinkInfoSql r = some szSql) : InsertsInto TBCHAN szSql := by
  intro stmt h
  rw [addLinkInfoSql_eq] at hsql
  obtain ⟨rfl, -⟩ := composed_eq_some.mp hsql
  have htext : text (insertLinkPieces r) =
      "INSERT INTO \"table_channels\" VALUES( NULL, ".toList ++
        text (insertLinkPieces r).tail := rfl
  have hname : name (.quoted '"' TBCHAN) = some TBCHAN := by decide
  rw [htext, parse_append (by decide +kernel)] at h
  exact insertStatement_eq_some hname h

/-- `SetRuleInfo` composes an insertion into `table_rules` or an update. -/
theorem writes_setRuleInfo {nChanId : Int32} {found : Bool} {r : LinkData} {szSql : List Char}
    (hsql : setRuleInfoSql nChanId found r = some szSql) :
    InsertsInto TBRULE szSql ∨ Updates szSql := by
  rcases found with _ | _
  · refine .inl fun stmt h ↦ ?_
    rw [setRuleInfoSql_insert] at hsql
    obtain ⟨rfl, -⟩ := composed_eq_some.mp hsql
    have htext : text (insertRulePieces nChanId r) =
        "INSERT INTO table_rules VALUES (NULL, ".toList ++
          text (insertRulePieces nChanId r).tail := rfl
    have hname : name (.word TBRULE) = some TBRULE := by decide
    rw [htext, parse_append (by decide +kernel)] at h
    exact insertStatement_eq_some hname h
  · refine .inr fun stmt h ↦ ?_
    rw [setRuleInfoSql_update] at hsql
    obtain ⟨rfl, -⟩ := composed_eq_some.mp hsql
    have htext : text (updateRulePieces nChanId r) =
        "UPDATE table_rules SET linenum=".toList ++ text (updateRulePieces nChanId r).tail := rfl
    have hfront : (scan .between "UPDATE table_rules SET linenum=".toList).1 =
        .word "UPDATE".toList :: [.word TBRULE, .word "SET".toList, .word "linenum".toList] := by
      decide +kernel
    have hstatement : ∀ ts, statement (.word "UPDATE".toList :: ts) = updateStatement ts :=
      fun _ ↦ rfl
    rw [htext, parse_append (by decide +kernel), hfront, List.cons_append, hstatement] at h
    exact updateStatement_eq_some h

/-! ## What is left of a call -/

/-- The rest of `AddLinkInfo` after its statement. -/
def AsksId : Prog Reply → Prop
  | .unlock rest => AsksId rest
  | .op (.setCommit _) rest => ∀ r, AsksId (rest r)
  | .op .getLastInsertId rest => ∀ v, rest v = .ret (.added v)
  | _ => False

/-- The rest of a call before its statement. -/
def Begins (adds : Bool) : Prog Reply → Prop
  | .ret reply => ∀ lNewId, reply = .added lNewId → lNewId ≤ 0
  | .stuck => True
  | .lock rest | .unlock rest => Begins adds rest
  | .op (.exec szSql) rest =>
      if adds then InsertsInto TBCHAN szSql ∧ ∀ r, AsksId (rest r)
      else (InsertsInto TBRULE szSql ∨ Updates szSql) ∧ ∀ r, Begins adds (rest r)
  | .op _ rest => ∀ r, Begins adds (rest r)

theorem begins_ofOption {γ : Type} {adds : Bool} {a : Option γ} {k : γ → Prog Reply}
    (h : ∀ x, a = some x → Begins adds (k x)) : Begins adds (.ofOption a >>= k) := by
  rcases a with _ | x
  · trivial
  · exact h x rfl

theorem begins_entered {π : Type} {adds rejected : Bool} {param : Option π} {failed : Reply}
    {body : π → Prog Reply} (hfailed : ∀ lNewId, failed = .added lNewId → lNewId ≤ 0)
    (h : ∀ p, Begins adds (body p)) :
    Begins adds (CDBManage.entered param rejected failed body) := by
  rcases param with _ | p
  · exact hfailed
  · intro isNull
    beta_reduce
    split
    · exact hfailed
    · exact h p

theorem begins_status (lRet lNewId : ℤ) (h : Reply.status lRet = .added lNewId) : lNewId ≤ 0 :=
  nomatch h

/-- **Every call begins like this.** -/
theorem begins_program {request : Request} (h : isServed request) :
    Begins (isAddLinkInfo request) request.program := by
  cases request with
  | beginTransaction lRet =>
      show Begins false (CDBManage.beginTransaction lRet)
      rw [CDBManage.beginTransaction]
      exact begins_entered (begins_status _) fun _ ↦ begins_status
  | endTransaction lRet =>
      show Begins false (CDBManage.endTransaction lRet)
      rw [CDBManage.endTransaction]
      exact begins_entered (begins_status _) fun _ ↦ begins_status
  | addLinkInfo param =>
      refine begins_entered ?_ fun pChan ↦ begins_ofOption fun szSql hsql ↦ ?_
      · rintro lNewId ⟨rfl⟩
        decide
      · exact ⟨insertsInto_addLinkInfo hsql, fun lRet _ lNewId ↦ rfl⟩
  | setRuleInfo nChanId param =>
      refine begins_entered (begins_status _) fun pChan ↦ begins_ofOption fun find hfind ↦ ?_
      intro _ nRow _
      exact begins_ofOption fun szSql hsql ↦
        ⟨writes_setRuleInfo hsql, fun lRet _ ↦ begins_status lRet⟩
  | _ => cases h

/-! ## The invariant -/

/-- Where a call is, with the last id on the connection. -/
inductive Stage (last : ℤ) (c : Call) : Prop where
  | begins : ¬c.waits → Begins (isAddLinkInfo c.request) c.rest → c.own = none → Stage last c
  | asks : c.waits → AsksId c.rest → (0 < toLong last → c.own = some (toLong last)) → Stage last c
  | returns (lNewId : ℤ) : ¬c.waits → c.rest = .ret (.added lNewId) →
      (0 < lNewId → c.own = some lNewId) → Stage last c

/-- The keys of `table_channels` as tickets: those of running calls, and those of calls that have
returned. -/
def Threads.tickets {T : Type} (s : Threads T) : Tickets T :=
  ⟨linkSeq s.handle, fun t ↦ (s.calls t).bind Call.own, s.returned.filterMap Prod.fst⟩

/-- What holds as long as all steps are careful. -/
structure Invariant {T : Type} (s : Threads T) : Prop where
  stage : ∀ t c, s.calls t = some c → Stage s.handle.lastInsertId c
  tickets : s.tickets.Valid
  values : ∀ r ∈ s.returned, ∀ id, newId r = some id → r.1 = some id

/-- Another id does not matter to a call that would not get it. -/
theorem Stage.of_not_misled {last last' : ℤ} {c : Call} (h : Stage last c)
    (hc : ¬c.Misled last') : Stage last' c := by
  rcases h with ⟨hwaits, hbegins, hown⟩ | ⟨hwaits, hasks, -⟩ | ⟨lNewId, hwaits, hrest, hown⟩
  · exact .begins hwaits hbegins hown
  · refine .asks hwaits hasks fun hpos ↦ ?_
    by_contra hown
    exact hc ⟨hwaits, hpos, hown⟩
  · exact .returns lNewId hwaits hrest hown

section

variable {ok : Bool} {h h' : Handle} {c : Call} {o : Op} {rest : o.Res → Prog Reply} {r : o.Res}

/-- The other operations leave the tables and the last id. -/
theorem execute_frame (ho : ∀ szSql, o ≠ .exec szSql) (hexec : execute ok o h = some (h', r)) :
    h'.db = h.db ∧ h'.lastInsertId = h.lastInsertId := by
  cases o with
  | exec szSql => exact absurd rfl (ho szSql)
  | search szSql =>
      obtain ⟨res, -, hres⟩ := Option.map_eq_some_iff.mp hexec
      obtain ⟨rfl, -⟩ := Prod.mk.inj hres
      exact ⟨rfl, rfl⟩
  | getErrorMsg => cases hexec
  | _ =>
      obtain ⟨rfl, -⟩ := Prod.mk.inj (Option.some.inj hexec)
      exact ⟨rfl, rfl⟩

theorem own_afterExec_none {szSql : List Char} (hrow : newRow ok h szSql = none) (p : Prog Reply) :
    (c.afterOp ok h (.exec szSql) p).own = c.own := by
  rw [Call.afterOp, hrow]

theorem own_afterExec_some {szSql name : List Char} {id : ℤ}
    (hrow : newRow ok h szSql = some (name, id)) (c : Call) (p : Prog Reply) :
    (c.afterOp ok h (.exec szSql) p).own = if name = TBCHAN then some id else c.own := by
  rw [Call.afterOp, hrow]

theorem own_afterOp (ho : ∀ szSql, o ≠ .exec szSql) (p : Prog Reply) :
    (c.afterOp ok h o p).own = c.own := by
  cases o with
  | exec szSql => exact absurd rfl (ho szSql)
  | _ => rfl

theorem waits_afterExec {szSql : List Char} (hadds : isAddLinkInfo c.request) (p : Prog Reply) :
    (c.afterOp ok h (.exec szSql) p).waits :=
  Bool.and_eq_true_iff.mpr ⟨hadds, rfl⟩

theorem not_waits_answered {p : Prog Reply} : ¬(c.afterOp ok h .getLastInsertId p).waits := by
  rw [Call.waits, Call.afterOp, Bool.and_false]
  exact Bool.false_ne_true

/-- They bring a call on its way. -/
theorem Stage.afterOp (hc : Stage h.lastInsertId c) (hrest : c.rest = .op o rest)
    (ho : ∀ szSql, o ≠ .exec szSql) (hexec : execute ok o h = some (h', r)) :
    Stage h.lastInsertId (c.afterOp ok h o (rest r)) := by
  rcases hc with ⟨hwaits, hbegins, hown⟩ | ⟨hwaits, hasks, hown⟩ | ⟨lNewId, -, hret, -⟩
  · rw [hrest] at hbegins
    cases o with
    | exec szSql => exact absurd rfl (ho szSql)
    | getLastInsertId => exact .begins not_waits_answered (hbegins r) hown
    | _ => exact .begins hwaits (hbegins r) hown
  · rw [hrest] at hasks
    cases o with
    | setCommit b => exact .asks hwaits (hasks r) hown
    | getLastInsertId =>
        obtain ⟨-, rfl⟩ := Prod.mk.inj (Option.some.inj hexec)
        exact .returns _ not_waits_answered (hasks _) hown
    | _ => exact hasks.elim
  · cases hret.symm.trans hrest

end

/-! ## One step -/

namespace Invariant

variable {T : Type} {s : Threads T} {t : T} {c c' : Call} {l : RecLock T} {h : Handle}

theorem held_eq (ht : s.calls t = some c) : s.tickets.held t = c.own := by
  show (s.calls t).bind Call.own = c.own
  rw [ht]
  rfl

/-- The other calls go on with an id that none of them would get. -/
theorem others (hs : Invariant s) {last : ℤ} (hothers : ¬Misleads s t last) :
    ∀ t' ≠ t, ∀ c, s.calls t' = some c → Stage last c := by
  intro t' ht' c hc
  refine (hs.stage t' c hc).of_not_misled ?_
  intro hmisled
  exact hothers ⟨t', ht', c, hc, hmisled⟩

variable [DecidableEq T]

/-- The call of a thread goes on. -/
theorem setCall (hs : Invariant s)
    (hothers : ∀ t' ≠ t, ∀ c, s.calls t' = some c → Stage h.lastInsertId c)
    (hstage : Stage h.lastInsertId c')
    (htickets : Tickets.Valid
      ⟨linkSeq h, Function.update s.tickets.held t c'.own, s.tickets.handedIn⟩) :
    Invariant ({ s with m_csCommit := l, handle := h }.setCall t c') where
  stage t' c hc := by
    change Function.update s.calls t (some c') t' = some c at hc
    by_cases ht' : t' = t
    · subst ht'
      rw [Function.update_self] at hc
      rw [← Option.some.inj hc]
      exact hstage
    · rw [Function.update_of_ne ht'] at hc
      exact hothers t' ht' c hc
  tickets := by
    have hheld := Function.comp_update (fun c : Option Call ↦ c.bind Call.own) s.calls t (some c')
    rw [Threads.tickets]
    show Tickets.Valid ⟨linkSeq h, (fun c ↦ c.bind Call.own) ∘ Function.update s.calls t (some c'),
      s.tickets.handedIn⟩
    rw [hheld]
    exact htickets
  values := hs.values

/-- It adds no row to `table_channels`. -/
theorem keep (hs : Invariant s) (ht : s.calls t = some c)
    (hothers : ∀ t' ≠ t, ∀ c, s.calls t' = some c → Stage h.lastInsertId c)
    (hstage : Stage h.lastInsertId c') (hseq : linkSeq h = linkSeq s.handle)
    (hown : c'.own = c.own) :
    Invariant ({ s with m_csCommit := l, handle := h }.setCall t c') := by
  refine hs.setCall hothers hstage ?_
  rw [hseq, hown, ← held_eq ht, Function.update_eq_self]
  exact hs.tickets

/-- It leaves the last id. -/
theorem quiet (hs : Invariant s) (ht : s.calls t = some c)
    (hlast : h.lastInsertId = s.handle.lastInsertId) (hstage : Stage h.lastInsertId c')
    (hseq : linkSeq h = linkSeq s.handle) (hown : c'.own = c.own) :
    Invariant ({ s with m_csCommit := l, handle := h }.setCall t c') := by
  refine hs.keep ht (fun t' _ c hc ↦ ?_) hstage hseq hown
  rw [hlast]
  exact hs.stage t' c hc

/-- A call begins. -/
theorem call (hs : Invariant s) (ht : s.calls t = none) {request : Request}
    (hserved : isServed request) :
    Invariant (s.setCall t ⟨request, request.program, false, none⟩) := by
  have hheld : s.tickets.held t = none := congrArg (Option.bind · Call.own) ht
  have hwaits : ¬Call.waits ⟨request, request.program, false, none⟩ := by
    rw [Call.waits, Bool.and_false]
    exact Bool.false_ne_true
  refine hs.setCall (fun t' _ c hc ↦ hs.stage t' c hc)
    (.begins hwaits (begins_program hserved) rfl) ?_
  rw [← hheld, Function.update_eq_self]
  exact hs.tickets

/-- A call returns. -/
theorem ret (hs : Invariant s) (ht : s.calls t = some c) {reply : Reply}
    (hrest : c.rest = .ret reply) :
    Invariant { s with
      calls := Function.update s.calls t none
      returned := s.returned ++ [(c.own, reply)] } where
  stage t' c' hc' := by
    change Function.update s.calls t none t' = some c' at hc'
    by_cases ht' : t' = t
    · subst ht'
      rw [Function.update_self] at hc'
      cases hc'
    · rw [Function.update_of_ne ht'] at hc'
      exact hs.stage t' c' hc'
  tickets := by
    have hheld := Function.comp_update (fun c : Option Call ↦ c.bind Call.own) s.calls t none
    have hreturned : (s.returned ++ [(c.own, reply)]).filterMap Prod.fst =
        s.tickets.handedIn ++ c.own.toList := by
      rw [List.filterMap_append]
      rcases c.own with _ | id <;> rfl
    show Tickets.Valid ⟨linkSeq s.handle,
      (fun c ↦ c.bind Call.own) ∘ Function.update s.calls t none,
      (s.returned ++ [(c.own, reply)]).filterMap Prod.fst⟩
    rw [hheld, hreturned, ← held_eq ht]
    exact hs.tickets.handIn t
  values r hr id hid := by
    rcases List.mem_append.mp hr with hr | hr
    · exact hs.values r hr id hid
    · rw [List.mem_singleton.mp hr] at hid ⊢
      obtain ⟨rfl, hpos⟩ := newId_eq_some.mp hid
      rcases hs.stage t c ht with ⟨-, hbegins, -⟩ | ⟨-, hasks, -⟩ | ⟨lNewId, -, hret, hown⟩
      · rw [hrest] at hbegins
        exact absurd hpos (Int.not_lt.mpr (hbegins id rfl))
      · rw [hrest] at hasks
        exact hasks.elim
      · obtain rfl := Reply.added.inj (Program.ret.inj (hrest.symm.trans hret))
        exact hown hpos

section

variable {ok : Bool} {szSql : List Char} {lRet : ℤ} {p : Prog Reply}

/-- The statement of `AddLinkInfo`. -/
theorem insertLink (hs : Invariant s) (ht : s.calls t = some c) (hadds : isAddLinkInfo c.request)
    (hparse : InsertsInto TBCHAN szSql) (hasks : AsksId p) (hcareful : CarefulExec ok s t c szSql)
    (hexec : execute ok (.exec szSql) s.handle = some (h, lRet)) :
    Invariant ({ s with handle := h }.setCall t (c.afterOp ok s.handle (.exec szSql) p)) := by
  rcases execute_insert hparse hexec with ⟨hrow, hdb, hlast⟩ | ⟨u, u', hu, hseq, hdb, hrow, hlast⟩
  · rw [CarefulExec, hrow] at hcareful
    refine hs.quiet ht hlast ?_ (by rw [linkSeq, hdb, linkSeq]) (own_afterExec_none hrow p)
    refine .asks (waits_afterExec hadds p) hasks fun hpos ↦ ?_
    rw [hlast] at hpos
    exact absurd hpos (Int.not_lt.mpr (hcareful hadds))
  · rw [CarefulExec, hrow] at hcareful
    obtain ⟨hothers, hlong⟩ := hcareful
    have hkey := own_afterExec_some hrow c p
    rw [if_pos rfl] at hkey
    have hcounter : linkSeq s.handle + 1 = u'.seq := by
      rw [linkSeq, hu, hseq]
      rfl
    have hcounter' : linkSeq h = u'.seq := by
      rw [linkSeq, hdb, Function.update_self]
      rfl
    rw [← hlast] at hothers
    refine hs.setCall (hs.others hothers) (.asks (waits_afterExec hadds p) hasks fun hpos ↦ ?_) ?_
    · rw [hlast] at hpos ⊢
      rw [hkey, hlong hadds hpos]
    · rw [hkey, hcounter', ← hcounter]
      exact hs.tickets.draw t

/-- A statement of `SetRuleInfo`. -/
theorem writeRule (hs : Invariant s) (ht : s.calls t = some c) (hadds : ¬isAddLinkInfo c.request)
    (hown : c.own = none) (hparse : InsertsInto TBRULE szSql ∨ Updates szSql)
    (hbegins : Begins (isAddLinkInfo c.request) p) (hcareful : CarefulExec ok s t c szSql)
    (hexec : execute ok (.exec szSql) s.handle = some (h, lRet)) :
    Invariant ({ s with handle := h }.setCall t (c.afterOp ok s.handle (.exec szSql) p)) := by
  have hwaits : ¬(c.afterOp ok s.handle (.exec szSql) p).waits :=
    fun hwaits ↦ hadds (Bool.and_eq_true_iff.mp hwaits).1
  rcases hparse with hparse | hparse
  · rcases execute_insert hparse hexec with ⟨hrow, hdb, hlast⟩ | ⟨u, u', -, -, hdb, hrow, hlast⟩
    · have hkey := own_afterExec_none (c := c) hrow p
      exact hs.quiet ht hlast (.begins hwaits hbegins (hkey.trans hown))
        (by rw [linkSeq, hdb, linkSeq]) hkey
    · rw [CarefulExec, hrow, ← hlast] at hcareful
      have hkey := own_afterExec_some hrow c p
      rw [if_neg TBRULE_ne_TBCHAN] at hkey
      refine hs.keep ht (hs.others hcareful.1) (.begins hwaits hbegins (hkey.trans hown)) ?_ hkey
      rw [linkSeq, hdb, Function.update_of_ne TBRULE_ne_TBCHAN.symm, linkSeq]
  · obtain ⟨hrow, hseq, hlast⟩ := execute_update hparse hexec
    have hkey := own_afterExec_none (c := c) hrow p
    exact hs.quiet ht hlast (.begins hwaits hbegins (hkey.trans hown)) hseq hkey

/-- **A careful step keeps the invariant.** -/
theorem next {s' : Threads T} {a : Move T} (hs : Invariant s) (hg : Careful s a)
    (hnext : s.next a = some s') : Invariant s' := by
  rcases a with ⟨t, request⟩ | ⟨t, ok⟩
  · obtain ⟨hcond, hnext⟩ := Option.ite_none_right_eq_some.mp hnext
    obtain ⟨hserved, hidle⟩ := Bool.and_eq_true_iff.mp hcond
    rw [← Option.some.inj hnext]
    exact hs.call (Option.isNone_iff_eq_none.mp hidle) hserved
  · obtain ⟨c, ht, hnext⟩ := Option.bind_eq_some_iff.mp hnext
    rw [Threads.advance] at hnext
    split at hnext
    · rename_i reply hrest
      rw [← Option.some.inj hnext]
      exact hs.ret ht hrest
    · cases hnext
    · rename_i rest hrest
      obtain ⟨l, -, rfl⟩ := Option.map_eq_some_iff.mp hnext
      refine hs.quiet ht rfl ?_ rfl rfl
      rcases hs.stage t c ht with ⟨hwaits, hbegins, hown⟩ | ⟨-, hasks, -⟩ | ⟨_, -, hret, -⟩
      · rw [hrest] at hbegins
        exact .begins hwaits hbegins hown
      · rw [hrest] at hasks
        exact hasks.elim
      · cases hret.symm.trans hrest
    · rename_i rest hrest
      rw [← Option.some.inj hnext]
      refine hs.quiet ht rfl ?_ rfl rfl
      rcases hs.stage t c ht with ⟨hwaits, hbegins, hown⟩ | ⟨hwaits, hasks, hown⟩ | ⟨_, -, hret, -⟩
      · rw [hrest] at hbegins
        exact .begins hwaits hbegins hown
      · rw [hrest] at hasks
        exact .asks hwaits hasks hown
      · cases hret.symm.trans hrest
    · rename_i o rest hrest
      obtain ⟨⟨h, r⟩, hexec, rfl⟩ := Option.map_eq_some_iff.mp hnext
      by_cases ho : ∃ szSql, o = .exec szSql
      · obtain ⟨szSql, rfl⟩ := ho
        have hcareful := carefulExec_of_careful ht hrest hg
        rcases hs.stage t c ht with ⟨-, hbegins, hown⟩ | ⟨-, hasks, -⟩ | ⟨_, -, hret, -⟩
        · rw [hrest, Begins] at hbegins
          split at hbegins
          · rename_i hadds
            exact hs.insertLink ht hadds hbegins.1 (hbegins.2 r) hcareful hexec
          · rename_i hadds
            exact hs.writeRule ht hadds hown hbegins.1 (hbegins.2 r) hcareful hexec
        · rw [hrest] at hasks
          exact hasks.elim
        · cases hret.symm.trans hrest
      · have hne : ∀ szSql, o ≠ .exec szSql := fun szSql h ↦ ho ⟨szSql, h⟩
        obtain ⟨hdb, hlast⟩ := execute_frame hne hexec
        refine hs.quiet ht hlast ?_ (by rw [linkSeq, hdb, linkSeq]) (own_afterOp hne _)
        rw [hlast]
        exact (hs.stage t c ht).afterOp hrest hne hexec

end

end Invariant

/-! ## All runs -/

/-- A function with fewer values selects a part of a list. -/
theorem filterMap_sublist {α β : Type} {f g : α → Option β} {xs : List α}
    (h : ∀ x ∈ xs, ∀ y, f x = some y → g x = some y) :
    (xs.filterMap f).Sublist (xs.filterMap g) := by
  induction xs with
  | nil => exact .slnil
  | cons x xs ih =>
      have hxs := ih fun x' hx' ↦ h x' (List.mem_cons_of_mem _ hx')
      rcases hf : f x with _ | y
      · rw [List.filterMap_cons_none hf]
        exact hxs.trans ((List.sublist_cons_self x xs).filterMap g)
      · rw [List.filterMap_cons_some hf,
          List.filterMap_cons_some (h x List.mem_cons_self y hf)]
        exact hxs.cons_cons y

section

variable {T : Type}

theorem Invariant.ownIds {s : Threads T} (hs : Invariant s) : OwnIds s :=
  ⟨hs.values, hs.tickets.nodup.sublist (filterMap_sublist hs.values)⟩

theorem invariant_fresh (h₀ : Handle) : Invariant (.fresh h₀ : Threads T) where
  stage := nofun
  tickets := Tickets.valid_start (linkSeq h₀)
  values := nofun

theorem invariant_of_reachable [DecidableEq T] {h₀ : Handle} {s : Threads T}
    (hs : (threads h₀).ReachableIf Careful s) : Invariant s := by
  refine hs.invariant ?_ fun s a s' hs hg hnext ↦ hs.next hg hnext
  rintro s rfl
  exact invariant_fresh h₀

end

/-! ## Careless steps -/

/-- A wrong id that was returned. -/
theorem not_ownIds_of_mem {T : Type} {s : Threads T} {own : Option ℤ} {lNewId : ℤ}
    (hmem : (own, .added lNewId) ∈ s.returned) (hpos : 0 < lNewId) (hown : own ≠ some lNewId) :
    ¬OwnIds s :=
  fun h ↦ hown (h.1 _ hmem lNewId (newId_eq_some.mpr ⟨rfl, hpos⟩))

theorem Call.statement_eq_some {c : Call} {szSql : List Char} (h : c.statement = some szSql) :
    ∃ rest, c.rest = .op (.exec szSql) rest := by
  rw [Call.statement] at h
  split at h
  · rename_i szSql' rest hrest
    rw [← Option.some.inj h]
    exact ⟨rest, hrest⟩
  · cases h

section

variable {ok : Bool} {h h' : Handle} {szSql table name : List Char} {id lRet : ℤ}

/-- After a statement that adds a row the last id is its key. -/
theorem lastInsertId_of_newRow (hrow : newRow ok h szSql = some (name, id))
    (hexec : execute ok (.exec szSql) h = some (h', lRet)) : h'.lastInsertId = id := by
  obtain ⟨table, hparse⟩ : ∃ table, InsertsInto table szSql := by
    rw [newRow] at hrow
    split at hrow
    · split at hrow
      · rename_i table ls hstmt
        exact ⟨table, fun stmt hparse ↦ ⟨ls, Option.some.inj (hparse.symm.trans hstmt)⟩⟩
      · cases hrow
    · cases hrow
  rcases execute_insert hparse hexec with ⟨hnone, -, -⟩ | ⟨_, u', -, -, -, hsome, hlast⟩
  · cases hnone.symm.trans hrow
  · cases hsome.symm.trans hrow
    exact hlast

/-- Where an insertion adds no row, the last id stays. -/
theorem lastInsertId_of_none (hparse : InsertsInto table szSql) (hrow : newRow ok h szSql = none)
    (hexec : execute ok (.exec szSql) h = some (h', lRet)) :
    h'.lastInsertId = h.lastInsertId := by
  rcases execute_insert hparse hexec with ⟨-, -, hlast⟩ | ⟨_, _, -, -, -, hsome, -⟩
  · exact hlast
  · cases hrow.symm.trans hsome

theorem eq_of_newRow (hparse : InsertsInto table szSql)
    (hrow : newRow ok h szSql = some (name, id))
    (hexec : execute ok (.exec szSql) h = some (h', lRet)) : name = table := by
  rcases execute_insert hparse hexec with ⟨hnone, -, -⟩ | ⟨_, _, -, -, -, hsome, -⟩
  · cases hnone.symm.trans hrow
  · exact (Prod.mk.inj (Option.some.inj (hrow.symm.trans hsome))).1

end

section

variable {T : Type} [DecidableEq T] {h₀ : Handle} {s : Threads T} {t : T} {c : Call}

theorem calls_setCall (s : Threads T) (t : T) (c : Call) : (s.setCall t c).calls t = some c := by
  show Function.update s.calls t (some c) t = some c
  rw [Function.update_self]

/-- A step of a thread in a call. -/
theorem next_step (ht : s.calls t = some c) (ok : Bool) :
    (threads h₀).next s (.step t ok) = s.advance t ok c := by
  show (s.calls t).bind _ = _
  rw [ht, Option.bind_some]

theorem exec_ret (h₀ : Handle) {reply : Reply} (ht : s.calls t = some c)
    (hrest : c.rest = .ret reply) :
    ∃ s', (threads h₀).exec s [.step t true] = some s' ∧ (c.own, reply) ∈ s'.returned := by
  refine ⟨{ s with
    calls := Function.update s.calls t none
    returned := s.returned ++ [(c.own, reply)] }, ?_, List.mem_append_right _ List.mem_cons_self⟩
  rw [System.exec_cons, next_step ht, Threads.advance, hrest]
  rfl

/-- An `AddLinkInfo` that is about to ask for the id can go on alone and returns it. -/
theorem exec_asks (h₀ : Handle) {p : Prog Reply} (hasks : AsksId p) (ht : s.calls t = some c)
    (hrest : c.rest = p) :
    ∃ as s', (threads h₀).exec s as = some s' ∧
      (c.own, .added (toLong s.handle.lastInsertId)) ∈ s'.returned := by
  induction p generalizing s c with
  | ret reply => exact hasks.elim
  | stuck => exact hasks.elim
  | lock rest ih => exact hasks.elim
  | unlock rest ih =>
      have hnext : (threads h₀).next s (.step t true) = some
          ({ s with m_csCommit := s.m_csCommit.release }.setCall t { c with rest }) := by
        rw [next_step ht, Threads.advance, hrest]
      obtain ⟨as, s', hexec, hmem⟩ := ih hasks (calls_setCall
        { s with m_csCommit := s.m_csCommit.release } t { c with rest }) rfl
      refine ⟨.step t true :: as, s', ?_, hmem⟩
      rw [System.exec_cons, hnext]
      exact hexec
  | op o rest ih =>
      cases o with
      | setCommit b =>
          have hnext : (threads h₀).next s (.step t true) =
              some (s.setCall t { c with rest := rest () }) := by
            rw [next_step ht, Threads.advance, hrest]
            rfl
          obtain ⟨as, s', hexec, hmem⟩ :=
            ih () (hasks ()) (calls_setCall s t { c with rest := rest () }) rfl
          refine ⟨.step t true :: as, s', ?_, hmem⟩
          rw [System.exec_cons, hnext]
          exact hexec
      | getLastInsertId =>
          have hnext : (threads h₀).next s (.step t true) = some (s.setCall t
              { c with
                rest := .ret (.added (toLong s.handle.lastInsertId))
                sent := false }) := by
            rw [next_step ht, Threads.advance, hrest, ← hasks]
            rfl
          obtain ⟨s', hexec, hmem⟩ := exec_ret h₀ (calls_setCall s t
            { c with
              rest := .ret (.added (toLong s.handle.lastInsertId))
              sent := false }) rfl
          refine ⟨[.step t true, .step t true], s', ?_, hmem⟩
          rw [System.exec_cons, hnext]
          exact hexec
      | _ => exact hasks.elim

/-- It is a wrong id if it is not that of its row. -/
theorem exec_misled (hasks : AsksId c.rest) (ht : s.calls t = some c)
    (hpos : 0 < toLong s.handle.lastInsertId)
    (hown : c.own ≠ some (toLong s.handle.lastInsertId)) :
    ∃ as s', (threads h₀).exec s as = some s' ∧ ¬OwnIds s' := by
  obtain ⟨as, s', hexec, hmem⟩ := exec_asks h₀ hasks ht rfl
  exact ⟨as, s', hexec, not_ownIds_of_mem hmem hpos hown⟩

/-- **Every other statement leads to a wrong id.**  After it the call that gets the id can return
it. -/
theorem exists_not_ownIds {s' : Threads T} {a : Move T} (hs : (threads h₀).ReachableIf Careful s)
    (hg : ¬Careful s a) (hnext : (threads h₀).next s a = some s') :
    ∃ as s'', (threads h₀).exec s' as = some s'' ∧ ¬OwnIds s'' := by
  have hinvariant := invariant_of_reachable hs
  rcases a with ⟨t, request⟩ | ⟨t, ok⟩
  · exact absurd trivial hg
  simp only [Careful, not_forall] at hg
  obtain ⟨c, ht, szSql, hsql, hcareless⟩ := hg
  obtain ⟨rest, hrest⟩ := Call.statement_eq_some hsql
  rw [next_step ht, Threads.advance, hrest] at hnext
  obtain ⟨⟨h, lRet⟩, hexec, rfl⟩ := Option.map_eq_some_iff.mp hnext
  obtain ⟨hbegins, hown⟩ : Begins (isAddLinkInfo c.request) (.op (.exec szSql) rest) ∧
      c.own = none := by
    rcases hinvariant.stage t c ht with ⟨-, hbegins, hown⟩ | ⟨-, hasks, -⟩ | ⟨_, -, hret, -⟩
    · exact ⟨hrest ▸ hbegins, hown⟩
    · rw [hrest] at hasks
      exact hasks.elim
    · cases hret.symm.trans hrest
  have hcall := calls_setCall { s with handle := h } t
    (c.afterOp ok s.handle (.exec szSql) (rest lRet))
  rw [CarefulExec] at hcareless
  rcases hrow : newRow ok s.handle szSql with _ | ⟨name, id⟩
  · -- its own insertion fails: it gets the id from before
    rw [hrow] at hcareless
    obtain ⟨hadds, hpos⟩ := Classical.not_imp.mp hcareless
    rw [Begins, if_pos hadds] at hbegins
    have hlast := lastInsertId_of_none hbegins.1 hrow hexec
    refine exec_misled (hbegins.2 lRet) hcall ?_ ?_
    · show 0 < toLong h.lastInsertId
      rw [hlast]
      exact Int.not_le.mp hpos
    · rw [own_afterExec_none hrow, hown]
      nofun
  · rw [hrow] at hcareless
    have hlast := lastInsertId_of_newRow hrow hexec
    by_cases hmisleads : Misleads s t id
    · -- another call gets the id of this row
      obtain ⟨t', ht', c', hc', hwaits, hpos, hother⟩ := hmisleads
      have hasks : AsksId c'.rest := by
        rcases hinvariant.stage t' c' hc' with ⟨hnot, -, -⟩ | ⟨-, hasks, -⟩ | ⟨_, hnot, -, -⟩
        · exact absurd hwaits hnot
        · exact hasks
        · exact absurd hwaits hnot
      have hcall' : ({ s with handle := h }.setCall t
          (c.afterOp ok s.handle (.exec szSql) (rest lRet))).calls t' = some c' := by
        show Function.update s.calls t _ t' = some c'
        rw [Function.update_of_ne ht', hc']
      rw [← hlast] at hpos hother
      exact exec_misled hasks hcall' hpos hother
    · -- the key of its own row is no `long`
      have hlong : ¬(isAddLinkInfo c.request → 0 < toLong id → toLong id = id) :=
        fun hlong ↦ hcareless ⟨hmisleads, hlong⟩
      obtain ⟨hadds, hlong⟩ := Classical.not_imp.mp hlong
      obtain ⟨hpos, hne⟩ := Classical.not_imp.mp hlong
      rw [Begins, if_pos hadds] at hbegins
      obtain rfl := eq_of_newRow hbegins.1 hrow hexec
      refine exec_misled (hbegins.2 lRet) hcall ?_ ?_
      · show 0 < toLong h.lastInsertId
        rw [hlast]
        exact hpos
      · show Call.own _ ≠ some (toLong h.lastInsertId)
        rw [own_afterExec_some hrow, if_pos rfl, hlast]
        exact fun h ↦ hne (Option.some.inj h).symm

end

/-! ## The returned ids -/

/-- **The returned ids are those of the rows of the calls**, as long as all steps are careful. -/
theorem ownIds_of_reachable {T : Type} [DecidableEq T] {h₀ : Handle} {s : Threads T}
    (hs : (threads h₀).ReachableIf Careful s) : OwnIds s :=
  (invariant_of_reachable hs).ownIds

/-- A thread adds the device of the test program. -/
def addsTestInfo (ok : Bool) : List (Move Unit) :=
  .call () (.addLinkInfo (some .testInfo)) :: List.replicate 7 (.step () ok)

instance instDecidableMisleads (s : Threads Unit) (t : Unit) (last : ℤ) :
    Decidable (Misleads s t last) :=
  .isFalse fun ⟨_, ht, _⟩ ↦ ht rfl

instance instDecidableCarefulExec (ok : Bool) (s : Threads Unit) (t : Unit) (c : Call)
    (szSql : List Char) : Decidable (CarefulExec ok s t c szSql) :=
  match h : newRow ok s.handle szSql with
  | some (_, id) => decidable_of_iff
      (¬Misleads s t id ∧ (isAddLinkInfo c.request → 0 < toLong id → toLong id = id))
      (by rw [CarefulExec, h])
  | none => decidable_of_iff (isAddLinkInfo c.request → toLong s.handle.lastInsertId ≤ 0)
      (by rw [CarefulExec, h])

instance instDecidableCareful (s : Threads Unit) : (a : Move Unit) → Decidable (Careful s a)
  | .call _ _ => .isTrue trivial
  | .step t ok => inferInstanceAs
      (Decidable (∀ c ∈ s.calls t, ∀ szSql ∈ c.statement, CarefulExec ok s t c szSql))

/-- The first row has the id 1. -/
theorem execIf_addsTestInfo :
    (((threads newHandle).execIf Careful (.fresh newHandle) (addsTestInfo true)).any fun s ↦
      s.returned.filterMap newId = [1]) = true := by
  decide +kernel

theorem ownIds_testInfo : ∃ s : Threads Unit,
    (threads newHandle).ReachableIf Careful s ∧ s.returned.filterMap newId = [1] ∧ OwnIds s := by
  obtain ⟨s, hs, hid⟩ := (Option.any_eq_true _ _).mp execIf_addsTestInfo
  have hs : (threads newHandle).ReachableIf Careful s :=
    System.ReachableIf.execIf (addsTestInfo true) (.start rfl) hs
  exact ⟨s, hs, of_decide_eq_true hid, ownIds_of_reachable hs⟩

/-- When the second insertion fails, the id of the first row is returned again. -/
theorem exec_addsTestInfo :
    (((threads newHandle).exec (.fresh newHandle) (addsTestInfo true ++ addsTestInfo false)).any
      fun s ↦ s.returned.filterMap newId = [1, 1]) = true := by
  decide +kernel

theorem not_ownIds :
    ¬∀ (T : Type) [DecidableEq T] (h₀ : Handle) (s : Threads T),
      (threads h₀).Reachable s → OwnIds s := by
  intro hall
  obtain ⟨s, hs, hid⟩ := (Option.any_eq_true _ _).mp exec_addsTestInfo
  have hs : (threads newHandle).Reachable s := System.reachable_of_exec _ rfl hs
  have hnodup := (hall Unit newHandle s hs).2
  rw [of_decide_eq_true hid] at hnodup
  exact absurd hnodup (by decide)

end NewId

end CodeToolKit.HwbrapSqlite
