import CodeToolKit.HwbrapSqlite.Session

/-!
# Acknowledged writes survive `DisconnectSQL`

A write that was executed waits in the open transaction or is durable already: the
commit thread may be between its `COMMIT` and its `BEGIN`, and a write that runs
there is not part of any transaction.  `DisconnectSQL` commits before it stops the
thread, and until the connection is closed no further write can come from the only
client.  So from that `COMMIT` on nothing waits, whatever the commit thread still
does, and the rollback of the close has nothing to undo.

`Safe` is that argument as an invariant: no executed write is ever dropped, and in
the states past the commit of a disconnect, or without a connection, nothing waits.
-/

namespace CodeToolKit.HwbrapSqlite

open CodeToolKit.Lib

namespace Session

/-- Past the `COMMIT` of `DisconnectSQL`. -/
def DisconnectPc.Committed : DisconnectPc → Prop
  | testDb | endTransaction .lock | endTransaction .exec => False
  | _ => True

/-- Past the `COMMIT` of the nested `DisconnectSQL`, and before the file is opened. -/
def ConnectPc.Committed : ConnectPc → Prop
  | disconnect p => p.Committed
  | newDb | openDb => True
  | _ => False

/-- Past the `COMMIT` of a disconnect. -/
def ClientPc.Committed : ClientPc → Prop
  | disconnect p => p.Committed
  | connect _ p => p.Committed
  | _ => False

/-- Nothing waits when there is no connection or `P` holds. -/
def Shared.Settled (h : Shared) (P : Prop) : Prop :=
  h.m_db = false ∨ h.isOpen = false ∨ P → h.journal.uncommitted = []

/-- No executed write is dropped, and a commit is final. -/
structure Safe (s : St) : Prop where
  /-- The writes of the calls that returned and of the running call are still there. -/
  kept : ∀ w ∈ s.acked ++ s.current, w ∈ s.journal.writes
  /-- Past the commit of a disconnect nothing waits. -/
  settled : s.Settled s.client.Committed

/-! ## The blocks -/

namespace Shared

variable {h h' : Shared}

theorem Settled.mono {P Q : Prop} (hs : h.Settled P) (hPQ : Q → P) : h.Settled Q :=
  fun hc ↦ hs (hc.imp_right (Or.imp_right hPQ))

/-- Nothing waits once `P` holds. -/
theorem Settled.uncommitted {P : Prop} (hs : h.Settled P) (hP : P) :
    h.journal.uncommitted = [] := hs (.inr (.inr hP))

/-- Settledness carries over to a state with the same connection in which no more
writes wait. -/
theorem Settled.congr {P : Prop} (hs : h.Settled P) (hdb : h'.m_db = h.m_db)
    (hopen : h'.isOpen = h.isOpen)
    (hj : h.journal.uncommitted = [] → h'.journal.uncommitted = []) : h'.Settled P := by
  intro hc
  rw [hdb, hopen] at hc
  exact hj (hs hc)

@[simp] theorem sqliteExec_m_db (h : Shared) (stmt : Journal ℕ → Journal ℕ) :
    (h.sqliteExec stmt).m_db = h.m_db := by unfold sqliteExec; split <;> rfl

@[simp] theorem sqliteExec_isOpen (h : Shared) (stmt : Journal ℕ → Journal ℕ) :
    (h.sqliteExec stmt).isOpen = h.isOpen := by unfold sqliteExec; split <;> rfl

/-- Without an open handle a statement leaves the journal alone. -/
theorem sqliteExec_journal (h : Shared) (stmt : Journal ℕ → Journal ℕ) :
    (h.sqliteExec stmt).journal = stmt h.journal ∨
      (h.m_db = false ∨ h.isOpen = false) ∧ (h.sqliteExec stmt).journal = h.journal := by
  unfold sqliteExec
  split
  · exact .inl rfl
  · rename_i hc
    refine .inr ⟨?_, rfl⟩
    cases hm : h.m_db <;> cases ho : h.isOpen <;> simp_all

/-- What the transaction functions and the queries do to the connection. -/
theorem txNext_journal {who : Party} {stmt : Journal ℕ → Journal ℕ} {p : TxPc}
    {q : Option TxPc} (hn : h.txNext who stmt p = some (h', q)) :
    h'.m_db = h.m_db ∧ h'.isOpen = h.isOpen ∧
      (h'.journal = h.journal ∨ h'.journal = stmt h.journal) := by
  cases p with
  | lock =>
      obtain ⟨l, -, he⟩ := Option.map_eq_some_iff.mp hn
      cases he
      exact ⟨rfl, rfl, .inl rfl⟩
  | exec =>
      cases hn
      refine ⟨sqliteExec_m_db _ _, sqliteExec_isOpen _ _, ?_⟩
      rcases sqliteExec_journal h stmt with he | ⟨-, he⟩
      · exact .inr he
      · exact .inl he
  | unlock =>
      cases hn
      exact ⟨rfl, rfl, .inl rfl⟩

/-- A transaction function or a query keeps every write, and what was settled. -/
theorem txNext_settled {who : Party} {stmt : Journal ℕ → Journal ℕ} {p : TxPc}
    {q : Option TxPc} (hw : (stmt h.journal).writes = h.journal.writes)
    (hu : h.journal.uncommitted = [] → (stmt h.journal).uncommitted = [])
    (hn : h.txNext who stmt p = some (h', q)) :
    h'.journal.writes = h.journal.writes ∧ ∀ P, h.Settled P → h'.Settled P := by
  obtain ⟨hdb, hopen, he | he⟩ := txNext_journal hn
  · exact ⟨by rw [he], fun P hs ↦ hs.congr hdb hopen (by rw [he]; exact id)⟩
  · exact ⟨by rw [he, hw], fun P hs ↦ hs.congr hdb hopen (by rw [he]; exact hu)⟩

/-- Stopping the commit thread does not touch the connection. -/
theorem stopNext_journal {p : StopPc} {q : Option StopPc} (hn : h.stopNext p = some (h', q)) :
    h'.m_db = h.m_db ∧ h'.isOpen = h.isOpen ∧ h'.journal = h.journal := by
  cases p with
  | wait =>
      simp only [stopNext] at hn
      split at hn
      · cases hn
      · cases hn
        exact ⟨rfl, rfl, rfl⟩
      · cases hn
        exact ⟨rfl, rfl, rfl⟩
  | setExit | closeEvent | closeThread | clearExit =>
      cases hn
      exact ⟨rfl, rfl, rfl⟩

/-- Every instruction of `DisconnectSQL` keeps the writes, and nothing waits from its
`COMMIT` on. -/
theorem disconnectNext_settled {p : DisconnectPc} {q : Option DisconnectPc}
    (hs : h.Settled p.Committed) (hn : h.disconnectNext p = some (h', q)) :
    h'.journal.writes = h.journal.writes ∧ h'.Settled (q.elim True DisconnectPc.Committed) := by
  cases p with
  | testDb =>
      cases hn
      refine ⟨rfl, fun hc ↦ hs ?_⟩
      cases hdb : h.m_db with
      | false => exact .inl rfl
      | true =>
          rw [hdb] at hc
          exact hc
  | endTransaction p =>
      obtain ⟨⟨h₁, r⟩, ht, he⟩ := Option.map_eq_some_iff.mp hn
      cases he
      obtain ⟨hw, hset⟩ := txNext_settled (Journal.writes_commit _)
        (fun _ ↦ Journal.uncommitted_commit _) ht
      refine ⟨hw, ?_⟩
      cases p with
      | lock =>
          obtain ⟨l, -, hl⟩ := Option.map_eq_some_iff.mp ht
          cases hl
          exact hset _ hs
      | exec =>
          -- the `COMMIT` itself: afterwards nothing waits, whether it ran or not
          cases ht
          intro _
          rcases sqliteExec_journal h Journal.commit with he | ⟨hoff, he⟩
          · rw [he, Journal.uncommitted_commit]
          · rw [he]
            exact hs (hoff.imp id .inl)
      | unlock =>
          cases ht
          exact hset _ hs
  | testThread =>
      cases hn
      exact ⟨rfl, hs.mono fun _ ↦ trivial⟩
  | stop p =>
      obtain ⟨⟨h₁, r⟩, ht, he⟩ := Option.map_eq_some_iff.mp hn
      cases he
      obtain ⟨hdb, hopen, hj⟩ := stopNext_journal ht
      refine ⟨by rw [hj], (hs.congr hdb hopen (by rw [hj]; exact id)).mono fun _ ↦ trivial⟩
  | closeDb =>
      cases hn
      refine ⟨Journal.writes_close_of_uncommitted (hs.uncommitted trivial), fun _ ↦ ?_⟩
      exact Journal.uncommitted_close _
  | deleteDb =>
      cases hn
      exact ⟨rfl, fun _ ↦ hs.uncommitted trivial⟩
  | ret =>
      cases hn
      exact ⟨rfl, fun _ ↦ hs.uncommitted trivial⟩

/-- Every instruction of `ConnectSQL` keeps the writes, and nothing waits from the
nested `COMMIT` until the file is opened again. -/
theorem connectNext_settled {nullPath ok : Bool} {p : ConnectPc} {q : Option ConnectPc}
    (hs : h.Settled p.Committed) (hn : h.connectNext nullPath ok p = some (h', q)) :
    h'.journal.writes = h.journal.writes ∧ h'.Settled (q.elim False ConnectPc.Committed) := by
  cases p with
  | lock =>
      obtain ⟨l, -, he⟩ := Option.map_eq_some_iff.mp hn
      cases he
      exact ⟨rfl, hs⟩
  | testPath =>
      cases hn
      exact ⟨rfl, hs.mono fun hc ↦ by cases nullPath <;> exact hc⟩
  | testDb =>
      cases hn
      refine ⟨rfl, fun hc ↦ hs ?_⟩
      cases hdb : h.m_db with
      | false => exact .inl rfl
      | true =>
          rw [hdb] at hc
          exact hc
  | disconnect p =>
      obtain ⟨⟨h₁, r⟩, ht, he⟩ := Option.map_eq_some_iff.mp hn
      cases he
      obtain ⟨hw, hset⟩ := disconnectNext_settled hs ht
      exact ⟨hw, hset.mono fun hc ↦ by cases r <;> exact hc⟩
  | newDb =>
      cases hn
      exact ⟨rfl, fun _ ↦ hs.uncommitted trivial⟩
  | openDb =>
      cases hn
      exact ⟨rfl, fun _ ↦ hs.uncommitted trivial⟩
  | beginTransaction p =>
      obtain ⟨⟨h₁, r⟩, ht, he⟩ := Option.map_eq_some_iff.mp hn
      cases he
      obtain ⟨hw, hset⟩ := txNext_settled (Journal.writes_begin _)
        (fun hu ↦ (Journal.uncommitted_begin _).trans hu) ht
      exact ⟨hw, (hset _ hs).mono fun hc ↦ by cases r <;> exact hc⟩
  | stop p =>
      obtain ⟨⟨h₁, r⟩, ht, he⟩ := Option.map_eq_some_iff.mp hn
      cases he
      obtain ⟨hdb, hopen, hj⟩ := stopNext_journal ht
      refine ⟨by rw [hj], (hs.congr hdb hopen (by rw [hj]; exact id)).mono fun hc ↦ ?_⟩
      cases r <;> exact hc
  | testThread =>
      cases hn
      exact ⟨rfl, hs.mono fun hc ↦ by revert hc; cases h.m_hCommitPro <;> exact id⟩
  | refuse | unlock | createEvent | createThread | ret =>
      cases hn
      exact ⟨rfl, hs⟩

end Shared

/-! ## The invariant -/

theorem safe_initial : Safe .initial where
  kept := fun w hw ↦ by simp [St.initial] at hw
  settled := fun _ ↦ rfl

/-- A step that neither executes a write nor ends a call keeps the invariant when its
effect on the connection does. -/
theorem Safe.of_shared {s s' : St} (hs : Safe s)
    (hw : s'.journal.writes = s.journal.writes) (hset : s'.Settled s'.client.Committed)
    (hacked : s'.acked = s.acked) (hcurrent : s'.current = s.current) : Safe s' where
  kept := by
    rw [hw, hacked, hcurrent]
    exact hs.kept
  settled := hset

/-- Every instruction of a writing call keeps the invariant: the write it executes is
added to the journal, and a return acknowledges nothing else. -/
theorem Safe.callNext {s s' : St} {c : Call} {bad ok : Bool} {newId : ℤ} {p : CallPc}
    (hs : Safe s) (hpc : s.client = .call c bad p)
    (hn : s.callNext c bad ok newId p = some s') : Safe s' := by
  have hset : s.Settled False := hs.settled.mono False.elim
  cases p with
  | lock =>
      obtain ⟨l, -, rfl⟩ := Option.map_eq_some_iff.mp hn
      exact hs.of_shared rfl hset rfl rfl
  | exec i =>
      simp only [St.callNext] at hn
      split at hn
      · rename_i hok
        cases hn
        refine ⟨fun w hw ↦ ?_, fun hc ↦ ?_⟩
        · -- the new write is the only one that was not there before
          have hmem : w ∈ (s.acked ++ s.current) ∨ w = s.serial := by
            simpa [or_assoc] using hw
          refine (Journal.writes_write s.journal s.serial).symm ▸ ?_
          exact List.mem_append.mpr (hmem.imp (hs.kept w) (by simp +contextual))
        · simp only [Bool.and_eq_true] at hok
          rcases hc with hc | hc | hc
          · exact absurd (hok.1.1.symm.trans hc) (by simp)
          · exact absurd (hok.1.2.symm.trans hc) (by simp)
          · exact hc.elim
      · cases hn
        exact hs.of_shared rfl hset rfl rfl
  | ret =>
      cases hn
      refine ⟨fun w hw ↦ hs.kept w ?_, hset⟩
      simp only [List.append_nil] at hw
      generalize (if c.readsInsertId then newId else s.lRet) = result at hw
      split at hw
      · exact hw
      · exact List.mem_append_left _ hw
  | clear | check | refuse | unlock | raise =>
      cases hn
      exact hs.of_shared rfl hset rfl rfl

/-- Every instruction of the client keeps the invariant. -/
theorem Safe.clientNext {s s' : St} {ok : Bool} {newId : ℤ} (hs : Safe s)
    (hn : s.clientNext ok newId = some s') : Safe s' := by
  unfold St.clientNext at hn
  have hset := hs.settled
  cases hpc : s.client with
  | idle => simp [hpc] at hn
  | call c bad p =>
      simp only [hpc] at hn
      exact hs.callNext hpc hn
  | get p =>
      simp only [hpc] at hn hset
      obtain ⟨⟨h, q⟩, ht, rfl⟩ := Option.map_eq_some_iff.mp hn
      obtain ⟨hw, hkeep⟩ := Shared.txNext_settled rfl id ht
      exact hs.of_shared hw ((hkeep _ hset).mono fun hc ↦ by cases q <;> exact hc) rfl rfl
  | begin p =>
      simp only [hpc] at hn hset
      obtain ⟨⟨h, q⟩, ht, rfl⟩ := Option.map_eq_some_iff.mp hn
      obtain ⟨hw, hkeep⟩ := Shared.txNext_settled (Journal.writes_begin _)
        (fun hu ↦ (Journal.uncommitted_begin _).trans hu) ht
      exact hs.of_shared hw ((hkeep _ hset).mono fun hc ↦ by cases q <;> exact hc) rfl rfl
  | commit p =>
      simp only [hpc] at hn hset
      obtain ⟨⟨h, q⟩, ht, rfl⟩ := Option.map_eq_some_iff.mp hn
      obtain ⟨hw, hkeep⟩ := Shared.txNext_settled (Journal.writes_commit _)
        (fun _ ↦ Journal.uncommitted_commit _) ht
      exact hs.of_shared hw ((hkeep _ hset).mono fun hc ↦ by cases q <;> exact hc) rfl rfl
  | connect nullPath p =>
      simp only [hpc] at hn hset
      obtain ⟨⟨h, q⟩, ht, rfl⟩ := Option.map_eq_some_iff.mp hn
      obtain ⟨hw, hkeep⟩ := Shared.connectNext_settled hset ht
      exact hs.of_shared hw (hkeep.mono fun hc ↦ by cases q <;> exact hc) rfl rfl
  | disconnect p =>
      simp only [hpc] at hn hset
      obtain ⟨⟨h, q⟩, ht, rfl⟩ := Option.map_eq_some_iff.mp hn
      obtain ⟨hw, hkeep⟩ := Shared.disconnectNext_settled hset ht
      exact hs.of_shared hw (hkeep.mono fun hc ↦ by cases q <;> first | exact hc | exact hc.elim)
        rfl rfl

/-- Every instruction of the commit thread keeps the invariant: its `COMMIT` and its
`BEGIN` move writes to the durable side only. -/
theorem Safe.commitNext {s s' : St} (hs : Safe s) (hn : s.commitNext = some s') : Safe s' := by
  unfold St.commitNext at hn
  cases hpc : s.commit with
  | absent => simp [hpc] at hn
  | endTransaction p =>
      simp only [hpc] at hn
      obtain ⟨⟨h, q⟩, ht, rfl⟩ := Option.map_eq_some_iff.mp hn
      obtain ⟨hw, hkeep⟩ := Shared.txNext_settled (Journal.writes_commit _)
        (fun _ ↦ Journal.uncommitted_commit _) ht
      exact hs.of_shared hw (hkeep _ hs.settled) rfl rfl
  | beginTransaction p =>
      simp only [hpc] at hn
      obtain ⟨⟨h, q⟩, ht, rfl⟩ := Option.map_eq_some_iff.mp hn
      obtain ⟨hw, hkeep⟩ := Shared.txNext_settled (Journal.writes_begin _)
        (fun hu ↦ (Journal.uncommitted_begin _).trans hu) ht
      exact hs.of_shared hw (hkeep _ hs.settled) rfl rfl
  | top | testCommit | clear | waitExit i | waitCommit i | sleep i | signal =>
      simp only [hpc, Option.some.injEq] at hn
      subst hn
      exact hs.of_shared rfl hs.settled rfl rfl

/-- **Step.** -/
theorem Safe.next {s s' : St} {a : Act} (hs : Safe s) (hn : s.next a = some s') : Safe s' := by
  cases a with
  | enter a =>
      simp only [St.next] at hn
      split at hn
      · cases hn
        refine hs.of_shared rfl (hs.settled.mono fun hc ↦ ?_) rfl rfl
        cases a <;> exact hc.elim
      · cases hn
  | client ok newId => exact hs.clientNext hn
  | commit => exact hs.commitNext hn

/-- **Run.** -/
theorem safe_of_reachable {s : St} (h : system.Reachable s) : Safe s :=
  h.invariant (fun _ hs ↦ hs ▸ safe_initial) fun _ _ _ hs _ hn ↦ hs.next hn

/-- **Acknowledged writes survive `DisconnectSQL`**: when it returns, every write of a
call that returned success is durable. -/
theorem durable_of_disconnected {s : St} (h : system.Reachable s)
    (hret : s.client = .disconnect .ret) : ∀ w ∈ s.acked, w ∈ s.journal.durable := by
  intro w hw
  have hs := safe_of_reachable h
  refine Journal.mem_durable_of_uncommitted (hs.settled.uncommitted ?_)
    (hs.kept w (List.mem_append_left _ hw))
  rw [hret]
  exact trivial

/-- Connect, one `AddLinkInfo`, disconnect: the commit thread sees `m_bExit` first. -/
def addAndDisconnect : List Act :=
  .enter (.connect false) :: List.replicate 13 (.client true 0) ++
  .enter (.call .addLinkInfo false) :: List.replicate 6 (.client true 1) ++
  .enter .disconnect :: List.replicate 6 (.client true 0) ++
  List.replicate 2 .commit ++ List.replicate 6 (.client true 0)

theorem durable_addAndDisconnect : ∃ s, system.exec .initial addAndDisconnect = some s ∧
    s.client = .disconnect .ret ∧ s.acked = [0] ∧ ∀ w ∈ s.acked, w ∈ s.journal.durable :=
  ⟨_, rfl, rfl, rfl,
    durable_of_disconnected (System.reachable_of_exec addAndDisconnect rfl rfl) rfl⟩

end Session

end CodeToolKit.HwbrapSqlite
