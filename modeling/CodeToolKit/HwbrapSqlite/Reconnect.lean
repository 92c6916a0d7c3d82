import CodeToolKit.HwbrapSqlite.CommitLock

/-!
# `ConnectSQL` on a connected `CDBManage`

`ConnectSQL` takes `m_csCommit` and, when there is a connection already, calls
`DisconnectSQL` with the lock held.  `DisconnectSQL` waits without limit for the
commit thread, and the commit thread needs the lock for a commit it has begun.  So
the two can wait for each other (`not_canMove`).

They cannot as long as the commit thread is outside of its commit block when
`ConnectSQL` takes the lock, and does not enter the block before the wait is over:
`canMove_of_reachable`.  The proof keeps three invariants: the counts of the lock
are those the program counters say (`LockInv`), a running thread and its event
belong together (`ThreadInv`), and the thread stays out of the block while the
reconnecting client holds the lock (`Apart`).
-/

namespace CodeToolKit.HwbrapSqlite

open CodeToolKit.Lib

namespace Session

/-- Some thread has an enabled step. -/
def CanMove (s : St) : Prop :=
  (∃ ok newId, (s.clientNext ok newId).isSome) ∨ s.commitNext.isSome

/-- `ConnectSQL` has not returned. -/
def ClientPc.InConnect : ClientPc → Prop
  | connect _ _ => True
  | _ => False

/-- In the block that begins when `m_bCommit` was read as `TRUE` and ends with
`BeginTransaction`. -/
def CommitPc.InBlock : CommitPc → Prop
  | endTransaction _ | beginTransaction _ => True
  | _ => False

/-- In `DisconnectSQL` up to the end of its wait. -/
def DisconnectPc.BeforeStop : DisconnectPc → Prop
  | testDb | endTransaction _ | testThread | stop .setExit | stop .wait => True
  | _ => False

/-- In the `DisconnectSQL` of `ConnectSQL`, up to the end of the wait. -/
def ClientPc.Stopping : ClientPc → Prop
  | connect _ (.disconnect p) => p.BeforeStop
  | _ => False

/-- In `ConnectSQL` with a path, from its `Lock` to the end of the wait in
`DisconnectSQL`. -/
def ClientPc.Reconnecting (pc : ClientPc) : Prop :=
  pc = .connect false .testPath ∨ (∃ nullPath, pc = .connect nullPath .testDb) ∨ pc.Stopping

/-- The steps that lead to the deadlock are avoided: `ConnectSQL` does not take the
lock over a live connection while the commit thread is in its block, and the thread
does not read `m_bCommit` as `TRUE` while a reconnecting client holds the lock. -/
def KeepsApart (s : St) : Act → Prop
  | .client _ _ => s.client = .connect false .lock → s.m_db = true → ¬ s.commit.InBlock
  | .commit => s.commit = .testCommit → s.client.Reconnecting → s.m_db = true →
      s.m_bCommit = false
  | .enter _ => True

/-! ## Away from the commit block -/

/-- While the client stops the thread with the lock held there is a connection, and
while it may yet stop the thread the thread is outside of its commit block. -/
structure Apart (s : St) : Prop where
  connected : s.client.Stopping → s.m_db = true
  outside : s.client.Reconnecting → s.m_db = true → ¬ s.commit.InBlock

theorem apart_initial : Apart .initial := ⟨False.elim, fun _ hdb ↦ nomatch hdb⟩

namespace Shared

variable {h h' : Shared}

/-- `DisconnectSQL` comes to its wait with the connection it started with. -/
theorem disconnectNext_beforeStop {p q : DisconnectPc}
    (hn : h.disconnectNext p = some (h', some q)) (hq : q.BeforeStop) :
    p.BeforeStop ∧ h'.m_db = h.m_db := by
  cases p with
  | endTransaction p =>
      obtain ⟨⟨h₁, r⟩, ht, he⟩ := Option.map_eq_some_iff.mp hn
      cases he
      exact ⟨trivial, (txNext_handles ht).2.2⟩
  | stop p =>
      obtain ⟨⟨h₁, r⟩, ht, he⟩ := Option.map_eq_some_iff.mp hn
      cases he
      cases p with
      | setExit =>
          cases ht
          exact ⟨trivial, rfl⟩
      | wait =>
          simp only [stopNext] at ht
          split at ht <;> cases ht <;> exact hq.elim
      | closeEvent | closeThread | clearExit =>
          cases ht
          exact hq.elim
  | testDb | testThread =>
      cases hn
      exact ⟨trivial, rfl⟩
  | closeDb | deleteDb | ret =>
      cases hn
      try exact hq.elim

/-- `ConnectSQL` comes to the wait of its `DisconnectSQL` from its own `Lock`, with
the connection it found there. -/
theorem connectNext_reconnecting {nullPath ok : Bool} {p q : ConnectPc}
    (hn : h.connectNext nullPath ok p = some (h', some q))
    (hq : (ClientPc.connect nullPath q).Reconnecting) :
    (p = .lock ∧ (ClientPc.connect nullPath q) = .connect false .testPath ∨
      (ClientPc.connect nullPath p).Reconnecting) ∧ h'.m_db = h.m_db ∧
      ((ClientPc.connect nullPath q).Stopping →
        h.m_db = true ∨ (ClientPc.connect nullPath p).Stopping) := by
  -- no other place is reached from outside
  have hout : ∀ {r : ConnectPc}, (ClientPc.connect nullPath r).Reconnecting →
      r = .testPath ∧ nullPath = false ∨ r = .testDb ∨ ∃ d, r = .disconnect d ∧ d.BeforeStop := by
    rintro r (hr | ⟨_, hr⟩ | hr)
    · cases hr
      exact .inl ⟨rfl, rfl⟩
    · cases hr
      exact .inr (.inl rfl)
    · cases r with
      | disconnect d => exact .inr (.inr ⟨d, rfl, hr⟩)
      | _ => exact hr.elim
  cases p with
  | lock =>
      obtain ⟨l, -, he⟩ := Option.map_eq_some_iff.mp hn
      cases he
      obtain ⟨-, rfl⟩ | hr | ⟨d, hr, -⟩ := hout hq
      · exact ⟨.inl ⟨rfl, rfl⟩, rfl, False.elim⟩
      · cases hr
      · cases hr
  | testPath =>
      cases hn
      cases nullPath with
      | true => obtain ⟨hr, -⟩ | hr | ⟨d, hr, -⟩ := hout hq <;> cases hr
      | false => exact ⟨.inr (.inl rfl), rfl, False.elim⟩
  | testDb =>
      cases hn
      refine ⟨.inr (.inr (.inl ⟨_, rfl⟩)), rfl, fun hs ↦ ?_⟩
      cases hdb : h.m_db with
      | true => exact .inl rfl
      | false =>
          rw [hdb] at hs
          exact False.elim hs
  | disconnect p =>
      obtain ⟨⟨h₁, r⟩, ht, he⟩ := Option.map_eq_some_iff.mp hn
      cases he
      cases r with
      | none => obtain ⟨hr, -⟩ | hr | ⟨d, hr, -⟩ := hout hq <;> cases hr
      | some r =>
          obtain ⟨hr, -⟩ | hr | ⟨d, hr, hd⟩ := hout hq
          · cases hr
          · cases hr
          · cases hr
            obtain ⟨hp, hdb⟩ := disconnectNext_beforeStop ht hd
            exact ⟨.inr (.inr (.inr hp)), hdb, fun _ ↦ .inr hp⟩
  | beginTransaction p | stop p =>
      obtain ⟨⟨h₁, r⟩, ht, he⟩ := Option.map_eq_some_iff.mp hn
      cases he
      cases r <;> obtain ⟨hr, -⟩ | hr | ⟨d, hr, -⟩ := hout hq <;> cases hr
  | testThread =>
      cases hn
      cases hpro : h.m_hCommitPro <;> rw [hpro] at hq <;>
        obtain ⟨hr, -⟩ | hr | ⟨d, hr, -⟩ := hout hq <;> cases hr
  | newDb | openDb | unlock | createEvent | createThread =>
      cases hn
      obtain ⟨hr, -⟩ | hr | ⟨d, hr, -⟩ := hout hq <;> cases hr
  | refuse | ret => cases hn

end Shared

/-- How a client step comes to a place from which `ConnectSQL` may stop the thread:
with the lock just taken, or from such a place. -/
theorem clientNext_reconnecting {s s' : St} {ok : Bool} {newId : ℤ}
    (hn : s.clientNext ok newId = some s') (hr : s'.client.Reconnecting) :
    (s.client = .connect false .lock ∨ s.client.Reconnecting) ∧ s'.m_db = s.m_db ∧
      s'.commit = s.commit ∧ (s'.client.Stopping → s.m_db = true ∨ s.client.Stopping) := by
  have hcommit : s'.commit = s.commit := by
    rcases clientNext_commit hn with hc | ⟨⟨nullPath, hpc⟩, -⟩
    · exact hc
    · -- `CreateThread` is followed by the return
      simp only [St.clientNext, hpc, Shared.connectNext, Option.map_some,
        Option.some.injEq] at hn
      subst hn
      rcases hr with hr | ⟨_, hr⟩ | hr <;> cases hr
  unfold St.clientNext at hn
  cases hpc : s.client with
  | idle => simp [hpc] at hn
  | call c bad p =>
      simp only [hpc] at hn
      obtain ⟨-, -, -, hcl | ⟨p', hcl⟩⟩ := callNext_handles hn
      · rw [hcl] at hr
        rcases hr with hr | ⟨_, hr⟩ | hr <;> cases hr
      · rw [hcl] at hr
        rcases hr with hr | ⟨_, hr⟩ | hr <;> cases hr
  | get p | begin p | commit p | disconnect p =>
      simp only [hpc] at hn
      obtain ⟨⟨h, q⟩, -, rfl⟩ := Option.map_eq_some_iff.mp hn
      cases q <;> rcases hr with hr | ⟨_, hr⟩ | hr <;> cases hr
  | connect nullPath p =>
      simp only [hpc] at hn
      obtain ⟨⟨h, q⟩, ht, rfl⟩ := Option.map_eq_some_iff.mp hn
      cases q with
      | none => rcases hr with hr | ⟨_, hr⟩ | hr <;> cases hr
      | some q =>
          obtain ⟨hp, hdb, hstop⟩ := Shared.connectNext_reconnecting ht hr
          refine ⟨hp.imp_left ?_, hdb, hcommit, hstop⟩
          rintro ⟨rfl, hq⟩
          cases hq
          rfl

/-- The commit thread enters its block only by reading `m_bCommit` as `TRUE`. -/
theorem commitNext_inBlock {s s' : St} (hn : s.commitNext = some s') (hb : s'.commit.InBlock) :
    s.commit.InBlock ∨ s.commit = .testCommit ∧ s.m_bCommit = true := by
  unfold St.commitNext at hn
  cases hpc : s.commit with
  | absent => simp [hpc] at hn
  | endTransaction p | beginTransaction p =>
      exact .inl trivial
  | testCommit =>
      simp only [hpc, Option.some.injEq] at hn
      subst hn
      cases hflag : s.m_bCommit with
      | true => exact .inr ⟨rfl, rfl⟩
      | false =>
          rw [hflag] at hb
          exact False.elim hb
  | top | clear | waitExit i | waitCommit i | sleep i | signal =>
      simp only [hpc, Option.some.injEq] at hn
      subst hn
      simp only at hb
      repeat' split at hb
      all_goals exact False.elim hb

/-- **Step.** -/
theorem Apart.next {s s' : St} {a : Act} (hs : Apart s) (hg : KeepsApart s a)
    (hn : s.next a = some s') : Apart s' := by
  cases a with
  | enter a =>
      simp only [St.next] at hn
      split at hn
      · cases hn
        have hno : ∀ {a : Api}, a.entry.Stopping → False := fun {a} hc ↦ by cases a <;> exact hc
        refine ⟨fun hc ↦ (hno hc).elim, ?_⟩
        rintro (hr | ⟨_, hr⟩ | hr)
        · cases a <;> cases hr
        · cases a <;> cases hr
        · exact (hno hr).elim
      · cases hn
  | client ok newId =>
      refine ⟨fun hc ↦ ?_, fun hr hdb ↦ ?_⟩
      · obtain ⟨-, hdb, -, hstop⟩ := clientNext_reconnecting hn (.inr (.inr hc))
        rw [hdb]
        exact (hstop hc).elim id hs.connected
      · obtain ⟨hp, hdb', hcommit, -⟩ := clientNext_reconnecting hn hr
        rw [hdb'] at hdb
        rw [hcommit]
        rcases hp with hp | hp
        · exact hg hp hdb
        · exact hs.outside hp hdb
  | commit =>
      obtain ⟨hcl, hdb'⟩ := commitNext_frame hn
      refine ⟨fun hc ↦ ?_, fun hr hdb hb ↦ ?_⟩
      · rw [hdb']
        exact hs.connected (hcl ▸ hc)
      · rw [hcl] at hr
        rw [hdb'] at hdb
        rcases commitNext_inBlock hn hb with hb | ⟨htest, hflag⟩
        · exact hs.outside hr hdb hb
        · exact absurd (hflag.symm.trans (hg htest hr hdb)) (by simp)

theorem apart_of_reachable {s : St} (h : system.ReachableIf KeepsApart s) : Apart s :=
  h.invariant (fun _ hs ↦ hs ▸ apart_initial) fun _ _ _ hs hg hn ↦ hs.next hg hn

/-! ## Somebody can move -/

/-- A commit thread inside the lock, or outside of its block, is not stuck. -/
theorem commitNext_isSome {s : St} (hs : LockInv s) (halive : s.commit ≠ .absent)
    (hc : s.commit.depth ≠ 0 ∨ ¬ s.commit.InBlock ∨ s.client.depth = 0) :
    s.commitNext.isSome := by
  unfold St.commitNext
  have hlock : s.commit.depth = 0 → s.commit.InBlock → (s.m_csCommit.acquire .commit).isSome := by
    intro hd hb
    refine RecLock.acquire_isSome.mpr fun q hq ↦ ?_
    cases q with
    | commit => exact absurd rfl hq
    | client => exact hs.client.trans (hc.elim (absurd hd) (Or.resolve_left · (not_not_intro hb)))
  cases hpc : s.commit with
  | absent => exact absurd hpc halive
  | endTransaction p | beginTransaction p =>
      simp only [Option.isSome_map]
      cases p with
      | lock =>
          rw [hpc] at hlock
          simpa only [Shared.txNext, Option.isSome_map] using hlock rfl trivial
      | exec | unlock => rfl
  | top | testCommit | clear | waitExit i | waitCommit i | sleep i | signal => rfl

namespace Shared

variable {h : Shared}

/-- Stopping the commit thread is only ever stuck in the wait. -/
theorem stopNext_eq_none {p : StopPc} (hn : h.stopNext p = none) :
    p = .wait ∧ h.m_hEvent = some false := by
  cases p with
  | wait =>
      simp only [stopNext] at hn
      split at hn
      · rename_i hev
        exact ⟨rfl, hev⟩
      · cases hn
      · cases hn
  | setExit | closeEvent | closeThread | clearExit => cases hn

/-- `DisconnectSQL` is only ever stuck at the lock or in the wait. -/
theorem disconnectNext_eq_none {p : DisconnectPc} (hn : h.disconnectNext p = none) :
    h.m_csCommit.acquire .client = none ∨ p = .stop .wait ∧ h.m_hEvent = some false := by
  cases p with
  | endTransaction p =>
      cases p with
      | lock => exact .inl (by simpa [disconnectNext, txNext] using hn)
      | exec | unlock => cases hn
  | stop p =>
      obtain ⟨rfl, hev⟩ := stopNext_eq_none (Option.map_eq_none_iff.mp hn)
      exact .inr ⟨rfl, hev⟩
  | testDb | testThread | closeDb | deleteDb | ret => cases hn

/-- `ConnectSQL` is only ever stuck at the lock or in a wait. -/
theorem connectNext_eq_none {nullPath ok : Bool} {p : ConnectPc}
    (hn : h.connectNext nullPath ok p = none) :
    h.m_csCommit.acquire .client = none ∧ (p = .lock ∨ p.depth ≠ 0) ∨
      (p = .disconnect (.stop .wait) ∨ p = .stop .wait) ∧ h.m_hEvent = some false := by
  cases p with
  | lock => exact .inl ⟨by simpa [connectNext] using hn, .inl rfl⟩
  | disconnect p =>
      rcases disconnectNext_eq_none (Option.map_eq_none_iff.mp hn) with ha | ⟨rfl, hev⟩
      · exact .inl ⟨ha, .inr (by simp [ConnectPc.depth])⟩
      · exact .inr ⟨.inl rfl, hev⟩
  | beginTransaction p =>
      cases p with
      | lock => exact .inl ⟨by simpa [connectNext, txNext] using hn, .inr (by decide)⟩
      | exec | unlock => cases hn
  | stop p =>
      obtain ⟨rfl, hev⟩ := stopNext_eq_none (Option.map_eq_none_iff.mp hn)
      exact .inr ⟨.inr rfl, hev⟩
  | testPath | refuse | testDb | newDb | openDb | unlock | testThread | createEvent
  | createThread | ret => cases hn

end Shared

/-- A client inside `ConnectSQL` that is not enabled waits for the lock, or for a
running thread. -/
theorem clientNext_eq_none {s : St} (hs : LockInv s) (ht : ThreadInv s)
    (hc : s.client.InConnect) (hno : s.clientNext true 0 = none) :
    s.commit.depth ≠ 0 ∨
      s.commit ≠ .absent ∧ (s.client.Stopping ∨ s.client.depth = 0) := by
  cases hpc : s.client with
  | connect nullPath p =>
      simp only [St.clientNext, hpc, Option.map_eq_none_iff] at hno
      rcases Shared.connectNext_eq_none hno with ⟨ha, hp⟩ | ⟨hp, hev⟩
      · left
        intro hd
        have := acquire_client hs (.inr hd)
        rw [ha] at this
        cases this
      · -- an event that is not signalled belongs to a running thread
        right
        refine ⟨fun habs ↦ ?_, ?_⟩
        · have hclosing := ht.handles.ended habs hev
          rw [hpc] at hclosing
          rcases hp with rfl | rfl <;> rcases hclosing with hc | hc | hc <;> cases hc
        · rcases hp with rfl | rfl
          · exact .inl trivial
          · exact .inr rfl
  | idle | call | get | begin | commit | disconnect =>
      rw [hpc] at hc
      exact False.elim hc

/-- **Reconnecting never deadlocks away from the commit block**: in every run in which
the thread stays outside of its block while a reconnecting client holds the lock, a
step is enabled until `ConnectSQL` has returned. -/
theorem canMove_of_reachable {s : St} (h : system.ReachableIf KeepsApart s)
    (hc : s.client.InConnect) : CanMove s := by
  have hs := lockInv_of_reachable h
  have ht := threadInv_of_reachable h
  have ha := apart_of_reachable h
  cases hno : s.clientNext true 0 with
  | some s' => exact .inl ⟨true, 0, by rw [hno]; rfl⟩
  | none =>
      right
      rcases clientNext_eq_none hs ht hc hno with hd | ⟨halive, hstop | hd⟩
      · exact commitNext_isSome hs (fun hc ↦ hd (hc ▸ rfl)) (.inl hd)
      · have hout := ha.outside (.inr (.inr hstop)) (ha.connected hstop)
        exact commitNext_isSome hs halive (.inr (.inl hout))
      · exact commitNext_isSome hs halive (.inr (.inr hd))

instance : DecidablePred CommitPc.InBlock
  | .endTransaction _ | .beginTransaction _ => .isTrue trivial
  | .absent | .top | .testCommit | .clear | .waitExit _ | .waitCommit _ | .sleep _ | .signal =>
      .isFalse id

instance : DecidablePred DisconnectPc.BeforeStop
  | .testDb | .endTransaction _ | .testThread | .stop .setExit | .stop .wait => .isTrue trivial
  | .stop .closeEvent | .stop .closeThread | .stop .clearExit | .closeDb | .deleteDb | .ret =>
      .isFalse id

instance : DecidablePred ClientPc.Stopping
  | .connect _ (.disconnect p) => inferInstanceAs (Decidable p.BeforeStop)
  | .connect _ .lock | .connect _ .testPath | .connect _ .refuse | .connect _ .testDb
  | .connect _ .newDb | .connect _ .openDb | .connect _ (.beginTransaction _)
  | .connect _ .unlock | .connect _ .testThread | .connect _ (.stop _)
  | .connect _ .createEvent | .connect _ .createThread | .connect _ .ret
  | .idle | .call _ _ _ | .get _ | .begin _ | .commit _ | .disconnect _ => .isFalse id

instance : DecidablePred ClientPc.Reconnecting := fun pc ↦ inferInstanceAs
  (Decidable (pc = .connect false .testPath ∨ (∃ nullPath, pc = .connect nullPath .testDb) ∨
    pc.Stopping))

instance (s : St) : DecidablePred (KeepsApart s)
  | .client _ _ => inferInstanceAs (Decidable
      (s.client = .connect false .lock → s.m_db = true → ¬ s.commit.InBlock))
  | .commit => inferInstanceAs (Decidable
      (s.commit = .testCommit → s.client.Reconnecting → s.m_db = true → s.m_bCommit = false))
  | .enter _ => .isTrue trivial

/-- The client connects. -/
def connectFirst : List Act := .enter (.connect false) :: List.replicate 13 (.client true 0)

/-- The client connects again, the thread being in its waiting loop, and comes to the
wait. -/
def reconnectApart : List Act :=
  connectFirst ++ .commit :: .commit :: .enter (.connect false) ::
    List.replicate 9 (.client true 0)

theorem canMove_reconnectApart : ∃ s, system.execIf KeepsApart .initial reconnectApart = some s ∧
    s.client = .connect false (.disconnect (.stop .wait)) ∧ CanMove s :=
  ⟨_, rfl, rfl, canMove_of_reachable
    (System.ReachableIf.execIf reconnectApart (.start rfl) rfl) trivial⟩

/-- A write raises `m_bCommit`, the client connects again and comes close to the wait,
the commit thread reads the flag, and the client goes on to the wait. -/
def deadlocked : List Act :=
  connectFirst ++ .enter (.call .addLinkInfo false) :: List.replicate 6 (.client true 0) ++
    .commit :: .enter (.connect false) :: List.replicate 8 (.client true 0) ++
    [.commit, .client true 0]

/-- The schedule `deadlocked` leaves both threads stuck, with `ConnectSQL` running. -/
theorem not_canMove : ¬ ∀ s, system.Reachable s → s.client.InConnect → CanMove s := by
  intro h
  have hmove := h _ (System.reachable_of_exec deadlocked rfl rfl) trivial
  rcases hmove with ⟨ok, newId, hmove⟩ | hmove
  · exact Bool.noConfusion hmove
  · exact Bool.noConfusion hmove

end Session

end CodeToolKit.HwbrapSqlite
