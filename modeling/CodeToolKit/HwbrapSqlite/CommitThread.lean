import CodeToolKit.HwbrapSqlite.Session

/-!
# The commit thread and its handles

`ConnectSQL` creates `m_hEvent` and then the thread, the thread signals the event as
its last instruction, and both calls close the two handles after they have waited.
`ThreadInv` says what that amounts to in every state of a run: a running thread has
its handle and an event nobody has signalled, and there is none past the wait.
-/

namespace CodeToolKit.HwbrapSqlite

open CodeToolKit.Lib

namespace Session

/-- A client step leaves the program counter of the commit thread alone, except that
`CreateThread` starts it. -/
theorem clientNext_commit {s s' : St} {ok : Bool} {newId : ℤ}
    (hn : s.clientNext ok newId = some s') :
    s'.commit = s.commit ∨
      (∃ nullPath, s.client = .connect nullPath .createThread) ∧ s'.commit = .top := by
  unfold St.clientNext at hn
  cases hpc : s.client with
  | idle => simp [hpc] at hn
  | call c bad p =>
      simp only [hpc] at hn
      left
      cases p with
      | lock =>
          obtain ⟨l, -, rfl⟩ := Option.map_eq_some_iff.mp hn
          rfl
      | exec i =>
          simp only [St.callNext] at hn
          split at hn <;> cases hn <;> rfl
      | clear | check | refuse | unlock | raise | ret =>
          cases hn
          rfl
  | get p | begin p | commit p | disconnect p =>
      simp only [hpc] at hn
      obtain ⟨⟨h, q⟩, -, rfl⟩ := Option.map_eq_some_iff.mp hn
      exact .inl rfl
  | connect nullPath p =>
      simp only [hpc] at hn
      obtain ⟨⟨h, q⟩, -, rfl⟩ := Option.map_eq_some_iff.mp hn
      by_cases hp : p = .createThread
      · subst hp
        exact .inr ⟨⟨nullPath, rfl⟩, rfl⟩
      · exact .inl (if_neg hp)

/-! ## The thread and its event -/

/-- Past the wait for the commit thread. -/
def StopPc.AfterWait : StopPc → Prop
  | closeEvent | closeThread | clearExit => True
  | _ => False

/-- Past the wait in `DisconnectSQL`. -/
def DisconnectPc.AfterWait : DisconnectPc → Prop
  | stop p => p.AfterWait
  | _ => False

/-- In `ConnectSQL`, where no commit thread can be running. -/
def ConnectPc.AfterWait : ConnectPc → Prop
  | disconnect p => p.AfterWait
  | stop p => p.AfterWait
  | createEvent | createThread => True
  | _ => False

/-- Where no commit thread can be running. -/
def ClientPc.AfterWait : ClientPc → Prop
  | connect _ p => p.AfterWait
  | disconnect p => p.AfterWait
  | _ => False

/-- In `DisconnectSQL`, between the wait and the `CloseHandle` of the event. -/
def DisconnectPc.HoldsEvent (p : DisconnectPc) : Prop := p = .stop .closeEvent

/-- In `ConnectSQL`, where there is an event and no thread that will signal it. -/
def ConnectPc.HoldsEvent (p : ConnectPc) : Prop :=
  p = .disconnect (.stop .closeEvent) ∨ p = .stop .closeEvent ∨ p = .createThread

/-- Where there may be an event and no thread that will signal it. -/
def ClientPc.HoldsEvent : ClientPc → Prop
  | connect _ p => p.HoldsEvent
  | disconnect p => p.HoldsEvent
  | _ => False

/-- The handles fit the thread: a running thread has its event and its handle, there
is none where `after` holds, and an event that nobody will signal is only left where
`closing` holds. -/
structure Shared.Handles (h : Shared) (commit : CommitPc) (after closing : Prop) : Prop where
  running : commit ≠ .absent → h.m_hEvent = some false ∧ h.m_hCommitPro = true
  gone : after → commit = .absent
  ended : commit = .absent → h.m_hEvent = some false → closing

/-- The handles fit the thread, and `CreateThread` finds its event. -/
structure ThreadInv (s : St) : Prop where
  handles : s.Handles s.commit s.client.AfterWait s.client.HoldsEvent
  created : (∃ nullPath, s.client = .connect nullPath .createThread) → s.m_hEvent = some false

namespace Shared

variable {h h' : Shared} {commit : CommitPc}

/-- The fit carries over to a state with the same handles. -/
theorem Handles.congr {P P' C C' : Prop} (hs : h.Handles commit P C)
    (he : h'.m_hEvent = h.m_hEvent) (ht : h'.m_hCommitPro = h.m_hCommitPro) (hP : P' → P)
    (hC : C → C') : h'.Handles commit P' C' where
  running := fun hc ↦ by rw [he, ht]; exact hs.running hc
  gone := fun hp ↦ hs.gone (hP hp)
  ended := fun hc hev ↦ hC (hs.ended hc (he ▸ hev))

/-- The transaction functions and the queries do not touch the handles, nor `m_db`. -/
theorem txNext_handles {who : Party} {stmt : Journal ℕ → Journal ℕ} {p : TxPc}
    {q : Option TxPc} (hn : h.txNext who stmt p = some (h', q)) :
    h'.m_hEvent = h.m_hEvent ∧ h'.m_hCommitPro = h.m_hCommitPro ∧ h'.m_db = h.m_db := by
  cases p with
  | lock =>
      obtain ⟨l, -, he⟩ := Option.map_eq_some_iff.mp hn
      cases he
      exact ⟨rfl, rfl, rfl⟩
  | exec =>
      cases hn
      unfold sqliteExec
      split <;> exact ⟨rfl, rfl, rfl⟩
  | unlock =>
      cases hn
      exact ⟨rfl, rfl, rfl⟩

/-- The wait ends only when the thread has ended, and the handles are closed after
it. -/
theorem stopNext_handles {p : StopPc} {q : Option StopPc}
    (hs : h.Handles commit p.AfterWait (p = .closeEvent))
    (hn : h.stopNext p = some (h', q)) :
    h'.Handles commit (q.elim True StopPc.AfterWait) (q.elim False (· = .closeEvent)) := by
  cases p with
  | setExit =>
      cases hn
      exact hs.congr rfl rfl id nofun
  | wait =>
      -- with a running thread the event is there and not signalled
      have habsent : h.m_hEvent ≠ some false → commit = .absent := fun hne ↦ by
        by_contra hc
        exact hne (hs.running hc).1
      simp only [stopNext] at hn
      split at hn
      · cases hn
      · rename_i hev
        cases hn
        have hc := habsent (by rw [hev]; simp)
        exact ⟨fun hne ↦ absurd hc hne, fun _ ↦ hc, fun _ _ ↦ rfl⟩
      · rename_i hev
        cases hn
        have hc := habsent (by rw [hev]; simp)
        exact ⟨fun hne ↦ absurd hc hne, fun _ ↦ hc, fun _ _ ↦ rfl⟩
  | closeEvent =>
      cases hn
      have hc := hs.gone trivial
      exact ⟨fun hne ↦ absurd hc hne, fun _ ↦ hc, fun _ hev ↦ nomatch hev⟩
  | closeThread =>
      cases hn
      have hc := hs.gone trivial
      exact ⟨fun hne ↦ absurd hc hne, fun _ ↦ hc, fun _ hev ↦ nomatch hs.ended hc hev⟩
  | clearExit =>
      cases hn
      have hc := hs.gone trivial
      exact ⟨fun hne ↦ absurd hc hne, fun _ ↦ hc, fun _ hev ↦ nomatch hs.ended hc hev⟩

/-- Every instruction of `DisconnectSQL` keeps the fit. -/
theorem disconnectNext_handles {p : DisconnectPc} {q : Option DisconnectPc}
    (hs : h.Handles commit p.AfterWait p.HoldsEvent)
    (hn : h.disconnectNext p = some (h', q)) :
    h'.Handles commit (q.elim False DisconnectPc.AfterWait)
      (q.elim False DisconnectPc.HoldsEvent) := by
  cases p with
  | endTransaction p =>
      obtain ⟨⟨h₁, r⟩, ht, he⟩ := Option.map_eq_some_iff.mp hn
      cases he
      obtain ⟨hev, hpro, -⟩ := txNext_handles ht
      exact hs.congr hev hpro (fun hc ↦ by cases r <;> exact hc) nofun
  | stop p =>
      obtain ⟨⟨h₁, r⟩, ht, he⟩ := Option.map_eq_some_iff.mp hn
      cases he
      have hr := stopNext_handles (hs.congr rfl rfl id (DisconnectPc.stop.inj ·)) ht
      refine hr.congr rfl rfl ?_ ?_
      · cases r with
        | none => exact False.elim
        | some r => exact id
      · cases r with
        | none => exact False.elim
        | some r => exact congrArg DisconnectPc.stop
  | testDb =>
      cases hn
      refine hs.congr rfl rfl ?_ nofun
      cases h.m_db <;> exact id
  | testThread =>
      cases hn
      refine hs.congr rfl rfl ?_ nofun
      cases h.m_hCommitPro <;> exact id
  | closeDb | deleteDb | ret =>
      cases hn
      exact ⟨hs.running, hs.gone, fun hc hev ↦ nomatch hs.ended hc hev⟩

/-- Every instruction of `ConnectSQL` but `CreateThread` keeps the fit. -/
theorem connectNext_handles {nullPath ok : Bool} {p : ConnectPc} {q : Option ConnectPc}
    (hs : h.Handles commit p.AfterWait p.HoldsEvent) (hp : p ≠ .createThread)
    (hn : h.connectNext nullPath ok p = some (h', q)) :
    h'.Handles commit (q.elim False ConnectPc.AfterWait) (q.elim False ConnectPc.HoldsEvent) ∧
      (q = some .createThread → h'.m_hEvent = some false) := by
  -- outside of the stop blocks nobody holds an event without its thread
  have hclosing : p.AfterWait = False → p.HoldsEvent → False := fun ha hc ↦ by
    rcases hc with rfl | rfl | rfl <;> exact ha.mp trivial
  cases p with
  | lock =>
      obtain ⟨l, -, he⟩ := Option.map_eq_some_iff.mp hn
      cases he
      exact ⟨hs.congr rfl rfl id fun hc ↦ (hclosing rfl hc).elim, nofun⟩
  | testPath =>
      cases hn
      refine ⟨hs.congr rfl rfl ?_ fun hc ↦ (hclosing rfl hc).elim, ?_⟩ <;>
        cases nullPath <;> first | exact id | exact nofun
  | testDb =>
      cases hn
      refine ⟨hs.congr rfl rfl ?_ fun hc ↦ (hclosing rfl hc).elim, ?_⟩ <;>
        cases h.m_db <;> first | exact id | exact nofun
  | disconnect p =>
      obtain ⟨⟨h₁, r⟩, ht, he⟩ := Option.map_eq_some_iff.mp hn
      cases he
      have hr := disconnectNext_handles (hs.congr rfl rfl id fun hc ↦ by
        rcases hc with hc | hc | hc
        · exact ConnectPc.disconnect.inj hc
        · cases hc
        · cases hc) ht
      cases r with
      | none => exact ⟨hr.congr rfl rfl id False.elim, nofun⟩
      | some r =>
          exact ⟨hr.congr rfl rfl id fun hc ↦ .inl (congrArg _ hc), nofun⟩
  | beginTransaction p =>
      obtain ⟨⟨h₁, r⟩, ht, he⟩ := Option.map_eq_some_iff.mp hn
      cases he
      obtain ⟨hev, hpro, -⟩ := txNext_handles ht
      cases r <;>
        exact ⟨hs.congr hev hpro id fun hc ↦ (hclosing rfl hc).elim, nofun⟩
  | stop p =>
      obtain ⟨⟨h₁, r⟩, ht, he⟩ := Option.map_eq_some_iff.mp hn
      cases he
      have hr := stopNext_handles (hs.congr rfl rfl id fun hc ↦ by
        rcases hc with hc | hc | hc
        · cases hc
        · exact ConnectPc.stop.inj hc
        · cases hc) ht
      cases r with
      | none => exact ⟨hr.congr rfl rfl (fun _ ↦ trivial) False.elim, nofun⟩
      | some r =>
          exact ⟨hr.congr rfl rfl id fun hc ↦ .inr (.inl (congrArg _ hc)), nofun⟩
  | testThread =>
      cases hn
      cases hpro : h.m_hCommitPro with
      | true => exact ⟨hs.congr rfl rfl id fun hc ↦ (hclosing rfl hc).elim, nofun⟩
      | false =>
          have hc : commit = .absent := by
            by_contra hne
            exact absurd (hpro.symm.trans (hs.running hne).2) (by simp)
          exact ⟨⟨hs.running, fun _ ↦ hc, fun hc hev ↦ (hclosing rfl (hs.ended hc hev)).elim⟩,
            nofun⟩
  | createEvent =>
      cases hn
      have hc := hs.gone trivial
      exact ⟨⟨fun hne ↦ absurd hc hne, fun _ ↦ hc, fun _ _ ↦ .inr (.inr rfl)⟩, fun _ ↦ rfl⟩
  | createThread => exact absurd rfl hp
  | refuse | newDb | openDb | unlock | ret =>
      cases hn
      exact ⟨⟨hs.running, hs.gone, fun hc hev ↦ (hclosing rfl (hs.ended hc hev)).elim⟩,
        nofun⟩

end Shared

theorem threadInv_initial : ThreadInv .initial :=
  ⟨⟨fun hne ↦ absurd rfl hne, False.elim, fun _ hev ↦ nomatch hev⟩, fun ⟨_, hc⟩ ↦ nomatch hc⟩

/-- A writing call does not touch the handles and stays away from the stop blocks. -/
theorem callNext_handles {s s' : St} {c : Call} {bad ok : Bool} {newId : ℤ} {p : CallPc}
    (hn : s.callNext c bad ok newId p = some s') :
    s'.m_hEvent = s.m_hEvent ∧ s'.m_hCommitPro = s.m_hCommitPro ∧ s'.commit = s.commit ∧
      (s'.client = .idle ∨ ∃ p', s'.client = .call c bad p') := by
  cases p with
  | lock =>
      obtain ⟨l, -, rfl⟩ := Option.map_eq_some_iff.mp hn
      exact ⟨rfl, rfl, rfl, .inr ⟨_, rfl⟩⟩
  | exec i =>
      simp only [St.callNext] at hn
      split at hn <;> cases hn <;> exact ⟨rfl, rfl, rfl, .inr ⟨_, rfl⟩⟩
  | clear | check | unlock | raise =>
      cases hn
      exact ⟨rfl, rfl, rfl, .inr ⟨_, rfl⟩⟩
  | refuse | ret =>
      cases hn
      exact ⟨rfl, rfl, rfl, .inl rfl⟩

/-- A step to a program counter outside of `ConnectSQL` and `DisconnectSQL` keeps the
fit. -/
theorem ThreadInv.of_outside {s s' : St} (hs : ThreadInv s) (hC : ¬ s.client.HoldsEvent)
    (hev : s'.m_hEvent = s.m_hEvent) (hpro : s'.m_hCommitPro = s.m_hCommitPro)
    (hcommit : s'.commit = s.commit) (ha : ¬ s'.client.AfterWait)
    (hne : ∀ nullPath, s'.client ≠ .connect nullPath .createThread) : ThreadInv s' where
  handles := hcommit ▸ hs.handles.congr hev hpro (fun hc ↦ absurd hc ha) fun hc ↦ absurd hc hC
  created := fun ⟨nullPath, hc⟩ ↦ absurd hc (hne nullPath)

/-- Every instruction of the client keeps the fit. -/
theorem ThreadInv.clientNext {s s' : St} {ok : Bool} {newId : ℤ} (hs : ThreadInv s)
    (hn : s.clientNext ok newId = some s') : ThreadInv s' := by
  unfold St.clientNext at hn
  have hh := hs.handles
  cases hpc : s.client with
  | idle => simp [hpc] at hn
  | call c bad p =>
      simp only [hpc] at hn
      obtain ⟨hev, hpro, hcommit, hcl⟩ := callNext_handles hn
      refine hs.of_outside (by rw [hpc]; exact id) hev hpro hcommit ?_ ?_
      · rcases hcl with hcl | ⟨p', hcl⟩ <;> rw [hcl] <;> exact id
      · rcases hcl with hcl | ⟨p', hcl⟩ <;> rw [hcl] <;> exact fun _ hc ↦ nomatch hc
  | get p | begin p | commit p =>
      simp only [hpc] at hn
      obtain ⟨⟨h, q⟩, ht, rfl⟩ := Option.map_eq_some_iff.mp hn
      obtain ⟨hev, hpro, -⟩ := Shared.txNext_handles ht
      refine hs.of_outside (by rw [hpc]; exact id) hev hpro rfl ?_ ?_
      · cases q <;> exact id
      · cases q <;> exact fun _ hc ↦ nomatch hc
  | connect nullPath p =>
      simp only [hpc] at hn hh
      obtain ⟨⟨h, q⟩, ht, rfl⟩ := Option.map_eq_some_iff.mp hn
      by_cases hp : p = .createThread
      · -- the thread starts with the event `CreateEvent` has made
        subst hp
        have hev := hs.created ⟨nullPath, hpc⟩
        cases ht
        exact ⟨⟨fun _ ↦ ⟨hev, rfl⟩, False.elim, nofun⟩, fun ⟨_, hc⟩ ↦ nomatch hc⟩
      · obtain ⟨hr, hcreate⟩ := Shared.connectNext_handles hh hp ht
        refine ⟨?_, fun ⟨n, hc⟩ ↦ hcreate ?_⟩
        · rw [if_neg hp]
          cases q <;> exact hr
        · cases q with
          | none => cases hc
          | some q =>
              cases hc
              rfl
  | disconnect p =>
      simp only [hpc] at hn hh
      obtain ⟨⟨h, q⟩, ht, rfl⟩ := Option.map_eq_some_iff.mp hn
      have hr := Shared.disconnectNext_handles hh ht
      refine ⟨?_, fun ⟨n, hc⟩ ↦ ?_⟩
      · cases q <;> exact hr
      · cases q <;> cases hc

/-- An instruction of the commit thread leaves the client where it is, and `m_db`. -/
theorem commitNext_frame {s s' : St} (hn : s.commitNext = some s') :
    s'.client = s.client ∧ s'.m_db = s.m_db := by
  unfold St.commitNext at hn
  cases hpc : s.commit with
  | absent => simp [hpc] at hn
  | endTransaction p | beginTransaction p =>
      simp only [hpc] at hn
      obtain ⟨⟨h, q⟩, ht, rfl⟩ := Option.map_eq_some_iff.mp hn
      exact ⟨rfl, (Shared.txNext_handles ht).2.2⟩
  | top | testCommit | clear | waitExit i | waitCommit i | sleep i | signal =>
      simp only [hpc, Option.some.injEq] at hn
      subst hn
      exact ⟨rfl, rfl⟩

/-- A step of the commit thread other than its last keeps it alive and its handles. -/
theorem commitNext_handles {s s' : St} (hn : s.commitNext = some s') :
    s.commit ≠ .absent ∧
      (s'.commit = .absent ∧ s'.m_hEvent ≠ some false ∨
        s'.commit ≠ .absent ∧ s'.m_hEvent = s.m_hEvent ∧ s'.m_hCommitPro = s.m_hCommitPro) := by
  unfold St.commitNext at hn
  cases hpc : s.commit with
  | absent => simp [hpc] at hn
  | endTransaction p | beginTransaction p =>
      simp only [hpc] at hn
      obtain ⟨⟨h, q⟩, ht, rfl⟩ := Option.map_eq_some_iff.mp hn
      obtain ⟨hev, hpro, -⟩ := Shared.txNext_handles ht
      refine ⟨nofun, .inr ⟨?_, hev, hpro⟩⟩
      cases q <;> exact nofun
  | signal =>
      simp only [hpc, Option.some.injEq] at hn
      subst hn
      refine ⟨nofun, .inl ⟨rfl, ?_⟩⟩
      cases s.m_hEvent <;> simp
  | top | testCommit | clear | waitExit i | waitCommit i | sleep i =>
      simp only [hpc, Option.some.injEq] at hn
      subst hn
      refine ⟨nofun, .inr ⟨?_, rfl, rfl⟩⟩
      simp only [ne_eq]
      repeat' split
      all_goals exact nofun

/-- Every instruction of the commit thread keeps the fit. -/
theorem ThreadInv.commitNext {s s' : St} (hs : ThreadInv s) (hn : s.commitNext = some s') :
    ThreadInv s' := by
  obtain ⟨hcl, -⟩ := commitNext_frame hn
  obtain ⟨halive, hstep⟩ := commitNext_handles hn
  have ha : ¬ s'.client.AfterWait := fun hc ↦ halive (hs.handles.gone (hcl ▸ hc))
  refine ⟨?_, fun ⟨n, hc⟩ ↦ absurd (show s'.client.AfterWait by rw [hc]; trivial) ha⟩
  rcases hstep with ⟨hend, hev⟩ | ⟨hrun, hev, hpro⟩
  · exact ⟨fun hne ↦ absurd hend hne, fun hc ↦ absurd hc ha, fun _ hc ↦ absurd hc hev⟩
  · refine ⟨fun _ ↦ ?_, fun hc ↦ absurd hc ha, fun hc ↦ absurd hc hrun⟩
    rw [hev, hpro]
    exact hs.handles.running halive

theorem ThreadInv.next {s s' : St} {a : Act} (hs : ThreadInv s) (hn : s.next a = some s') :
    ThreadInv s' := by
  cases a with
  | enter a =>
      simp only [St.next] at hn
      split at hn
      · rename_i hidle
        cases hn
        refine hs.of_outside (by rw [hidle]; exact id) rfl rfl rfl ?_ ?_
        · cases a <;> exact id
        · cases a <;> exact fun _ hc ↦ nomatch hc
      · cases hn
  | client ok newId => exact hs.clientNext hn
  | commit => exact hs.commitNext hn

theorem threadInv_of_reachable {G : St → Act → Prop} {s : St} (h : system.ReachableIf G s) :
    ThreadInv s :=
  h.invariant (fun _ hs ↦ hs ▸ threadInv_initial) fun _ _ _ hs _ hn ↦ hs.next hn

end Session

end CodeToolKit.HwbrapSqlite
