import CodeToolKit.HwbrapSqlite.CommitThread

/-!
# Who holds `m_csCommit`

`ConnectSQL` calls `DisconnectSQL` and `BeginTransaction` with the lock held, and both
take it again.  `depth` reads off a program counter how often its thread holds the
lock at that place, and `LockInv` says that the recursive lock counts the same.
-/

namespace CodeToolKit.HwbrapSqlite

open CodeToolKit.Lib

namespace Session

/-! ## The lock -/

/-- How often the lock is held inside a transaction function. -/
def TxPc.depth : TxPc → ℕ
  | lock => 0
  | exec | unlock => 1

/-- How often `DisconnectSQL` itself holds the lock. -/
def DisconnectPc.depth : DisconnectPc → ℕ
  | endTransaction p => p.depth
  | _ => 0

/-- How often the lock is held inside `ConnectSQL`. -/
def ConnectPc.depth : ConnectPc → ℕ
  | testPath | refuse | testDb | newDb | openDb | unlock => 1
  | disconnect p => 1 + p.depth
  | beginTransaction p => 1 + p.depth
  | _ => 0

/-- How often the lock is held inside a writing call. -/
def CallPc.depth : CallPc → ℕ
  | lock | raise | ret => 0
  | _ => 1

/-- How often the client holds the lock. -/
def ClientPc.depth : ClientPc → ℕ
  | idle => 0
  | call _ _ p => p.depth
  | get p | begin p | commit p => p.depth
  | connect _ p => p.depth
  | disconnect p => p.depth

/-- How often the commit thread holds the lock. -/
def CommitPc.depth : CommitPc → ℕ
  | endTransaction p | beginTransaction p => p.depth
  | _ => 0

/-- The lock is held as often as the program counters say. -/
structure LockInv (s : St) : Prop where
  client : s.m_csCommit.count .client = s.client.depth
  commit : s.m_csCommit.count .commit = s.commit.depth

/-- From `h` to `h'` the count of `who` goes from `m` to `n`, the others' counts stay. -/
structure Shared.Moves (who : Party) (m n : ℕ) (h h' : Shared) : Prop where
  mine : ∀ k, h.m_csCommit.count who = k + m → h'.m_csCommit.count who = k + n
  others : ∀ r, r ≠ who → h'.m_csCommit.count r = h.m_csCommit.count r

namespace Shared

variable {h h' : Shared} {who : Party}

/-- A step that leaves the lock alone. -/
theorem Moves.refl (hl : h'.m_csCommit = h.m_csCommit) (n : ℕ) : Moves who n n h h' :=
  ⟨fun _ hk ↦ by rw [hl]; exact hk, fun _ _ ↦ by rw [hl]⟩

theorem Moves.acquire {l : RecLock Party} (ha : h.m_csCommit.acquire who = some l)
    (hl : h'.m_csCommit = l) : Moves who 0 1 h h' where
  mine := fun k hk ↦ by rw [hl, RecLock.count_acquire ha, if_pos rfl, hk]
  others := fun r hr ↦ by rw [hl, RecLock.count_acquire ha, if_neg hr]

theorem Moves.release (hl : h'.m_csCommit = h.m_csCommit.release)
    (hpos : h.m_csCommit.count who ≠ 0) : Moves who 1 0 h h' where
  mine := fun k hk ↦ by rw [hl, RecLock.count_release hpos, if_pos rfl, hk]; rfl
  others := fun r hr ↦ by rw [hl, RecLock.count_release hpos, if_neg hr]

/-- The lock around a transaction function or a query. -/
theorem txNext_moves {stmt : Journal ℕ → Journal ℕ} {p : TxPc} {q : Option TxPc}
    (hpos : p.depth ≤ h.m_csCommit.count who) (hn : h.txNext who stmt p = some (h', q)) :
    Moves who p.depth (q.elim 0 TxPc.depth) h h' := by
  cases p with
  | lock =>
      obtain ⟨l, ha, he⟩ := Option.map_eq_some_iff.mp hn
      cases he
      exact .acquire ha rfl
  | exec =>
      cases hn
      exact .refl (by unfold sqliteExec; split <;> rfl) 1
  | unlock =>
      cases hn
      exact .release rfl (Nat.one_le_iff_ne_zero.mp hpos)

/-- Stopping the commit thread does not touch the lock. -/
theorem stopNext_lock {p : StopPc} {q : Option StopPc} (hn : h.stopNext p = some (h', q)) :
    h'.m_csCommit = h.m_csCommit := by
  cases p with
  | wait =>
      simp only [stopNext] at hn
      split at hn <;> cases hn <;> rfl
  | setExit | closeEvent | closeThread | clearExit =>
      cases hn
      rfl

/-- The lock around `DisconnectSQL`. -/
theorem disconnectNext_moves {p : DisconnectPc} {q : Option DisconnectPc}
    (hpos : p.depth ≤ h.m_csCommit.count .client) (hn : h.disconnectNext p = some (h', q)) :
    Moves .client p.depth (q.elim 0 DisconnectPc.depth) h h' := by
  cases p with
  | endTransaction p =>
      obtain ⟨⟨h₁, r⟩, ht, he⟩ := Option.map_eq_some_iff.mp hn
      cases he
      have hm := txNext_moves hpos ht
      cases r <;> exact hm
  | stop p =>
      obtain ⟨⟨h₁, r⟩, ht, he⟩ := Option.map_eq_some_iff.mp hn
      cases he
      cases r <;> exact .refl (stopNext_lock ht) 0
  | testDb =>
      cases hn
      cases h.m_db <;> exact .refl rfl 0
  | testThread =>
      cases hn
      cases h.m_hCommitPro <;> exact .refl rfl 0
  | closeDb | deleteDb | ret =>
      cases hn
      exact ⟨fun _ hk ↦ hk, fun _ _ ↦ rfl⟩

/-- Inside a block that holds the lock once more. -/
theorem Moves.succ {m n : ℕ} (hm : Moves who m n h h') : Moves who (1 + m) (1 + n) h h' :=
  ⟨fun k hk ↦ by rw [← Nat.add_assoc] at hk ⊢; exact hm.mine (k + 1) hk, hm.others⟩

/-- The lock around `ConnectSQL`. -/
theorem connectNext_moves {nullPath ok : Bool} {p : ConnectPc} {q : Option ConnectPc}
    (hpos : p.depth ≤ h.m_csCommit.count .client)
    (hn : h.connectNext nullPath ok p = some (h', q)) :
    Moves .client p.depth (q.elim 0 ConnectPc.depth) h h' := by
  cases p with
  | lock =>
      obtain ⟨l, ha, he⟩ := Option.map_eq_some_iff.mp hn
      cases he
      exact .acquire ha rfl
  | refuse | unlock =>
      cases hn
      exact .release rfl (Nat.one_le_iff_ne_zero.mp hpos)
  | disconnect p =>
      obtain ⟨⟨h₁, r⟩, ht, he⟩ := Option.map_eq_some_iff.mp hn
      cases he
      have hm := (disconnectNext_moves (Nat.le_of_add_left_le hpos) ht).succ
      cases r <;> exact hm
  | beginTransaction p =>
      obtain ⟨⟨h₁, r⟩, ht, he⟩ := Option.map_eq_some_iff.mp hn
      cases he
      have hm := (txNext_moves (Nat.le_of_add_left_le hpos) ht).succ
      cases r <;> exact hm
  | stop p =>
      obtain ⟨⟨h₁, r⟩, ht, he⟩ := Option.map_eq_some_iff.mp hn
      cases he
      cases r <;> exact .refl (stopNext_lock ht) 0
  | testPath =>
      cases hn
      cases nullPath <;> exact .refl rfl 1
  | testDb =>
      cases hn
      cases h.m_db <;> exact .refl rfl 1
  | newDb | openDb =>
      cases hn
      exact ⟨fun _ hk ↦ hk, fun _ _ ↦ rfl⟩
  | testThread =>
      cases hn
      cases h.m_hCommitPro <;> exact .refl rfl 0
  | createEvent | createThread | ret =>
      cases hn
      exact ⟨fun _ hk ↦ hk, fun _ _ ↦ rfl⟩

end Shared

/-- The lock around a writing call. -/
theorem callNext_moves {s s' : St} {c : Call} {bad ok : Bool} {newId : ℤ} {p : CallPc}
    (hpos : p.depth ≤ s.m_csCommit.count .client)
    (hn : s.callNext c bad ok newId p = some s') :
    Shared.Moves .client p.depth s'.client.depth s.toShared s'.toShared := by
  cases p with
  | lock =>
      obtain ⟨l, ha, rfl⟩ := Option.map_eq_some_iff.mp hn
      have hd : (ClientPc.call c bad (if c.clearsRequest then .clear else .check)).depth = 1 := by
        cases c.clearsRequest <;> rfl
      exact hd ▸ .acquire ha rfl
  | check =>
      cases hn
      have hd : (ClientPc.call c bad
          (if c.refuses bad || !s.m_db then .refuse else .exec 0)).depth = 1 := by
        cases c.refuses bad || !s.m_db <;> rfl
      exact hd ▸ .refl rfl 1
  | exec i =>
      have hd : (ClientPc.call c bad
          (if i + 1 < c.statements then .exec (i + 1) else .unlock)).depth = 1 := by
        split <;> rfl
      simp only [St.callNext] at hn
      split at hn
      · cases hn
        exact ⟨fun k hk ↦ hk.trans (congrArg (k + ·) hd.symm), fun _ _ ↦ rfl⟩
      · cases hn
        exact ⟨fun k hk ↦ hk.trans (congrArg (k + ·) hd.symm), fun _ _ ↦ rfl⟩
  | refuse | unlock =>
      cases hn
      exact .release rfl (Nat.one_le_iff_ne_zero.mp hpos)
  | clear | raise | ret =>
      cases hn
      exact ⟨fun _ hk ↦ hk, fun _ _ ↦ rfl⟩

/-- The lock around an instruction of the client. -/
theorem clientNext_moves {s s' : St} {ok : Bool} {newId : ℤ}
    (hpos : s.client.depth ≤ s.m_csCommit.count .client)
    (hn : s.clientNext ok newId = some s') :
    Shared.Moves .client s.client.depth s'.client.depth s.toShared s'.toShared := by
  unfold St.clientNext at hn
  cases hpc : s.client with
  | idle => simp [hpc] at hn
  | call c bad p =>
      simp only [hpc] at hn hpos
      exact callNext_moves hpos hn
  | get p | begin p | commit p =>
      simp only [hpc] at hn hpos
      obtain ⟨⟨h, q⟩, ht, rfl⟩ := Option.map_eq_some_iff.mp hn
      have hm := Shared.txNext_moves hpos ht
      cases q <;> exact hm
  | connect nullPath p =>
      simp only [hpc] at hn hpos
      obtain ⟨⟨h, q⟩, ht, rfl⟩ := Option.map_eq_some_iff.mp hn
      have hm := Shared.connectNext_moves hpos ht
      cases q <;> exact hm
  | disconnect p =>
      simp only [hpc] at hn hpos
      obtain ⟨⟨h, q⟩, ht, rfl⟩ := Option.map_eq_some_iff.mp hn
      have hm := Shared.disconnectNext_moves hpos ht
      cases q <;> exact hm

/-- The lock around an instruction of the commit thread. -/
theorem commitNext_moves {s s' : St} (hpos : s.commit.depth ≤ s.m_csCommit.count .commit)
    (hn : s.commitNext = some s') :
    Shared.Moves .commit s.commit.depth s'.commit.depth s.toShared s'.toShared := by
  unfold St.commitNext at hn
  cases hpc : s.commit with
  | absent => simp [hpc] at hn
  | endTransaction p | beginTransaction p =>
      simp only [hpc] at hn hpos
      obtain ⟨⟨h, q⟩, ht, rfl⟩ := Option.map_eq_some_iff.mp hn
      have hm := Shared.txNext_moves hpos ht
      cases q <;> exact hm
  | top | testCommit | clear | waitExit i | waitCommit i | sleep i | signal =>
      simp only [hpc, Option.some.injEq] at hn
      subst hn
      refine ⟨fun k hk ↦ hk.trans ?_, fun _ _ ↦ rfl⟩
      simp only
      repeat (first | rfl | split)

/-! ## The lock is held as the program counters say -/

theorem lockInv_initial : LockInv .initial := ⟨rfl, rfl⟩

theorem LockInv.next {s s' : St} {a : Act} (hs : LockInv s) (ht : ThreadInv s)
    (hn : s.next a = some s') : LockInv s' := by
  cases a with
  | enter a =>
      simp only [St.next] at hn
      split at hn
      · rename_i hidle
        cases hn
        refine ⟨hs.client.trans ?_, hs.commit⟩
        rw [hidle]
        cases a <;> rfl
      · cases hn
  | client ok newId =>
      have hm := clientNext_moves (Nat.le_of_eq hs.client.symm) hn
      refine ⟨?_, ?_⟩
      · rw [hm.mine 0 (by rw [hs.client, Nat.zero_add]), Nat.zero_add]
      · rw [hm.others _ (by decide), hs.commit]
        rcases clientNext_commit hn with hc | ⟨⟨nullPath, hpc⟩, hc⟩
        · rw [hc]
        · -- a thread is only started where there is none
          rw [hc, ht.handles.gone (by rw [hpc]; trivial)]
          rfl
  | commit =>
      have hm := commitNext_moves (Nat.le_of_eq hs.commit.symm) hn
      refine ⟨?_, ?_⟩
      · rw [hm.others _ (by decide), hs.client, (commitNext_frame hn).1]
      · rw [hm.mine 0 (by rw [hs.commit, Nat.zero_add]), Nat.zero_add]

theorem lockInv_of_reachable {G : St → Act → Prop} {s : St} (h : system.ReachableIf G s) :
    LockInv s :=
  h.invariant₂ threadInv_of_reachable (fun _ hs ↦ hs ▸ lockInv_initial)
    fun _ _ _ ht hs _ hn ↦ hs.next ht hn

/-- With the lock in its hands, or free, the client can take it. -/
theorem acquire_client {s : St} (hs : LockInv s) (hc : s.client.depth ≠ 0 ∨ s.commit.depth = 0) :
    (s.m_csCommit.acquire .client).isSome := by
  refine RecLock.acquire_isSome.mpr fun q hq ↦ ?_
  cases q with
  | client => exact absurd rfl hq
  | commit =>
      by_contra hne
      rcases hc with hc | hc
      · exact hq (RecLock.count_unique hne (hs.client ▸ hc))
      · exact hne (hs.commit.trans hc)

end Session

end CodeToolKit.HwbrapSqlite
