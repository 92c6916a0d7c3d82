import CodeToolKit.HwbrapSqlite.Handle

/-!
# Calls on one connection

All calls share the tables and the one result table of `CZenoSQL`.  Each takes `m_csCommit`
around all that it does with them and gives it back on each of its paths, so the calls are
linearizable (`linearizable_calls`): the tables and the results are those of the calls one after
the other in the order in which they took the lock, whatever the commit thread does in between.

The id that `AddLinkInfo` and `AddRuleInfo` return is asked for after `Unlock`: it is not part of
what is observed.  The connection is live throughout, and a statement that SQLite cannot do
for want of memory or space is outside of the model, as everywhere.
-/

namespace CodeToolKit.HwbrapSqlite

open CodeToolKit.SQL CodeToolKit.Lib

/-- What is observed of a reply: all but the id of a new row. -/
def Reply.shown : Reply → Option Reply
  | .added _ => none
  | r => some r

/-! ## The calls are critical sections -/

/-- The rest of a call that holds the lock. -/
abbrev Inside (p : Prog Reply) : Prop := p.Inside Handle.step Reply.shown

/-- The rest of a call that has given the lock back. -/
abbrev Leaves (p : Prog Reply) : Prop := ∃ b, p.After Handle.step Reply.shown b

namespace CDBManage

theorem leaves_ret (r : Reply) : Leaves (.ret r) := ⟨r.shown, rfl⟩

theorem inside_ofOption {γ : Type} {a : Option γ} {k : γ → Prog Reply} (h : ∀ a, Inside (k a)) :
    Inside (.ofOption a >>= k) := Program.inside_bind (Program.plain_ofOption a) h

theorem inside_act {o : Op} {k : o.Res → Prog Reply} (h : ∀ r, Inside (k r)) :
    Inside (act o >>= k) := h

theorem section_entered {π : Type} {param : Option π} {rejected : Bool} {failed : Reply}
    {body : π → Prog Reply} (h : ∀ p, Inside (body p)) :
    (entered param rejected failed body).Section Handle.step Reply.shown := by
  rcases param with _ | p
  · exact leaves_ret failed
  · intro isNull
    beta_reduce
    split
    · exact leaves_ret failed
    · exact h p

theorem inside_executed {szSql : Option (List Char)} {reply : ℤ → Prog Reply}
    (h : ∀ lRet, Leaves (reply lRet)) : Inside (executed szSql reply) := by
  refine inside_ofOption fun szSql ↦ inside_act fun lRet ↦ ?_
  obtain ⟨b, hb⟩ := h lRet
  exact ⟨b, fun h ↦ ⟨(), rfl⟩, fun _ ↦ hb⟩

/-- A call that ends with its statement. -/
theorem inside_status (szSql : Option (List Char)) :
    Inside (executed szSql fun lRet ↦ pure (.status lRet)) :=
  inside_executed fun lRet ↦ leaves_ret (.status lRet)

/-- A call that ends with the id of its row, which is not observed. -/
theorem inside_added (szSql : Option (List Char)) :
    Inside (executed szSql fun _ ↦ act .getLastInsertId >>= fun lNewId ↦ pure (.added lNewId)) :=
  inside_executed fun _ ↦ ⟨none, fun _ ↦ ⟨_, rfl⟩, fun _ ↦ rfl⟩

theorem inside_transaction (lRet : ℤ) :
    Inside (act (.transaction lRet) >>= fun lRet ↦ unlock >>= fun _ ↦ pure (.status lRet)) :=
  inside_act fun lRet ↦ leaves_ret (.status lRet)

theorem inside_updated (find : Option (List Char)) (szSql : Bool → Option (List Char)) :
    Inside (updated find szSql) :=
  inside_ofOption fun _ ↦ inside_act fun _ ↦ inside_act fun nRow ↦ inside_act fun _ ↦
    inside_status (szSql (0 < nRow))

theorem inside_queried (szSql : Option (List Char)) (minCol : ℕ)
    {read : ℕ → Prog (List LinkData)} (h : ∀ n, (read n).Plain) :
    Inside (queried szSql minCol read) := by
  refine inside_ofOption fun _ ↦ inside_act fun _ ↦
    Program.inside_bind (plain_tooSmall minCol) fun none? ↦ ?_
  split
  · exact leaves_ret (.selected 0 none)
  · exact inside_act fun lResCount ↦ Program.inside_bind (h lResCount) fun records ↦
      inside_act fun _ ↦ leaves_ret (.selected 0 (some records))

theorem section_beginTransaction (lRet : ℤ) :
    (beginTransaction lRet).Section Handle.step Reply.shown := by
  rw [beginTransaction]
  exact section_entered fun _ ↦ inside_transaction lRet

theorem section_endTransaction (lRet : ℤ) :
    (endTransaction lRet).Section Handle.step Reply.shown := by
  rw [endTransaction]
  exact section_entered fun _ ↦ inside_transaction lRet

theorem section_createTable : createTable.Section Handle.step Reply.shown := by
  rw [createTable]
  -- the texts do not matter, and would be computed
  generalize createChannelsSql = szChannels
  generalize createRulesSql = szRules
  intro _ isNull
  beta_reduce
  split
  · exact leaves_ret _
  · exact inside_ofOption fun _ ↦ inside_act fun _ ↦ inside_status szRules

theorem section_dropTable (pTabName : Option (List Char)) :
    (dropTable pTabName).Section Handle.step Reply.shown := by
  rw [dropTable]
  exact section_entered fun _ ↦ inside_status _

theorem section_addLinkInfo (param : Option LinkData) :
    (addLinkInfo param).Section Handle.step Reply.shown := by
  rw [addLinkInfo]
  exact section_entered fun pChan ↦ inside_added (addLinkInfoSql pChan)

theorem section_delLinkInfo (param : Option LinkData) :
    (delLinkInfo param).Section Handle.step Reply.shown := by
  rw [delLinkInfo]
  exact section_entered fun pInfo ↦ inside_status (delLinkInfoSql pInfo)

theorem section_getLinkInfo (param : Option LinkData) (hasResult : Bool) :
    (getLinkInfo param hasResult).Section Handle.step Reply.shown := by
  rw [getLinkInfo]
  exact section_entered fun pInfo ↦ inside_queried (getLinkInfoSql pInfo) 12
    fun n ↦ plain_readLinks n 0

theorem section_setLinkInfo (nChanId : Int32) (param : Option LinkData) :
    (setLinkInfo nChanId param).Section Handle.step Reply.shown := by
  rw [setLinkInfo]
  exact section_entered fun pChan ↦ inside_updated (findLinkSql nChanId pChan)
    fun found ↦ setLinkInfoSql nChanId found pChan

theorem section_addRuleInfo (param : Option LinkData) :
    (addRuleInfo param).Section Handle.step Reply.shown := by
  rw [addRuleInfo]
  generalize addRuleInfoSql = szSql
  exact section_entered fun pChan ↦ inside_added (szSql pChan)

theorem section_getRuleInfo (param : Option LinkData) (hasResult : Bool) :
    (getRuleInfo param hasResult).Section Handle.step Reply.shown := by
  rw [getRuleInfo]
  exact section_entered fun pInfo ↦ inside_queried (getRuleInfoSql pInfo) 20
    fun n ↦ plain_readRules n 0

theorem section_setRuleInfo (nChanId : Int32) (param : Option LinkData) :
    (setRuleInfo nChanId param).Section Handle.step Reply.shown := by
  rw [setRuleInfo]
  exact section_entered fun pChan ↦ inside_updated (findRuleSql nChanId pChan)
    fun found ↦ setRuleInfoSql nChanId found pChan

theorem section_delRuleInfo (param : Option LinkData) :
    (delRuleInfo param).Section Handle.step Reply.shown := by
  rw [delRuleInfo]
  exact section_entered fun pInfo ↦ inside_status (delRuleInfoSql pInfo)

end CDBManage

/-- **Every call takes the lock first and gives it back once.** -/
theorem section_program (c : Request) : c.program.Section Handle.step Reply.shown := by
  cases c with
  | beginTransaction lRet => exact CDBManage.section_beginTransaction lRet
  | endTransaction lRet => exact CDBManage.section_endTransaction lRet
  | createTable => exact CDBManage.section_createTable
  | dropTable pTabName => exact CDBManage.section_dropTable pTabName
  | addLinkInfo param => exact CDBManage.section_addLinkInfo param
  | delLinkInfo param => exact CDBManage.section_delLinkInfo param
  | getLinkInfo param hasResult => exact CDBManage.section_getLinkInfo param hasResult
  | setLinkInfo nChanId param => exact CDBManage.section_setLinkInfo nChanId param
  | addRuleInfo param => exact CDBManage.section_addRuleInfo param
  | getRuleInfo param hasResult => exact CDBManage.section_getRuleInfo param hasResult
  | setRuleInfo nChanId param => exact CDBManage.section_setRuleInfo nChanId param
  | delRuleInfo param => exact CDBManage.section_delRuleInfo param

/-! ## Any number of threads -/

/-- `BeginTransaction` or `EndTransaction`, the calls of the commit thread. -/
def Request.isTransaction : Request → Bool
  | beginTransaction _ | endTransaction _ => true
  | _ => false

/-- A transaction call leaves the tables. -/
theorem run_transaction {c : Request} (hc : c.isTransaction) {h h' : Handle} {r : Reply}
    (hrun : c.program.run Handle.step h = some (h', r)) : h' = h := by
  cases c with
  | beginTransaction lRet => exact (Prod.mk.inj (Option.some.inj hrun)).1.symm
  | endTransaction lRet => exact (Prod.mk.inj (Option.some.inj hrun)).1.symm
  | _ => cases hc

/-- The threads on a connection, with the commit thread among them. -/
abbrev Connected (T : Type) : Type := Shared Op Op.Res Reply Request T Handle

namespace Connected

variable {T : Type}

/-- Threads that begin and continue calls at any time. -/
def system [DecidableEq T] (h₀ : Handle) : System (Connected T) (Move Request T) :=
  Shared.system Handle.step Request.program h₀

/-- The calls in the order in which they took the lock, without those of the commit thread. -/
def calls (s : Connected T) : List Request := s.order.filter fun c ↦ !c.isTransaction

/-- What is observed of their results. -/
def answers (s : Connected T) : List (Option (Option Reply)) :=
  (s.served.filter fun r ↦ !r.1.isTransaction).map fun r ↦ r.2.map Reply.shown

end Connected

/-- The calls one after the other. -/
def sequential (calls : List Request) (h₀ : Handle) : Option (Handle × List Reply) :=
  runAll Handle.step Request.program calls h₀

/-- **The calls are linearizable.**  When all of them have returned, the lock is free, and the
tables and the results are those of the calls one after the other in the order in which they
took the lock. -/
theorem linearizable_calls {T : Type} [DecidableEq T] {h₀ : Handle} {s : Connected T}
    (hs : (Connected.system h₀).Reachable s) (hidle : ∀ t, s.threads t = .idle) :
    s.lock = .free ∧ ∃ replies, sequential s.calls h₀ = some (s.state, replies) ∧
      s.answers = replies.map fun r ↦ some r.shown := by
  obtain ⟨hfree, as, hrun, hserved⟩ := Shared.linearizable section_program hs hidle
  refine ⟨hfree, _, runAll_filter ?_ hrun, ?_⟩
  · intro c hc h h' r hr
    exact run_transaction (by simpa using hc) hr
  · have hmap : s.answers = ((s.served.map fun r ↦ (r.1, r.2.map Reply.shown)).filter
        fun r ↦ !r.1.isTransaction).map Prod.snd := by
      rw [List.filter_map, List.map_map]
      rfl
    rw [hmap, hserved, List.filter_map, List.map_map, List.map_map]
    rfl

/-- **No deadlock.**  As long as a call has not returned, a thread can go on, unless the calls one
after the other end the program as well. -/
theorem canMove_calls {T : Type} [DecidableEq T] {h₀ : Handle} {s : Connected T}
    (hs : (Connected.system h₀).Reachable s) {t : T} (ht : s.threads t ≠ .idle) :
    (∃ t, ((Connected.system h₀).next s (.step t)).isSome) ∨ sequential s.order h₀ = none :=
  Shared.canMove section_program hs ht

/-! ## A run -/

/-- One thread deletes the linkage records while another one asks for them: both are in their
calls before the first one takes the lock, and the query takes it first. -/
def queryAndDelete : List (Move Request Bool) :=
  [.call true (.delLinkInfo (some LinkData.zero)),
    .call false (.getLinkInfo (some LinkData.zero) false)] ++
  List.replicate 22 (.step false) ++ List.replicate 6 (.step true) ++ [.step false]

/-- A connection to a table with one row. -/
def testHandle : Handle := ⟨testDatabase 1, ⟨0, 0, []⟩, 1⟩

/-- The thread is in no call. -/
def isIdle : Thread Op Op.Res Reply Request → Bool
  | .idle => true
  | .running .. => false

theorem eq_idle {t : Thread Op Op.Res Reply Request} (h : isIdle t) : t = .idle := by
  rcases t with _ | _
  · rfl
  · cases h

/-- The state after the run. -/
theorem exec_queryAndDelete :
    (((Connected.system testHandle).exec (Shared.fresh testHandle) queryAndDelete).any fun s ↦
      isIdle (s.threads true) && isIdle (s.threads false)) = true := by
  decide +kernel

/-- The two calls as if the query had been made before the deletion. -/
theorem linearizable_queryAndDelete :
    ∃ s : Connected Bool, (Connected.system testHandle).Reachable s ∧ s.lock = .free ∧
      ∃ replies, sequential s.calls testHandle = some (s.state, replies) ∧
        s.answers = replies.map fun r ↦ some r.shown := by
  obtain ⟨s, hs, hidle⟩ := (Option.any_eq_true _ _).mp exec_queryAndDelete
  have hs : (Connected.system testHandle).Reachable s :=
    System.reachable_of_exec queryAndDelete rfl hs
  refine ⟨s, hs, linearizable_calls hs ?_⟩
  rw [Bool.and_eq_true] at hidle
  rintro (_ | _)
  · exact eq_idle hidle.2
  · exact eq_idle hidle.1

end CodeToolKit.HwbrapSqlite
