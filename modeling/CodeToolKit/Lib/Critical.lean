import CodeToolKit.Lib.Program
import CodeToolKit.Lib.RecLock
import CodeToolKit.Lib.Transition
import Mathlib.Logic.Function.Basic

/-!
# Critical sections

Any number of threads call programs that share a state and a lock.  Each program is a
`Program.Section`: it takes the lock first and gives it back once on each of its paths, and
what it does afterwards changes nothing and does not show in what is observed of its result.

Such calls are linearizable (`linearizable`): when all have returned, the state and what is
observed of the results are those of the calls one after the other, in the order in which they
took the lock.

The order and the results are recorded by the steps of the system and read by none of them.
-/

namespace CodeToolKit.Lib

variable {Op : Type} {Res : Op → Type} {α β σ C T : Type}

namespace Program

/-- What comes after a section, with the value `b` to be observed. -/
def After (step : (o : Op) → σ → Option (σ × Res o)) (view : α → β) (b : β) :
    Program Op Res α → Prop
  | ret a => view a = b
  | op o rest => (∀ x, ∃ r, step o x = some (x, r)) ∧ ∀ r, (rest r).After step view b
  | stuck | lock _ | unlock _ => False

/-- The rest of a program that holds the lock. -/
def Inside (step : (o : Op) → σ → Option (σ × Res o)) (view : α → β) : Program Op Res α → Prop
  | stuck => True
  | op _ rest => ∀ r, (rest r).Inside step view
  | unlock rest => ∃ b, rest.After step view b
  | ret _ | lock _ => False

/-- A whole program. -/
def Section (step : (o : Op) → σ → Option (σ × Res o)) (view : α → β) :
    Program Op Res α → Prop
  | lock rest => rest.Inside step view
  | _ => False

variable {step : (o : Op) → σ → Option (σ × Res o)} {view : α → β}

/-- Operations in front of the rest of a section. -/
theorem inside_bind {γ : Type} {p : Program Op Res γ} {k : γ → Program Op Res α} (hp : p.Plain)
    (hk : ∀ a, (k a).Inside step view) : (p >>= k).Inside step view := by
  induction p with
  | ret a => exact hk a
  | stuck => trivial
  | lock rest ih => exact hp.elim
  | unlock rest ih => exact hp.elim
  | op o rest ih => exact fun r ↦ ih r (hp r)

/-- What comes after a section always returns, and leaves the state. -/
theorem After.run {b : β} {p : Program Op Res α} (h : p.After step view b) (x : σ) :
    ∃ a, p.run step x = some (x, a) ∧ view a = b := by
  induction p with
  | ret a => exact ⟨a, rfl, h⟩
  | stuck => exact h.elim
  | lock rest ih => exact h.elim
  | unlock rest ih => exact h.elim
  | op o rest ih =>
      obtain ⟨r, hr⟩ := h.1 x
      obtain ⟨a, ha, hview⟩ := ih r (h.2 r)
      refine ⟨a, ?_, hview⟩
      rw [run_op, hr]
      exact ha

end Program

/-! ## One call after the other -/

/-- The calls one after the other: the state after them, and their results. -/
def runAll (step : (o : Op) → σ → Option (σ × Res o)) (prog : C → Program Op Res α) :
    List C → σ → Option (σ × List α)
  | [], x => some (x, [])
  | c :: cs, x => (prog c).run step x >>= fun s ↦
      (runAll step prog cs s.1).map fun s' ↦ (s'.1, s.2 :: s'.2)

variable {step : (o : Op) → σ → Option (σ × Res o)} {prog : C → Program Op Res α}

/-- One more call at the end. -/
theorem runAll_concat (cs : List C) (c : C) (x₀ : σ) :
    runAll step prog (cs ++ [c]) x₀ = runAll step prog cs x₀ >>= fun s ↦
      ((prog c).run step s.1).map fun s' ↦ (s'.1, s.2 ++ [s'.2]) := by
  induction cs generalizing x₀ with
  | nil =>
      show (prog c).run step x₀ >>= _ = ((prog c).run step x₀).map _
      rcases (prog c).run step x₀ with _ | s <;> rfl
  | cons c' cs ih =>
      rw [List.cons_append, runAll, runAll]
      rcases (prog c').run step x₀ with _ | s
      · rfl
      · show (runAll step prog (cs ++ [c]) s.1).map _ = (runAll step prog cs s.1).map _ >>= _
        rw [ih]
        rcases runAll step prog cs s.1 with _ | s'
        · rfl
        · show (((prog c).run step s'.1).map _).map _ = ((prog c).run step s'.1).map _
          rw [Option.map_map]
          rfl

/-- Each call has a result. -/
theorem length_runAll {cs : List C} {x₀ x : σ} {as : List α}
    (h : runAll step prog cs x₀ = some (x, as)) : as.length = cs.length := by
  induction cs generalizing x₀ as with
  | nil => exact congrArg List.length (Prod.mk.inj (Option.some.inj h)).2.symm
  | cons c cs ih =>
      rw [runAll, Option.bind_eq_bind, Option.bind_eq_some_iff] at h
      obtain ⟨s, -, h⟩ := h
      obtain ⟨⟨x₁, as₁⟩, hs', heq⟩ := Option.map_eq_some_iff.mp h
      obtain ⟨rfl, rfl⟩ := Prod.mk.inj heq
      rw [List.length_cons, List.length_cons, ih hs']

/-- Calls that leave the state can be left out. -/
theorem runAll_filter {p : C → Bool} {cs : List C} {x₀ x : σ} {as : List α}
    (hp : ∀ c, p c = false → ∀ x x' a, (prog c).run step x = some (x', a) → x' = x)
    (h : runAll step prog cs x₀ = some (x, as)) :
    runAll step prog (cs.filter p) x₀ =
      some (x, ((cs.zip as).filter fun r ↦ p r.1).map Prod.snd) := by
  induction cs generalizing x₀ as with
  | nil =>
      obtain ⟨rfl, rfl⟩ := Prod.mk.inj (Option.some.inj h)
      rfl
  | cons c cs ih =>
      rw [runAll, Option.bind_eq_bind, Option.bind_eq_some_iff] at h
      obtain ⟨⟨x₁, a⟩, ha, h⟩ := h
      obtain ⟨⟨x', as'⟩, has, heq⟩ := Option.map_eq_some_iff.mp h
      obtain ⟨rfl, rfl⟩ := Prod.mk.inj heq
      rw [List.zip_cons_cons]
      by_cases hc : p c
      · rw [List.filter_cons_of_pos hc, List.filter_cons_of_pos (p := fun r : C × α ↦ p r.1) hc,
          runAll, ha, Option.bind_eq_bind, Option.bind_some, ih has]
        rfl
      · rw [List.filter_cons_of_neg hc, List.filter_cons_of_neg (p := fun r : C × α ↦ p r.1) hc,
          ← hp c (Bool.eq_false_iff.mpr hc) x₀ x₁ a ha]
        exact ih has

/-! ## The threads -/

/-- What a thread is doing. -/
inductive Thread (Op : Type) (Res : Op → Type) (α C : Type) where
  /-- It is in no call. -/
  | idle
  /-- It is in a call, whose place in the order is there once it has taken the lock. -/
  | running (c : C) (turn : Option ℕ) (rest : Program Op Res α)

/-- The threads, the lock and the state that they share. -/
structure Shared (Op : Type) (Res : Op → Type) (α C T σ : Type) where
  lock : RecLock T
  state : σ
  threads : T → Thread Op Res α C
  /-- The calls that took the lock, in their order. -/
  order : List C
  /-- What they returned. -/
  results : ℕ → Option α

/-- A step: a thread calls a program, or goes on with its call. -/
inductive Move (C T : Type) where
  | call (t : T) (c : C)
  | step (t : T)

namespace Shared

variable [DecidableEq T]

/-- The next thing that a thread does in its call. -/
def advance (step : (o : Op) → σ → Option (σ × Res o)) (s : Shared Op Res α C T σ) (t : T) (c : C)
    (turn : Option ℕ) : Program Op Res α → Option (Shared Op Res α C T σ)
  | .ret a => turn.map fun i ↦
      { s with threads := Function.update s.threads t .idle,
               results := Function.update s.results i (some a) }
  | .stuck => none
  | .lock rest => (s.lock.acquire t).map fun l ↦
      { s with lock := l, order := s.order ++ [c],
               threads := Function.update s.threads t (.running c (some s.order.length) rest) }
  | .unlock rest => some
      { s with lock := s.lock.release,
               threads := Function.update s.threads t (.running c turn rest) }
  | .op o rest => (step o s.state).map fun r ↦
      { s with state := r.1,
               threads := Function.update s.threads t (.running c turn (rest r.2)) }

/-- A step of the system. -/
def next (step : (o : Op) → σ → Option (σ × Res o)) (prog : C → Program Op Res α)
    (s : Shared Op Res α C T σ) : Move C T → Option (Shared Op Res α C T σ)
  | .call t c =>
      match s.threads t with
      | .idle => some
          { s with threads := Function.update s.threads t (.running c none (prog c)) }
      | .running .. => none
  | .step t =>
      match s.threads t with
      | .idle => none
      | .running c turn rest => s.advance step t c turn rest

/-- No thread is in a call, and there was none. -/
def fresh (x₀ : σ) : Shared Op Res α C T σ where
  lock := .free
  state := x₀
  threads _ := .idle
  order := []
  results _ := none

/-- The system. -/
def system (step : (o : Op) → σ → Option (σ × Res o)) (prog : C → Program Op Res α) (x₀ : σ) :
    System (Shared Op Res α C T σ) (Move C T) where
  start s := s = fresh x₀
  next := next step prog

section

variable {step : (o : Op) → σ → Option (σ × Res o)} {prog : C → Program Op Res α}
variable {s s' : Shared Op Res α C T σ}

/-- The state of a thread after a step of a thread. -/
theorem running_update {f : T → Thread Op Res α C} {t t' : T} {th : Thread Op Res α C} {c : C}
    {turn : Option ℕ} {rest : Program Op Res α}
    (h : Function.update f t th t' = .running c turn rest) :
    t' = t ∧ th = .running c turn rest ∨ t' ≠ t ∧ f t' = .running c turn rest := by
  by_cases ht : t' = t
  · subst ht
    rw [Function.update_self] at h
    exact .inl ⟨rfl, h⟩
  · rw [Function.update_of_ne ht] at h
    exact .inr ⟨ht, h⟩

/-- What a step can be. -/
theorem next_cases {a : Move C T} (h : next step prog s a = some s') :
    (∃ t c, a = .call t c ∧ s.threads t = .idle ∧
      s' = { s with threads := Function.update s.threads t (.running c none (prog c)) }) ∨
    ∃ t c turn rest, a = .step t ∧ s.threads t = .running c turn rest ∧
      s.advance step t c turn rest = some s' := by
  rcases a with ⟨t, c⟩ | t
  · rw [next] at h
    split at h
    · rename_i hidle
      exact .inl ⟨t, c, rfl, hidle, (Option.some.inj h).symm⟩
    · cases h
  · rw [next] at h
    split at h
    · cases h
    · rename_i c turn rest hrunning
      exact .inr ⟨t, c, turn, rest, rfl, hrunning, h⟩

end

/-! ## What holds in every state

`x` and `as` are the state and the results of the sections that are over, one after the other. -/

/-- The section in progress, if any, continues as it would alone. -/
def Owned (step : (o : Op) → σ → Option (σ × Res o)) (prog : C → Program Op Res α)
    (view : α → β) (x₀ : σ) (s : Shared Op Res α C T σ) (x : σ) (as : List α) : RecLock T → Prop
  | .free => s.state = x ∧ runAll step prog s.order x₀ = some (x, as)
  | .held t n => n = 0 ∧ ∃ cs c rest, s.order = cs ++ [c] ∧
      runAll step prog cs x₀ = some (x, as) ∧ s.threads t = .running c (some cs.length) rest ∧
      rest.Inside step view ∧ rest.run step s.state = (prog c).run step x

structure Invariant (step : (o : Op) → σ → Option (σ × Res o)) (prog : C → Program Op Res α)
    (view : α → β) (x₀ : σ) (s : Shared Op Res α C T σ) (x : σ) (as : List α) : Prop where
  owned : Owned step prog view x₀ s x as s.lock
  /-- A thread that has not had the lock is at the start of its program. -/
  waiting : ∀ t c rest, s.threads t = .running c none rest → rest = prog c
  /-- A thread that has given the lock back will return what is expected. -/
  leaving : ∀ t c i rest, s.threads t = .running c (some i) rest → s.lock.count t = 0 →
    ∃ a, as[i]? = some a ∧ rest.After step view (view a)
  /-- The results that are there are as expected. -/
  results : ∀ i a', s.results i = some a' → ∃ a, as[i]? = some a ∧ view a' = view a
  /-- No result is lost. -/
  served : ∀ i < as.length, (s.results i).isSome ∨
    ∃ t c rest, s.threads t = .running c (some i) rest

namespace Invariant

variable {step : (o : Op) → σ → Option (σ × Res o)} {prog : C → Program Op Res α} {view : α → β}
variable {s s' : Shared Op Res α C T σ} {x₀ x : σ} {as : List α}

/-- A thread in a call has not had the lock yet, has given it back, or holds it. -/
theorem position (h : Invariant step prog view x₀ s x as) {t : T} {c : C} {turn : Option ℕ}
    {rest : Program Op Res α} (ht : s.threads t = .running c turn rest) :
    (turn = none ∧ rest = prog c) ∨
    (∃ i a, turn = some i ∧ s.lock.count t = 0 ∧ as[i]? = some a ∧
      rest.After step view (view a)) ∨
    (s.lock = .held t 0 ∧ ∃ cs, turn = some cs.length ∧ s.order = cs ++ [c] ∧
      runAll step prog cs x₀ = some (x, as) ∧ rest.Inside step view ∧
      rest.run step s.state = (prog c).run step x) := by
  rcases turn with _ | i
  · exact .inl ⟨rfl, h.waiting t c rest ht⟩
  · by_cases hcount : s.lock.count t = 0
    · obtain ⟨a, ha, hafter⟩ := h.leaving t c i rest ht hcount
      exact .inr (.inl ⟨i, a, rfl, hcount, ha, hafter⟩)
    · have howned := h.owned
      rcases hlock : s.lock with _ | ⟨t', n⟩
      · rw [hlock] at hcount
        exact absurd rfl hcount
      · rw [hlock] at hcount howned
        obtain ⟨rfl, cs, c', rest', horder, hrun, ht', hinside, heq⟩ := howned
        have htt : t' = t := by
          by_contra hne
          exact hcount (if_neg hne)
        subst htt
        rw [ht] at ht'
        obtain ⟨rfl, hi, rfl⟩ := Thread.running.inj ht'
        exact .inr (.inr ⟨rfl, cs, hi, horder, hrun, hinside, heq⟩)

/-- The section in progress is not touched by a thread that does not hold the lock. -/
theorem owned_update (h : Invariant step prog view x₀ s x as) {t : T} {th : Thread Op Res α C}
    (hcount : s.lock.count t = 0) :
    Owned step prog view x₀ { s with threads := Function.update s.threads t th } x as s.lock := by
  have howned := h.owned
  rcases hlock : s.lock with _ | ⟨t', n⟩
  · rw [hlock] at howned
    exact howned
  · rw [hlock] at howned hcount
    obtain ⟨hn, cs, c, rest, horder, hrun, ht', hinside, heq⟩ := howned
    refine ⟨hn, cs, c, rest, horder, hrun, ?_, hinside, heq⟩
    have hne : t' ≠ t := by
      rintro rfl
      exact absurd hcount (by rw [RecLock.count, if_pos rfl]; exact Nat.succ_ne_zero n)
    exact (Function.update_of_ne hne _ _).trans ht'

/-- The other threads keep their places in the order. -/
theorem served_update (h : Invariant step prog view x₀ s x as) {t : T} {th : Thread Op Res α C}
    (ht : ∀ c i rest, s.threads t = .running c (some i) rest →
      ∃ c' rest', th = .running c' (some i) rest') :
    ∀ i < as.length, (s.results i).isSome ∨
      ∃ t' c rest, Function.update s.threads t th t' = .running c (some i) rest := by
  intro i hi
  rcases h.served i hi with hres | ⟨t', c, rest, ht'⟩
  · exact .inl hres
  · refine .inr ⟨t', ?_⟩
    by_cases htt : t' = t
    · subst htt
      obtain ⟨c', rest', hth⟩ := ht c i rest ht'
      exact ⟨c', rest', by rw [Function.update_self, hth]⟩
    · exact ⟨c, rest, by rw [Function.update_of_ne htt, ht']⟩

/-- The other threads wait as before. -/
theorem waiting_update (h : Invariant step prog view x₀ s x as) {t : T} {th : Thread Op Res α C}
    (hth : ∀ c rest, th = .running c none rest → rest = prog c) :
    ∀ t' c rest, Function.update s.threads t th t' = .running c none rest → rest = prog c := by
  intro t' c rest ht'
  rcases running_update ht' with ⟨-, heq⟩ | ⟨-, ht'⟩
  · exact hth c rest heq
  · exact h.waiting t' c rest ht'

/-- The other threads leave as before. -/
theorem leaving_update (h : Invariant step prog view x₀ s x as) {t : T} {th : Thread Op Res α C}
    (hth : ∀ c i rest, th = .running c (some i) rest →
      ∃ a, as[i]? = some a ∧ rest.After step view (view a)) :
    ∀ t' c i rest, Function.update s.threads t th t' = .running c (some i) rest →
      s.lock.count t' = 0 → ∃ a, as[i]? = some a ∧ rest.After step view (view a) := by
  intro t' c i rest ht' hcount
  rcases running_update ht' with ⟨-, heq⟩ | ⟨-, ht'⟩
  · exact hth c i rest heq
  · exact h.leaving t' c i rest ht' hcount

/-- A call begins. -/
theorem call (h : Invariant step prog view x₀ s x as) {t : T} {c : C} (ht : s.threads t = .idle) :
    Invariant step prog view x₀
      { s with threads := Function.update s.threads t (.running c none (prog c)) } x as := by
  have hcount : s.lock.count t = 0 := by
    have howned := h.owned
    rcases hlock : s.lock with _ | ⟨t', n⟩
    · rfl
    · rw [hlock] at howned
      obtain ⟨-, cs, c', rest, -, -, ht', -⟩ := howned
      refine if_neg ?_
      rintro rfl
      rw [ht] at ht'
      cases ht'
  constructor
  · exact h.owned_update hcount
  · refine h.waiting_update fun c' rest heq ↦ ?_
    obtain ⟨rfl, -, rfl⟩ := Thread.running.inj heq
    rfl
  · exact h.leaving_update (by rintro _ _ _ ⟨⟩)
  · exact h.results
  · refine h.served_update ?_
    intro c' i rest ht'
    rw [ht] at ht'
    cases ht'

/-- A call returns. -/
theorem ret (h : Invariant step prog view x₀ s x as) {t : T} {c : C} {i : ℕ} {a a' : α}
    (ht : s.threads t = .running c (some i) (.ret a')) (hcount : s.lock.count t = 0)
    (ha : as[i]? = some a) (hview : view a' = view a) :
    Invariant step prog view x₀
      { s with threads := Function.update s.threads t .idle,
               results := Function.update s.results i (some a') } x as := by
  constructor
  · exact h.owned_update hcount
  · exact h.waiting_update (by rintro _ _ ⟨⟩)
  · exact h.leaving_update (by rintro _ _ _ ⟨⟩)
  · intro j b hb
    by_cases hj : j = i
    · subst hj
      have hb : Function.update s.results j (some a') j = some b := hb
      rw [Function.update_self] at hb
      exact ⟨a, ha, Option.some.inj hb ▸ hview⟩
    · have hb : Function.update s.results i (some a') j = some b := hb
      rw [Function.update_of_ne hj] at hb
      exact h.results j b hb
  · intro j hj
    by_cases hji : j = i
    · subst hji
      refine .inl ?_
      show (Function.update s.results j (some a') j).isSome
      rw [Function.update_self]
      rfl
    · rcases h.served j hj with hres | ⟨t', c', rest, ht'⟩
      · refine .inl ?_
        show (Function.update s.results i (some a') j).isSome
        rw [Function.update_of_ne hji]
        exact hres
      · refine .inr ⟨t', c', rest, ?_⟩
        have hne : t' ≠ t := by
          rintro rfl
          rw [ht] at ht'
          exact hji (Option.some.inj (Thread.running.inj ht').2.1).symm
        exact (Function.update_of_ne hne _ _).trans ht'

/-- A section begins. -/
theorem lock (h : Invariant step prog view x₀ s x as) {t : T} {c : C} {rest : Program Op Res α}
    {l : RecLock T} (ht : s.threads t = .running c none (.lock rest))
    (hrest : prog c = .lock rest) (hinside : rest.Inside step view)
    (hl : s.lock.acquire t = some l) :
    Invariant step prog view x₀
      { s with lock := l, order := s.order ++ [c],
               threads := Function.update s.threads t (.running c (some s.order.length) rest) }
      x as := by
  have hfree : s.lock = .free := by
    have howned := h.owned
    rcases hlock : s.lock with _ | ⟨t', n⟩
    · rfl
    · rw [hlock] at howned hl
      obtain ⟨-, cs, c', rest', -, -, ht', -⟩ := howned
      have hne : ¬t' = t := by
        rintro rfl
        rw [ht] at ht'
        cases ht'
      rw [RecLock.acquire, if_neg hne] at hl
      cases hl
  have howned := h.owned
  rw [hfree] at hl howned
  obtain ⟨rfl, hrun⟩ := howned
  cases hl
  have hcount : ∀ t', t' ≠ t → s.lock.count t' = 0 := by
    intro t' _
    rw [hfree]
    rfl
  constructor
  · refine ⟨rfl, s.order, c, rest, rfl, hrun, Function.update_self _ _ _, hinside, ?_⟩
    rw [hrest]
    rfl
  · exact h.waiting_update (by rintro _ _ ⟨⟩)
  · intro t' c' i rest' ht' hcount'
    rcases running_update ht' with ⟨rfl, -⟩ | ⟨hne, ht'⟩
    · exact absurd hcount' (by rw [RecLock.count, if_pos rfl]; exact Nat.succ_ne_zero 0)
    · exact h.leaving t' c' i rest' ht' (hcount t' hne)
  · exact h.results
  · refine h.served_update ?_
    intro c' i rest' ht'
    rw [ht] at ht'
    cases ht'

/-- A section is over. -/
theorem unlock (h : Invariant step prog view x₀ s x as) {t : T} {c : C}
    {rest : Program Op Res α} {cs : List C} {b : β}
    (ht : s.threads t = .running c (some cs.length) (.unlock rest)) (hlock : s.lock = .held t 0)
    (horder : s.order = cs ++ [c]) (hrun : runAll step prog cs x₀ = some (x, as))
    (hafter : rest.After step view b)
    (heq : (Program.unlock rest).run step s.state = (prog c).run step x) :
    ∃ a, Invariant step prog view x₀
      { s with lock := s.lock.release,
               threads := Function.update s.threads t (.running c (some cs.length) rest) }
      s.state (as ++ [a]) := by
  obtain ⟨a, ha, rfl⟩ := hafter.run s.state
  have hlength : cs.length = as.length := (length_runAll hrun).symm
  have hcount : ∀ t', t' ≠ t → s.lock.count t' = 0 := by
    intro t' hne
    rw [hlock]
    exact if_neg hne.symm
  refine ⟨a, ?_⟩
  constructor
  · rw [hlock]
    refine ⟨rfl, ?_⟩
    rw [show ({ s with lock := _, threads := _ } : Shared Op Res α C T σ).order = cs ++ [c] from
      horder]
    rw [runAll_concat, hrun, Option.bind_eq_bind, Option.bind_some, ← heq]
    exact congrArg (Option.map _) ha
  · exact h.waiting_update (by rintro _ _ ⟨⟩)
  · intro t' c' i rest' ht' _
    rcases running_update ht' with ⟨-, heq⟩ | ⟨hne, ht'⟩
    · obtain ⟨-, hi, rfl⟩ := Thread.running.inj heq
      refine ⟨a, ?_, hafter⟩
      rw [← Option.some.inj hi, hlength, List.getElem?_concat_length]
    · obtain ⟨a', ha', hafter'⟩ := h.leaving t' c' i rest' ht' (hcount t' hne)
      exact ⟨a', List.getElem?_append_left (List.getElem?_eq_some_iff.mp ha').1 ▸ ha', hafter'⟩
  · intro i a' ha'
    obtain ⟨b, hb, hview⟩ := h.results i a' ha'
    exact ⟨b, List.getElem?_append_left (List.getElem?_eq_some_iff.mp hb).1 ▸ hb, hview⟩
  · intro i hi
    rw [List.length_append, List.length_singleton] at hi
    rcases Nat.lt_succ_iff_lt_or_eq.mp hi with hi | rfl
    · refine h.served_update ?_ i hi
      intro c' j rest' ht'
      rw [ht] at ht'
      exact ⟨c, rest, by rw [← (Thread.running.inj ht').2.1]⟩
    · refine .inr ⟨t, c, rest, ?_⟩
      rw [← hlength]
      exact Function.update_self _ _ _

/-- The holder of the lock does an operation. -/
theorem op_inside (h : Invariant step prog view x₀ s x as) {t : T} {c : C} {o : Op}
    {rest : Res o → Program Op Res α} {cs : List C} {x' : σ} {r : Res o}
    (hlock : s.lock = .held t 0) (horder : s.order = cs ++ [c])
    (hrun : runAll step prog cs x₀ = some (x, as))
    (ht : s.threads t = .running c (some cs.length) (.op o rest))
    (hinside : ∀ r, (rest r).Inside step view)
    (heq : (Program.op o rest).run step s.state = (prog c).run step x)
    (hr : step o s.state = some (x', r)) :
    Invariant step prog view x₀
      { s with state := x',
               threads := Function.update s.threads t (.running c (some cs.length) (rest r)) }
      x as := by
  constructor
  · rw [show ({ s with state := _, threads := _ } : Shared Op Res α C T σ).lock = .held t 0 from
      hlock]
    refine ⟨rfl, cs, c, rest r, horder, hrun, Function.update_self _ _ _, hinside r, ?_⟩
    rw [← heq, Program.run_op, hr]
    rfl
  · exact h.waiting_update (by rintro _ _ ⟨⟩)
  · intro t' c' i rest' ht' hcount
    rcases running_update ht' with ⟨rfl, -⟩ | ⟨-, ht'⟩
    · have hcount : s.lock.count t' = 0 := hcount
      rw [hlock, RecLock.count, if_pos rfl] at hcount
      cases hcount
    · exact h.leaving t' c' i rest' ht' hcount
  · exact h.results
  · refine h.served_update ?_
    intro c' i rest' ht'
    rw [ht] at ht'
    exact ⟨c, rest r, by rw [← (Thread.running.inj ht').2.1]⟩

/-- A thread that gave the lock back does an operation. -/
theorem op_after (h : Invariant step prog view x₀ s x as) {t : T} {c : C} {o : Op}
    {rest : Res o → Program Op Res α} {i : ℕ} {a : α} {r : Res o}
    (ht : s.threads t = .running c (some i) (.op o rest)) (hcount : s.lock.count t = 0)
    (ha : as[i]? = some a) (hafter : (rest r).After step view (view a)) :
    Invariant step prog view x₀
      { s with threads := Function.update s.threads t (.running c (some i) (rest r)) } x as := by
  constructor
  · exact h.owned_update hcount
  · exact h.waiting_update (by rintro _ _ ⟨⟩)
  · refine h.leaving_update fun c' j rest' heq ↦ ?_
    obtain ⟨-, hi, rfl⟩ := Thread.running.inj heq
    exact ⟨a, Option.some.inj hi ▸ ha, hafter⟩
  · exact h.results
  · refine h.served_update ?_
    intro c' j rest' ht'
    rw [ht] at ht'
    exact ⟨c, rest r, by rw [← (Thread.running.inj ht').2.1]⟩

/-- Every step keeps the invariant. -/
theorem next (hprog : ∀ c, (prog c).Section step view) (h : Invariant step prog view x₀ s x as)
    {m : Move C T} (hm : next step prog s m = some s') :
    ∃ x' as', Invariant step prog view x₀ s' x' as' := by
  rcases next_cases hm with ⟨t, c, -, hidle, rfl⟩ | ⟨t, c, turn, rest, -, ht, hadvance⟩
  · exact ⟨x, as, h.call hidle⟩
  have hsection : rest = prog c → rest.Section step view := fun heq ↦ heq ▸ hprog c
  rcases rest with a' | _ | rest | rest | ⟨o, rest⟩
  · -- the call returns, so it gave the lock back
    rcases h.position ht with ⟨-, heq⟩ | ⟨i, a, rfl, hcount, ha, hview⟩ | ⟨-, -, -, -, -, hin, -⟩
    · exact (hsection heq).elim
    · cases hadvance
      exact ⟨x, as, h.ret ht hcount ha hview⟩
    · exact hin.elim
  · cases hadvance
  · -- the call takes the lock, so it did not have it
    rcases h.position ht with ⟨rfl, heq⟩ | ⟨_, _, -, -, -, hafter⟩ | ⟨-, -, -, -, -, hin, -⟩
    · obtain ⟨l, hl, rfl⟩ := Option.map_eq_some_iff.mp hadvance
      exact ⟨x, as, h.lock ht heq.symm (hsection heq) hl⟩
    · exact hafter.elim
    · exact hin.elim
  · -- the call gives the lock back, so it holds it
    rcases h.position ht with
      ⟨-, heq⟩ | ⟨_, _, -, -, -, hafter⟩ | ⟨hlock, cs, rfl, horder, hrun, ⟨b, hafter⟩, heq⟩
    · exact (hsection heq).elim
    · exact hafter.elim
    · cases hadvance
      obtain ⟨a, h'⟩ := h.unlock ht hlock horder hrun hafter heq
      exact ⟨s.state, as ++ [a], h'⟩
  · obtain ⟨⟨x', r⟩, hr, rfl⟩ := Option.map_eq_some_iff.mp hadvance
    rcases h.position ht with
      ⟨-, heq⟩ | ⟨i, a, rfl, hcount, ha, hstep, hafter⟩ | ⟨hlock, cs, rfl, horder, hrun, hin, heq⟩
    · exact (hsection heq).elim
    · obtain ⟨r', hr'⟩ := hstep s.state
      rw [hr] at hr'
      obtain ⟨rfl, rfl⟩ := Prod.mk.inj (Option.some.inj hr')
      exact ⟨x, as, h.op_after ht hcount ha (hafter r)⟩
    · exact ⟨x, as, h.op_inside hlock horder hrun ht hin heq hr⟩

end Invariant

variable {step : (o : Op) → σ → Option (σ × Res o)} {prog : C → Program Op Res α} {view : α → β}
variable {s : Shared Op Res α C T σ} {x₀ : σ}

/-- The invariant holds in every state. -/
theorem exists_invariant (hprog : ∀ c, (prog c).Section step view)
    (hs : (system step prog x₀).Reachable s) :
    ∃ x as, Invariant step prog view x₀ s x as := by
  refine hs.invariant (I := fun s ↦ ∃ x as, Invariant step prog view x₀ s x as) ?_ ?_
  · rintro s rfl
    exact ⟨x₀, [], ⟨rfl, rfl⟩, nofun, nofun, nofun, nofun⟩
  · rintro s m s' ⟨x, as, h⟩ - hm
    exact h.next hprog hm

/-- The results of the calls, in the order in which they took the lock. -/
def served (s : Shared Op Res α C T σ) : List (C × Option α) :=
  s.order.zipIdx.map fun ci ↦ (ci.1, s.results ci.2)

/-- Results by their places are results one after the other. -/
theorem map_zipIdx {γ : Type} {f : ℕ → Option γ} {g : α → γ} {cs : List C} {as : List α} (k : ℕ)
    (hlength : as.length = cs.length) (h : ∀ i, f (k + i) = as[i]?.map g) :
    (cs.zipIdx k).map (fun ci ↦ (ci.1, f ci.2)) =
      (cs.zip as).map fun r ↦ (r.1, some (g r.2)) := by
  induction cs generalizing as k with
  | nil => rfl
  | cons c cs ih =>
      rcases as with _ | ⟨a, as⟩
      · cases hlength
      · have hk : f k = some (g a) := h 0
        have has : ∀ i, f (k + 1 + i) = as[i]?.map g := by
          intro i
          rw [Nat.add_assoc, Nat.add_comm 1 i]
          exact h (i + 1)
        rw [List.zipIdx_cons, List.map_cons, List.zip_cons_cons, List.map_cons, hk,
          ih (k + 1) (Nat.succ.inj hlength) has]

/-- **When all calls have returned, the lock is free, and the state and what is observed of the
results are those of the calls one after the other, in the order in which they took the lock.** -/
theorem linearizable (hprog : ∀ c, (prog c).Section step view)
    (hs : (system step prog x₀).Reachable s) (hidle : ∀ t, s.threads t = .idle) :
    s.lock = .free ∧ ∃ as, runAll step prog s.order x₀ = some (s.state, as) ∧
      s.served.map (fun r ↦ (r.1, r.2.map view)) =
        (s.order.zip as).map fun r ↦ (r.1, some (view r.2)) := by
  obtain ⟨x, as, h⟩ := exists_invariant hprog hs
  have howned := h.owned
  rcases hlock : s.lock with _ | ⟨t, n⟩
  · rw [hlock] at howned
    obtain ⟨rfl, hrun⟩ := howned
    refine ⟨rfl, as, hrun, ?_⟩
    rw [served, List.map_map]
    refine map_zipIdx (f := fun i ↦ (s.results i).map view) (g := view) 0 (length_runAll hrun) ?_
    intro i
    rw [Nat.zero_add]
    rcases hi : s.results i with _ | a'
    · rcases ha : as[i]? with _ | a
      · rfl
      · rcases h.served i (List.getElem?_eq_some_iff.mp ha).1 with hres | ⟨t, c, rest, ht⟩
        · rw [hi] at hres
          cases hres
        · rw [hidle t] at ht
          cases ht
    · obtain ⟨a, ha, hview⟩ := h.results i a' hi
      rw [ha]
      exact congrArg some hview
  · rw [hlock] at howned
    obtain ⟨-, cs, c, rest, -, -, ht, -⟩ := howned
    rw [hidle t] at ht
    cases ht

/-- **A thread can go on as long as one is in a call**, unless the calls one after the other are
undefined, too. -/
theorem canMove (hprog : ∀ c, (prog c).Section step view)
    (hs : (system step prog x₀).Reachable s) {t : T} (ht : s.threads t ≠ .idle) :
    (∃ t, (next step prog s (.step t)).isSome) ∨ runAll step prog s.order x₀ = none := by
  obtain ⟨x, as, h⟩ := exists_invariant hprog hs
  have hnext : ∀ {t c turn rest}, s.threads t = .running c turn rest →
      next step prog s (.step t) = s.advance step t c turn rest := by
    intro t c turn rest ht
    rw [next, ht]
  have howned := h.owned
  rcases hlock : s.lock with _ | ⟨t', n⟩
  · -- the lock is free: the thread takes it, or has given it back
    rw [hlock] at howned
    rcases hrunning : s.threads t with _ | ⟨c, turn, rest⟩
    · exact absurd hrunning ht
    refine .inl ⟨t, ?_⟩
    rw [hnext hrunning]
    rcases h.position hrunning with
      ⟨rfl, rfl⟩ | ⟨i, a, rfl, hcount, ha, hafter⟩ | ⟨hheld, -⟩
    · have hsection := hprog c
      rcases hc : prog c with a' | _ | rest | rest | ⟨o, rest⟩
      all_goals rw [hc] at hsection
      case lock => rw [advance, hlock]; rfl
      all_goals exact hsection.elim
    · rcases rest with a' | _ | rest | rest | ⟨o, rest⟩
      case ret => rfl
      case op =>
        obtain ⟨r, hr⟩ := hafter.1 s.state
        rw [advance, hr]
        rfl
      all_goals exact hafter.elim
    · rw [hlock] at hheld
      cases hheld
  · -- the holder goes on, or what it does is undefined
    rw [hlock] at howned
    obtain ⟨-, cs, c, rest, horder, hrun, hrunning, hinside, heq⟩ := howned
    have hundefined : rest.run step s.state = none → runAll step prog s.order x₀ = none := by
      intro hnone
      rw [horder, runAll_concat, hrun, Option.bind_eq_bind, Option.bind_some, ← heq, hnone]
      rfl
    rcases rest with a' | _ | rest | rest | ⟨o, rest⟩
    case stuck => exact .inr (hundefined rfl)
    case unlock => exact .inl ⟨t', by rw [hnext hrunning]; rfl⟩
    case op =>
      rcases hr : step o s.state with _ | r
      · exact .inr (hundefined (by rw [Program.run_op, hr]; rfl))
      · exact .inl ⟨t', by rw [hnext hrunning, advance, hr]; rfl⟩
    all_goals exact hinside.elim

end Shared

end CodeToolKit.Lib
