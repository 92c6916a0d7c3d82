import CodeToolKit.Lib.Program

/-!
# What a run does

The operations that a program does when it runs alone, each with the state in which it does it
(`performed`).  They are there as well when the run gets stuck after them.

A triple says of all runs from the states with a precondition that each operation is allowed in its
state, and that the postcondition holds where the run returns.  There is a rule for each way to
compose programs.
-/

namespace CodeToolKit.Lib

namespace Program

variable {Op : Type} {Res : Op → Type} {α β σ : Type}

/-- The operations of the program alone, from a state on. -/
def performed (step : (o : Op) → σ → Option (σ × Res o)) : Program Op Res α → σ → List (σ × Op)
  | ret _, _ | stuck, _ => []
  | lock rest, x => rest.performed step x
  | unlock rest, x => rest.performed step x
  | op o rest, x => (x, o) :: (step o x).elim [] fun s ↦ (rest s.2).performed step s.1

section

variable {step : (o : Op) → σ → Option (σ × Res o)}

@[simp] theorem performed_lock (rest : Program Op Res α) (x : σ) :
    (lock rest).performed step x = rest.performed step x := rfl

@[simp] theorem performed_op (o : Op) (rest : Res o → Program Op Res α) (x : σ) :
    (op o rest).performed step x =
      (x, o) :: (step o x).elim [] fun s ↦ (rest s.2).performed step s.1 := rfl

/-- A composed program does what its parts do, the second one where the first one returns. -/
theorem performed_bind (p : Program Op Res α) (k : α → Program Op Res β) (x : σ) :
    (p >>= k).performed step x =
      p.performed step x ++ (p.run step x).elim [] fun s ↦ (k s.2).performed step s.1 := by
  induction p generalizing x with
  | ret a => rfl
  | stuck => rfl
  | lock rest ih => exact ih x
  | unlock rest ih => exact ih x
  | op o rest ih =>
      rw [op_bind, performed_op, performed_op, run_op, List.cons_append]
      rcases step o x with _ | ⟨x', r⟩
      · rfl
      · exact congrArg _ (ih r x')

variable {a : σ × Op} {x x' : σ}

/-- What is done after an operation. -/
theorem mem_performed_op {o : Op} {rest : Res o → Program Op Res α} {r : Res o}
    (hstep : step o x = some (x', r)) (h : a ∈ (rest r).performed step x') :
    a ∈ (op o rest).performed step x := by
  rw [performed_op, hstep]
  exact List.mem_cons_of_mem _ h

/-- What is done by the first part of a program. -/
theorem mem_performed_left {p : Program Op Res α} (k : α → Program Op Res β)
    (h : a ∈ p.performed step x) : a ∈ (p >>= k).performed step x := by
  rw [performed_bind]
  exact List.mem_append_left _ h

/-- What is done by the second part. -/
theorem mem_performed_right {p : Program Op Res α} {k : α → Program Op Res β} {b : α}
    (hrun : p.run step x = some (x', b)) (h : a ∈ (k b).performed step x') :
    a ∈ (p >>= k).performed step x := by
  rw [performed_bind, hrun]
  exact List.mem_append_right _ h

end

/-! ## Triples -/

/-- From a state with `I` each operation that the program does is allowed, and `Q` holds where it
returns. -/
structure Triple (step : (o : Op) → σ → Option (σ × Res o)) (Allowed : σ → Op → Prop)
    (I : σ → Prop) (p : Program Op Res α) (Q : α → σ → Prop) : Prop where
  allowed : ∀ x, I x → ∀ a ∈ p.performed step x, Allowed a.1 a.2
  post : ∀ x s, I x → p.run step x = some s → Q s.2 s.1

namespace Triple

variable {step : (o : Op) → σ → Option (σ × Res o)} {Allowed : σ → Op → Prop} {I : σ → Prop}
  {Q : α → σ → Prop} {R : β → σ → Prop} {a : α} {p : Program Op Res α}

theorem ret (h : ∀ x, I x → Q a x) : Triple step Allowed I (.ret a) Q := by
  refine ⟨fun _ _ _ hmem ↦ absurd hmem List.not_mem_nil, fun x s hx hs ↦ ?_⟩
  rw [← Option.some.inj hs]
  exact h x hx

theorem stuck : Triple step Allowed I (.stuck : Program Op Res α) Q :=
  ⟨fun _ _ _ hmem ↦ absurd hmem List.not_mem_nil, nofun⟩

theorem lock (h : Triple step Allowed I p Q) : Triple step Allowed I (.lock p) Q :=
  ⟨h.allowed, h.post⟩

theorem unlock (h : Triple step Allowed I p Q) : Triple step Allowed I (.unlock p) Q :=
  ⟨h.allowed, h.post⟩

/-- An operation, and what comes after it for each of its results. -/
theorem op {o : Op} {rest : Res o → Program Op Res α} (hallowed : ∀ x, I x → Allowed x o)
    (hrest : ∀ r, Triple step Allowed (fun x' ↦ ∃ x, I x ∧ step o x = some (x', r)) (rest r) Q) :
    Triple step Allowed I (.op o rest) Q := by
  refine ⟨fun x hx a hmem ↦ ?_, fun x s hx hs ↦ ?_⟩
  · rw [performed_op, List.mem_cons] at hmem
    rcases hmem with rfl | hmem
    · exact hallowed x hx
    · rcases hstep : step o x with _ | ⟨x', r⟩
      · rw [hstep] at hmem
        exact absurd hmem List.not_mem_nil
      · rw [hstep] at hmem
        exact (hrest r).allowed x' ⟨x, hx, hstep⟩ a hmem
  · rw [run_op] at hs
    obtain ⟨⟨x', r⟩, hstep, hs⟩ := Option.bind_eq_some_iff.mp hs
    exact (hrest r).post x' s ⟨x, hx, hstep⟩ hs

/-- An operation with a known result. -/
theorem op_of_eq {o : Op} {rest : Res o → Program Op Res α} {x x' : σ} {r : Res o}
    (hstep : step o x = some (x', r)) (hallowed : Allowed x o)
    (hrest : Triple step Allowed (· = x') (rest r) Q) :
    Triple step Allowed (· = x) (.op o rest) Q := by
  refine op (fun y hy ↦ hy ▸ hallowed) fun r' ↦ ⟨?_, ?_⟩
  · rintro y ⟨_, rfl, hy⟩
    obtain ⟨rfl, rfl⟩ := Prod.mk.inj (Option.some.inj (hstep.symm.trans hy))
    exact hrest.allowed _ rfl
  · rintro y s ⟨_, rfl, hy⟩
    obtain ⟨rfl, rfl⟩ := Prod.mk.inj (Option.some.inj (hstep.symm.trans hy))
    exact hrest.post _ s rfl

/-- One program after the other. -/
theorem bind {k : α → Program Op Res β} (hp : Triple step Allowed I p Q)
    (hk : ∀ a, Triple step Allowed (Q a) (k a) R) : Triple step Allowed I (p >>= k) R := by
  refine ⟨fun x hx a hmem ↦ ?_, fun x s hx hs ↦ ?_⟩
  · rw [performed_bind, List.mem_append] at hmem
    rcases hmem with hmem | hmem
    · exact hp.allowed x hx a hmem
    · rcases hrun : p.run step x with _ | ⟨x', b⟩
      · rw [hrun] at hmem
        exact absurd hmem List.not_mem_nil
      · rw [hrun] at hmem
        exact (hk b).allowed x' (hp.post x _ hx hrun) a hmem
  · rw [run_bind] at hs
    obtain ⟨⟨x', b⟩, hrun, hs⟩ := Option.bind_eq_some_iff.mp hs
    exact (hk b).post x' s (hp.post x _ hx hrun) hs

theorem ofOption (a : Option α) (h : ∀ b, a = some b → ∀ x, I x → Q b x) :
    Triple step Allowed I (.ofOption a) Q := by
  rcases a with _ | b
  · exact stuck
  · exact ret (h b rfl)

/-- A triple for each state with the precondition. -/
theorem of_forall (h : ∀ x, I x → Triple step Allowed (· = x) p Q) : Triple step Allowed I p Q :=
  ⟨fun x hx ↦ (h x hx).allowed x rfl, fun x s hx ↦ (h x hx).post x s rfl⟩

end Triple

end Program

end CodeToolKit.Lib
