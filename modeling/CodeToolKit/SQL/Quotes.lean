import Mathlib.Algebra.GroupWithZero.Nat
import Mathlib.Data.List.Count
import Mathlib.Data.List.Induction
import Mathlib.Data.Nat.Basic
import Mathlib.Order.Basic
import CodeToolKit.SQL.Token

/-!
# The quotes of an SQL text

Two laws about the quotes that the tokenizer reads.  The tokens of a text have at most the
quotes of the text (`weight_lex_le`): two for the ends of a quoted token, and two for each
quote of its value.  And inside of quotes the machine has read the opening quote and the value
so far, with each quote of it twice (`isOpen_scan`).
-/

namespace CodeToolKit.SQL

/-! ## Counting quotes -/

/-- How many quotes of a kind a token has in the text, at least. -/
def Token.weight (q : Char) : Token → ℕ
  | quoted delim value => if delim = q then 2 + 2 * value.count q else value.count q
  | _ => 0

/-- How many quotes of a kind the token that is being read has taken. -/
def Mode.weight (q : Char) : Mode → ℕ
  | quoted delim acc => if delim = q then 1 + 2 * acc.count q else acc.count q
  | closing delim acc => if delim = q then 2 + 2 * acc.count q else acc.count q
  | bracket acc => acc.count q
  | _ => 0

/-- The quotes of a list of tokens. -/
def weight (q : Char) (ts : List Token) : ℕ := (ts.map (Token.weight q)).sum

@[simp] theorem weight_nil (q : Char) : weight q [] = 0 := rfl

@[simp] theorem weight_cons (q : Char) (t : Token) (ts : List Token) :
    weight q (t :: ts) = t.weight q + weight q ts := rfl

@[simp] theorem weight_append (q : Char) (ts ts' : List Token) :
    weight q (ts ++ ts') = weight q ts + weight q ts' := by
  rw [weight, List.map_append, List.sum_append, weight, weight]

/-- The quotes of what a step gives. -/
def stepWeight (q : Char) (r : List Token × Mode) : ℕ := weight q r.1 + r.2.weight q

/-- A new token has at most the quote it starts with. -/
theorem stepWeight_start_le (q c : Char) : stepWeight q (start c) ≤ [c].count q := by
  unfold start
  split
  · exact Nat.zero_le _
  · split
    · show 0 + (if c = q then 1 + 2 * [].count q else [].count q) ≤ [c].count q
      by_cases h : c = q <;> simp [h]
    · repeat' split
      all_goals exact Nat.zero_le _

theorem stepWeight_emit_le (q : Char) (t : Token) (c : Char) :
    stepWeight q (emit t c) ≤ t.weight q + [c].count q := by
  show t.weight q + weight q (start c).1 + (start c).2.weight q ≤ _
  rw [Nat.add_assoc]
  exact Nat.add_le_add_left (stepWeight_start_le q c) _

theorem stepWeight_stepNumber_le (q : Char) (acc : List Char) (c : Char) (part : NumberPart) :
    stepWeight q (stepNumber acc c part) ≤ [c].count q := by
  have h : stepWeight q (emit (.number acc) c) ≤ [c].count q :=
    (stepWeight_emit_le q (.number acc) c).trans_eq (Nat.zero_add _)
  cases part <;> unfold stepNumber <;> repeat' split
  all_goals first | exact h | exact Nat.zero_le _

/-- A character adds at most itself to the quotes of the tokens. -/
theorem stepWeight_step_le {q : Char} (hq : q ≠ '[') (m : Mode) (c : Char) :
    stepWeight q (step m c) ≤ m.weight q + [c].count q := by
  cases m with
  | between => exact (stepWeight_start_le q c).trans (Nat.le_add_left _ _)
  | space =>
      simp only [step]
      split
      · exact Nat.zero_le _
      · exact (stepWeight_start_le q c).trans (Nat.le_add_left _ _)
  | number part acc => exact (stepWeight_stepNumber_le q acc c part).trans (Nat.le_add_left _ _)
  | quoted delim acc =>
      simp only [step]
      split
      · rename_i hc
        rw [stepWeight, Mode.weight, Mode.weight]
        by_cases hd : delim = q <;> simp [hc, hd]; omega
      · rename_i hc
        rw [stepWeight, Mode.weight, Mode.weight, List.count_append]
        by_cases hd : delim = q
        · simp [hd, hd ▸ hc]
        · simp [hd]
  | closing delim acc =>
      simp only [step]
      split
      · rename_i hc
        rw [stepWeight, Mode.weight, Mode.weight, List.count_append]
        by_cases hd : delim = q <;> simp [hc, hd]; omega
      · exact stepWeight_emit_le q (.quoted delim acc) c
  | bracket acc =>
      simp only [step]
      split
      · rw [stepWeight, weight_cons, Token.weight, if_neg hq.symm]
        exact Nat.le_add_right _ _
      · rw [stepWeight, Mode.weight, List.count_append, weight_nil, Nat.zero_add]
        exact le_rfl
  | word acc =>
      simp only [step]
      repeat' split
      any_goals exact Nat.zero_le _
      exact stepWeight_emit_le q (.word acc) c
  | blob acc =>
      simp only [step]
      repeat' split
      all_goals exact Nat.zero_le _
  | param acc =>
      simp only [step]
      repeat' split
      any_goals exact Nat.zero_le _
      all_goals exact stepWeight_emit_le q (.param acc) c
  | pending d =>
      simp only [step]
      repeat' split
      any_goals exact Nat.zero_le _
      exact stepWeight_emit_le q (.op [d]) c
  | lineComment | openComment | blockComment | commentStar =>
      simp only [step]
      repeat' split
      all_goals exact Nat.zero_le _
  | dead => exact Nat.zero_le _

/-- The step lemma above over a text. -/
theorem stepWeight_scan_le {q : Char} (hq : q ≠ '[') (m : Mode) (text : List Char) :
    stepWeight q (scan m text) ≤ m.weight q + text.count q := by
  induction text generalizing m with
  | nil => exact (Nat.zero_add _).le
  | cons c text ih =>
      have hc := stepWeight_step_le hq m c
      have htext := ih (step m c).2
      have hcount : (c :: text).count q = [c].count q + text.count q :=
        @List.count_append _ _ q [c] text
      show weight q ((step m c).1 ++ (scan (step m c).2 text).1) +
        (scan (step m c).2 text).2.weight q
        ≤ m.weight q + (c :: text).count q
      rw [stepWeight] at hc htext
      rw [weight_append, hcount]
      omega

theorem weight_finish_le (q : Char) (m : Mode) : weight q m.finish ≤ m.weight q := by
  cases m with
  | closing delim acc => exact le_rfl
  | number part acc => cases part <;> exact Nat.zero_le _
  | param acc | pending c =>
      simp only [Mode.finish]
      split
      all_goals exact Nat.zero_le _
  | _ => exact Nat.zero_le _

theorem weight_lexFrom_le {q : Char} (hq : q ≠ '[') (m : Mode) (text : List Char) :
    weight q (lexFrom m text) ≤ m.weight q + text.count q := by
  have h := stepWeight_scan_le hq m text
  have hfinish := weight_finish_le q (scan m text).2
  rw [stepWeight] at h
  rw [lexFrom, weight_append]
  omega

/-- The tokens of a text have at most the quotes of the text. -/
theorem weight_lex_le {q : Char} (hq : q ≠ '[') (text : List Char) :
    weight q (lex text) ≤ text.count q :=
  (weight_lexFrom_le hq .between text).trans_eq (Nat.zero_add _)

/-! ## Inside of quotes -/

/-- A value as it is written between quotes. -/
def doubled (q : Char) (value : List Char) : List Char :=
  value.flatMap fun c ↦ if c = q then [q, q] else [c]

@[simp] theorem doubled_append_singleton (q c : Char) (value : List Char) :
    doubled q (value ++ [c]) = doubled q value ++ if c = q then [q, q] else [c] := by
  rw [doubled, List.flatMap_append, List.flatMap_singleton, doubled]

theorem length_doubled (q : Char) (value : List Char) :
    (doubled q value).length = value.length + value.count q := by
  induction value with
  | nil => rfl
  | cons c value ih =>
      rw [doubled, List.flatMap_cons, ← doubled, List.length_append, ih, List.length_cons,
        List.count_cons]
      by_cases hc : c = q <;> simp [hc] <;> omega

theorem count_doubled (q : Char) (value : List Char) :
    (doubled q value).count q = 2 * value.count q := by
  induction value with
  | nil => rfl
  | cons c value ih =>
      rw [doubled, List.flatMap_cons, ← doubled, List.count_append, ih, List.count_cons]
      by_cases hc : c = q <;> simp [hc]; omega

/-- What a text that ends inside of quotes has at its end. -/
def Mode.IsOpen (text : List Char) : Mode → Prop
  | quoted delim acc => ∃ a, text = a ++ delim :: doubled delim acc
  | closing delim acc => ∃ a, text = a ++ delim :: doubled delim acc ++ [delim]
  | _ => True

theorem isOpen_start (text : List Char) (c : Char) : (start c).2.IsOpen (text ++ [c]) := by
  unfold start
  split
  · trivial
  · split
    · exact ⟨text, rfl⟩
    · repeat' split
      all_goals trivial

theorem isOpen_stepNumber (text acc : List Char) (c : Char) (part : NumberPart) :
    (stepNumber acc c part).2.IsOpen (text ++ [c]) := by
  have h : (emit (.number acc) c).2.IsOpen (text ++ [c]) := isOpen_start text c
  cases part <;> unfold stepNumber <;> repeat' split
  all_goals first | exact h | trivial

/-- Each character keeps the opening quote in front of the value. -/
theorem isOpen_step {text : List Char} {m : Mode} (h : m.IsOpen text) (c : Char) :
    (step m c).2.IsOpen (text ++ [c]) := by
  have hstart := isOpen_start text c
  cases m with
  | number part acc => exact isOpen_stepNumber text acc c part
  | quoted delim acc =>
      rcases h with ⟨a, rfl⟩
      simp only [step]
      split
      · rename_i hc
        exact ⟨a, by rw [hc]⟩
      · rename_i hc
        refine ⟨a, ?_⟩
        rw [doubled_append_singleton, if_neg hc, List.append_assoc, List.cons_append]
  | closing delim acc =>
      rcases h with ⟨a, rfl⟩
      simp only [step]
      split
      · rename_i hc
        refine ⟨a, ?_⟩
        rw [hc, doubled_append_singleton, if_pos rfl]
        simp
      · exact hstart
  | between | space | word | bracket | blob | param | pending | lineComment | openComment
  | blockComment | commentStar | dead =>
      simp only [step]
      repeat' split
      all_goals first | exact hstart | trivial

theorem isOpen_scan (text : List Char) : (scan .between text).2.IsOpen text := by
  induction text using List.reverseRecOn with
  | nil => trivial
  | append_singleton text c ih =>
      rw [scan_append]
      exact isOpen_step ih c

/-- The quote that the mode is waiting for. -/
def Mode.delim? : Mode → Option Char
  | quoted delim _ | closing delim _ => some delim
  | bracket _ => some '['
  | _ => none

/-- Inside of quotes the next token is quoted in this way, or it has no end. -/
theorem exists_of_delim {m : Mode} {d : Char} (h : m.delim? = some d) (text : List Char) :
    ∃ t ts, lexFrom m text = t :: ts ∧ (t = .illegal ∨ ∃ value, t = .quoted d value) := by
  induction text generalizing m with
  | nil =>
      cases m with
      | quoted | bracket => exact ⟨_, _, rfl, .inl rfl⟩
      | closing => exact ⟨_, _, rfl, .inr ⟨_, congrArg (Token.quoted · _) (Option.some.inj h)⟩⟩
      | _ => nomatch h
  | cons c text ih =>
      rw [lexFrom_cons]
      cases m with
      | quoted delim acc =>
          simp only [step]
          split
          all_goals exact ih h
      | closing delim acc =>
          simp only [step]
          split
          · exact ih h
          · exact ⟨_, _, rfl, .inr ⟨acc, congrArg (Token.quoted · acc) (Option.some.inj h)⟩⟩
      | bracket acc =>
          simp only [step]
          split
          · exact ⟨_, _, rfl, .inr ⟨acc, congrArg (Token.quoted · acc) (Option.some.inj h)⟩⟩
          · exact ih h
      | _ => nomatch h

/-- Only inside of quotes quotes are counted. -/
theorem weight_eq_zero_of_delim {m : Mode} (h : m.delim? = none) (q : Char) : m.weight q = 0 := by
  cases m with
  | quoted | closing | bracket => nomatch h
  | _ => rfl

end CodeToolKit.SQL
