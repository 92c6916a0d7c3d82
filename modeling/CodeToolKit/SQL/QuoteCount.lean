import CodeToolKit.SQL.Quotes
import CodeToolKit.SQL.Template

/-!
# The quotes that data may have

When does a composed text have the tokens that are meant?  The text has at least the quotes
of its tokens, so the values that are meant have at most half the quotes of the values that are
written (`two_mul_meant_le`): data that is written as it is has no quote at all.

Where one value is written twice and the first place means another value, counting alone
does not decide.  Then the text has as many quotes as its tokens, none is left over, and the
second place must be where the second quoted token ends (`eq_of_repeated`).
-/

namespace CodeToolKit.SQL

open CodeToolKit.Lib

/-! ## Counting -/

/-- The token has no quotes of another kind. -/
def Token.onlyQuotes (q : Char) : Token → Bool
  | quoted delim _ => delim = q
  | illegal => false
  | _ => true

theorem Token.even_weight {q : Char} {t : Token} (h : t.onlyQuotes q) : t.weight q % 2 = 0 := by
  rcases t with _ | _ | ⟨delim, value⟩ | _ | _ | _ | _
  any_goals rfl
  rw [Token.weight, if_pos (of_decide_eq_true h)]
  omega

theorem even_weight {q : Char} {ts : List Token} (h : ∀ t ∈ ts, t.onlyQuotes q) :
    weight q ts % 2 = 0 := by
  induction ts with
  | nil => rfl
  | cons t ts ih =>
      have ht := (h t List.mem_cons_self : t.onlyQuotes q)
      have hts := ih fun t' ht' ↦ h t' (List.mem_cons_of_mem _ ht')
      have heven := t.even_weight ht
      rw [weight_cons]
      omega

namespace Piece

/-- The quotes of the piece are those of its tokens. -/
def tight (q : Char) : Piece → Bool
  | lit s => weight q (lex s) = s.count q && (lex s).all (Token.onlyQuotes q)
  | int _ => true
  | str delim _ _ => delim = q

/-- The quotes of the value that is written. -/
def written (q : Char) : Piece → ℕ
  | str _ written _ => written.count q
  | _ => 0

/-- The quotes of the value that is meant. -/
def meant (q : Char) : Piece → ℕ
  | str _ _ meant => meant.count q
  | _ => 0

theorem count_decimal {q : Char} (h : isQuote q) (z : ℤ) : (decimal z).count q = 0 := by
  rw [List.count_eq_zero]
  intro hmem
  rcases eq_or_isDigit_of_mem_decimal hmem with rfl | hdigit
  · exact absurd h (by decide)
  · exact absurd h (Bool.eq_false_iff.mp (contains_eq_false_of_isDigit hdigit (by decide)))

/-- The quotes of a piece, and those of its tokens. -/
theorem count_text {q : Char} (hq : isQuote q) {p : Piece} (h : p.tight q) :
    p.text.count q + 2 * p.meant q = weight q p.tokens + p.written q := by
  rcases p with s | z | ⟨delim, written, meant⟩
  · rw [tight, Bool.and_eq_true, decide_eq_true_iff] at h
    show s.count q + 2 * 0 = weight q (lex s) + 0
    omega
  · have hweight : weight q (tokens (.int z)) = 0 := by
      rw [tokens]
      split <;> rfl
    show (decimal z).count q + 2 * 0 = weight q (tokens (.int z)) + 0
    rw [count_decimal hq, hweight]
  · have hd : delim = q := of_decide_eq_true h
    have hcount : (text (.str delim written meant)).count q = 2 + written.count q := by
      rw [text, hd]
      simp
      omega
    have hweight : weight q (tokens (.str delim written meant)) = 2 + 2 * meant.count q := by
      rw [tokens, weight_cons, weight_nil, Token.weight, if_pos hd, Nat.add_zero]
    rw [hcount, hweight, Piece.meant, Piece.written]
    omega

theorem onlyQuotes_tokens {q : Char} {p : Piece} (h : p.tight q) :
    ∀ t ∈ p.tokens, t.onlyQuotes q := by
  rcases p with s | z | ⟨delim, written, meant⟩
  · rw [tight, Bool.and_eq_true] at h
    exact List.all_eq_true.mp h.2
  · rw [tokens]
    split <;> simp [Token.onlyQuotes]
  · intro t ht
    rw [List.mem_singleton.mp ht]
    exact h

end Piece

/-- The quotes of the values that are written. -/
def written (q : Char) (ps : List Piece) : ℕ := (ps.map (Piece.written q)).sum

/-- The quotes of the values that are meant. -/
def meant (q : Char) (ps : List Piece) : ℕ := (ps.map (Piece.meant q)).sum

theorem written_cons (q : Char) (p : Piece) (ps : List Piece) :
    written q (p :: ps) = p.written q + written q ps := rfl

theorem meant_cons (q : Char) (p : Piece) (ps : List Piece) :
    meant q (p :: ps) = p.meant q + meant q ps := rfl

theorem count_text {q : Char} (hq : isQuote q) {ps : List Piece} (h : ∀ p ∈ ps, p.tight q) :
    (text ps).count q + 2 * meant q ps = weight q (tokens ps) + written q ps := by
  induction ps with
  | nil => rfl
  | cons p ps ih =>
      have hp := Piece.count_text hq (h p List.mem_cons_self)
      have hps := ih fun p' hp' ↦ h p' (List.mem_cons_of_mem _ hp')
      rw [text_cons, tokens_cons, List.count_append, weight_append, meant_cons, written_cons]
      omega

theorem isQuote_ne_bracket {q : Char} (h : isQuote q) : q ≠ '[' := by
  rintro rfl
  exact absurd h (by decide)

/-- **A text with the tokens that are meant writes two quotes for each that is meant.** -/
theorem two_mul_meant_le {q : Char} (hq : isQuote q) {ps : List Piece}
    (htight : ∀ p ∈ ps, p.tight q) (h : lex (text ps) = tokens ps) :
    2 * meant q ps ≤ written q ps := by
  have hcount := count_text hq htight
  have hle := weight_lex_le (isQuote_ne_bracket hq) (text ps)
  rw [h] at hle
  omega

/-! ## Data that is written as it is -/

/-- The value is written as it is meant. -/
def Piece.Plain : Piece → Prop
  | str _ written meant => written = meant
  | _ => True

theorem meant_eq_written {q : Char} {ps : List Piece} (h : ∀ p ∈ ps, p.Plain) :
    meant q ps = written q ps := by
  rw [meant, written]
  congr 1
  refine List.map_congr_left ?_
  intro p hp
  have hplain := h p hp
  rcases p with s | z | ⟨delim, written, meant⟩
  · rfl
  · rfl
  · exact congrArg (List.count q) (hplain : written = meant).symm

/-- The values that are written. -/
def data (ps : List Piece) : List (List Char) :=
  ps.filterMap fun
    | .str _ written _ => some written
    | _ => none

theorem mem_data {ps : List Piece} {s : List Char} :
    s ∈ data ps ↔ ∃ delim meant, Piece.str delim s meant ∈ ps := by
  rw [data, List.mem_filterMap]
  constructor
  · rintro ⟨p, hp, hs⟩
    rcases p with _ | _ | ⟨delim, written, meant⟩
    · exact nomatch hs
    · exact nomatch hs
    · rw [← Option.some.inj hs]
      exact ⟨delim, meant, hp⟩
  · rintro ⟨delim, meant, hp⟩
    exact ⟨_, hp, rfl⟩

theorem written_eq_zero_iff {q : Char} {ps : List Piece} :
    written q ps = 0 ↔ ∀ s ∈ data ps, q ∉ s := by
  rw [written, List.sum_eq_zero_iff_forall_eq_nat, List.forall_mem_map]
  constructor
  · intro h s hs
    rcases mem_data.mp hs with ⟨delim, m, hmem⟩
    exact List.count_eq_zero.mp (h _ hmem)
  · intro h p hp
    rcases p with s | z | ⟨delim, s, m⟩
    · rfl
    · rfl
    · exact List.count_eq_zero.mpr (h s (mem_data.mpr ⟨delim, m, hp⟩))

theorem safe_of_data {q : Char} (hq : isQuote q) {ps : List Piece} (htight : ∀ p ∈ ps, p.tight q)
    (hplain : ∀ p ∈ ps, p.Plain) (h : ∀ s ∈ data ps, q ∉ s) : ∀ p ∈ ps, p.Safe := by
  intro p hp
  have hplain' := hplain p hp
  have htight' := htight p hp
  rcases p with s | z | ⟨delim, written, meant⟩
  · trivial
  · trivial
  · have hdelim : delim = q := of_decide_eq_true htight'
    subst hdelim
    exact ⟨hq, h written (mem_data.mpr ⟨delim, meant, hp⟩), hplain'⟩

/-- **Data that is written as it is stands for itself exactly if it has none of the quotes that it
is written in.** -/
theorem lex_text_iff {q : Char} (hq : isQuote q) {ps : List Piece} (hjoins : joins ps)
    (htight : ∀ p ∈ ps, p.tight q) (hplain : ∀ p ∈ ps, p.Plain) :
    lex (text ps) = tokens ps ↔ ∀ s ∈ data ps, q ∉ s := by
  constructor
  · intro h
    have hle := two_mul_meant_le hq htight h
    rw [meant_eq_written hplain] at hle
    exact written_eq_zero_iff.mp (by omega)
  · intro h
    exact lex_text hjoins (safe_of_data hq htight hplain h)

/-! ## One value at two places -/

/-- A piece that ends is a quoted token from inside of its quotes. -/
theorem lexFrom_quoted_cons {q : Char} {rest : List Char} (h : ∀ c ∈ rest.head?, c ≠ q)
    (acc : List Char) : lexFrom (.quoted q acc) (q :: rest) = .quoted q acc :: lex rest := by
  have hstep : step (.quoted q acc) q = ([], .closing q acc) := if_pos rfl
  rw [lexFrom_cons, hstep]
  rcases rest with _ | ⟨c, rest⟩
  · rfl
  · exact lexFrom_of_breaks (breaks_closing (h c rfl) acc) rest

/-- A value with a quote cannot be the end of its own writing with doubled quotes, unless there
is a quote before it. -/
theorem count_eq_zero_of_doubled {q c : Char} (hc : c ≠ q) {a b w : List Char}
    (h : a ++ q :: doubled q w = b ++ c :: q :: w) : w.count q = 0 := by
  by_contra hne
  have hsuffix : q :: w <:+ doubled q w := by
    have hw : q :: w <:+ b ++ c :: q :: w := ⟨b ++ [c], by simp⟩
    have hdoubled : doubled q w <:+ b ++ c :: q :: w := ⟨a ++ [q], by rw [← h]; simp⟩
    refine List.suffix_of_suffix_length_le hw hdoubled ?_
    rw [length_doubled, List.length_cons]
    omega
  rcases hsuffix with ⟨y, hy⟩
  -- the quotes of `doubled q w` are twice those of `w`, so `y` is nothing but quotes
  have hcount : y.count q + 1 + w.count q = 2 * w.count q := by
    rw [← count_doubled, ← hy, List.count_append, List.count_cons_self]
    omega
  have hlength : y.length + 1 + w.length = w.length + w.count q := by
    rw [← length_doubled, ← hy, List.length_append, List.length_cons]
    omega
  have hquotes : ∀ b ∈ y, q = b := List.count_eq_length.mp (by omega)
  have hfront : a ++ q :: y = b ++ [c] := by
    have hsame : (a ++ q :: y) ++ q :: w = (b ++ [c]) ++ q :: w := by
      rw [← hy] at h
      simpa using h
    exact List.append_cancel_right hsame
  have hlast : (a ++ q :: y).getLast? = some c := by rw [hfront, List.getLast?_concat]
  rw [List.getLast?_append_cons] at hlast
  rcases List.mem_cons.mp (List.mem_of_getLast? hlast) with rfl | hmem
  · exact hc rfl
  · exact hc (hquotes c hmem).symm

/-- Where no quote of the text is left over and the text up to here has an odd number of
them, the machine is inside of quotes. -/
theorem exists_quoted_of_odd {q : Char} (hq : isQuote q) {front rest : List Char}
    {ts : List Token} (h : lex (front ++ q :: rest) = ts) (honly : ∀ t ∈ ts, t.onlyQuotes q)
    (hweight : weight q ts = front.count q + 1 + rest.count q) (hodd : front.count q % 2 = 1) :
    ∃ acc, (scan .between front).2 = .quoted q acc := by
  rw [lex, lexFrom_append] at h
  have hfront := stepWeight_scan_le (isQuote_ne_bracket hq) .between front
  have hrest := weight_lexFrom_le (isQuote_ne_bracket hq) (scan .between front).2 (q :: rest)
  have hevenFront : weight q (scan .between front).1 % 2 = 0 :=
    even_weight fun t ht ↦ honly t (h ▸ List.mem_append_left _ ht)
  have hbetween : Mode.between.weight q = 0 := rfl
  rw [stepWeight, hbetween, Nat.zero_add] at hfront
  rw [List.count_cons_self] at hrest
  rw [← h, weight_append] at hweight
  have hmode : (scan .between front).2.weight q % 2 = 1 := by omega
  have honly' : ∀ t ∈ lexFrom (scan .between front).2 (q :: rest), t.onlyQuotes q :=
    fun t ht ↦ honly t (h ▸ List.mem_append_right _ ht)
  generalize (scan .between front).2 = m at hmode honly'
  rcases hdelim : m.delim? with _ | d
  · rw [weight_eq_zero_of_delim hdelim] at hmode
    exact absurd hmode (by decide)
  · rcases exists_of_delim hdelim (q :: rest) with ⟨t, ts', hlex, ht⟩
    have htonly : t.onlyQuotes q := honly' t (hlex ▸ List.mem_cons_self)
    rcases ht with rfl | ⟨value, rfl⟩
    · cases htonly
    · have hd : d = q := of_decide_eq_true htonly
      subst hd
      cases m with
      | quoted delim acc => exact ⟨acc, congrArg (Mode.quoted · acc) (Option.some.inj hdelim)⟩
      | closing delim acc =>
          rw [Mode.weight, if_pos (Option.some.inj hdelim)] at hmode
          omega
      | bracket acc => exact absurd (Option.some.inj hdelim).symm (isQuote_ne_bracket hq)
      | _ => cases hdelim

theorem written_eq_zero {q : Char} {ps : List Piece} (h : ∀ p ∈ ps, p.tight q)
    (hsafe : ∀ p ∈ ps, p.Safe) : written q ps = 0 ∧ meant q ps = 0 := by
  induction ps with
  | nil => exact ⟨rfl, rfl⟩
  | cons p ps ih =>
      have hp : p.written q = 0 ∧ p.meant q = 0 := by
        have htight := h p List.mem_cons_self
        have hs := hsafe p List.mem_cons_self
        rcases p with s | z | ⟨delim, written, meant⟩
        · exact ⟨rfl, rfl⟩
        · exact ⟨rfl, rfl⟩
        · rcases hs with ⟨-, hnot, rfl⟩
          have hcount : written.count q = 0 :=
            List.count_eq_zero.mpr (of_decide_eq_true htight ▸ hnot)
          exact ⟨hcount, hcount⟩
      have hps := ih (fun p' hp' ↦ h p' (List.mem_cons_of_mem _ hp')) fun p' hp' ↦
        hsafe p' (List.mem_cons_of_mem _ hp')
      rw [written_cons, meant_cons, hp.1, hp.2, hps.1, hps.2]
      exact ⟨rfl, rfl⟩

/-- Inside of quotes that hold the text after their opening, this text has no quote. -/
theorem not_mem_of_scan {q c : Char} (hc : c ≠ q) {front w : List Char}
    (h : (scan .between (front ++ c :: q :: w)).2 = .quoted q w) : q ∉ w := by
  have hopen := isOpen_scan (front ++ c :: q :: w)
  rw [h] at hopen
  rcases hopen with ⟨a, ha⟩
  exact List.count_eq_zero.mp (count_eq_zero_of_doubled hc ha.symm)

/-- A value without quotes stands for itself. -/
theorem eq_of_not_mem {q : Char} {pre w m : List Char} {ps : List Piece} (hq : isQuote q)
    (hnot : q ∉ w) (hjoins : joins (.lit pre :: .str q w m :: ps)) (hps : ∀ p ∈ ps, p.Safe)
    (h : lex (text (.lit pre :: .str q w m :: ps)) = tokens (.lit pre :: .str q w m :: ps)) :
    w = m := by
  have hsafe : ∀ p ∈ Piece.lit pre :: .str q w w :: ps, p.Safe := by
    simp only [List.forall_mem_cons]
    exact ⟨trivial, ⟨hq, hnot, rfl⟩, hps⟩
  have hjoins' : joins (.lit pre :: .str q w w :: ps) := by
    rcases ps with _ | ⟨p, ps⟩ <;> exact hjoins
  have hwritten : lex (text (.lit pre :: .str q w w :: ps)) =
      tokens (.lit pre :: .str q w w :: ps) := lex_text hjoins' hsafe
  have htokens : tokens (.lit pre :: .str q w m :: ps) = tokens (.lit pre :: .str q w w :: ps) :=
    h.symm.trans hwritten
  rw [tokens_cons, tokens_cons, tokens_cons, tokens_cons] at htokens
  have hcons := List.append_cancel_left htokens
  exact (Token.quoted.inj (List.cons.inj hcons).1).2.symm

section

variable {q c : Char} {pre sep w m : List Char} {tail : List Piece}

/-- Where a value is written at two places, the second one is what is being read at its end: no
quote of the text is left over. -/
theorem scan_repeated (hq : isQuote q) (hpre : q ∉ pre) (hsep : q ∉ sep) (hc : c ≠ q)
    (hjoins : joins (.lit pre :: .str q w m :: .lit (sep ++ [c]) :: .str q w w :: tail))
    (htight : ∀ p ∈ Piece.lit pre :: .str q w m :: .lit (sep ++ [c]) :: .str q w w :: tail,
      p.tight q) (htail : ∀ p ∈ tail, p.Safe) (hmeant : q ∉ m)
    (h : lex (text (.lit pre :: .str q w m :: .lit (sep ++ [c]) :: .str q w w :: tail)) =
      tokens (.lit pre :: .str q w m :: .lit (sep ++ [c]) :: .str q w w :: tail)) :
    (scan .between ((pre ++ q :: w ++ q :: sep) ++ c :: q :: w)).2 = .quoted q w := by
  have hjoinsStr := joins_of_cons (joins_of_cons (joins_of_cons hjoins))
  have htightTail : ∀ p ∈ tail, p.tight q := fun p hp ↦ htight p (by simp [hp])
  have htailLex : lex (text tail) = tokens tail := lex_text (joins_of_cons hjoinsStr) htail
  have htext : text (.lit pre :: .str q w m :: .lit (sep ++ [c]) :: .str q w w :: tail) =
      ((pre ++ q :: w ++ q :: sep) ++ c :: q :: w) ++ q :: text tail := by
    simp [text_cons, Piece.text]
  have htokens : tokens (.lit pre :: .str q w m :: .lit (sep ++ [c]) :: .str q w w :: tail) =
      (lex pre ++ .quoted q m :: lex (sep ++ [c])) ++ .quoted q w :: lex (text tail) := by
    simp [tokens_cons, Piece.tokens, htailLex]
  have hnotPre : pre.count q = 0 := List.count_eq_zero.mpr hpre
  have hnotSep : sep.count q = 0 := List.count_eq_zero.mpr hsep
  have hnotMeant : m.count q = 0 := List.count_eq_zero.mpr hmeant
  have hweightPre : weight q (lex pre) = 0 := by
    have hpreTight := htight (.lit pre) List.mem_cons_self
    rw [Piece.tight, Bool.and_eq_true, decide_eq_true_iff] at hpreTight
    omega
  have hweightSep : weight q (lex (sep ++ [c])) = 0 := by
    have hle := weight_lex_le (isQuote_ne_bracket hq) (sep ++ [c])
    rw [List.count_append, List.count_singleton, if_neg (by simpa using hc)] at hle
    omega
  have hweightTail : weight q (lex (text tail)) = (text tail).count q := by
    have hcount := count_text hq htightTail
    rw [(written_eq_zero htightTail htail).1, (written_eq_zero htightTail htail).2] at hcount
    rw [htailLex]
    omega
  have hfront : ((pre ++ q :: w ++ q :: sep) ++ c :: q :: w).count q = 3 + 2 * w.count q := by
    simp [hnotPre, hnotSep, hc]
    omega
  rw [htext, htokens] at h
  have honly : ∀ t ∈ (lex pre ++ .quoted q m :: lex (sep ++ [c])) ++
      .quoted q w :: lex (text tail), t.onlyQuotes q := by
    rw [← htokens]
    intro t ht
    rcases List.mem_flatMap.mp ht with ⟨p, hp, htp⟩
    exact Piece.onlyQuotes_tokens (htight p hp) t htp
  have hbreaks : ∀ c ∈ (text tail).head?, c ≠ q :=
    fun c hc ↦ of_decide_eq_true (breaks_of_joins hjoinsStr c hc)
  rcases exists_quoted_of_odd hq h honly (by
    rw [weight_append, weight_append, weight_cons, weight_cons, Token.weight, Token.weight,
      if_pos rfl, if_pos rfl, hweightPre, hweightSep, hweightTail, hfront, hnotMeant]
    omega) (by omega) with ⟨acc, hacc⟩
  rw [lex, lexFrom_append, hacc, lexFrom_quoted_cons hbreaks] at h
  have hcons := (List.append_inj' h rfl).2
  rw [hacc, (Token.quoted.inj (List.cons.inj hcons).1).2]

/-- **A value that is written at two places stands at the first one for what is meant there
only if it is the same value, without quotes.** -/
theorem eq_of_repeated (hq : isQuote q) (hpre : q ∉ pre) (hsep : q ∉ sep) (hc : c ≠ q)
    (hjoins : joins (.lit pre :: .str q w m :: .lit (sep ++ [c]) :: .str q w w :: tail))
    (htight : ∀ p ∈ Piece.lit pre :: .str q w m :: .lit (sep ++ [c]) :: .str q w w :: tail,
      p.tight q) (htail : ∀ p ∈ tail, p.Safe) (hmeant : q ∉ m)
    (h : lex (text (.lit pre :: .str q w m :: .lit (sep ++ [c]) :: .str q w w :: tail)) =
      tokens (.lit pre :: .str q w m :: .lit (sep ++ [c]) :: .str q w w :: tail)) :
    w = m ∧ q ∉ w := by
  have hnot : q ∉ w :=
    not_mem_of_scan hc (scan_repeated hq hpre hsep hc hjoins htight htail hmeant h)
  have hrest : ∀ p ∈ Piece.lit (sep ++ [c]) :: .str q w w :: tail, p.Safe := by
    simp only [List.forall_mem_cons]
    exact ⟨trivial, ⟨hq, hnot, rfl⟩, htail⟩
  exact ⟨eq_of_not_mem hq hnot hjoins hrest h, hnot⟩

end

end CodeToolKit.SQL
