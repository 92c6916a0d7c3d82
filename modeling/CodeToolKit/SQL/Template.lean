import CodeToolKit.Lib.Printf
import CodeToolKit.SQL.Token

/-!
# Statements with data in them

A statement that a program composes is a list of pieces: parts of its format, numbers, and
data between quotes.  Each piece stands for tokens of its own (`tokens`), and a composed text
has these tokens when no data holds the quote it is written in (`lex_text`).
-/

namespace CodeToolKit.SQL

open CodeToolKit.Lib

/-- A piece of a statement. -/
inductive Piece where
  /-- A part of the format. -/
  | lit (text : List Char)
  /-- A number that `%d` writes. -/
  | int (value : ℤ)
  /-- Data between quotes: the value that is written, and the value that is meant. -/
  | str (delim : Char) (written meant : List Char)
deriving DecidableEq

namespace Piece

/-- What is written. -/
def text : Piece → List Char
  | lit s => s
  | int z => decimal z
  | str delim written _ => delim :: written ++ [delim]

/-- What is meant. -/
def tokens : Piece → List Token
  | lit s => lex s
  | int z => (if z < 0 then [.op ['-']] else []) ++ [.number (Nat.toDigits 10 z.natAbs)]
  | str delim _ meant => [.quoted delim meant]

/-- The value stands between its quotes as it is meant. -/
def Safe : Piece → Prop
  | str delim written meant => isQuote delim ∧ delim ∉ written ∧ written = meant
  | _ => True

/-- The character ends the piece. -/
def breaks : Piece → Char → Bool
  | lit s, c => (scan .between s).2.breaks c
  | int _, c => !isIdChar c && c ≠ '.'
  | str delim _ _, c => c ≠ delim

/-- The characters that the piece can begin with. -/
def firsts : Piece → List Char
  | lit s => s.take 1
  | int _ => "-0123456789".toList
  | str delim _ _ => [delim]

/-- The piece without its data. -/
def shape : Piece → Piece
  | str delim _ _ => str delim [] []
  | p => p

end Piece

/-- What is written. -/
def text (ps : List Piece) : List Char := ps.flatMap Piece.text

/-- What is written in front of a text. -/
def Piece.write : Piece → List Char → List Char
  | .lit s, rest => s ++ rest
  | .int z, rest => decimal z ++ rest
  | .str delim written _, rest => delim :: (written ++ delim :: rest)

/-- The text as a formatted output composes it. -/
theorem text_eq_foldr (ps : List Piece) : text ps = ps.foldr Piece.write [] := by
  induction ps with
  | nil => rfl
  | cons p ps ih =>
      rw [text, List.flatMap_cons, ← text, ih, List.foldr_cons]
      rcases p with s | z | ⟨delim, written, meant⟩
      · rfl
      · rfl
      · exact List.append_assoc (delim :: written) [delim] _

/-- What is meant. -/
def tokens (ps : List Piece) : List Token := ps.flatMap Piece.tokens

/-- No piece runs into the next one. -/
def joins : List Piece → Bool
  | p :: p' :: ps => !p'.firsts.isEmpty && p'.firsts.all p.breaks && joins (p' :: ps)
  | _ => true

/-! ## The tokens of a text -/

theorem contains_eq_false_of_isDigit {c : Char} (h : c.isDigit) {l : List Char}
    (hl : l.all fun d ↦ !d.isDigit) : l.contains c = false := by
  rw [List.contains_eq_mem, decide_eq_false_iff_not]
  intro hc
  have hdigit := List.all_eq_true.mp hl c hc
  rw [h] at hdigit
  exact absurd hdigit (by decide)

theorem start_digit {c : Char} (h : c.isDigit) : start c = ([], .number .int [c]) := by
  have hspace : ¬isSpace c := Bool.eq_false_iff.mp (contains_eq_false_of_isDigit h (by decide))
  have hquote : ¬isQuote c := Bool.eq_false_iff.mp (contains_eq_false_of_isDigit h (by decide))
  have hbracket : c ≠ '[' := by
    rintro rfl
    exact absurd h (by decide)
  rw [start, if_neg hspace, if_neg hquote, if_neg hbracket, if_pos h]

theorem start_quote {c : Char} (h : isQuote c) : start c = ([], .quoted c []) := by
  have hspace : ¬isSpace c := by
    rw [isQuote, List.contains_iff_mem] at h
    intro hc
    simp only [List.mem_cons, List.not_mem_nil, or_false] at h
    rcases h with rfl | rfl | rfl <;> exact absurd hc (by decide)
  rw [start, if_neg hspace, if_pos h]

theorem mem_digits {c : Char} (h : c.isDigit) : c ∈ "0123456789".toList := by
  have hofNat : ∀ n < 10, Char.ofNat (48 + n) ∈ "0123456789".toList := by decide
  rw [Char.isDigit, Bool.and_eq_true, decide_eq_true_iff, decide_eq_true_iff] at h
  have hlo : 48 ≤ c.toNat := h.1
  have hhi : c.toNat ≤ 57 := h.2
  have hc := hofNat (c.toNat - 48) (by omega)
  rwa [Nat.add_sub_cancel' hlo, Char.ofNat_toNat] at hc

/-- The digits of a number are one token. -/
theorem scan_digits_between {digits : List Char} (hne : digits ≠ [])
    (h : ∀ c ∈ digits, c.isDigit) : scan .between digits = ([], .number .int digits) := by
  rcases List.exists_cons_of_ne_nil hne with ⟨d, ds, rfl⟩
  have hd : step .between d = ([], .number .int [d]) := start_digit (h d List.mem_cons_self)
  rw [scan, hd, scan_digits fun c hc ↦ h c (List.mem_cons_of_mem _ hc)]
  rfl

theorem breaks_minus {d : Char} (h : d.isDigit) : (Mode.pending '-').breaks d := by
  have hd : d ≠ '-' := by
    rintro rfl
    exact absurd h (by decide)
  simp [Mode.breaks, step, isOperator, hd, emit, Mode.finish]

theorem scan_decimal (z : ℤ) :
    scan .between (decimal z) =
      (if z < 0 then [.op ['-']] else [], .number .int (Nat.toDigits 10 z.natAbs)) := by
  have hne : Nat.toDigits 10 z.natAbs ≠ [] := Nat.toDigits_ne_nil
  have hdigits : ∀ c ∈ Nat.toDigits 10 z.natAbs, c.isDigit :=
    fun c ↦ Nat.isDigit_of_mem_toDigits (by decide) (by decide)
  rw [decimal]
  split
  · rcases List.exists_cons_of_ne_nil hne with ⟨d, ds, hds⟩
    have hbreaks : (Mode.pending '-').breaks d :=
      breaks_minus (hdigits d (hds ▸ List.mem_cons_self))
    have hminus : scan .between ['-'] = ([], .pending '-') := by decide
    rw [← List.singleton_append, scan_append, hminus]
    dsimp only
    rw [hds, scan_of_breaks hbreaks, ← hds, scan_digits_between hne hdigits]
    rfl
  · exact scan_digits_between hne hdigits

/-- A number ends before a character that is neither of an identifier nor a period. -/
theorem breaks_number {z : ℤ} {c : Char} (h : (Piece.int z).breaks c) (digits : List Char) :
    (Mode.number .int digits).breaks c := by
  rw [Piece.breaks, Bool.and_eq_true, Bool.not_eq_true', decide_eq_true_iff] at h
  rcases h with ⟨hid, hperiod⟩
  have hdigit : ¬c.isDigit := by
    intro hc
    rw [isIdChar, hc] at hid
    simp at hid
  have hexp : ¬(c = 'e' || c = 'E') := by
    rw [Bool.or_eq_true, decide_eq_true_iff, decide_eq_true_iff]
    rintro (rfl | rfl) <;> exact absurd hid (by decide)
  have hstep : step (.number .int digits) c = emit (.number digits) c := by
    rw [step, stepNumber, if_neg hdigit, if_neg hperiod, if_neg hexp,
      if_neg (Bool.eq_false_iff.mp hid)]
  exact decide_eq_true hstep

theorem breaks_closing {delim c : Char} (h : c ≠ delim) (value : List Char) :
    (Mode.closing delim value).breaks c := decide_eq_true (if_neg h)

/-- The machine at the end of a piece. -/
theorem scan_piece {p : Piece} (h : p.Safe) :
    ∃ ts m, scan .between p.text = (ts, m) ∧ ts ++ m.finish = p.tokens ∧
      ∀ c, p.breaks c → m.breaks c := by
  rcases p with s | z | ⟨delim, written, meant⟩
  · exact ⟨_, _, rfl, rfl, fun _ hc ↦ hc⟩
  · exact ⟨_, _, scan_decimal z, rfl, fun _ hc ↦ breaks_number hc _⟩
  · rcases h with ⟨hquote, hnot, rfl⟩
    refine ⟨[], .closing delim written, ?_, rfl, ?_⟩
    · have hstart : scan .between [delim] = ([], .quoted delim []) :=
        (scan_singleton _ _).trans (start_quote hquote)
      have hend : scan (.quoted delim written) [delim] = ([], .closing delim written) :=
        (scan_singleton _ _).trans (if_pos rfl)
      show scan .between ([delim] ++ written ++ [delim]) = _
      rw [scan_append, scan_append, hstart, scan_quoted hnot]
      dsimp only
      rw [List.nil_append, List.nil_append, List.nil_append, hend]
    · intro c hc
      exact breaks_closing (of_decide_eq_true hc) _

theorem lex_piece_append {p : Piece} (h : p.Safe) {rest : List Char}
    (hrest : ∀ c ∈ rest.head?, p.breaks c) : lex (p.text ++ rest) = p.tokens ++ lex rest := by
  rcases scan_piece h with ⟨ts, m, hscan, htokens, hbreaks⟩
  rw [lex, lexFrom_append, hscan, ← htokens, List.append_assoc]
  congr 1
  rcases rest with _ | ⟨c, rest⟩
  · exact (List.append_nil _).symm
  · exact lexFrom_of_breaks (hbreaks c (hrest c rfl)) rest

theorem head_text_mem_firsts {p : Piece} (h : p.firsts ≠ []) (rest : List Char) :
    ∃ c ∈ p.firsts, (p.text ++ rest).head? = some c := by
  rcases p with s | z | ⟨delim, written, meant⟩
  · rcases s with _ | ⟨c, s⟩
    · exact absurd rfl h
    · exact ⟨c, List.mem_cons_self, rfl⟩
  · rcases List.exists_cons_of_ne_nil (decimal_ne_nil z) with ⟨c, cs, hc⟩
    refine ⟨c, ?_, by rw [Piece.text, hc]; rfl⟩
    rcases eq_or_isDigit_of_mem_decimal (hc ▸ List.mem_cons_self : c ∈ decimal z) with rfl | hdigit
    · exact List.mem_cons_self
    · exact List.mem_cons_of_mem _ (mem_digits hdigit)
  · exact ⟨delim, List.mem_cons_self, rfl⟩

theorem text_cons (p : Piece) (ps : List Piece) : text (p :: ps) = p.text ++ text ps :=
  List.flatMap_cons

theorem tokens_cons (p : Piece) (ps : List Piece) : tokens (p :: ps) = p.tokens ++ tokens ps :=
  List.flatMap_cons

theorem text_append (ps ps' : List Piece) : text (ps ++ ps') = text ps ++ text ps' :=
  List.flatMap_append

/-- Where no piece runs into the next one, the rest of the text ends the piece. -/
theorem breaks_of_joins {p : Piece} {ps : List Piece} (h : joins (p :: ps)) :
    ∀ c ∈ (text ps).head?, p.breaks c := by
  intro c hc
  rcases ps with _ | ⟨p', ps⟩
  · exact nomatch hc
  · rw [joins, Bool.and_eq_true, Bool.and_eq_true] at h
    rcases h with ⟨⟨hne, hbreaks⟩, -⟩
    have hne' : p'.firsts ≠ [] := by
      intro hnil
      rw [hnil] at hne
      exact absurd hne (by decide)
    rcases head_text_mem_firsts hne' (text ps) with ⟨c', hc', hhead⟩
    rw [text_cons, hhead] at hc
    rw [← Option.some.inj hc]
    exact List.all_eq_true.mp hbreaks c' hc'

theorem joins_of_cons {p : Piece} {ps : List Piece} (h : joins (p :: ps)) : joins ps := by
  rcases ps with _ | ⟨p', ps⟩
  · rfl
  · rw [joins, Bool.and_eq_true] at h
    exact h.2

/-- **A statement without quotes in its data has the tokens that are meant.** -/
theorem lex_text {ps : List Piece} (hjoins : joins ps) (h : ∀ p ∈ ps, p.Safe) :
    lex (text ps) = tokens ps := by
  induction ps with
  | nil => rfl
  | cons p ps ih =>
      rw [text_cons, tokens_cons,
        lex_piece_append (h p List.mem_cons_self) (breaks_of_joins hjoins),
        ih (joins_of_cons hjoins) fun p' hp' ↦ h p' (List.mem_cons_of_mem _ hp')]

/-! ## Tokens without their data -/

/-- The token without what stands between quotes. -/
def Token.shape : Token → Token
  | quoted delim _ => quoted delim []
  | t => t

/-- Statements that differ in their data only have the same tokens up to data. -/
theorem map_shape_tokens {ps ps' : List Piece} (h : ps.map Piece.shape = ps'.map Piece.shape) :
    (tokens ps).map Token.shape = (tokens ps').map Token.shape := by
  have hshape : ∀ ps : List Piece,
      (tokens ps).map Token.shape = (tokens (ps.map Piece.shape)).map Token.shape := by
    intro ps
    induction ps with
    | nil => rfl
    | cons p ps ih =>
        rw [List.map_cons, tokens_cons, tokens_cons, List.map_append, List.map_append, ih]
        rcases p with s | z | ⟨delim, written, meant⟩ <;> rfl
  rw [hshape, h, ← hshape]

end CodeToolKit.SQL
