import Mathlib.Data.List.Basic

/-!
# The tokens of an SQL text

SQLite's tokenizer as a machine that reads one character at a time: `step` says which
tokens a character completes and what is read next.  White space and comments separate
tokens.  A quoted token runs from a quote to the next one of the same kind that is not
written twice, and its value has each pair of quotes once.  The first illegal token ends
the text: SQLite compiles nothing of such a statement.

A character stands for a byte; the bytes from `0x80` on belong to identifiers.

The machine makes the tokens of a concatenation computable from its parts
(`scan_append`).
-/

namespace CodeToolKit.SQL

/-- A token that is not white space. -/
inductive Token where
  /-- A keyword or an identifier without quotes. -/
  | word (text : List Char)
  | number (text : List Char)
  /-- A token between quotes; `[` stands for square brackets. -/
  | quoted (delim : Char) (value : List Char)
  | blob (digits : List Char)
  /-- A host parameter; the array form of Tcl is left out. -/
  | param (text : List Char)
  | op (text : List Char)
  | illegal
deriving DecidableEq, Repr

/-- The part of a number that is being read. -/
inductive NumberPart where
  | int | frac | expMark | expSign | exp
deriving DecidableEq, Repr

/-- What is being read. -/
inductive Mode where
  | between
  | space
  | word (acc : List Char)
  | number (part : NumberPart) (acc : List Char)
  /-- Inside of quotes. -/
  | quoted (delim : Char) (acc : List Char)
  /-- After a quote that ends the token unless it is followed by another one. -/
  | closing (delim : Char) (acc : List Char)
  | bracket (acc : List Char)
  | blob (acc : List Char)
  | param (acc : List Char)
  /-- After a character that may be the first of two. -/
  | pending (c : Char)
  | lineComment
  /-- Right after the opening of a block comment. -/
  | openComment
  | blockComment
  | commentStar
  /-- After an illegal token. -/
  | dead
deriving DecidableEq, Repr

/-! ## The machine -/

/-- The white space that can follow any token. -/
def isSpace (c : Char) : Bool := [' ', '\t', '\n', '\x0c', '\r'].contains c

/-- The characters of identifiers. -/
def isIdChar (c : Char) : Bool :=
  ('a' ≤ c && c ≤ 'z') || ('A' ≤ c && c ≤ 'Z') || c.isDigit || c = '_' || c = '$' || 0x80 ≤ c.toNat

/-- The three kinds of quotes. -/
def isQuote (c : Char) : Bool := ['\'', '"', '\x60'].contains c

/-- The first character of a token. -/
def start (c : Char) : List Token × Mode :=
  if isSpace c then ([], .space)
  else if isQuote c then ([], .quoted c [])
  else if c = '[' then ([], .bracket [])
  else if c.isDigit then ([], .number .int [c])
  else if ['?', '@', ':', '#', '$'].contains c then ([], .param [c])
  else if isIdChar c then ([], .word [c])
  else if ['(', ')', ',', ';', '+', '*', '%', '&', '~'].contains c then ([.op [c]], .between)
  else if ['-', '/', '=', '<', '>', '!', '|', '.'].contains c then ([], .pending c)
  else ([.illegal], .dead)

/-- The token before `c` is complete. -/
def emit (t : Token) (c : Char) : List Token × Mode := (t :: (start c).1, (start c).2)

/-- The two characters of an operator. -/
def isOperator (c d : Char) : Bool :=
  [('=', '='), ('<', '='), ('<', '>'), ('<', '<'), ('>', '='), ('>', '>'), ('!', '='),
    ('|', '|')].contains (c, d)

/-- A character in a number. -/
def stepNumber (acc : List Char) (c : Char) : NumberPart → List Token × Mode
  | .int =>
      if c.isDigit then ([], .number .int (acc ++ [c]))
      else if c = '.' then ([], .number .frac (acc ++ [c]))
      else if c = 'e' || c = 'E' then ([], .number .expMark (acc ++ [c]))
      else if isIdChar c then ([.illegal], .dead)
      else emit (.number acc) c
  | .frac =>
      if c.isDigit then ([], .number .frac (acc ++ [c]))
      else if c = 'e' || c = 'E' then ([], .number .expMark (acc ++ [c]))
      else if isIdChar c then ([.illegal], .dead)
      else emit (.number acc) c
  | .expMark =>
      if c.isDigit then ([], .number .exp (acc ++ [c]))
      else if c = '+' || c = '-' then ([], .number .expSign (acc ++ [c]))
      else ([.illegal], .dead)
  | .expSign => if c.isDigit then ([], .number .exp (acc ++ [c])) else ([.illegal], .dead)
  | .exp =>
      if c.isDigit then ([], .number .exp (acc ++ [c]))
      else if isIdChar c then ([.illegal], .dead)
      else emit (.number acc) c

/-- The next character: the tokens it completes, and what is read then. -/
def step : Mode → Char → List Token × Mode
  | .between, c => start c
  | .space, c => if c = '\x0b' then ([], .space) else start c
  | .word acc, c =>
      if isIdChar c then ([], .word (acc ++ [c]))
      else if (acc = ['x'] || acc = ['X']) && c = '\'' then ([], .blob [])
      else emit (.word acc) c
  | .number part acc, c => stepNumber acc c part
  | .quoted delim acc, c =>
      if c = delim then ([], .closing delim acc) else ([], .quoted delim (acc ++ [c]))
  | .closing delim acc, c =>
      if c = delim then ([], .quoted delim (acc ++ [c])) else emit (.quoted delim acc) c
  | .bracket acc, c =>
      if c = ']' then ([.quoted '[' acc], .between) else ([], .bracket (acc ++ [c]))
  | .blob acc, c =>
      if c = '\'' then
        if acc.length % 2 = 0 && acc.all fun d ↦ "0123456789abcdefABCDEF".toList.contains d then
          ([.blob acc], .between)
        else ([.illegal], .dead)
      else ([], .blob (acc ++ [c]))
  | .param acc, c =>
      if if acc = ['?'] then c.isDigit else isIdChar c then ([], .param (acc ++ [c]))
      else if acc.length = 1 && acc ≠ ['?'] then ([.illegal], .dead)
      else emit (.param acc) c
  | .pending d, c =>
      if d = '-' && c = '-' then ([], .lineComment)
      else if d = '/' && c = '*' then ([], .openComment)
      else if isOperator d c then ([.op [d, c]], .between)
      else if d = '.' && c.isDigit then ([], .number .frac [d, c])
      else if d = '!' then ([.illegal], .dead)
      else emit (.op [d]) c
  | .lineComment, c => ([], if c = '\n' then .between else .lineComment)
  | .openComment, c => ([], if c = '*' then .commentStar else .blockComment)
  | .blockComment, c => ([], if c = '*' then .commentStar else .blockComment)
  | .commentStar, c =>
      ([], if c = '/' then .between else if c = '*' then .commentStar else .blockComment)
  | .dead, _ => ([], .dead)

/-- The tokens that the end of the text completes. -/
def Mode.finish : Mode → List Token
  | between | space | lineComment | blockComment | commentStar | dead => []
  | word acc => [.word acc]
  | number .expMark _ | number .expSign _ => [.illegal]
  | number _ acc => [.number acc]
  | quoted _ _ | bracket _ | blob _ => [.illegal]
  | closing delim acc => [.quoted delim acc]
  | param acc => if acc.length = 1 && acc ≠ ['?'] then [.illegal] else [.param acc]
  | pending c => if c = '!' then [.illegal] else [.op [c]]
  | openComment => [.op ['/'], .op ['*']]

/-- Read a text. -/
def scan : Mode → List Char → List Token × Mode
  | m, [] => ([], m)
  | m, c :: cs => ((step m c).1 ++ (scan (step m c).2 cs).1, (scan (step m c).2 cs).2)

/-- The tokens of a text that begins in a mode. -/
def lexFrom (m : Mode) (text : List Char) : List Token := (scan m text).1 ++ (scan m text).2.finish

/-- The tokens of a text. -/
def lex (text : List Char) : List Token := lexFrom .between text

/-! ## Concatenation -/

theorem scan_singleton (m : Mode) (c : Char) : scan m [c] = step m c := by
  rw [scan, scan, List.append_nil]

theorem scan_append (m : Mode) (a b : List Char) :
    scan m (a ++ b) = ((scan m a).1 ++ (scan (scan m a).2 b).1, (scan (scan m a).2 b).2) := by
  induction a generalizing m with
  | nil => rfl
  | cons c a ih =>
      rw [List.cons_append, scan, ih, scan]
      dsimp only
      rw [List.append_assoc]

theorem lexFrom_append (m : Mode) (a b : List Char) :
    lexFrom m (a ++ b) = (scan m a).1 ++ lexFrom (scan m a).2 b := by
  rw [lexFrom, scan_append, lexFrom, List.append_assoc]

theorem lexFrom_cons (m : Mode) (c : Char) (cs : List Char) :
    lexFrom m (c :: cs) = (step m c).1 ++ lexFrom (step m c).2 cs :=
  lexFrom_append m [c] cs |>.trans (by rw [scan_singleton])

/-- The character ends the token that is being read. -/
def Mode.breaks (m : Mode) (c : Char) : Bool := step m c = (m.finish ++ (start c).1, (start c).2)

theorem scan_of_breaks {m : Mode} {c : Char} (h : m.breaks c) (cs : List Char) :
    scan m (c :: cs) = (m.finish ++ (scan .between (c :: cs)).1, (scan .between (c :: cs)).2) := by
  rw [scan, of_decide_eq_true h, List.append_assoc]
  rfl

/-- From a character that ends the token, the text is read as from its own beginning. -/
theorem lexFrom_of_breaks {m : Mode} {c : Char} (h : m.breaks c) (cs : List Char) :
    lexFrom m (c :: cs) = m.finish ++ lex (c :: cs) := by
  rw [lexFrom, scan_of_breaks h, List.append_assoc]
  rfl

/-! ## Numbers and quoted tokens -/

/-- Digits are read to their end. -/
theorem scan_digits {digits : List Char} (h : ∀ c ∈ digits, c.isDigit) (acc : List Char) :
    scan (.number .int acc) digits = ([], .number .int (acc ++ digits)) := by
  induction digits generalizing acc with
  | nil => rw [scan, List.append_nil]
  | cons c digits ih =>
      have hc : step (.number .int acc) c = ([], .number .int (acc ++ [c])) :=
        if_pos (h c List.mem_cons_self)
      rw [scan, hc, ih fun d hd ↦ h d (List.mem_cons_of_mem _ hd), List.append_assoc]
      rfl

/-- A text without the quote is read up to its end inside of the quotes. -/
theorem scan_quoted {delim : Char} {s : List Char} (h : delim ∉ s) (acc : List Char) :
    scan (.quoted delim acc) s = ([], .quoted delim (acc ++ s)) := by
  induction s generalizing acc with
  | nil => rw [scan, List.append_nil]
  | cons c s ih =>
      have hc : step (.quoted delim acc) c = ([], .quoted delim (acc ++ [c])) :=
        if_neg fun he : c = delim ↦ h (List.mem_cons.mpr (Or.inl he.symm))
      rw [scan, hc, ih fun hd ↦ h (List.mem_cons_of_mem _ hd), List.append_assoc]
      rfl

end CodeToolKit.SQL
