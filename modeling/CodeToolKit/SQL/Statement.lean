import CodeToolKit.SQL.Template

/-!
# SQL statements

The statements that are sent to the database, and the tokens they are read from.  Statements of
another form are outside of the model: `parse` has no result for them.

A number with a sign is one literal.  `parse` only looks at where tokens stand, so that it can be
run on a statement whose numbers and strings are not known.
-/

namespace CodeToolKit.SQL

open CodeToolKit.Lib

/-- A value as it is written. -/
inductive Literal where
  | null
  /-- The digits of a number, with its sign. -/
  | number (text : List Char)
  | string (value : List Char)
deriving DecidableEq, Repr

/-- What a column makes of the values that are stored in it. -/
inductive Affinity where
  | integer | text
deriving DecidableEq, Repr

/-- A column after the key. -/
structure Column where
  name : List Char
  affinity : Affinity
deriving DecidableEq, Repr

/-- A column and the literal that it is set to, or compared with. -/
abbrev Equation := List Char × Literal

/-- A statement. -/
inductive Statement where
  /-- A table whose first column is an `INTEGER PRIMARY KEY AUTOINCREMENT`. -/
  | createTable (name key : List Char) (columns : List Column)
  | dropTable (name : List Char)
  | insert (name : List Char) (values : List Literal)
  | update (name : List Char) (sets conditions : List Equation)
  | delete (name : List Char) (conditions : List Equation)
  /-- `SELECT *`. -/
  | select (name : List Char) (conditions : List Equation)
deriving DecidableEq, Repr

/-! ## The grammar -/

/-- Names and keywords do not distinguish letter cases. -/
def lowered (s : List Char) : List Char := s.map Char.toLower

/-- The token is a keyword. -/
def isWord (keyword : String) : Token → Bool
  | .word w => lowered w = keyword.toList
  | _ => false

/-- The keywords of the grammar that cannot be names. -/
def reserved : List String :=
  ["and", "autoincrement", "create", "delete", "drop", "from", "insert", "into", "null", "primary",
    "select", "set", "table", "update", "values", "where"]

/-- The name of a table. -/
def name : Token → Option (List Char)
  | .word w => if reserved.any fun k ↦ k.toList = lowered w then none else some (lowered w)
  | .quoted _ s => some (lowered s)
  | _ => none

/-- The name of a column. -/
def columnName : Token → Option (List Char)
  | .word w => name (.word w)
  | _ => none

/-- A minus sign belongs to the number after it. -/
def joinSign : List Token → List Token
  | .op ['-'] :: .number s :: ts => .number ('-' :: s) :: joinSign ts
  | t :: ts => t :: joinSign ts
  | [] => []

/-- A value. -/
def literal : Token → Option Literal
  | .number s => some (.number s)
  | .quoted delim s => if delim = '\'' then some (.string s) else none
  | t => if isWord "null" t then some .null else none

/-- A value of an insertion.  No column has a name there, so double quotes are those of a string,
too. -/
def insertLiteral : Token → Option Literal
  | .quoted delim s => if delim = '\'' || delim = '"' then some (.string s) else none
  | t => literal t

/-- The values of an insertion up to the closing parenthesis. -/
def literals : List Token → Option (List Literal × List Token)
  | t :: .op [','] :: ts => do
      let l ← insertLiteral t
      let (ls, rest) ← literals ts
      some (l :: ls, rest)
  | t :: .op [')'] :: ts => do
      let l ← insertLiteral t
      some ([l], ts)
  | _ => none

/-- Equations with a token between them. -/
def equations (between : Token → Bool) : List Token → Option (List Equation × List Token)
  | c :: .op ['='] :: t :: s :: ts => do
      let c ← columnName c
      let l ← literal t
      if between s then
        let (es, rest) ← equations between ts
        some ((c, l) :: es, rest)
      else some ([(c, l)], s :: ts)
  | [c, .op ['='], t] => do
      let c ← columnName c
      let l ← literal t
      some ([(c, l)], [])
  | _ => none

/-- The end of a statement. -/
def isEnd : List Token → Bool
  | [] | [.op [';']] => true
  | _ => false

/-- The conditions at the end of a statement. -/
def conditions : List Token → Option (List Equation)
  | t :: ts =>
      if isWord "where" t then do
        let (es, rest) ← equations (isWord "and") ts
        if isEnd rest then some es else none
      else if isEnd (t :: ts) then some [] else none
  | [] => some []

/-- The affinity of a type. -/
def affinity (t : Token) : Option Affinity :=
  if isWord "integer" t then some .integer else if isWord "varchar" t then some .text else none

/-- The columns after the key, up to the closing parenthesis. -/
def columns : List Token → Option (List Column × List Token)
  | c :: t :: .op [','] :: ts => do
      let name ← columnName c
      let affinity ← affinity t
      let (cs, rest) ← columns ts
      some (⟨name, affinity⟩ :: cs, rest)
  | c :: t :: .op ['('] :: .number _ :: .op [')'] :: .op [','] :: ts => do
      let name ← columnName c
      let affinity ← affinity t
      let (cs, rest) ← columns ts
      some (⟨name, affinity⟩ :: cs, rest)
  | c :: t :: .op [')'] :: ts => do
      let name ← columnName c
      let affinity ← affinity t
      some ([⟨name, affinity⟩], ts)
  | c :: t :: .op ['('] :: .number _ :: .op [')'] :: .op [')'] :: ts => do
      let name ← columnName c
      let affinity ← affinity t
      some ([⟨name, affinity⟩], ts)
  | _ => none

/-- After `CREATE`. -/
def createStatement : List Token → Option Statement
  | table :: n :: .op ['('] :: k :: type :: primary :: key :: auto :: .op [','] :: ts => do
      let n ← name n
      let k ← columnName k
      let (cs, rest) ← columns ts
      if isWord "table" table && isWord "integer" type && isWord "primary" primary &&
          isWord "key" key && isWord "autoincrement" auto && isEnd rest then
        some (.createTable n k cs)
      else none
  | _ => none

/-- After `DROP`. -/
def dropStatement : List Token → Option Statement
  | table :: n :: rest => do
      let n ← name n
      if isWord "table" table && isEnd rest then some (.dropTable n) else none
  | _ => none

/-- After `INSERT`. -/
def insertStatement : List Token → Option Statement
  | into :: n :: values :: .op ['('] :: ts => do
      let n ← name n
      let (ls, rest) ← literals ts
      if isWord "into" into && isWord "values" values && isEnd rest then some (.insert n ls)
      else none
  | _ => none

/-- After `UPDATE`. -/
def updateStatement : List Token → Option Statement
  | n :: set :: ts => do
      let n ← name n
      let (sets, rest) ← equations (· = .op [',']) ts
      let es ← conditions rest
      if isWord "set" set then some (.update n sets es) else none
  | _ => none

/-- After `DELETE`. -/
def deleteStatement : List Token → Option Statement
  | w :: n :: ts => do
      let n ← name n
      let es ← conditions ts
      if isWord "from" w then some (.delete n es) else none
  | _ => none

/-- After `SELECT`. -/
def selectStatement : List Token → Option Statement
  | .op ['*'] :: w :: n :: ts => do
      let n ← name n
      let es ← conditions ts
      if isWord "from" w then some (.select n es) else none
  | _ => none

/-- A statement by its first keyword. -/
def statement : List Token → Option Statement
  | t :: ts =>
      if isWord "create" t then createStatement ts
      else if isWord "drop" t then dropStatement ts
      else if isWord "insert" t then insertStatement ts
      else if isWord "update" t then updateStatement ts
      else if isWord "delete" t then deleteStatement ts
      else if isWord "select" t then selectStatement ts
      else none
  | [] => none

/-- The statement of a text. -/
def parse (sql : List Char) : Option Statement := statement (joinSign (lex sql))

/-! ## Lists of equations -/

theorem equations_singleton (between : Token → Bool) {c t : Token} {name : List Char} {l : Literal}
    (hc : columnName c = some name) (ht : literal t = some l) :
    equations between [c, .op ['='], t] = some ([(name, l)], []) := by
  rw [equations, hc, ht]
  rfl

theorem equations_cons {between : Token → Bool} {c t s : Token} {name : List Char} {l : Literal}
    {es : List Equation} {ts rest : List Token} (hc : columnName c = some name)
    (ht : literal t = some l) (hs : between s) (h : equations between ts = some (es, rest)) :
    equations between (c :: .op ['='] :: t :: s :: ts) = some ((name, l) :: es, rest) := by
  rw [equations, hc, ht, h, hs]
  rfl

theorem conditions_where {ts : List Token} {es : List Equation} {t : Token} (ht : isWord "where" t)
    (h : equations (isWord "and") ts = some (es, [])) : conditions (t :: ts) = some es := by
  rw [conditions, if_pos ht, h]
  rfl

/-- An equation with the token in front of it, its value as a token, and as it is read. -/
structure Item where
  sep : Token
  name : List Char
  value : Token
  literal : Literal

namespace Item

/-- The tokens of an equation after the one in front of it. -/
def equationTokens (i : Item) : List Token := [.word i.name, .op ['='], i.value]

/-- The tokens of an equation. -/
def tokens (i : Item) : List Token := i.sep :: i.equationTokens

/-- The equation as it is read. -/
def equation (i : Item) : Equation := (i.name, i.literal)

/-- The tokens are read as the equation. -/
structure Reads (i : Item) : Prop where
  name : columnName (.word i.name) = some i.name
  value : SQL.literal i.value = some i.literal

end Item

/-- Equations up to a token that does not continue them. -/
theorem equations_items {between : Token → Bool} {i : Item} {is : List Item} {rest : List Token}
    (hreads : ∀ j ∈ i :: is, j.Reads) (hsep : ∀ j ∈ is, between j.sep)
    (hrest : ∀ t ∈ rest.head?, ¬between t) :
    equations between (i.equationTokens ++ is.flatMap Item.tokens ++ rest) =
      some ((i :: is).map Item.equation, rest) := by
  have hi := hreads i List.mem_cons_self
  induction is generalizing i with
  | nil =>
      rcases rest with _ | ⟨t, ts⟩
      · exact equations_singleton between hi.name hi.value
      · show equations between (.word i.name :: .op ['='] :: i.value :: t :: ts) = _
        have ht : between t = false := Bool.eq_false_iff.mpr (hrest t rfl)
        rw [equations, hi.name, hi.value, ht]
        rfl
  | cons j is ih =>
      have hj := hreads j (List.mem_cons_of_mem _ List.mem_cons_self)
      exact equations_cons hi.name hi.value (hsep j List.mem_cons_self)
        (ih (fun k hk ↦ hreads k (List.mem_cons_of_mem _ hk))
          (fun k hk ↦ hsep k (List.mem_cons_of_mem _ hk)) hj)

/-- Conditions with `WHERE` in front of the first and `AND` in front of the others. -/
theorem conditions_items {i : Item} {is : List Item} (hreads : ∀ j ∈ i :: is, j.Reads)
    (hwhere : isWord "where" i.sep) (hand : ∀ j ∈ is, isWord "and" j.sep) :
    conditions ((i :: is).flatMap Item.tokens) = some ((i :: is).map Item.equation) := by
  refine conditions_where hwhere ?_
  have h := @equations_items (isWord "and") i is [] hreads hand nofun
  rw [List.append_nil] at h
  exact h

theorem updateStatement_eq {n set : Token} {name : List Char} {i : Item} {is : List Item}
    {ts : List Token} {es : List Equation} (hn : SQL.name n = some name) (hset : isWord "set" set)
    (hreads : ∀ j ∈ i :: is, j.Reads) (hsep : ∀ j ∈ is, j.sep = .op [','])
    (hts : ∀ t ∈ ts.head?, t ≠ .op [',']) (h : conditions ts = some es) :
    updateStatement (n :: set :: (i.equationTokens ++ is.flatMap Item.tokens ++ ts)) =
      some (.update name ((i :: is).map Item.equation) es) := by
  rw [updateStatement, hn, equations_items hreads (fun j hj ↦ decide_eq_true (hsep j hj))
    (fun t ht ↦ by rw [decide_eq_true_iff]; exact hts t ht)]
  show (conditions ts >>= _) = _
  rw [h, hset]
  rfl

theorem deleteStatement_eq {w n : Token} {name : List Char} {ts : List Token} {es : List Equation}
    (hw : isWord "from" w) (hn : SQL.name n = some name) (h : conditions ts = some es) :
    deleteStatement (w :: n :: ts) = some (.delete name es) := by
  rw [deleteStatement, hn, h, hw]
  rfl

theorem selectStatement_eq {w n : Token} {name : List Char} {ts : List Token} {es : List Equation}
    (hw : isWord "from" w) (hn : SQL.name n = some name) (h : conditions ts = some es) :
    selectStatement (.op ['*'] :: w :: n :: ts) = some (.select name es) := by
  rw [selectStatement, hn, h, hw]
  rfl

/-- Values with commas between them. -/
def listed : List Token → List Token
  | [] => []
  | [t] => [t, .op [')']]
  | t :: ts => t :: .op [','] :: listed ts

theorem literals_listed {ts : List Token} {ls : List Literal} (hne : ts ≠ [])
    (h : ts.mapM insertLiteral = some ls) : literals (listed ts) = some (ls, []) := by
  induction ts generalizing ls with
  | nil => exact absurd rfl hne
  | cons t ts ih =>
      rw [List.mapM_cons, Option.bind_eq_bind, Option.bind_eq_some_iff] at h
      rcases h with ⟨l, hl, h⟩
      rcases Option.bind_eq_some_iff.mp h with ⟨ls', hls', h⟩
      rw [← Option.some.inj h]
      rcases ts with _ | ⟨t', ts⟩
      · rw [← Option.some.inj hls', listed, literals, hl]
        rfl
      · rw [listed, literals, hl, ih nofun hls']
        · rfl
        · nofun

theorem insertStatement_eq {into n values : Token} {name : List Char} {ts : List Token}
    {ls : List Literal} (hinto : isWord "into" into) (hn : SQL.name n = some name)
    (hvalues : isWord "values" values) (hne : ts ≠ []) (h : ts.mapM insertLiteral = some ls) :
    insertStatement (into :: n :: values :: .op ['('] :: listed ts) = some (.insert name ls) := by
  rw [insertStatement, hn, literals_listed hne h, hinto, hvalues]
  rfl

/-! ## Signs -/

/-- The token is a minus sign. -/
def isMinus : Token → Bool
  | .op ['-'] => true
  | _ => false

namespace Piece

/-- The tokens of a piece, with the signs of numbers in them. -/
def signed : Piece → List Token
  | lit s => lex s
  | int z => [.number (decimal z)]
  | str delim _ meant => [.quoted delim meant]

/-- The piece has no minus sign of its own. -/
def unsigned : Piece → Bool
  | lit s => !(lex s).any isMinus
  | _ => true

end Piece

theorem joinSign_append {ts : List Token} (h : !ts.any isMinus) (rest : List Token) :
    joinSign (ts ++ rest) = ts ++ joinSign rest := by
  induction ts with
  | nil => rfl
  | cons t ts ih =>
      rw [List.any_cons, Bool.not_or, Bool.and_eq_true] at h
      rw [List.cons_append, joinSign, ih h.2, List.cons_append]
      rintro s ts' rfl
      exact absurd h.1 (by decide)

/-- In a composed statement a number is one token with its sign. -/
theorem joinSign_tokens {ps : List Piece} (h : ∀ p ∈ ps, p.unsigned) :
    joinSign (tokens ps) = ps.flatMap Piece.signed := by
  induction ps with
  | nil => rfl
  | cons p ps ih =>
      have hp := h p List.mem_cons_self
      have hps := ih fun p' hp' ↦ h p' (List.mem_cons_of_mem _ hp')
      rw [tokens_cons, List.flatMap_cons, ← hps]
      rcases p with s | z | ⟨delim, written, meant⟩
      · exact joinSign_append hp _
      · rw [Piece.tokens, Piece.signed, decimal]
        split <;> rfl
      · rfl

/-! ## Statements by their beginnings -/

/-- A text is parsed from the tokens of its beginning on. -/
theorem parse_append {front : List Char} (h : !(scan .between front).1.any isMinus)
    (rest : List Char) :
    parse (front ++ rest) = statement
      ((scan .between front).1 ++ joinSign (lexFrom (scan .between front).2 rest)) := by
  rw [parse, lex, lexFrom_append, joinSign_append h]

/-- What an insertion into a table is read as, whatever comes after its parenthesis. -/
theorem insertStatement_eq_some {into n values : Token} {name : List Char} {ts : List Token}
    {stmt : Statement} (hname : SQL.name n = some name)
    (h : insertStatement (into :: n :: values :: .op ['('] :: ts) = some stmt) :
    ∃ ls, stmt = .insert name ls := by
  rw [insertStatement, hname, Option.bind_eq_bind, Option.bind_some] at h
  obtain ⟨⟨ls, rest⟩, -, h⟩ := Option.bind_eq_some_iff.mp h
  dsimp only at h
  split at h
  · exact ⟨ls, (Option.some.inj h).symm⟩
  · cases h

theorem updateStatement_eq_some {ts : List Token} {stmt : Statement}
    (h : updateStatement ts = some stmt) : ∃ name sets es, stmt = .update name sets es := by
  rcases ts with _ | ⟨n, _ | ⟨set, ts⟩⟩
  · cases h
  · cases h
  · obtain ⟨name, -, h⟩ := Option.bind_eq_some_iff.mp h
    obtain ⟨⟨sets, rest⟩, -, h⟩ := Option.bind_eq_some_iff.mp h
    obtain ⟨es, -, h⟩ := Option.bind_eq_some_iff.mp h
    split at h
    · exact ⟨name, sets, es, (Option.some.inj h).symm⟩
    · cases h

end CodeToolKit.SQL
