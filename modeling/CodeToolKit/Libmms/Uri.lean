import CodeToolKit.Lib.Delimited
import CodeToolKit.Lib.Printf
import CodeToolKit.Libmms.AsfHeader

/-!
# URIs

`uri.c` reads the fields of a URI, and escapes and unescapes them.

A field is the list of its characters, which are bytes other than 0.  A `char` is signed, so that
the characters from 128 on are no places in the table of `field_escape`.
-/

namespace CodeToolKit.Libmms

open Lib

/-- `GURI`, where a field may be `NULL`. -/
structure GURI where
  scheme : Option (List Char)
  user : Option (List Char)
  passwd : Option (List Char)
  hostname : Option (List Char)
  port : ℤ
  path : Option (List Char)
  query : Option (List Char)
  fragment : Option (List Char)
  deriving DecidableEq

/-! ## Reading -/

/-- `ISSPACE`. -/
def ISSPACE (c : Char) : Bool := (9 ≤ c.toNat && c.toNat ≤ 13) || c == ' '

/-- None of the characters. -/
def noneOf (delimiters : List Char) (c : Char) : Bool := !delimiters.contains c

/-- `split_user_passwd`. -/
def split_user_passwd (userinfo : List Char) : Option (List Char × List Char) :=
  match userinfo.dropWhile (noneOf [':']) with
  | [] => none
  | _ :: pass => some (userinfo.takeWhile (noneOf [':']), pass)

/-- The scheme, and what follows it. -/
def readScheme (p : List Char) : Option (List Char) × List Char :=
  match p.dropWhile (noneOf [':', '/', '?', '#']) with
  | ':' :: rest => (some (p.takeWhile (noneOf [':', '/', '?', '#'])), rest)
  | _ => (none, p)

/-- The user and the password. -/
def readUserinfo (p : List Char) : Option (Option (List Char × List Char) × List Char) :=
  match p.dropWhile (noneOf ['@', '/']) with
  | '@' :: rest =>
      (split_user_passwd (p.takeWhile (noneOf ['@', '/']))).map fun userinfo ↦ (some userinfo, rest)
  | _ => some (none, p)

/-- The name of the host, which must not be empty. -/
def readHostname (p : List Char) : Option (List Char × List Char) :=
  if p.head? = some '[' then
    if p.tail.takeWhile (noneOf [']']) = [] then none
    else some (p.tail.takeWhile (noneOf [']']), (p.tail.dropWhile (noneOf [']'])).tail)
  else
    if p.takeWhile (noneOf ['/', '?', '#', ':']) = [] then none
    else some (p.takeWhile (noneOf ['/', '?', '#', ':']), p.dropWhile (noneOf ['/', '?', '#', ':']))

/-- The value of digits, in 32 bits. -/
def portOf (digits : List Char) : ℤ :=
  digits.foldl (fun port c ↦ int32 (port * 10 + (c.toNat - '0'.toNat : ℕ))) 0

/-- The port. -/
def readPort : List Char → ℤ × List Char
  | ':' :: p => (portOf (p.takeWhile Char.isDigit), p.dropWhile Char.isDigit)
  | p => (0, p)

/-- The authority, if there is one. -/
def readAuthority (g : GURI) : List Char → Option (GURI × List Char)
  | '/' :: '/' :: p => do
      let (userinfo, p) ← readUserinfo p
      let (hostname, p) ← readHostname p
      let (port, p) := readPort p
      some ({ g with
        user := userinfo.map Prod.fst
        passwd := userinfo.map Prod.snd
        hostname := some hostname
        port := port }, p)
  | p => some (g, p)

/-- The path, which is `NULL` if it is empty. -/
def readPath (p : List Char) : Option (List Char) × List Char :=
  (if p.takeWhile (noneOf ['?', '#']) = [] then none else some (p.takeWhile (noneOf ['?', '#'])),
    p.dropWhile (noneOf ['?', '#']))

/-- The query. -/
def readQuery : List Char → Option (List Char) × List Char
  | '?' :: p => (some (p.takeWhile (noneOf ['#'])), p.dropWhile (noneOf ['#']))
  | p => (none, p)

/-- The fragment. -/
def readFragment : List Char → Option (List Char)
  | '#' :: p => some p
  | _ => none

/-- The path, the query and the fragment. -/
def readRest (g : GURI) (p : List Char) : GURI :=
  let (path, p) := readPath p
  let (query, p) := readQuery p
  { g with path := path, query := query, fragment := readFragment p }

/-- `gnet_uri_new`. -/
def gnet_uri_new (uri : List Char) : Option GURI :=
  let p := uri.dropWhile ISSPACE
  if p = [] then none
  else
    let (scheme, p) := readScheme p
    (readAuthority ⟨scheme, none, none, none, 0, none, none, none⟩ p).map fun (g, p) ↦ readRest g p

/-! ## Escaping -/

def USERINFO_ESCAPE_MASK : ℕ := 0x01
def PATH_ESCAPE_MASK : ℕ := 0x02
def QUERY_ESCAPE_MASK : ℕ := 0x04
def FRAGMENT_ESCAPE_MASK : ℕ := 0x08

def neednt_escape_table : List ℕ :=
  [0x00, 0x00, 0x00, 0x00, 0x00, 0x00, 0x00, 0x00,
   0x00, 0x00, 0x00, 0x00, 0x00, 0x00, 0x00, 0x00,
   0x00, 0x00, 0x00, 0x00, 0x00, 0x00, 0x00, 0x00,
   0x00, 0x00, 0x00, 0x00, 0x00, 0x00, 0x00, 0x00,
   0x00, 0x0f, 0x00, 0x00, 0x0f, 0x00, 0x0f, 0x0f,
   0x0f, 0x0f, 0x0f, 0x0f, 0x0f, 0x0f, 0x0f, 0x0e,
   0x0f, 0x0f, 0x0f, 0x0f, 0x0f, 0x0f, 0x0f, 0x0f,
   0x0f, 0x0f, 0x0f, 0x0f, 0x00, 0x0f, 0x00, 0x0c,
   0x0e, 0x0f, 0x0f, 0x0f, 0x0f, 0x0f, 0x0f, 0x0f,
   0x0f, 0x0f, 0x0f, 0x0f, 0x0f, 0x0f, 0x0f, 0x0f,
   0x0f, 0x0f, 0x0f, 0x0f, 0x0f, 0x0f, 0x0f, 0x0f,
   0x0f, 0x0f, 0x0f, 0x00, 0x0f, 0x00, 0x00, 0x0f,
   0x00, 0x0f, 0x0f, 0x0f, 0x0f, 0x0f, 0x0f, 0x0f,
   0x0f, 0x0f, 0x0f, 0x0f, 0x0f, 0x0f, 0x0f, 0x0f,
   0x0f, 0x0f, 0x0f, 0x0f, 0x0f, 0x0f, 0x0f, 0x0f,
   0x0f, 0x0f, 0x0f, 0x00, 0x00, 0x00, 0x0f, 0x00] ++ List.replicate 128 0

/-- The test of `field_escape`, where there is a place in the table. -/
def neednt_escape (mask : ℕ) (c : Char) : Option Bool :=
  if c.toNat < 128 then some (neednt_escape_table.getD c.toNat 0 &&& mask != 0) else none

/-- A digit as `field_escape` writes it. -/
def hexDigit (n : ℕ) : Char :=
  if n < 10 then Char.ofNat (n + '0'.toNat) else Char.ofNat (n + 'a'.toNat - 10)

/-- The first loop of `field_escape`: the size of the result, and whether a character must be
escaped. -/
def escapedSize (mask : ℕ) : List Char → Option (ℕ × Bool)
  | [] => some (0, false)
  | c :: str => do
      let plain ← neednt_escape mask c
      let (len, must_escape) ← escapedSize mask str
      some (if plain then (len + 1, must_escape) else (len + 3, true))

/-- The second loop. -/
def escapedCopy (mask : ℕ) : List Char → Option (List Char)
  | [] => some []
  | c :: str => do
      let plain ← neednt_escape mask c
      let dst ← escapedCopy mask str
      some (if plain then c :: dst
        else '%' :: hexDigit (c.toNat / 16) :: hexDigit (c.toNat % 16) :: dst)

/-- `field_escape`, of a field that may be `NULL`. -/
def field_escape (mask : ℕ) : Option (List Char) → Option (Option (List Char))
  | none => some none
  | some str => do
      let (_len, must_escape) ← escapedSize mask str
      if must_escape then (escapedCopy mask str).map some else some (some str)

/-- The value of a digit of `field_unescape`. -/
def hexValue (c : Char) : Option ℕ :=
  if 'a' ≤ c ∧ c ≤ 'f' then some (c.toNat - 'a'.toNat + 10)
  else if 'A' ≤ c ∧ c ≤ 'F' then some (c.toNat - 'A'.toNat + 10)
  else if '0' ≤ c ∧ c ≤ '9' then some (c.toNat - '0'.toNat)
  else none

/-- What `%` and two characters stand for. -/
def unescaped (c h l : Char) : Option Char :=
  if c = '%' then do
    let high ← hexValue h
    let low ← hexValue l
    some (Char.ofNat (high * 16 + low))
  else none

/-- The loop of `field_unescape`. -/
def unescapeLoop : List Char → List Char
  | c :: h :: l :: str =>
      match unescaped c h l with
      | some d => d :: unescapeLoop str
      | none => c :: unescapeLoop (h :: l :: str)
  | str => str

/-- `field_unescape`: a NUL ends the field. -/
def field_unescape (str : List Char) : List Char := (unescapeLoop str).takeWhile (noneOf ['\x00'])

/-- `gnet_uri_escape`. -/
def gnet_uri_escape (g : GURI) : Option GURI := do
  let user ← field_escape USERINFO_ESCAPE_MASK g.user
  let passwd ← field_escape USERINFO_ESCAPE_MASK g.passwd
  let path ← field_escape PATH_ESCAPE_MASK g.path
  let query ← field_escape QUERY_ESCAPE_MASK g.query
  let fragment ← field_escape FRAGMENT_ESCAPE_MASK g.fragment
  some { g with user, passwd, path, query, fragment }

/-- `gnet_uri_unescape`. -/
def gnet_uri_unescape (g : GURI) : GURI := { g with
  user := g.user.map field_unescape
  passwd := g.passwd.map field_unescape
  path := g.path.map field_unescape
  query := g.query.map field_unescape
  fragment := g.fragment.map field_unescape }

/-! ## Writing -/

/-- The name of a host, in brackets if it has colons. -/
def hostText (hostname : List Char) : List Char :=
  if ':' ∈ hostname then '[' :: (hostname ++ [']']) else hostname

/-- The port, unless it is 0. -/
def portText (port : ℤ) : List Char := if port = 0 then [] else ':' :: decimal port

/-- The query. -/
def queryText : Option (List Char) → List Char
  | none => []
  | some query => '?' :: query

/-- The fragment. -/
def fragmentText : Option (List Char) → List Char
  | none => []
  | some fragment => '#' :: fragment

/-- What stands before the name of the host. -/
def userinfoText : Option (List Char) → List Char
  | none => []
  | some userinfo => userinfo ++ ['@']

/-- A URI with an authority and a path: `scheme://userinfo@hostname:port/path?query#fragment`. -/
def uriText (scheme : List Char) (userinfo : Option (List Char)) (hostname : List Char) (port : ℤ)
    (path : List Char) (query fragment : Option (List Char)) : List Char :=
  scheme ++ ':' :: '/' :: '/' :: (userinfoText userinfo ++ (hostText hostname ++ (portText port ++
    ('/' :: path ++ (queryText query ++ fragmentText fragment)))))

/-- The scheme, the name of the host and the port are such that they can be written. -/
structure Addresses (scheme hostname : List Char) (port : ℤ) : Prop where
  plain : ∀ c ∈ scheme, noneOf [':', '/', '?', '#'] c = true
  space : ∀ c ∈ scheme.head?, ISSPACE c = false
  named : hostname ≠ []
  host : ∀ c ∈ hostname, noneOf ['/', '?', '#', '@', '[', ']'] c = true
  range : 0 ≤ port ∧ port < 2 ^ 31

theorem noneOf_eq_true {delimiters : List Char} {c : Char} :
    noneOf delimiters c = true ↔ c ∉ delimiters := by
  rw [noneOf, Bool.not_eq_true', ← Bool.not_eq_true, List.contains_iff_mem]

theorem noneOf_mono {delimiters others : List Char} {c : Char} (h : others ⊆ delimiters)
    (hc : noneOf delimiters c = true) : noneOf others c = true :=
  noneOf_eq_true.mpr fun hmem ↦ noneOf_eq_true.mp hc (h hmem)

theorem stops_of_mem {delimiters rest : List Char} {c : Char} (hc : c ∈ delimiters) :
    Stops (noneOf delimiters) (c :: rest) := by
  refine stops_cons ?_
  rw [noneOf, List.contains_iff_mem.mpr hc]
  rfl

/-! ### The parts -/

theorem readScheme_text {scheme rest : List Char}
    (h : ∀ c ∈ scheme, noneOf [':', '/', '?', '#'] c = true) :
    readScheme (scheme ++ ':' :: rest) = (some scheme, rest) := by
  have hstop : Stops (noneOf [':', '/', '?', '#']) (':' :: rest) := stops_of_mem (by decide)
  rw [readScheme, dropWhile_field h hstop, takeWhile_field h hstop]
  rfl

theorem isDigit_decimal {port : ℤ} (hport : 0 ≤ port) : ∀ c ∈ decimal port, c.isDigit = true := by
  rw [decimal, if_neg (by omega)]
  exact fun c ↦ Nat.isDigit_of_mem_toDigits (by decide) (by decide)

/-- The value is computed modulo `2 ^ 32`. -/
theorem int32_digit (z d : ℤ) : int32 (int32 z * 10 + d) = int32 (z * 10 + d) := by
  have hadd := Int.bmod_add_bmod (x := z.bmod (2 ^ 32) * 10) (n := 2 ^ 32) (y := d)
  rw [int32, int32, int32, ← hadd, Int.bmod_mul_bmod, Int.bmod_add_bmod]

theorem portOf_eq (digits : List Char) : portOf digits = int32 (Nat.ofDigitChars 10 digits 0) := by
  have hfold : ∀ (digits : List Char) (n : ℕ),
      digits.foldl (fun port c ↦ int32 (port * 10 + (c.toNat - '0'.toNat : ℕ))) (int32 n) =
        int32 (Nat.ofDigitChars 10 digits n) := by
    intro digits
    induction digits with
    | nil =>
        intro n
        rw [Nat.ofDigitChars_nil, List.foldl_nil]
    | cons c digits ih =>
        intro n
        rw [Nat.ofDigitChars_cons, ← ih, List.foldl_cons, int32_digit, Int.natCast_add,
          Int.natCast_mul, Int.mul_comm]
        rfl
  exact hfold digits 0

theorem portOf_decimal {port : ℤ} (hport : 0 ≤ port ∧ port < 2 ^ 31) :
    portOf (decimal port) = port := by
  rw [portOf_eq, decimal, if_neg (by omega), Nat.ofDigitChars_toDigits (by decide) (by decide),
    int32_eq (by omega)]
  omega

/-- A port is read as it was written. -/
theorem readPort_text {port : ℤ} (hport : 0 ≤ port ∧ port < 2 ^ 31) (path : List Char) :
    readPort (portText port ++ '/' :: path) = (port, '/' :: path) := by
  rw [portText]
  split
  · rename_i hzero
    rw [hzero]
    rfl
  · have hstop : Stops Char.isDigit ('/' :: path) := stops_cons (by decide)
    rw [List.cons_append, readPort, takeWhile_field (isDigit_decimal hport.1) hstop,
      dropWhile_field (isDigit_decimal hport.1) hstop, portOf_decimal hport]

theorem readHostname_text {hostname rest : List Char} (hne : hostname ≠ [])
    (h : ∀ c ∈ hostname, noneOf ['/', '?', '#', '@', '[', ']'] c = true)
    (hrest : Stops (noneOf ['/', '?', '#', ':']) rest) :
    readHostname (hostText hostname ++ rest) = some (hostname, rest) := by
  rw [hostText]
  split
  · have hname : ∀ c ∈ hostname, noneOf [']'] c = true :=
      fun c hc ↦ noneOf_mono (by decide) (h c hc)
    have hstop : Stops (noneOf [']']) (']' :: rest) := stops_of_mem (by decide)
    have htext : '[' :: (hostname ++ [']']) ++ rest = '[' :: (hostname ++ ']' :: rest) := by simp
    rw [htext, readHostname, List.head?_cons, if_pos rfl, List.tail_cons,
      takeWhile_field hname hstop, dropWhile_field hname hstop, if_neg hne, List.tail_cons]
  · rename_i hcolon
    have hname : ∀ c ∈ hostname, noneOf ['/', '?', '#', ':'] c = true := by
      intro c hc
      have hother := noneOf_eq_true.mp (h c hc)
      refine noneOf_eq_true.mpr fun hmem ↦ ?_
      rcases List.mem_cons.mp hmem with rfl | hmem
      · exact hother (by decide)
      · rcases List.mem_cons.mp hmem with rfl | hmem
        · exact hother (by decide)
        · rcases List.mem_cons.mp hmem with rfl | hmem
          · exact hother (by decide)
          · exact hcolon (List.mem_singleton.mp hmem ▸ hc)
    have hhead : ¬ (hostname ++ rest).head? = some '[' := by
      cases hostname with
      | nil => exact absurd rfl hne
      | cons c hostname =>
          intro hc
          have hc : c = '[' := Option.some.inj hc
          exact noneOf_eq_true.mp (h c List.mem_cons_self) (by rw [hc]; decide)
    rw [readHostname, if_neg hhead, takeWhile_field hname hrest, dropWhile_field hname hrest,
      if_neg hne]

theorem readQuery_text {query fragment : Option (List Char)}
    (h : ∀ q ∈ query, ∀ c ∈ q, noneOf ['#'] c = true) :
    readQuery (queryText query ++ fragmentText fragment) = (query, fragmentText fragment) := by
  have hstop : Stops (noneOf ['#']) (fragmentText fragment) := by
    cases fragment with
    | none => exact stops_nil
    | some fragment => exact stops_of_mem (by decide)
  cases query with
  | none => cases fragment <;> rfl
  | some query =>
      rw [queryText, List.cons_append, readQuery, takeWhile_field (h query rfl) hstop,
        dropWhile_field (h query rfl) hstop]

theorem readPath_text {path : List Char} {query fragment : Option (List Char)}
    (h : ∀ c ∈ path, noneOf ['?', '#'] c = true) :
    readPath ('/' :: path ++ (queryText query ++ fragmentText fragment)) =
      (some ('/' :: path), queryText query ++ fragmentText fragment) := by
  have hpath : ∀ c ∈ '/' :: path, noneOf ['?', '#'] c = true :=
    List.forall_mem_cons.mpr ⟨by decide, h⟩
  have hstop : Stops (noneOf ['?', '#']) (queryText query ++ fragmentText fragment) := by
    cases query with
    | none => cases fragment with
      | none => exact stops_nil
      | some fragment => exact stops_of_mem (by decide)
    | some query => exact stops_of_mem (by decide)
  rw [readPath, takeWhile_field hpath hstop, dropWhile_field hpath hstop,
    if_neg (List.cons_ne_nil _ _)]

variable {scheme hostname path : List Char} {port : ℤ} {query fragment : Option (List Char)}

/-- What follows the name of the host ends it. -/
theorem stops_portText (port : ℤ) (rest : List Char) :
    Stops (noneOf ['/', '?', '#', ':']) (portText port ++ '/' :: rest) := by
  rw [portText]
  split
  · exact stops_of_mem (by decide)
  · exact stops_of_mem (by decide)

/-- Neither the name of the host nor the port have a place where the user ends. -/
theorem host_noneOf (h : Addresses scheme hostname port) :
    ∀ c ∈ hostText hostname ++ portText port, noneOf ['@', '/'] c = true := by
  have hname : ∀ c ∈ hostname, noneOf ['@', '/'] c = true :=
    fun c hc ↦ noneOf_mono (by decide) (h.host c hc)
  rintro c hc
  rcases List.mem_append.mp hc with hc | hc
  · rw [hostText] at hc
    split at hc
    · rcases List.mem_cons.mp hc with rfl | hc
      · decide
      · rcases List.mem_append.mp hc with hc | hc
        · exact hname c hc
        · rw [List.mem_singleton.mp hc]
          decide
    · exact hname c hc
  · rw [portText] at hc
    split at hc
    · cases hc
    · rcases List.mem_cons.mp hc with rfl | hc
      · decide
      · have hdigit := isDigit_decimal h.range.1 c hc
        refine noneOf_eq_true.mpr fun hmem ↦ ?_
        rcases List.mem_cons.mp hmem with rfl | hmem
        · exact absurd hdigit (by decide)
        · rw [List.mem_singleton.mp hmem] at hdigit
          exact absurd hdigit (by decide)

theorem readUserinfo_none (h : Addresses scheme hostname port) (rest : List Char) :
    readUserinfo (hostText hostname ++ (portText port ++ '/' :: rest)) =
      some (none, hostText hostname ++ (portText port ++ '/' :: rest)) := by
  have hstop : Stops (noneOf ['@', '/']) ('/' :: rest) := stops_of_mem (by decide)
  rw [readUserinfo, ← List.append_assoc, dropWhile_field (host_noneOf h) hstop]
  rfl

theorem readUserinfo_some {userinfo : List Char} (h : ∀ c ∈ userinfo, noneOf ['@', '/'] c = true)
    (rest : List Char) : readUserinfo (userinfo ++ '@' :: rest) =
      (split_user_passwd userinfo).map fun pair ↦ (some pair, rest) := by
  have hstop : Stops (noneOf ['@', '/']) ('@' :: rest) := stops_of_mem (by decide)
  rw [readUserinfo, dropWhile_field h hstop, takeWhile_field h hstop]
  rfl

/-- The fields of a URI, but for the user and the password. -/
def writtenURI (scheme hostname : List Char) (port : ℤ) (path : List Char)
    (query fragment : Option (List Char)) (userinfo : Option (List Char × List Char)) : GURI where
  scheme := some scheme
  user := userinfo.map Prod.fst
  passwd := userinfo.map Prod.snd
  hostname := some hostname
  port := port
  path := some ('/' :: path)
  query := query
  fragment := fragment

/-- What is read when the user and the password are split. -/
theorem gnet_uri_new_text (h : Addresses scheme hostname port) {userinfo : Option (List Char)}
    (huser : ∀ u ∈ userinfo, ∀ c ∈ u, noneOf ['@', '/'] c = true)
    (hpath : ∀ c ∈ path, noneOf ['?', '#'] c = true)
    (hquery : ∀ q ∈ query, ∀ c ∈ q, noneOf ['#'] c = true) :
    gnet_uri_new (uriText scheme userinfo hostname port path query fragment) =
      match userinfo with
      | none => some (writtenURI scheme hostname port path query fragment none)
      | some userinfo => (split_user_passwd userinfo).map fun pair ↦
          writtenURI scheme hostname port path query fragment (some pair) := by
  have hspace : Stops ISSPACE (uriText scheme userinfo hostname port path query fragment) := by
    refine Stops.append h.space fun _ ↦ stops_cons (by decide)
  have hdrop := dropWhile_field (p := ISSPACE) (fun c hc ↦ absurd hc List.not_mem_nil) hspace
  rw [List.nil_append] at hdrop
  have hne : uriText scheme userinfo hostname port path query fragment ≠ [] := by
    rw [uriText]
    exact List.append_ne_nil_of_right_ne_nil _ (List.cons_ne_nil _ _)
  rw [gnet_uri_new, hdrop, if_neg hne, uriText, readScheme_text h.plain]
  dsimp only
  rw [readAuthority]
  have hhost := readHostname_text h.named h.host
    (stops_portText port (path ++ (queryText query ++ fragmentText fragment)))
  have hread : ∀ g : GURI, readRest g ('/' :: path ++ (queryText query ++ fragmentText fragment)) =
      { g with path := some ('/' :: path), query := query, fragment := fragment } := by
    intro g
    rw [readRest, readPath_text hpath]
    dsimp only
    rw [readQuery_text hquery]
    cases fragment <;> rfl
  have hport := readPort_text h.range (path ++ (queryText query ++ fragmentText fragment))
  cases userinfo with
  | none =>
      have huserinfo := readUserinfo_none h (path ++ (queryText query ++ fragmentText fragment))
      rw [userinfoText, List.nil_append, List.cons_append, huserinfo]
      simp only [Option.bind_eq_bind, Option.bind_some]
      rw [hhost]
      simp only [Option.bind_some]
      rw [hport, Option.map_some]
      exact congrArg some (hread _)
  | some userinfo =>
      rw [userinfoText, List.append_assoc, List.singleton_append, List.cons_append,
        readUserinfo_some (huser userinfo rfl)]
      dsimp only
      cases split_user_passwd userinfo with
      | none => simp only [Option.map_none, Option.bind_eq_bind, Option.bind_none]
      | some pair =>
          simp only [Option.bind_eq_bind, Option.map_some, Option.bind_some]
          rw [hhost]
          simp only [Option.bind_some]
          rw [hport]
          exact congrArg some (hread ⟨_, some pair.1, some pair.2, _, _, none, none, none⟩)

/-! ## Escaping and reading -/

/-- What `field_escape` writes for a character. -/
def escaped (mask : ℕ) (c : Char) : List Char :=
  if neednt_escape mask c = some true then [c]
  else ['%', hexDigit (c.toNat / 16), hexDigit (c.toNat % 16)]

/-- All characters are places in the table. -/
def Ascii (str : List Char) : Prop := ∀ c ∈ str, c.toNat < 128

instance : DecidablePred Ascii := fun str ↦
  List.decidableBAll (fun c : Char ↦ c.toNat < 128) str

theorem forall_ascii {P : Char → Prop} (h : ∀ n < 128, P (Char.ofNat n)) {c : Char}
    (hc : c.toNat < 128) : P c := by
  rw [← Char.ofNat_toNat c]
  exact h c.toNat hc

theorem neednt_escape_eq_none {mask : ℕ} {c : Char} :
    neednt_escape mask c = none ↔ ¬ c.toNat < 128 := by
  rw [neednt_escape]
  split
  · rename_i hc
    exact ⟨fun h ↦ (by cases h), fun h ↦ absurd hc h⟩
  · rename_i hc
    exact ⟨fun _ ↦ hc, fun _ ↦ rfl⟩

/-- The two loops agree: what is copied has the size that was computed, and is the field itself
unless something must be escaped. -/
theorem escapedCopy_of_ascii (mask : ℕ) {str : List Char} (h : Ascii str) :
    escapedCopy mask str = some (str.flatMap (escaped mask)) ∧
      ∃ must_escape, escapedSize mask str =
        some ((str.flatMap (escaped mask)).length, must_escape) ∧
          (must_escape = false → str.flatMap (escaped mask) = str) := by
  induction str with
  | nil => exact ⟨rfl, false, rfl, fun _ ↦ rfl⟩
  | cons c str ih =>
      obtain ⟨hc, hstr⟩ := List.forall_mem_cons.mp h
      obtain ⟨hcopy, must_escape, hsize, hsame⟩ := ih hstr
      rw [escapedCopy, escapedSize, hcopy, hsize, List.flatMap_cons]
      rcases hplain : neednt_escape mask c with _ | _ | _
      · exact absurd hc (neednt_escape_eq_none.mp hplain)
      · have hescaped :
            escaped mask c = ['%', hexDigit (c.toNat / 16), hexDigit (c.toNat % 16)] := by
          rw [escaped, hplain]
          rfl
        rw [hescaped]
        refine ⟨rfl, true, ?_, fun hfalse ↦ (by cases hfalse)⟩
        rw [List.length_append]
        exact congrArg (fun n ↦ some (n, true)) (Nat.add_comm ..)
      · have hescaped : escaped mask c = [c] := by
          rw [escaped, hplain]
          rfl
        rw [hescaped]
        refine ⟨rfl, must_escape, ?_, fun hfalse ↦ congrArg (c :: ·) (hsame hfalse)⟩
        rw [List.length_append]
        exact congrArg (fun n ↦ some (n, must_escape)) (Nat.add_comm ..)

theorem escapedSize_of_not_ascii {mask : ℕ} {str : List Char} (h : ¬ Ascii str) :
    escapedSize mask str = none := by
  induction str with
  | nil => exact absurd (fun c hc ↦ absurd hc List.not_mem_nil) h
  | cons c str ih =>
      rw [escapedSize]
      cases hplain : neednt_escape mask c with
      | none => rfl
      | some plain =>
          have hc : c.toNat < 128 := by
            by_contra hc
            rw [neednt_escape_eq_none.mpr hc] at hplain
            cases hplain
          rw [ih fun hstr ↦ h (List.forall_mem_cons.mpr ⟨hc, hstr⟩)]
          rfl

/-- `field_escape` escapes every character, and reads outside its table if there is one that is
not ASCII. -/
theorem field_escape_some {mask : ℕ} {str : List Char} (h : Ascii str) :
    field_escape mask (some str) = some (some (str.flatMap (escaped mask))) := by
  obtain ⟨hcopy, must_escape, hsize, hsame⟩ := escapedCopy_of_ascii mask h
  rw [field_escape, hsize, hcopy]
  cases must_escape with
  | false => exact congrArg (fun s ↦ some (some s)) (hsame rfl).symm
  | true => rfl

theorem field_escape_eq_none {mask : ℕ} {str : List Char} (h : ¬ Ascii str) :
    field_escape mask (some str) = none := by
  rw [field_escape, escapedSize_of_not_ascii h]
  rfl

/-! ### Unescaping -/

theorem hexValue_hexDigit : ∀ n < 16, hexValue (hexDigit n) = some n := by decide

theorem unescapeLoop_plain {c : Char} (hc : c ≠ '%') (str : List Char) :
    unescapeLoop (c :: str) = c :: unescapeLoop str := by
  rcases str with _ | ⟨h, _ | ⟨l, str⟩⟩
  · rw [unescapeLoop, unescapeLoop]
    all_goals simp
  · rw [unescapeLoop, unescapeLoop]
    all_goals simp
  · have hnone : unescaped c h l = none := if_neg hc
    rw [unescapeLoop, hnone]

theorem unescapeLoop_escaped {mask : ℕ} {c : Char} (hc : c.toNat < 128) (str : List Char) :
    unescapeLoop (escaped mask c ++ str) = c :: unescapeLoop str := by
  rw [escaped]
  split
  · rename_i hplain
    refine unescapeLoop_plain ?_ str
    rintro rfl
    have hzero : neednt_escape mask '%' = some (0 &&& mask != 0) := rfl
    rw [hzero, Nat.zero_and] at hplain
    cases hplain
  · have hvalue : unescaped '%' (hexDigit (c.toNat / 16)) (hexDigit (c.toNat % 16)) = some c := by
      rw [unescaped, if_pos rfl, hexValue_hexDigit _ (by omega), hexValue_hexDigit _ (by omega)]
      simp only [Option.bind_eq_bind, Option.bind_some]
      rw [Nat.div_add_mod', Char.ofNat_toNat]
    rw [List.cons_append, List.cons_append, List.singleton_append, unescapeLoop, hvalue]

/-- Unescaping gives back what was escaped. -/
theorem field_unescape_escaped {mask : ℕ} {str : List Char} (h : Ascii str)
    (hnul : ∀ c ∈ str, c ≠ '\x00') : field_unescape (str.flatMap (escaped mask)) = str := by
  have hloop : unescapeLoop (str.flatMap (escaped mask)) = str := by
    clear hnul
    induction str with
    | nil => rfl
    | cons c str ih =>
        obtain ⟨hc, hstr⟩ := List.forall_mem_cons.mp h
        rw [List.flatMap_cons, unescapeLoop_escaped hc, ih hstr]
  rw [field_unescape, hloop]
  refine List.takeWhile_eq_self_iff.mpr fun c hc ↦ noneOf_eq_true.mpr ?_
  exact fun hmem ↦ hnul c hc (List.mem_singleton.mp hmem)

/-! ### Delimiters -/

/-- What is not plain in a field is not written in it. -/
theorem escaped_noneOf {mask : ℕ} {delimiters str : List Char} (hstr : Ascii str)
    (h : ∀ n < 128, (escaped mask (Char.ofNat n)).all (noneOf delimiters) = true) :
    ∀ d ∈ str.flatMap (escaped mask), noneOf delimiters d = true := by
  rintro d hd
  obtain ⟨c, hc, hd⟩ := List.mem_flatMap.mp hd
  have hblock := forall_ascii (P := fun c ↦ (escaped mask c).all (noneOf delimiters) = true) h
    (hstr c hc)
  exact List.all_eq_true.mp hblock d hd

theorem escaped_userinfo {str : List Char} (h : Ascii str) :
    ∀ d ∈ str.flatMap (escaped USERINFO_ESCAPE_MASK), noneOf ['@', '/'] d = true :=
  escaped_noneOf h (by decide +kernel)

theorem escaped_path {str : List Char} (h : Ascii str) :
    ∀ d ∈ str.flatMap (escaped PATH_ESCAPE_MASK), noneOf ['?', '#'] d = true :=
  escaped_noneOf h (by decide +kernel)

theorem escaped_query {str : List Char} (h : Ascii str) :
    ∀ d ∈ str.flatMap (escaped QUERY_ESCAPE_MASK), noneOf ['#'] d = true :=
  escaped_noneOf h (by decide +kernel)

/-- A colon of a user stays one, and there are no others. -/
theorem span_escaped {str : List Char} (h : Ascii str) :
    (str.flatMap (escaped USERINFO_ESCAPE_MASK)).takeWhile (noneOf [':']) =
        (str.takeWhile (noneOf [':'])).flatMap (escaped USERINFO_ESCAPE_MASK) ∧
      (str.flatMap (escaped USERINFO_ESCAPE_MASK)).dropWhile (noneOf [':']) =
        (str.dropWhile (noneOf [':'])).flatMap (escaped USERINFO_ESCAPE_MASK) := by
  induction str with
  | nil => exact ⟨rfl, rfl⟩
  | cons c str ih =>
      obtain ⟨hc, hstr⟩ := List.forall_mem_cons.mp h
      rw [List.flatMap_cons]
      by_cases hcolon : c = ':'
      · rw [hcolon]
        exact ⟨rfl, rfl⟩
      · have hother : noneOf [':'] c = true :=
          noneOf_eq_true.mpr fun hmem ↦ hcolon (List.mem_singleton.mp hmem)
        have hblock : ∀ d ∈ escaped USERINFO_ESCAPE_MASK c, noneOf [':'] d = true :=
          List.all_eq_true.mp (forall_ascii (P := fun c ↦ c ≠ ':' →
            (escaped USERINFO_ESCAPE_MASK c).all (noneOf [':']) = true) (by decide +kernel) hc
              hcolon)
        rw [List.takeWhile_append_of_pos hblock, List.dropWhile_append_of_pos hblock,
          (ih hstr).1, (ih hstr).2, List.takeWhile_cons_of_pos hother,
          List.dropWhile_cons_of_pos hother, List.flatMap_cons]
        exact ⟨rfl, rfl⟩

/-! ### Whole URIs -/

/-- The user and the password. -/
def GURI.userinfo (g : GURI) : Option (List Char) :=
  match g.user, g.passwd with
  | some user, some passwd => some (user ++ ':' :: passwd)
  | _, _ => none

/-- A URI as it is usually written, with a scheme, the name of a host and a path. -/
def GURI.text (g : GURI) : List Char :=
  g.scheme.getD [] ++ ':' :: '/' :: '/' :: (userinfoText g.userinfo ++
    (hostText (g.hostname.getD []) ++ (portText g.port ++ (g.path.getD [] ++
      (queryText g.query ++ fragmentText g.fragment)))))

/-- The fields that are escaped, as far as there are any, have a property. -/
structure GURI.All (P : List Char → Prop) (g : GURI) : Prop where
  user : ∀ str ∈ g.user, P str
  passwd : ∀ str ∈ g.passwd, P str
  path : ∀ str ∈ g.path, P str
  query : ∀ str ∈ g.query, P str
  fragment : ∀ str ∈ g.fragment, P str

theorem GURI.All.and {P Q : List Char → Prop} {g : GURI} (hP : g.All P) (hQ : g.All Q) :
    g.All fun str ↦ P str ∧ Q str where
  user str h := ⟨hP.user str h, hQ.user str h⟩
  passwd str h := ⟨hP.passwd str h, hQ.passwd str h⟩
  path str h := ⟨hP.path str h, hQ.path str h⟩
  query str h := ⟨hP.query str h, hQ.query str h⟩
  fragment str h := ⟨hP.fragment str h, hQ.fragment str h⟩

/-- A string in C. -/
def NulFree (str : List Char) : Prop := ∀ c ∈ str, c ≠ '\x00'

instance : DecidablePred NulFree := fun str ↦
  List.decidableBAll (fun c : Char ↦ c ≠ '\x00') str

theorem ascii_of_field_escape {mask : ℕ} {field r : Option (List Char)}
    (h : field_escape mask field = some r) : ∀ str ∈ field, Ascii str := by
  rintro str hstr
  by_contra hascii
  rw [Option.mem_def.mp hstr, field_escape_eq_none hascii] at h
  cases h

theorem ascii_of_escape {g g' : GURI} (h : gnet_uri_escape g = some g') : g.All Ascii := by
  simp only [gnet_uri_escape, Option.bind_eq_bind, Option.bind_eq_some_iff] at h
  obtain ⟨_, huser, _, hpasswd, _, hpath, _, hquery, _, hfragment, -⟩ := h
  exact ⟨ascii_of_field_escape huser, ascii_of_field_escape hpasswd, ascii_of_field_escape hpath,
    ascii_of_field_escape hquery, ascii_of_field_escape hfragment⟩

theorem field_escape_of_ascii {mask : ℕ} {field : Option (List Char)}
    (h : ∀ str ∈ field, Ascii str) :
    field_escape mask field = some (field.map fun str ↦ str.flatMap (escaped mask)) := by
  cases field with
  | none => rfl
  | some str => exact field_escape_some (h str rfl)

/-- A URI of escaped fields. -/
def escapedURI (g : GURI) : GURI := { g with
  user := g.user.map fun str ↦ str.flatMap (escaped USERINFO_ESCAPE_MASK)
  passwd := g.passwd.map fun str ↦ str.flatMap (escaped USERINFO_ESCAPE_MASK)
  path := g.path.map fun str ↦ str.flatMap (escaped PATH_ESCAPE_MASK)
  query := g.query.map fun str ↦ str.flatMap (escaped QUERY_ESCAPE_MASK)
  fragment := g.fragment.map fun str ↦ str.flatMap (escaped FRAGMENT_ESCAPE_MASK) }

theorem gnet_uri_escape_of_ascii {g : GURI} (h : g.All Ascii) :
    gnet_uri_escape g = some (escapedURI g) := by
  rw [gnet_uri_escape, field_escape_of_ascii h.user, field_escape_of_ascii h.passwd,
    field_escape_of_ascii h.path, field_escape_of_ascii h.query, field_escape_of_ascii h.fragment]
  rfl

theorem map_field_unescape {mask : ℕ} {field : Option (List Char)}
    (h : ∀ str ∈ field, Ascii str ∧ NulFree str) :
    (field.map fun str ↦ str.flatMap (escaped mask)).map field_unescape = field := by
  cases field with
  | none => rfl
  | some str => exact congrArg some (field_unescape_escaped (h str rfl).1 (h str rfl).2)

/-- Unescaping undoes escaping. -/
theorem gnet_uri_unescape_escaped {g : GURI} (h : g.All fun str ↦ Ascii str ∧ NulFree str) :
    gnet_uri_unescape (escapedURI g) = g := by
  rw [gnet_uri_unescape, escapedURI]
  dsimp only
  rw [map_field_unescape h.user, map_field_unescape h.passwd, map_field_unescape h.path,
    map_field_unescape h.query, map_field_unescape h.fragment]

/-- The user and the password that the first colon splits. -/
theorem split_user_passwd_spec (user passwd : List Char) : ∃ user' passwd',
    split_user_passwd (user ++ ':' :: passwd) = some (user', passwd') ∧
      user ++ ':' :: passwd = user' ++ ':' :: passwd' ∧ ':' ∉ user' := by
  have hspan := List.takeWhile_append_dropWhile (p := noneOf [':']) (l := user ++ ':' :: passwd)
  have hplain : ':' ∉ (user ++ ':' :: passwd).takeWhile (noneOf [':']) := by
    intro hmem
    exact absurd (List.mem_takeWhile_imp hmem) (by decide)
  rcases hdrop : (user ++ ':' :: passwd).dropWhile (noneOf [':']) with _ | ⟨c, rest⟩
  · rw [hdrop, List.append_nil] at hspan
    rw [hspan] at hplain
    exact absurd (List.mem_append_right user List.mem_cons_self) hplain
  · have hc : c = ':' := by
      have hhead := List.head?_dropWhile_not (noneOf [':']) (user ++ ':' :: passwd)
      rw [hdrop] at hhead
      by_contra hne
      exact absurd hhead (by simp [noneOf, hne])
    subst hc
    rw [hdrop] at hspan
    exact ⟨_, rest, by rw [split_user_passwd, hdrop], hspan.symm, hplain⟩

/-- Escaping does not move the first colon. -/
theorem split_escaped {userinfo : List Char} (h : Ascii userinfo) :
    split_user_passwd (userinfo.flatMap (escaped USERINFO_ESCAPE_MASK)) =
      (split_user_passwd userinfo).map fun pair ↦
        (pair.1.flatMap (escaped USERINFO_ESCAPE_MASK),
          pair.2.flatMap (escaped USERINFO_ESCAPE_MASK)) := by
  have hhead := List.head?_dropWhile_not (noneOf [':']) userinfo
  rw [split_user_passwd, split_user_passwd, (span_escaped h).1, (span_escaped h).2]
  cases hdrop : userinfo.dropWhile (noneOf [':']) with
  | nil => rfl
  | cons c rest =>
      rw [hdrop] at hhead
      have hc : c = ':' := by
        by_contra hne
        exact absurd hhead (by simp [noneOf, hne])
      subst hc
      rfl

/-- The escaped URI is read with the user and the password that the first colon splits. -/
theorem reads_escaped (h : Addresses scheme hostname port)
    {userinfo : Option (List Char × List Char)}
    (hall : (writtenURI scheme hostname port path query fragment userinfo).All
      fun str ↦ Ascii str ∧ NulFree str) :
    (gnet_uri_new (escapedURI (writtenURI scheme hostname port path query fragment
      userinfo)).text).map gnet_uri_unescape =
        some (writtenURI scheme hostname port path query fragment (userinfo.bind fun pair ↦
          split_user_passwd (pair.1 ++ ':' :: pair.2))) := by
  have hpath : Ascii path := fun c hc ↦
    (hall.path ('/' :: path) rfl).1 c (List.mem_cons_of_mem _ hc)
  have hquery : ∀ q ∈ query.map fun str ↦ str.flatMap (escaped QUERY_ESCAPE_MASK),
      ∀ c ∈ q, noneOf ['#'] c = true := by
    rintro q hq
    obtain ⟨str, hstr, rfl⟩ := Option.mem_map.mp hq
    exact escaped_query (hall.query str hstr).1
  have hread := fun (w : Option (List Char)) (hw : ∀ u ∈ w, ∀ c ∈ u, noneOf ['@', '/'] c = true) ↦
    @gnet_uri_new_text scheme hostname (path.flatMap (escaped PATH_ESCAPE_MASK)) port
      (query.map fun str ↦ str.flatMap (escaped QUERY_ESCAPE_MASK))
      (fragment.map fun str ↦ str.flatMap (escaped FRAGMENT_ESCAPE_MASK)) h w hw
      (escaped_path hpath) hquery
  cases userinfo with
  | none =>
      have hnone := hread none (fun u hu ↦ by cases hu)
      exact (congrArg (Option.map gnet_uri_unescape) hnone).trans
        (congrArg some (gnet_uri_unescape_escaped hall))
  | some pair =>
      obtain ⟨user, passwd⟩ := pair
      obtain ⟨user', passwd', hsplit, heq, -⟩ := split_user_passwd_spec user passwd
      have hwhole : ∀ c ∈ user ++ ':' :: passwd, c.toNat < 128 ∧ c ≠ '\x00' := by
        rintro c hc
        rcases List.mem_append.mp hc with hc | hc
        · exact ⟨(hall.user user rfl).1 c hc, (hall.user user rfl).2 c hc⟩
        · rcases List.mem_cons.mp hc with rfl | hc
          · decide
          · exact ⟨(hall.passwd passwd rfl).1 c hc, (hall.passwd passwd rfl).2 c hc⟩
      have hparts := hwhole
      rw [heq] at hparts
      have hall' : (writtenURI scheme hostname port path query fragment
          (some (user', passwd'))).All fun str ↦ Ascii str ∧ NulFree str :=
        { hall with
          user := by
            rintro _ ⟨⟩
            exact ⟨fun c hc ↦ (hparts c (List.mem_append_left _ hc)).1,
              fun c hc ↦ (hparts c (List.mem_append_left _ hc)).2⟩
          passwd := by
            rintro _ ⟨⟩
            exact ⟨fun c hc ↦ (hparts c (List.mem_append_right _ (List.mem_cons_of_mem _ hc))).1,
              fun c hc ↦ (hparts c (List.mem_append_right _ (List.mem_cons_of_mem _ hc))).2⟩ }
      have hsome := hread (some ((user ++ ':' :: passwd).flatMap (escaped USERINFO_ESCAPE_MASK)))
        (by
          rintro _ ⟨⟩
          exact escaped_userinfo fun c hc ↦ (hwhole c hc).1)
      dsimp only at hsome
      rw [split_escaped fun c hc ↦ (hwhole c hc).1, hsplit, List.flatMap_append] at hsome
      rw [Option.bind_some, hsplit]
      exact (congrArg (Option.map gnet_uri_unescape) hsome).trans
        (congrArg some (gnet_uri_unescape_escaped hall'))

/-- **Escaping.**  A URI of escaped fields is read and unescaped to what it was, exactly if every
escaped field is ASCII and there is no colon in the user. -/
theorem escaped_reads_back (h : Addresses scheme hostname port)
    {userinfo : Option (List Char × List Char)}
    (hnul : (writtenURI scheme hostname port path query fragment userinfo).All NulFree) :
    (∃ g, gnet_uri_escape (writtenURI scheme hostname port path query fragment userinfo) = some g ∧
      (gnet_uri_new g.text).map gnet_uri_unescape =
        some (writtenURI scheme hostname port path query fragment userinfo)) ↔
      (writtenURI scheme hostname port path query fragment userinfo).All Ascii ∧
        ∀ pair ∈ userinfo, ':' ∉ pair.1 := by
  constructor
  · rintro ⟨g, hescape, hread⟩
    have hascii := ascii_of_escape hescape
    rw [gnet_uri_escape_of_ascii hascii] at hescape
    rw [← Option.some.inj hescape, reads_escaped h (hascii.and hnul)] at hread
    refine ⟨hascii, ?_⟩
    rintro ⟨user, passwd⟩ rfl
    obtain ⟨user', passwd', hsplit, -, hplain⟩ := split_user_passwd_spec user passwd
    have huser := congrArg GURI.user (Option.some.inj hread)
    rw [Option.bind_some, hsplit] at huser
    rwa [← Option.some.inj huser]
  · rintro ⟨hascii, huser⟩
    refine ⟨_, gnet_uri_escape_of_ascii hascii, ?_⟩
    rw [reads_escaped h (hascii.and hnul)]
    cases userinfo with
    | none => rfl
    | some pair =>
        obtain ⟨user, passwd⟩ := pair
        obtain ⟨user', passwd', hsplit, heq, hplain⟩ := split_user_passwd_spec user passwd
        have hfield : ∀ u : List Char, ':' ∉ u → ∀ c ∈ u, noneOf [':'] c = true := fun u hu c hc ↦
          noneOf_eq_true.mpr fun hmem ↦ hu (List.mem_singleton.mp hmem ▸ hc)
        have hstop : ∀ p : List Char, Stops (noneOf [':']) (':' :: p) :=
          fun p ↦ stops_of_mem (by decide)
        have hsame := congrArg (List.takeWhile (noneOf [':'])) heq
        rw [takeWhile_field (hfield user (huser _ rfl)) (hstop passwd),
          takeWhile_field (hfield user' hplain) (hstop passwd')] at hsame
        subst hsame
        have hpasswd := (List.cons.inj (List.append_cancel_left heq)).2
        subst hpasswd
        rw [Option.bind_some, hsplit]

/-- A user and a password, and a path and a query with delimiters. -/
theorem escaped_reads_back_me : ∃ g, gnet_uri_escape (writtenURI ['m', 'm', 's'] ['h'] 80
      ['a', '?', ' '] (some ['#', '%']) none (some (['m', 'e'], ['@', ':']))) = some g ∧
    (gnet_uri_new g.text).map gnet_uri_unescape = some (writtenURI ['m', 'm', 's'] ['h'] 80
      ['a', '?', ' '] (some ['#', '%']) none (some (['m', 'e'], ['@', ':']))) := by
  have haddress : Addresses ['m', 'm', 's'] ['h'] 80 := by
    refine ⟨List.all_eq_true.mp rfl, ?_, by decide, List.all_eq_true.mp rfl, by decide⟩
    rintro c ⟨⟩
    rfl
  refine (escaped_reads_back haddress ?_).mpr ⟨?_, ?_⟩
  · constructor <;> rintro str ⟨⟩ <;> decide
  · constructor <;> rintro str ⟨⟩ <;> decide
  · rintro pair ⟨⟩
    decide

end CodeToolKit.Libmms
