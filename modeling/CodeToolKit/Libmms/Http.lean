import CodeToolKit.Lib.Printf
import CodeToolKit.Libmms.Selection

/-!
# Requests and answers of MMSH

`mmsh.c` speaks HTTP: it sends a request on every connection, and reads the lines of the answer
until an empty one.  The answer says whether the stream can be sought in.

A text is the list of its characters, and a character is a byte.
-/

namespace CodeToolKit.Libmms

open Lib

/-! ## Connections -/

/-- What a server sends on a connection after it received a text: some bytes, and then the
connection is closed, or it breaks. -/
structure Answer where
  bytes : List Byte
  broken : Bool

/-- A connection: what the server makes of a text, where nothing is that it cannot be sent, and
what is still to be received. -/
structure Socket where
  answers : List Char → Option Answer
  incoming : List Byte
  broken : Bool

/-- The results of `io_connect`, one for each call. -/
abbrev Net := ℕ → Option (List Char → Option Answer)

/-- `io_read`: the number of bytes or -1, and the bytes. -/
def Socket.io_read (s : Socket) (num : ℕ) : ℤ × List Byte × Socket :=
  (if 0 < num ∧ s.incoming = [] ∧ s.broken then -1 else (s.incoming.take num).length,
    s.incoming.take num, { s with incoming := s.incoming.drop num })

/-! ## Requests -/

/-- The size of `str`. -/
def SCRATCH_SIZE : ℕ := 1024

/-- `snprintf` into a buffer of `size` bytes. -/
def snprintf (size : ℕ) (text : List Char) : List Char := text.take (size - 1)

/-- `%u`. -/
def unsigned (z : ℤ) : List Char := decimal (z % 2 ^ 32)

def USERAGENT : String := "User-Agent: NSPlayer/4.1.0.3856\r\n"

def CLIENTGUID : String := "Pragma: xClientGUID=\x7bc77e7400-738a-11d2-9add-0020af0a3278\x7d\r\n"

/-- The lines that all requests begin with. -/
def requestHead (uri http_host : List Char) (http_port : ℤ) : List Char :=
  "GET ".toList ++ uri ++ " HTTP/1.0\r\nAccept: */*\r\n".toList ++ USERAGENT.toList ++
    "Host: ".toList ++ http_host ++ ":".toList ++ decimal http_port ++ "\r\n".toList

/-- `mmsh_FirstRequest`. -/
def mmsh_FirstRequest (uri http_host : List Char) (http_port http_request_number : ℤ) : List Char :=
  requestHead uri http_host http_port ++
    ("Pragma: no-cache,rate=1.000000,stream-time=0,stream-offset=0:0,request-context=").toList ++
    unsigned http_request_number ++ ",max-duration=0\r\n".toList ++ CLIENTGUID.toList ++
    "Connection: Close\r\n\r\n".toList

/-- The lines that the second requests end with. -/
def requestStreams (count : ℕ) (stream_selection : List Char) : List Char :=
  "Pragma: stream-switch-count=".toList ++ decimal count ++
    "\r\nPragma: stream-switch-entry=".toList ++ stream_selection ++
    "\r\nConnection: Close\r\n\r\n".toList

/-- `mmsh_SeekableRequest`. -/
def mmsh_SeekableRequest (uri http_host : List Char) (http_port time_seek seek
    http_request_number : ℤ) (count : ℕ) (stream_selection : List Char) : List Char :=
  requestHead uri http_host http_port ++
    "Pragma: no-cache,rate=1.000000,stream-time=".toList ++ unsigned time_seek ++
    ",stream-offset=".toList ++ unsigned (seek / 2 ^ 32) ++ ":".toList ++ unsigned seek ++
    ",request-context=".toList ++ unsigned http_request_number ++ ",max-duration=".toList ++
    unsigned 0 ++ "\r\n".toList ++ CLIENTGUID.toList ++ "Pragma: xPlayStrm=1\r\n".toList ++
    requestStreams count stream_selection

/-- `mmsh_LiveRequest`. -/
def mmsh_LiveRequest (uri http_host : List Char) (http_port http_request_number : ℤ) (count : ℕ)
    (stream_selection : List Char) : List Char :=
  requestHead uri http_host http_port ++
    "Pragma: no-cache,rate=1.000000,request-context=".toList ++ unsigned http_request_number ++
    "\r\nPragma: xPlayStrm=1\r\n".toList ++ CLIENTGUID.toList ++
    requestStreams count stream_selection

/-- The text that a stream adds to `stream_selection`. -/
def selectionEntry (audio_stream video_stream : ℤ) (s : Stream) : List Char :=
  "ffff:".toList ++ decimal s.stream_id ++
    (if s.stream_id = audio_stream ∨ s.stream_id = video_stream then ":0 " else ":2 ").toList

/-- The size of `stream_selection`. -/
def SELECTION_SIZE : ℕ := 10 * ASF_MAX_NUM_STREAMS

/-- The loop that makes `stream_selection`; an entry that would begin outside the buffer has no
defined result. -/
def stream_selection (audio_stream video_stream : ℤ) : List Stream → List Char → Option (List Char)
  | [], text => some (snprintf SELECTION_SIZE text)
  | s :: streams, text =>
      if text.length > SELECTION_SIZE then none
      else stream_selection audio_stream video_stream streams
        (text ++ selectionEntry audio_stream video_stream s)

/-! ## Answers -/

/-- `isspace`. -/
def isspace (c : Char) : Bool := c == ' ' || (9 ≤ c.toNat && c.toNat ≤ 13)

/-- A number of `sscanf`, which `strtol` reads. -/
def scanNumber (text : List Char) : Option (ℤ × List Char) :=
  let text := text.dropWhile isspace
  let rest := if text.head? = some '-' ∨ text.head? = some '+' then text.tail else text
  let digits := rest.takeWhile Char.isDigit
  if digits = [] then none
  else
    let n : ℤ := digits.foldl (fun n c ↦ 10 * n + (c.toNat - '0'.toNat : ℕ)) 0
    let n := if text.head? = some '-' then -n else n
    some (int32 (max (-2 ^ 63) (min n (2 ^ 63 - 1))), rest.dropWhile Char.isDigit)

/-- A literal of `sscanf`. -/
def scanLiteral (literal : String) (text : List Char) : Option (List Char) :=
  if literal.toList.isPrefixOf text then some (text.drop literal.length) else none

/-- `sscanf` of `HTTP/%d.%d %d %50[^\015\012]`: the third number, if there are all four. -/
def scanStatus (text : List Char) : Option ℤ := do
  let text ← scanLiteral "HTTP/" text
  let (_httpver, text) ← scanNumber text
  let text ← scanLiteral "." text
  let (_httpsub, text) ← scanNumber text
  let (httpcode, text) ← scanNumber text
  if ((text.dropWhile isspace).takeWhile fun c ↦ c ≠ '\r' ∧ c ≠ '\n') = [] then none
  else some httpcode

/-- `strncasecmp` of the length of the second text. -/
def strncasecmp (text : List Char) (word : String) : Bool :=
  (text.take word.length).map Char.toLower == word.toList.map Char.toLower

/-- `strstr`. -/
def strstr (text : List Char) (word : String) : Option (List Char) :=
  match text with
  | [] => if word.toList = [] then some [] else none
  | c :: text =>
      if word.toList.isPrefixOf (c :: text) then some (c :: text) else strstr text word

/-- `MMSH_UNKNOWN`, `MMSH_SEEKABLE` and `MMSH_LIVE`. -/
inductive Delivery where
  | unknown
  | seekable
  | live
  deriving DecidableEq

/-- What an answer says. -/
structure Features where
  stream_type : Delivery
  seekable : Bool
  deriving DecidableEq

/-- A line of an answer, up to the first NUL. -/
def answerLine (linenum : ℕ) (text : List Char) (f : Features) : Option Features :=
  if linenum = 1 then
    match scanStatus text with
    | none => none
    | some httpcode =>
        -- redirections are refused as well
        if httpcode < 200 ∨ httpcode ≥ 300 then none else some f
  else if strncasecmp text "Location: " then none
  else if strncasecmp text "Pragma:" then
    match strstr (text.drop 7) "features=" with
    | none => some f
    | some features =>
        if (strstr features "seekable").isSome then some ⟨.seekable, true⟩
        else if (strstr features "broadcast").isSome then some ⟨.live, false⟩
        else some f
  else some f

/-- The characters of a line: a carriage return at the end is dropped. -/
def dropReturn (line : List Byte) : List Byte :=
  if line.getLast? = some 13 then line.dropLast else line

/-- A string in a buffer. -/
def cstring (line : List Byte) : List Char :=
  (line.takeWhile (· ≠ 0)).map fun b ↦ Char.ofNat b.toNat

/-- The loop of `get_answer` over the bytes: whether it succeeds, what the answer says, and the
bytes behind it. -/
def answerLoop : List Byte → List Byte → ℕ → Features → Bool × Features × List Byte
  | [], _, _, f => (false, f, [])
  | b :: incoming, line, linenum, f =>
      if b = 10 then
        match answerLine (linenum + 1) (cstring (dropReturn line)) f with
        | none => (false, f, incoming)
        | some f =>
            if dropReturn line = [] then (true, f, incoming)
            else answerLoop incoming [] (linenum + 1) f
      else if line.length + 1 ≥ BUF_SIZE then (false, f, incoming)
      else answerLoop incoming (line ++ [b]) linenum f

/-- `get_answer`, with the value of `seekable` before it. -/
def get_answer (incoming : List Byte) (seekable : Bool) : Bool × Features × List Byte :=
  match answerLoop incoming [] 0 ⟨.unknown, seekable⟩ with
  | (true, f, rest) =>
      (true, if f.stream_type = .unknown then ⟨.seekable, true⟩ else f, rest)
  | (false, f, rest) => (false, f, rest)

/-- A complete answer is read up to its end. -/
theorem answerLoop_append {incoming rest line tail : List Byte} {linenum : ℕ} {f f' : Features}
    (h : answerLoop incoming line linenum f = (true, f', tail)) :
    answerLoop (incoming ++ rest) line linenum f = (true, f', tail ++ rest) := by
  induction incoming generalizing line linenum f with
  | nil => cases h
  | cons b incoming ih =>
      rw [answerLoop] at h
      rw [List.cons_append, answerLoop]
      split
      · rename_i hb
        rw [if_pos hb] at h
        split at h
        · cases h
        · split
          · rename_i hempty
            rw [if_pos hempty] at h
            cases h
            rfl
          · rename_i hempty
            rw [if_neg hempty] at h
            exact ih h
      · rename_i hb
        rw [if_neg hb] at h
        split
        · rename_i hlong
          rw [if_pos hlong] at h
          cases h
        · rename_i hlong
          rw [if_neg hlong] at h
          exact ih h

theorem get_answer_append {incoming rest tail : List Byte} {seekable : Bool} {f : Features}
    (h : get_answer incoming seekable = (true, f, tail)) :
    get_answer (incoming ++ rest) seekable = (true, f, tail ++ rest) := by
  rw [get_answer] at h ⊢
  split at h
  · rename_i hloop
    cases h
    rw [answerLoop_append hloop]
  · cases h

end CodeToolKit.Libmms
