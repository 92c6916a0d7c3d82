import CodeToolKit.Libmms.Http

/-!
# MMS over HTTP

A stream of `mmsh.c`.  The first request of a connection asks for the header, from which the
streams are chosen; the second one asks for the stream itself, in chunks.  Reading delivers the
header and then the packets, each filled up with zeros; seeking makes the two requests again,
unless the place is in the packet that is in the buffer.
-/

namespace CodeToolKit.Libmms

def CHUNK_HEADER_LENGTH : ℕ := 4
def CHUNK_TYPE_RESET : ℕ := 0x4324
def CHUNK_TYPE_DATA : ℕ := 0x4424
def CHUNK_TYPE_END : ℕ := 0x4524
def CHUNK_TYPE_ASF_HEADER : ℕ := 0x4824

/-- `MMSH_SUCCESS`, `MMSH_ERROR`, `EOS` and `GOT_HEADER_N_DATA`. -/
inductive Status where
  | success
  | error
  | eos
  | gotHeaderNData
  deriving DecidableEq

/-- What goes wrong other than by a result: `interp_asf_header` reads outside the header or does
not end, an entry of `stream_selection` begins outside the buffer, `memcpy` has a negative size, a
packet has no length, or the number of steps of the model does not suffice. -/
inductive Fault where
  | header
  | selection
  | copy
  | division
  | steps
  deriving DecidableEq

/-- The third argument of a seek. -/
inductive Origin where
  | SEEK_SET
  | SEEK_CUR
  | SEEK_END
  | other
  deriving DecidableEq

/-- `chunk_seq_number = -1`. -/
def NO_SEQ : ℕ := 2 ^ 32 - 1

/-- `mmsh_t`.  `buf` holds the `buf_size` bytes that are in use, and `connects` counts the calls of
`io_connect`. -/
structure Mmsh extends Asf where
  s : Option Socket
  connects : ℕ
  uri : List Char
  http_host : List Char
  http_port : ℤ
  http_request_number : ℤ
  stream_type : Delivery
  chunk_type : ℕ
  chunk_length : ℕ
  chunk_seq_number : ℕ
  buf : List Byte
  buf_read : ℕ
  asf_header_read : ℕ
  seekable : Bool
  current_pos : ℤ
  bandwidth : ℤ

/-- The bytes of a header are appended to those that were received. -/
def Asf.received (a : Asf) (data : List Byte) : Asf := { a with
  asf_header := fun i ↦
    if i < a.asf_header_len then a.asf_header i
    else data.getD (i - a.asf_header_len) (a.asf_header i)
  asf_header_len := a.asf_header_len + data.length }

/-- Four zeros in the header. -/
def Asf.clearBitrate (a : Asf) (bitrate_pos : ℤ) : Asf := { a with
  asf_header := fun i ↦
    if bitrate_pos ≤ (i : ℤ) ∧ (i : ℤ) < bitrate_pos + 4 then 0 else a.asf_header i }

/-- `mms_disable_disabled_streams_in_asf_header`. -/
def Asf.mms_disable_disabled_streams_in_asf_header (a : Asf) (audio_stream video_stream : ℤ) :
    Asf :=
  a.streams.foldl (fun a s ↦
    if (s.stream_id : ℤ) ≠ audio_stream ∧ (s.stream_id : ℤ) ≠ video_stream ∧ s.bitrate_pos ≠ 0 ∧
        s.bitrate_pos + 3 < (ASF_HEADER_SIZE : ℤ) then a.clearBitrate s.bitrate_pos
    else a) a

/-- Disabling streams changes nothing but bytes of the header. -/
theorem Asf.disable_eq (a : Asf) (audio_stream video_stream : ℤ) :
    ∃ header, a.mms_disable_disabled_streams_in_asf_header audio_stream video_stream =
      { a with asf_header := header } := by
  have hfold : ∀ (streams : List Stream) (b : Asf), ∃ header, streams.foldl (fun a s ↦
      if (s.stream_id : ℤ) ≠ audio_stream ∧ (s.stream_id : ℤ) ≠ video_stream ∧
          s.bitrate_pos ≠ 0 ∧ s.bitrate_pos + 3 < (ASF_HEADER_SIZE : ℤ) then
        a.clearBitrate s.bitrate_pos
      else a) b = { b with asf_header := header } := by
    intro streams
    induction streams with
    | nil => exact fun b ↦ ⟨b.asf_header, rfl⟩
    | cons s streams ih =>
        intro b
        rw [List.foldl_cons]
        split
        · obtain ⟨header, h⟩ := ih (b.clearBitrate s.bitrate_pos)
          exact ⟨header, h⟩
        · exact ih b
  exact hfold a.streams a

/-- A byte of the header depends on the byte that was there, and on the streams. -/
theorem Asf.disable_congr {a b : Asf} {audio_stream video_stream : ℤ} {i : ℕ}
    (hstreams : a.streams = b.streams) (hi : a.asf_header i = b.asf_header i) :
    (a.mms_disable_disabled_streams_in_asf_header audio_stream video_stream).asf_header i =
      (b.mms_disable_disabled_streams_in_asf_header audio_stream video_stream).asf_header i := by
  rw [mms_disable_disabled_streams_in_asf_header, mms_disable_disabled_streams_in_asf_header,
    hstreams]
  clear hstreams
  induction b.streams generalizing a b with
  | nil => exact hi
  | cons s streams ih =>
      rw [List.foldl_cons, List.foldl_cons]
      split
      · refine ih ?_
        rw [clearBitrate, clearBitrate]
        dsimp only
        rw [hi]
      · exact ih hi

namespace Mmsh

/-- `io_read`. -/
def io_read (m : Mmsh) (num : ℕ) : ℤ × List Byte × Mmsh :=
  match m.s with
  | none => (-1, [], m)
  | some s => ((s.io_read num).1, (s.io_read num).2.1, { m with s := some (s.io_read num).2.2 })

/-- `mms_tcp_connect`. -/
def mms_tcp_connect (net : Net) (m : Mmsh) : Bool × Mmsh :=
  match net m.connects with
  | none => (false, { m with s := none, connects := m.connects + 1 })
  | some answers =>
      (true, { m with s := some ⟨answers, [], false⟩, connects := m.connects + 1 })

/-- `send_command`. -/
def send_command (m : Mmsh) (cmd : List Char) : Bool × Mmsh :=
  match m.s.bind fun s ↦ (s.answers cmd).map fun a ↦ (⟨s.answers, a.bytes, a.broken⟩ : Socket) with
  | none => (false, m)
  | some s => (true, { m with s := some s })

/-- `get_answer`. -/
def get_answer (m : Mmsh) : Bool × Mmsh :=
  match m.s with
  | none => (false, { m with stream_type := .unknown })
  | some s =>
      let (ok, f, rest) := Libmms.get_answer s.incoming m.seekable
      (ok, { m with
        s := some { s with incoming := rest },
        stream_type := f.stream_type, seekable := f.seekable })

/-- `ext_header_len`. -/
def extHeaderLen (chunk_type : ℕ) : ℕ :=
  if chunk_type = CHUNK_TYPE_DATA then 8
  else if chunk_type = CHUNK_TYPE_END then 4
  else if chunk_type = CHUNK_TYPE_ASF_HEADER then 8
  else if chunk_type = CHUNK_TYPE_RESET then 4
  else 0

/-- The extended header of `get_chunk_header`. -/
def extHeader (m : Mmsh) : Status × Mmsh :=
  let ext_header_len := extHeaderLen m.chunk_type
  let (read_len, ext_header, m) := m.io_read ext_header_len
  if read_len ≠ ext_header_len then (.error, m)
  else
    (.success, { m with
      chunk_seq_number :=
        if m.chunk_type = CHUNK_TYPE_DATA ∨ m.chunk_type = CHUNK_TYPE_END then
          (LE_32 fun i ↦ ext_header.getD i 0).toNat
        else m.chunk_seq_number
      -- in 16 bits
      chunk_length := (m.chunk_length + 2 ^ 16 - ext_header_len) % 2 ^ 16 })

/-- `get_chunk_header`. -/
def get_chunk_header (m : Mmsh) : Status × Mmsh :=
  let (read_len, chunk_header, m) := m.io_read CHUNK_HEADER_LENGTH
  if read_len ≠ CHUNK_HEADER_LENGTH then (if read_len = 0 then .eos else .error, m)
  else { m with
    chunk_type := (LE_16 fun i ↦ chunk_header.getD i 0).toNat
    chunk_length := (LE_16 fun i ↦ chunk_header.getD (2 + i) 0).toNat
    chunk_seq_number := NO_SEQ }.extHeader

/-- The data of a chunk, which are padded to the length of a packet. -/
def dataPacket (m : Mmsh) : Status × Mmsh :=
  let (len, data, m) := m.io_read m.chunk_length
  if len ≠ m.chunk_length then (.error, m)
  else if m.chunk_length > m.asf_packet_len then (.error, m)
  else (.success, { m with
    buf := data ++ List.replicate (m.asf_packet_len - m.chunk_length) 0 })

/-- The data of a chunk, which are appended to the header, and whether all of them came. -/
def receiveHeader (m : Mmsh) : Bool × Mmsh :=
  let (len, data, m) := m.io_read m.chunk_length
  (len = m.chunk_length, { m with toAsf := m.toAsf.received data })

/-- The loop of `get_header` over the chunks of the header, for a number of iterations. -/
def headerChunks : ℕ → Mmsh → Except Fault (Status × Mmsh)
  | 0, _ => .error .steps
  | fuel + 1, m =>
      match m.get_chunk_header with
      | (.success, m) =>
          if m.chunk_type = CHUNK_TYPE_ASF_HEADER then
            if m.asf_header_len + m.chunk_length > ASF_HEADER_SIZE then .ok (.error, m)
            else match m.receiveHeader with
              | (false, m) => .ok (.error, m)
              | (true, m) =>
                  match m.toAsf.interp_asf_header with
                  | none => .error .header
                  | some a => headerChunks fuel { m with toAsf := a }
          else .ok (.success, m)
      | (status, m) => .ok (status, m)

/-- The number of bytes that are still to be received. -/
def left (m : Mmsh) : ℕ := (m.s.map fun s ↦ s.incoming.length).getD 0

/-- `get_header`. -/
def get_header (m : Mmsh) : Except Fault (Status × Mmsh) :=
  match headerChunks (m.left + 1)
      { m with asf_header_len := 0, asf_header_read := 0, buf := [] } with
  | .error f => .error f
  | .ok (.success, m) =>
      if m.chunk_type = CHUNK_TYPE_DATA then .ok m.dataPacket else .ok (.error, m)
  | .ok (status, m) => .ok (status, m)

/-- `fail`. -/
def failed (m : Mmsh) : Bool × Mmsh := (false, { m with s := none })

/-- A request, its answer, and the header that follows. -/
def exchange (m : Mmsh) (cmd : List Char) : Except Fault (Status × Mmsh) :=
  match m.send_command cmd with
  | (false, m) => .ok (.error, m)
  | (true, m) =>
      match m.get_answer with
      | (false, m) => .ok (.error, m)
      | (true, m) => m.get_header

/-- The text of the first request. -/
def firstText (m : Mmsh) : List Char :=
  snprintf SCRATCH_SIZE (mmsh_FirstRequest m.uri m.http_host m.http_port m.http_request_number)

/-- The first request of `mmsh_connect_int`. -/
def firstRequest (net : Net) (m : Mmsh) : Except Fault (Bool × Mmsh) :=
  match mms_tcp_connect net { m with s := none } with
  | (false, m) => .ok (false, m)
  | (true, m) =>
      match { m with streams := [], http_request_number := m.http_request_number + 1 }.exchange
          m.firstText with
      | .error f => .error f
      -- the end of the connection is no error here
      | .ok (.error, m) => .ok m.failed
      | .ok (_, m) =>
          if m.asf_packet_len = 0 ∨ m.streams = [] then .ok m.failed else .ok (true, m)

/-- The text of the second request. -/
def secondText (m : Mmsh) (seek time_seek : ℤ) (stream_selection : List Char) : List Char :=
  snprintf SCRATCH_SIZE <| match m.stream_type with
    | .seekable => mmsh_SeekableRequest m.uri m.http_host m.http_port time_seek seek
        m.http_request_number m.streams.length stream_selection
    | .live => mmsh_LiveRequest m.uri m.http_host m.http_port m.http_request_number
        m.streams.length stream_selection
    -- the first request is still in the buffer
    | .unknown => mmsh_FirstRequest m.uri m.http_host m.http_port (m.http_request_number - 1)

/-- The second request of `mmsh_connect_int`. -/
def secondRequest (net : Net) (m : Mmsh) (seek time_seek : ℤ) : Except Fault (Bool × Mmsh) :=
  let (audio_stream, video_stream) := mms_get_best_stream_ids m.toAsf m.bandwidth
  match mms_tcp_connect net { m with s := none } with
  | (false, m) => .ok (false, m)
  | (true, m) =>
      match stream_selection audio_stream video_stream m.streams [] with
      | none => .error .selection
      | some selection =>
          let number :=
            if m.stream_type = .unknown then m.http_request_number else m.http_request_number + 1
          match { m with http_request_number := number }.exchange
              (m.secondText seek time_seek selection) with
          | .error f => .error f
          | .ok (.success, m) =>
              if m.asf_packet_len = 0 ∨ m.streams = [] then .ok m.failed
              else .ok (true, { m with
                toAsf := m.toAsf.mms_disable_disabled_streams_in_asf_header audio_stream
                  video_stream })
          | .ok (_, m) => .ok m.failed

/-- `mmsh_connect_int`. -/
def mmsh_connect_int (net : Net) (m : Mmsh) (seek time_seek : ℤ) : Except Fault (Bool × Mmsh) :=
  match firstRequest net m with
  | .error f => .error f
  | .ok (false, m) => .ok (false, m)
  | .ok (true, m) => secondRequest net m seek time_seek

/-- `get_media_packet`. -/
def get_media_packet (net : Net) (m : Mmsh) : Except Fault (Status × Mmsh) :=
  match m.get_chunk_header with
  | (.success, m) =>
      if m.chunk_type = CHUNK_TYPE_END then
        if m.chunk_seq_number = 0 then .ok (.eos, { m with chunk_seq_number := NO_SEQ })
        else
          match mmsh_connect_int net { m with http_request_number := 1, chunk_seq_number := NO_SEQ }
              0 0 with
          | .error f => .error f
          | .ok (false, m) => .ok (.error, m)
          | .ok (true, m) => .ok (.gotHeaderNData, { m with seekable := false })
      else if m.chunk_type = CHUNK_TYPE_DATA then .ok m.dataPacket
      else if m.chunk_type = CHUNK_TYPE_RESET then
        if m.chunk_length ≠ 0 then .ok (.error, m)
        else
          match m.get_header with
          | .error f => .error f
          | .ok (.success, m) =>
              match m.toAsf.interp_asf_header with
              | none => .error .header
              | some a => .ok (.gotHeaderNData, { m with toAsf := a, seekable := false })
          | .ok (status, m) => .ok (status, m)
      else .ok (.error, m)
  | (status, m) => .ok (status, m)

/-- The bytes of the header from `asf_header_read` on. -/
def headerLeft (m : Mmsh) : List Byte :=
  (List.range (m.asf_header_len - m.asf_header_read)).map fun i ↦
    m.asf_header (m.asf_header_read + i)

/-- `bytes_left`, of the packet in the buffer. -/
def bytes_left (m : Mmsh) : ℤ := m.buf.length - m.buf_read

/-- The next packet, if all of the buffer was read. -/
def nextPacket (net : Net) (m : Mmsh) : Except Fault (Status × Mmsh) :=
  if m.bytes_left = 0 then get_media_packet net { m with buf := [], buf_read := 0 }
  else .ok (.success, m)

/-- The loop of `mmsh_read` for `left` bytes, for a number of iterations. -/
def readLoop (net : Net) : ℕ → ℕ → Mmsh → Except Fault (List Byte × Mmsh)
  | 0, _, _ => .error .steps
  | fuel + 1, left, m =>
      if left = 0 then .ok ([], m)
      else if m.asf_header_read < m.asf_header_len then
        let n := min left (m.asf_header_len - m.asf_header_read)
        (readLoop net fuel (left - n) { m with
          asf_header_read := m.asf_header_read + n, current_pos := m.current_pos + n }).map
            fun r ↦ (m.headerLeft.take n ++ r.1, r.2)
      else match nextPacket net m with
        | .error f => .error f
        | .ok (.success, m) =>
            if m.bytes_left < 0 then .error .copy
            else
              let n := min left m.bytes_left.toNat
              (readLoop net fuel (left - n) { m with
                buf_read := m.buf_read + n, current_pos := m.current_pos + n }).map
                  fun r ↦ ((m.buf.drop m.buf_read).take n ++ r.1, r.2)
        | .ok (.gotHeaderNData, m) => readLoop net fuel left m
        | .ok (_, m) => .ok ([], m)

/-- `mmsh_read`: the bytes that are read. -/
def mmsh_read (net : Net) (fuel : ℕ) (m : Mmsh) (len : ℤ) : Except Fault (List Byte × Mmsh) :=
  if m.s.isNone then .ok ([], m) else readLoop net fuel len.toNat m

/-- The requests of a seek are made, and the header must be as long as before. -/
def reopen (net : Net) (m : Mmsh) (seek time_seek : ℤ) : Except Fault (Bool × Mmsh) :=
  match mmsh_connect_int net m seek time_seek with
  | .error f => .error f
  | .ok (false, m) => .ok (false, { m with current_pos := -1 })
  | .ok (true, m') =>
      if m'.asf_header_len ≠ m.asf_header_len ∨ m'.asf_packet_len ≠ m.asf_packet_len then
        .ok (false, { m' with s := none, current_pos := -1 })
      else .ok (true, m')

/-- `mmsh_seek` to a place in the header. -/
def seekHeader (net : Net) (m : Mmsh) (dest : ℤ) : Except Fault (ℤ × Mmsh) :=
  match if m.chunk_seq_number > 0 then reopen net m 0 0 else .ok (true, m) with
  | .error f => .error f
  | .ok (false, m) => .ok (m.current_pos, m)
  | .ok (true, m) => .ok (dest, { m with
      buf_read := 0, asf_header_read := (dest % 2 ^ 32).toNat, current_pos := dest })

/-- `mmsh_seek`, once the right packet was asked for. -/
def seekPacket (m : Mmsh) (dest dest_packet_seq : ℤ) : ℤ × Mmsh :=
  let m := { m with asf_header_read := m.asf_header_len }
  let m :=
    if dest_packet_seq = m.chunk_seq_number then { m with
      -- never negative: the packet begins at `dest` or before
      buf_read := (dest - (m.asf_header_len + dest_packet_seq * m.asf_packet_len)).toNat
      current_pos := dest }
    else { m with
      buf_read := 0
      current_pos :=
        ((m.asf_header_len + m.chunk_seq_number * m.asf_packet_len) % 2 ^ 32 : ℕ) }
  (m.current_pos, m)

/-- `dest_packet_seq` of a place behind the header, where the end of the last packet is in that
packet. -/
def destPacket (m : Mmsh) (dest : ℤ) : ℤ :=
  let dest_packet_seq := (dest - m.asf_header_len) / m.asf_packet_len
  if m.asf_num_packets ≠ 0 ∧
      uint64 dest = uint64 (m.asf_header_len + m.asf_num_packets * m.asf_packet_len) then
    dest_packet_seq - 1
  else dest_packet_seq

/-- `mmsh_seek` to a place, when the stream can be sought in. -/
def seekTo (net : Net) (m : Mmsh) (dest : ℤ) : Except Fault (ℤ × Mmsh) :=
  if dest < m.asf_header_len then seekHeader net m dest
  else if m.asf_packet_len = 0 then .error .division
  else
    let dest_packet_seq := m.destPacket dest
    if dest_packet_seq = m.chunk_seq_number then .ok (m.seekPacket dest dest_packet_seq)
    else if m.asf_num_packets ≠ 0 ∧ uint64 dest_packet_seq ≥ m.asf_num_packets then
      .ok (m.current_pos, m)
    else match reopen net m (m.asf_header_len + dest_packet_seq * m.asf_packet_len) 0 with
      | .error f => .error f
      | .ok (false, m) => .ok (m.current_pos, m)
      | .ok (true, m) => .ok (m.seekPacket dest dest_packet_seq)

/-- `dest`, if there is one. -/
def seekDest (m : Mmsh) (offset : ℤ) : Origin → Option ℤ
  | .SEEK_SET => some offset
  | .SEEK_CUR => some (m.current_pos + offset)
  -- the case of `SEEK_END` runs into the default
  | .SEEK_END => none
  | .other => none

/-- `mmsh_seek`. -/
def mmsh_seek (net : Net) (m : Mmsh) (offset : ℤ) (origin : Origin) : Except Fault (ℤ × Mmsh) :=
  if m.seekable = false then .ok (m.current_pos, m)
  else match m.seekDest offset origin with
    | none => .ok (m.current_pos, m)
    | some dest => seekTo net m dest

/-- `mmsh_time_seek`, with the time in milliseconds and the preroll. -/
def mmsh_time_seek (net : Net) (m : Mmsh) (time_seek : ℤ) : Except Fault (Bool × Mmsh) :=
  if m.seekable = false then .ok (false, m)
  else match reopen net m 0 time_seek with
    | .error f => .error f
    | .ok (false, m) => .ok (false, m)
    | .ok (true, m) => .ok (true, { m with
        asf_header_read := m.asf_header_len
        buf_read := 0
        current_pos :=
          ((m.asf_header_len + m.chunk_seq_number * m.asf_packet_len) % 2 ^ 32 : ℕ) })

/-- The fields that `mmsh_connect` sets before it connects. -/
def init (uri http_host : List Char) (http_port bandwidth : ℤ) : Mmsh where
  toAsf := .ofBytes []
  s := none
  connects := 0
  uri := uri
  http_host := http_host
  http_port := http_port
  http_request_number := 1
  stream_type := .unknown
  chunk_type := 0
  chunk_length := 0
  chunk_seq_number := NO_SEQ
  buf := []
  buf_read := 0
  asf_header_read := 0
  seekable := false
  current_pos := 0
  bandwidth := bandwidth

end Mmsh

end CodeToolKit.Libmms
