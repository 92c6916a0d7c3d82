import CodeToolKit.Libmms.MmshSeek
import CodeToolKit.Libmms.Server

/-!
# Playing a film

A server that answers the requests of `mmsh.c`, with the header of a film and its packets from the
one that was asked for, lets a program read and seek in the film as in a file: the header, without
the bitrates of the streams that were not chosen, and the padded packets (`play_film`).  Unlike a
file, it has no seek relative to the end, and none behind the end: these change nothing.
-/

namespace CodeToolKit.Libmms

open Lib

/-- The packet that a request for a place is for. -/
def Film.Place (f : Film) (seek : ℤ) (k : ℕ) : Prop :=
  k < f.packets.length ∧ (seek = f.header.length + k * f.packet_len ∨ (seek = 0 ∧ k = 0))

/-- A server with a film: every connection answers the first request with the header, and the
second one with the header and the packets from the place on. -/
def Film.Served (f : Film) (net : Net) (uri http_host : List Char) (http_port : ℤ) : Prop :=
  ∀ n : ℕ, ∃ answers, net n = some answers ∧
    answers (snprintf SCRATCH_SIZE (mmsh_FirstRequest uri http_host http_port (n + 1))) =
      some ⟨f.answer ++ f.headerChunk, false⟩ ∧
    ∀ seek k selection, f.Place seek k →
      stream_selection f.choice.1 f.choice.2 f.streams [] = some selection →
      answers (snprintf SCRATCH_SIZE (mmsh_SeekableRequest uri http_host http_port 0 seek (n + 1)
        f.streams.length selection)) = some ⟨f.answer ++ (f.headerChunk ++ f.chunksFrom k), false⟩

namespace Mmsh

/-- The server of a stream has the film, and the requests are numbered like the connections. -/
structure Playing (net : Net) (f : Film) (m : Mmsh) : Prop where
  valid : f.Valid m.bandwidth
  served : f.Served net m.uri m.http_host m.http_port
  number : m.http_request_number = m.connects + 1

variable {net : Net} {f : Film} {m : Mmsh}

/-- A request that is answered. -/
theorem exchange_film (hf : f.Valid m.bandwidth) {answers : List Char → Option Answer}
    {cmd : List Char} {body : List Byte} (hs : m.s = some ⟨answers, [], false⟩)
    (hcmd : answers cmd = some ⟨f.answer ++ body, false⟩) :
    m.exchange cmd = { m with
      s := some ⟨answers, body, false⟩,
      stream_type := .seekable, seekable := true }.get_header := by
  have hsend : m.send_command cmd =
      (true, { m with s := some ⟨answers, f.answer ++ body, false⟩ }) := by
    rw [send_command, hs, Option.bind_some]
    dsimp only
    rw [hcmd]
    rfl
  rw [exchange, hsend]
  dsimp only
  rw [get_answer]
  dsimp only
  rw [get_answer_append (hf.answer m.seekable)]
  rfl

theorem firstRequest_film (hm : Playing net f m) :
    ∃ a s type length seq, f.Described m.bandwidth a ∧ firstRequest net m = .ok (true, { m with
      toAsf := a
      s := s
      connects := m.connects + 1
      http_request_number := m.http_request_number + 1
      stream_type := .seekable
      chunk_type := type
      chunk_length := length
      chunk_seq_number := seq
      buf := []
      asf_header_read := 0
      seekable := true }) := by
  obtain ⟨answers, hnet, hfirst, -⟩ := hm.served m.connects
  have hcmd : answers (firstText m) = some ⟨f.answer ++ f.headerChunk, false⟩ := by
    rw [firstText, hm.number]
    exact hfirst
  have hexchange := exchange_film (m := { m with
    streams := []
    s := some ⟨answers, [], false⟩
    connects := m.connects + 1
    http_request_number := m.http_request_number + 1 }) hm.valid rfl hcmd
  obtain ⟨m', hheader, hb, a, s, type, length, seq, rfl⟩ :=
    get_header_describe (f := f) (m := { m with
      streams := []
      s := some ⟨answers, f.headerChunk, false⟩
      connects := m.connects + 1
      http_request_number := m.http_request_number + 1
      stream_type := .seekable
      seekable := true }) hm.valid rfl
  have hopen : ¬ (a.asf_packet_len = 0 ∨ a.streams = []) := by
    rw [hb.packet_len, hb.streams, not_or]
    exact ⟨hm.valid.packet_len.ne', hm.valid.streams⟩
  refine ⟨a, s, type, length, seq, hb, ?_⟩
  rw [firstRequest, mms_tcp_connect]
  dsimp only
  rw [hnet]
  dsimp only
  rw [firstText] at hexchange ⊢
  rw [hexchange, hheader]
  exact if_neg hopen

theorem secondRequest_film (hm : Playing net f m) (ha : f.Described m.bandwidth m.toAsf)
    (htype : m.stream_type = .seekable) {seek : ℤ} {k : ℕ} (hplace : f.Place seek k) :
    ∃ b answers length, f.Described m.bandwidth b ∧ secondRequest net m seek 0 = .ok (true, { m with
      toAsf := b.mms_disable_disabled_streams_in_asf_header f.choice.1 f.choice.2
      s := some ⟨answers, f.chunksFrom (k + 1), false⟩
      connects := m.connects + 1
      http_request_number := m.http_request_number + 1
      stream_type := .seekable
      chunk_type := CHUNK_TYPE_DATA
      chunk_length := length
      chunk_seq_number := k
      buf := f.pad (f.packets.getD k [])
      asf_header_read := 0
      seekable := true }) := by
  obtain ⟨answers, hnet, -, hsecond⟩ := hm.served m.connects
  obtain ⟨selection, hselection⟩ := Option.isSome_iff_exists.mp hm.valid.selection
  have hcmd : answers (m.secondText seek 0 selection) =
      some ⟨f.answer ++ (f.headerChunk ++ f.chunksFrom k), false⟩ := by
    rw [secondText, htype, hm.number, ha.streams]
    exact hsecond seek k selection hplace hselection
  have hexchange := exchange_film (m := { m with
    s := some ⟨answers, [], false⟩
    connects := m.connects + 1
    http_request_number := m.http_request_number + 1 }) hm.valid rfl hcmd
  obtain ⟨b, length, hb, hheader⟩ :=
    get_header_play (f := f) (m := { m with
      s := some ⟨answers, f.headerChunk ++ f.chunksFrom k, false⟩
      connects := m.connects + 1
      http_request_number := m.http_request_number + 1
      stream_type := .seekable
      seekable := true }) hm.valid hplace.1 rfl
  have hopen : ¬ (b.asf_packet_len = 0 ∨ b.streams = []) := by
    rw [hb.packet_len, hb.streams, not_or]
    exact ⟨hm.valid.packet_len.ne', hm.valid.streams⟩
  refine ⟨b, answers, length, hb, ?_⟩
  rw [secondRequest, mms_tcp_connect]
  dsimp only
  rw [hnet]
  dsimp only
  rw [ha.choice, ha.streams, hselection]
  dsimp only
  have htext : secondText { m with s := some ⟨answers, [], false⟩, connects := m.connects + 1 }
      seek 0 selection = m.secondText seek 0 selection := rfl
  rw [if_neg (by rw [htype]; decide), htext, hexchange, hheader]
  dsimp only
  rw [if_neg hopen, List.getD_eq_getElem?_getD, List.getElem?_eq_getElem hplace.1, Option.getD_some]

/-- The stream was opened at a packet. -/
theorem connect_film (hm : Playing net f m) {seek : ℤ} {k : ℕ} (hplace : f.Place seek k) :
    ∃ b answers length, f.Described m.bandwidth b ∧ mmsh_connect_int net m seek 0 =
      .ok (true, { m with
        toAsf := b.mms_disable_disabled_streams_in_asf_header f.choice.1 f.choice.2
        s := some ⟨answers, f.chunksFrom (k + 1), false⟩
        connects := m.connects + 1 + 1
        http_request_number := m.http_request_number + 1 + 1
        stream_type := .seekable
        chunk_type := CHUNK_TYPE_DATA
        chunk_length := length
        chunk_seq_number := k
        buf := f.pad (f.packets.getD k [])
        asf_header_read := 0
        seekable := true }) := by
  obtain ⟨a, s, type, length, seq, ha, hfirst⟩ := firstRequest_film hm
  have hm' : Playing net f { m with
      toAsf := a
      s := s
      connects := m.connects + 1
      http_request_number := m.http_request_number + 1
      stream_type := .seekable
      chunk_type := type
      chunk_length := length
      chunk_seq_number := seq
      buf := []
      asf_header_read := 0
      seekable := true } :=
    ⟨hm.valid, hm.served, by
      have hnumber := hm.number
      dsimp only
      omega⟩
  obtain ⟨b, answers, length', hb, hsecond⟩ := secondRequest_film hm' ha rfl hplace
  refine ⟨b, answers, length', hb, ?_⟩
  rw [mmsh_connect_int, hfirst]
  exact hsecond

/-! ## Positions -/

/-- The stream is in a packet. -/
structure InPacket (f : Film) (m : Mmsh) (k : ℕ) : Prop where
  lt : k < f.packets.length
  seq : m.chunk_seq_number = k
  buf : m.buf = f.pad (f.packets.getD k [])
  incoming : ∃ answers, m.s = some ⟨answers, f.chunksFrom (k + 1), false⟩

/-- The first `r` bytes of the packet were read. -/
structure AtPacket (f : Film) (m : Mmsh) (k r : ℕ) : Prop extends InPacket f m k where
  le : r ≤ f.packet_len
  buf_read : m.buf_read = r

/-- The stream came to the end of the connection. -/
structure AtEnd (m : Mmsh) : Prop where
  seq : m.chunk_seq_number = NO_SEQ
  buf : m.buf = []
  buf_read : m.buf_read = 0
  incoming : ∃ answers, m.s = some ⟨answers, [], false⟩

/-- Where a stream is that has delivered the content up to a position: in the header, in a packet,
or at the end. -/
inductive Stands (f : Film) (m : Mmsh) : ℕ → Prop
  | header {pos : ℕ} (hpos : pos < f.header.length) (hread : m.asf_header_read = pos)
      (hpacket : AtPacket f m 0 0) : Stands f m pos
  | packet {k r : ℕ} (hread : m.asf_header_read = f.header.length) (hpacket : AtPacket f m k r) :
      Stands f m (f.header.length + (k * f.packet_len + r))
  | ended (hread : m.asf_header_read = f.header.length) (hend : AtEnd m) :
      Stands f m (f.header.length + f.packets.length * f.packet_len)

/-- The stream was opened. -/
structure Opened (net : Net) (f : Film) (m : Mmsh) : Prop extends Playing net f m where
  header_len : m.asf_header_len = f.header.length
  packet_len : m.asf_packet_len = f.packet_len
  num_packets : m.asf_num_packets = f.packets.length
  visible : (List.range f.header.length).map m.asf_header = f.visible
  seekable : m.seekable = true

/-- A stream that has delivered the content up to a position. -/
structure At (net : Net) (f : Film) (pos : ℕ) (m : Mmsh) : Prop extends Opened net f m where
  current_pos : m.current_pos = pos
  stands : Stands f m pos

/-- The header is delivered as it was disabled. -/
theorem visible_disable {bandwidth : ℤ} {b : Asf} (hb : f.Described bandwidth b)
    (hsize : f.header.length ≤ ASF_HEADER_SIZE) : (List.range f.header.length).map
      (b.mms_disable_disabled_streams_in_asf_header f.choice.1 f.choice.2).asf_header =
        f.visible := by
  rw [Film.visible]
  refine List.map_congr_left fun i hi ↦ Asf.disable_congr hb.streams ?_
  have hi : i < f.header.length := List.mem_range.mp hi
  have hbyte := hb.contains.2.2 i hi
  have hbyte' := (Asf.contains_ofBytes hsize).2.2 i hi
  rw [Int.toNat_zero, Nat.zero_add] at hbyte hbyte'
  exact hbyte.trans hbyte'.symm

/-- A request for a place opens the stream in the packet. -/
theorem connect_opened (hm : Playing net f m) {seek : ℤ} {k : ℕ} (hplace : f.Place seek k) :
    ∃ m', mmsh_connect_int net m seek 0 = .ok (true, m') ∧ Opened net f m' ∧ InPacket f m' k ∧
      m'.asf_header_read = 0 ∧ (m'.buf_read, m'.current_pos) = (m.buf_read, m.current_pos) := by
  obtain ⟨b, answers, length, hb, hconnect⟩ := connect_film hm hplace
  refine ⟨_, hconnect, ?_, ⟨hplace.1, rfl, rfl, answers, rfl⟩, rfl, rfl⟩
  have hvisible := visible_disable hb hm.valid.header
  obtain ⟨header, hdisable⟩ := b.disable_eq f.choice.1 f.choice.2
  rw [hdisable] at hvisible ⊢
  exact {
    valid := hm.valid
    served := hm.served
    number := by
      have hnumber := hm.number
      dsimp only
      omega
    header_len := hb.header_len
    packet_len := hb.packet_len
    num_packets := hb.num_packets
    visible := hvisible
    seekable := rfl }

theorem length_visible : f.visible.length = f.header.length := by
  rw [Film.visible, List.length_map, List.length_range]

theorem length_pad {bandwidth : ℤ} (hf : f.Valid bandwidth) {p : List Byte} (hp : p ∈ f.packets) :
    (f.pad p).length = f.packet_len := by
  rw [Film.pad, List.length_append, List.length_replicate, Nat.add_sub_cancel' (hf.packet p hp).1]

/-- A place in pieces of the same length. -/
theorem drop_flatMap {α β : Type} {g : α → List β} {len r : ℕ} {l : List α}
    (hlen : ∀ x ∈ l, (g x).length = len) (hr : r ≤ len) {k : ℕ} (hk : k < l.length) :
    (l.flatMap g).drop (k * len + r) = (g l[k]).drop r ++ (l.drop (k + 1)).flatMap g := by
  induction l generalizing k with
  | nil => cases hk
  | cons x l ih =>
      obtain ⟨hx, hl⟩ := List.forall_mem_cons.mp hlen
      rw [List.flatMap_cons]
      cases k with
      | zero =>
          rw [Nat.zero_mul, Nat.zero_add, List.drop_append_of_le_length (by omega)]
          rfl
      | succ k =>
          have hplace : (k + 1) * len + r = (g x).length + (k * len + r) := by
            rw [Nat.succ_mul, hx]
            omega
          rw [hplace, List.drop_length_add_append, ih hl (Nat.lt_of_succ_lt_succ hk)]
          rfl

theorem length_content {bandwidth : ℤ} (hf : f.Valid bandwidth) :
    f.content.length = f.header.length + f.packets.length * f.packet_len := by
  rw [Film.content, List.length_append, length_visible, List.length_flatMap,
    List.map_congr_left (g := fun _ ↦ f.packet_len) fun p hp ↦ length_pad hf hp, List.map_const',
    List.sum_replicate]
  rfl

/-- What follows a place in a packet. -/
theorem drop_content {bandwidth : ℤ} (hf : f.Valid bandwidth) {k r : ℕ}
    (hk : k < f.packets.length) (hr : r ≤ f.packet_len) :
    f.content.drop (f.header.length + (k * f.packet_len + r)) =
      (f.pad f.packets[k]).drop r ++ (f.packets.drop (k + 1)).flatMap f.pad := by
  rw [Film.content, ← length_visible, List.drop_length_add_append,
    drop_flatMap (fun p hp ↦ length_pad hf hp) hr hk]

/-! ## Reading -/

variable {pos : ℕ}

theorem At.headerLeft_eq (h : At net f pos m) :
    m.headerLeft = f.visible.drop m.asf_header_read := by
  refine List.ext_getElem ?_ fun i hi hi' ↦ ?_
  · rw [length_headerLeft, List.length_drop, length_visible, h.header_len]
  · simp only [headerLeft, ← h.visible, List.getElem_map, List.getElem_range, List.getElem_drop]

/-- Something of the content is found. -/
def Finds (net : Net) (f : Film) (pos : ℕ) (m : Mmsh) : Prop :=
  ∃ data after rest, supply net m = .elements data after ∧ data ≠ [] ∧
    f.content.drop pos = data ++ rest ∧ ∀ n ≤ data.length, At net f (pos + n) (after n)

theorem At.finds_header (h : At net f pos m) (hpos : pos < f.header.length)
    (hread : m.asf_header_read = pos) (hpacket : AtPacket f m 0 0) : Finds net f pos m := by
  have hlen : m.headerLeft.length = f.header.length - pos := by
    rw [length_headerLeft, h.header_len, hread]
  refine ⟨m.headerLeft, m.tookHeader, f.packets.flatMap f.pad, ?_, ?_, ?_, fun n hn ↦ ?_⟩
  · rw [supply, if_pos (by rw [hread, h.header_len]; exact hpos)]
  · exact List.ne_nil_of_length_pos (by omega)
  · rw [h.headerLeft_eq, hread, Film.content,
      List.drop_append_of_le_length (by rw [length_visible]; exact hpos.le)]
  · refine { h with current_pos := ?_, stands := ?_ }
    · rw [tookHeader]
      dsimp only
      rw [h.current_pos, Nat.cast_add]
    · have hread' : (m.tookHeader n).asf_header_read = pos + n := by
        rw [tookHeader]
        dsimp only
        rw [hread]
      rcases Nat.lt_or_ge (pos + n) f.header.length with hlt | hge
      · exact .header hlt hread' { hpacket with }
      · have heq : pos + n = f.header.length + (0 * f.packet_len + 0) := by omega
        rw [heq]
        exact .packet (hread'.trans (by omega)) { hpacket with }

/-- In a packet the rest of it is found. -/
theorem At.finds_packet (h : At net f pos m) {k r : ℕ} (hread : m.asf_header_read = f.header.length)
    (hpacket : AtPacket f m k r) (hr : r < f.packet_len)
    (hpos : pos = f.header.length + (k * f.packet_len + r)) {m₀ : Mmsh}
    (hheader : ¬ m₀.asf_header_read < m₀.asf_header_len)
    (hnext : nextPacket net m₀ = .ok (.success, m)) : Finds net f pos m₀ := by
  have hk := hpacket.lt
  have hbuf : m.buf = f.pad f.packets[k] := by
    rw [hpacket.buf, List.getD_eq_getElem?_getD, List.getElem?_eq_getElem hpacket.lt,
      Option.getD_some]
  have hlen : m.buf.length = f.packet_len := by
    rw [hbuf, length_pad h.valid (List.getElem_mem _)]
  have hleft : (m.buf.drop r).length = f.packet_len - r := by rw [List.length_drop, hlen]
  refine ⟨m.buf.drop r, m.tookPacket, (f.packets.drop (k + 1)).flatMap f.pad, ?_, ?_, ?_,
    fun n hn ↦ ?_⟩
  · rw [supply, if_neg hheader, hnext]
    dsimp only
    rw [if_neg (by rw [bytes_left, hpacket.buf_read]; omega), hpacket.buf_read]
  · exact List.ne_nil_of_length_pos (by omega)
  · rw [hpos, drop_content h.valid hpacket.lt hr.le, hbuf]
  · refine { h with current_pos := ?_, stands := ?_ }
    · rw [tookPacket]
      dsimp only
      rw [h.current_pos, Nat.cast_add]
    · have heq : pos + n = f.header.length + (k * f.packet_len + (r + n)) := by omega
      rw [heq]
      refine .packet hread { hpacket with le := by omega, buf_read := ?_ }
      rw [tookPacket]
      dsimp only
      rw [hpacket.buf_read]

/-- The next packet is received. -/
theorem At.next (h : At net f pos m) {k : ℕ} (hk : k < f.packets.length)
    (hpos : pos = f.header.length + (k * f.packet_len + 0))
    (hread : m.asf_header_read = f.header.length) {answers : List Char → Option Answer}
    (hs : m.s = some ⟨answers, f.chunksFrom k, false⟩) :
    ∃ m', get_media_packet net { m with buf := [], buf_read := 0 } = .ok (.success, m') ∧
      m'.asf_header_read = f.header.length ∧ AtPacket f m' k 0 ∧ At net f pos m' := by
  have hchunk := get_chunk_header_data h.valid hk (m := { m with buf := [], buf_read := 0 }) hs
  have hle := (h.valid.packet _ (List.getElem_mem hk)).1
  have hget : f.packets.getD k [] = f.packets[k] := by
    rw [List.getD_eq_getElem?_getD, List.getElem?_eq_getElem hk, Option.getD_some]
  have hpacket : AtPacket f { m with
      s := some ⟨answers, f.chunksFrom (k + 1), false⟩
      chunk_type := CHUNK_TYPE_DATA
      chunk_length := f.packets[k].length
      chunk_seq_number := k
      buf := f.pad (f.packets.getD k [])
      buf_read := 0 } k 0 := ⟨⟨hk, rfl, rfl, answers, rfl⟩, Nat.zero_le _, rfl⟩
  refine ⟨_, ?_, ?_, hpacket, { h with stands := hpos ▸ .packet hread hpacket }⟩
  swap
  · exact hread
  rw [get_media_packet, hchunk]
  dsimp only
  rw [if_neg (by decide), if_pos rfl, dataPacket_chunk rfl rfl (h.packet_len.symm ▸ hle), hget,
    Film.pad, ← h.packet_len]

/-- The last chunk is received. -/
theorem At.last (h : At net f pos m)
    (hpos : pos = f.header.length + f.packets.length * f.packet_len)
    (hread : m.asf_header_read = f.header.length) {answers : List Char → Option Answer}
    (hs : m.s = some ⟨answers, f.chunksFrom f.packets.length, false⟩) :
    ∃ m', get_media_packet net { m with buf := [], buf_read := 0 } = .ok (.eos, m') ∧
      At net f pos m' := by
  have hend : f.chunksFrom f.packets.length = chunk CHUNK_TYPE_END (toBytes 4 0) [] ++ [] := by
    rw [Film.chunksFrom, List.drop_length, packetChunks, List.append_nil]
  rw [hend] at hs
  have hchunk := get_chunk_header_chunk (m := { m with buf := [], buf_read := 0 }) hs (by decide)
    (by decide) (by decide)
  rw [if_pos (.inr rfl)] at hchunk
  have hat : AtEnd { m with
      s := some ⟨answers, [], false⟩
      chunk_type := CHUNK_TYPE_END
      chunk_length := 0
      chunk_seq_number := NO_SEQ
      buf := []
      buf_read := 0 } := ⟨rfl, rfl, rfl, answers, rfl⟩
  have hm' : At net f pos { m with
      s := some ⟨answers, [], false⟩
      chunk_type := CHUNK_TYPE_END
      chunk_length := 0
      chunk_seq_number := NO_SEQ
      buf := []
      buf_read := 0 } := { h with stands := hpos ▸ .ended hread hat }
  refine ⟨_, ?_, hm'⟩
  rw [get_media_packet, hchunk]
  dsimp only
  rw [if_pos rfl, if_pos (by decide)]
  rfl

/-- The end of the connection is found again. -/
theorem get_media_packet_nil (net : Net) {answers : List Char → Option Answer}
    (hs : m.s = some ⟨answers, [], false⟩) : get_media_packet net m = .ok (.eos, m) := by
  rw [get_media_packet, get_chunk_header_nil hs]

/-- What was found in the buffer is used up. -/
theorem nextPacket_used (net : Net) (hleft : m.buf.length = m.buf_read) :
    nextPacket net m = get_media_packet net { m with buf := [], buf_read := 0 } := by
  rw [nextPacket, if_pos (by rw [bytes_left, hleft]; exact Int.sub_self _)]

/-- Something of the content is found, or it is at the end. -/
theorem At.finds (h : At net f pos m) : Finds net f pos m ∨
    (f.content.length ≤ pos ∧ ∃ t, supply net m = .stop t ∧ At net f pos t) := by
  have hp := h.valid.packet_len
  have hheader : m.asf_header_read = f.header.length → ¬ m.asf_header_read < m.asf_header_len := by
    rintro hread
    rw [hread, h.header_len]
    exact Nat.lt_irrefl _
  have hstands := h.stands
  cases hstands with
  | header hpos hread hpacket => exact .inl (h.finds_header hpos hread hpacket)
  | @packet k r hread hpacket =>
      have hk := hpacket.lt
      have hlen : m.buf.length = f.packet_len := by
        rw [hpacket.buf, List.getD_eq_getElem?_getD, List.getElem?_eq_getElem hk, Option.getD_some,
          length_pad h.valid (List.getElem_mem _)]
      rcases Nat.lt_or_eq_of_le hpacket.le with hr | rfl
      · refine .inl (h.finds_packet hread hpacket hr rfl (hheader hread) ?_)
        rw [nextPacket, if_neg (by rw [bytes_left, hlen, hpacket.buf_read]; omega)]
      · have hused := nextPacket_used net (hlen.trans hpacket.buf_read.symm)
        obtain ⟨answers, hs⟩ := hpacket.incoming
        have hpos : f.header.length + (k * f.packet_len + f.packet_len) =
            f.header.length + ((k + 1) * f.packet_len + 0) := by
          rw [Nat.succ_mul, Nat.add_zero]
        rcases Nat.lt_or_eq_of_le (Nat.succ_le_of_lt hk) with hnext | hlast
        · -- the next packet
          obtain ⟨m', hpacket', hread', hat, hm'⟩ := h.next hnext hpos hread hs
          exact .inl (hm'.finds_packet hread' hat hp hpos (hheader hread) (hused.trans hpacket'))
        · -- the end
          rw [Nat.succ_eq_add_one] at hlast
          rw [hlast] at hs
          have hpos : f.header.length + (k * f.packet_len + f.packet_len) =
              f.header.length + f.packets.length * f.packet_len := by
            rw [← hlast, Nat.succ_mul]
          obtain ⟨m', hend, hm'⟩ := h.last hpos hread hs
          refine .inr ⟨(length_content h.valid).le.trans hpos.ge, m', ?_, hm'⟩
          rw [supply, if_neg (hheader hread), hused, hend]
  | ended hread hend =>
      obtain ⟨answers, hs⟩ := hend.incoming
      have hused := nextPacket_used net (by rw [hend.buf, hend.buf_read]; rfl)
      have hnil := get_media_packet_nil net (m := { m with buf := [], buf_read := 0 }) hs
      have hm' : { m with buf := [], buf_read := 0 } = m := by
        rw [← hend.buf, ← hend.buf_read]
      rw [hnil, hm'] at hused
      refine .inr ⟨(length_content h.valid).le, m, ?_, h⟩
      rw [supply, if_neg (hheader hread), hused]

/-- Reading delivers the content. -/
theorem At.mmsh_read (h : At net f pos m) (len : ℤ) :
    ∃ m', (∃ enough, ∀ fuel ≥ enough, mmsh_read net fuel m len =
      .ok ((f.content.drop pos).take len.toNat, m')) ∧
        At net f (pos + ((f.content.drop pos).take len.toNat).length) m' := by
  obtain ⟨m', hread, hm'⟩ := Reader.reads_of_content (fun pos m (h : At net f pos m) ↦ h.finds)
    len.toNat pos h
  obtain ⟨enough, hread⟩ := hread.exists_read .steps
  refine ⟨m', ⟨enough, fun fuel hfuel ↦ ?_⟩, hm'⟩
  have hsome : m.s.isSome := by
    have hstands := h.stands
    cases hstands with
    | header _ _ hpacket =>
        obtain ⟨answers, hs⟩ := hpacket.incoming
        rw [hs]
        rfl
    | packet _ hpacket =>
        obtain ⟨answers, hs⟩ := hpacket.incoming
        rw [hs]
        rfl
    | ended _ hend =>
        obtain ⟨answers, hs⟩ := hend.incoming
        rw [hs]
        rfl
  rw [Mmsh.mmsh_read, if_neg (by simpa [Option.isSome_iff_ne_none] using hsome), readLoop_eq]
  exact hread fuel hfuel

/-! ## Seeking -/

theorem At.inPacket (h : At net f pos m) : (∃ k, InPacket f m k) ∨ AtEnd m := by
  have hstands := h.stands
  cases hstands with
  | header _ _ hpacket => exact .inl ⟨0, hpacket.toInPacket⟩
  | packet _ hpacket => exact .inl ⟨_, hpacket.toInPacket⟩
  | ended _ hend => exact .inr hend

/-- The first packet is kept for later. -/
theorem InPacket.at_header (hp : InPacket f m 0) (h : Opened net f m) {dest : ℕ}
    (hdest : dest < f.header.length) : At net f dest { m with
      buf_read := 0, asf_header_read := dest, current_pos := dest } :=
  { h with
    current_pos := rfl
    stands := .header hdest rfl { hp with le := Nat.zero_le _, buf_read := rfl } }

theorem InPacket.at_packet {k r : ℕ} (hp : InPacket f m k) (h : Opened net f m)
    (hr : r ≤ f.packet_len) : At net f (f.header.length + (k * f.packet_len + r)) { m with
      asf_header_read := m.asf_header_len
      buf_read := r
      current_pos := (f.header.length + (k * f.packet_len + r) : ℕ) } :=
  { h with
    current_pos := rfl
    stands := .packet h.header_len { hp with le := hr, buf_read := rfl } }

theorem reopen_opened (h : Opened net f m) {seek : ℤ} {k : ℕ} (hplace : f.Place seek k) :
    ∃ m', reopen net m seek 0 = .ok (true, m') ∧ Opened net f m' ∧ InPacket f m' k := by
  obtain ⟨m', hconnect, hm', hpacket, -⟩ := connect_opened h.toPlaying hplace
  refine ⟨m', ?_, hm', hpacket⟩
  rw [reopen, hconnect]
  dsimp only
  rw [if_neg]
  rw [hm'.header_len, hm'.packet_len, h.header_len, h.packet_len]
  simp

theorem place_zero {bandwidth : ℤ} (hf : f.Valid bandwidth) : f.Place 0 0 :=
  ⟨List.length_pos_iff.mpr hf.packets, .inr ⟨rfl, rfl⟩⟩

/-- A seek to a place in the header. -/
theorem At.seekHeader (h : At net f pos m) {dest : ℕ} (hdest : dest < f.header.length) :
    ∃ m', seekHeader net m dest = .ok (dest, m') ∧ At net f dest m' := by
  have hsize := h.valid.header
  have hsmall : ASF_HEADER_SIZE = 16384 := rfl
  have hread : ((dest : ℤ) % 2 ^ 32).toNat = dest := by omega
  rw [Mmsh.seekHeader, hread]
  by_cases hseq : m.chunk_seq_number > 0
  · obtain ⟨m', hreopen, hm', hpacket⟩ := reopen_opened h.toOpened (place_zero h.valid)
    rw [if_pos hseq, hreopen]
    exact ⟨_, rfl, hpacket.at_header hm' hdest⟩
  · rw [if_neg hseq]
    rcases h.inPacket with ⟨k, hpacket⟩ | hend
    · have hk : k = 0 := by
        have hk := hpacket.seq
        omega
      subst hk
      exact ⟨_, rfl, hpacket.at_header h.toOpened hdest⟩
    · exact absurd hend.seq (by rw [NO_SEQ]; omega)

/-- The packet of a place behind the header, up to the end. -/
theorem Opened.destPacket_of_le (h : Opened net f m) {dest : ℕ} (hge : f.header.length ≤ dest)
    (hle : dest ≤ f.header.length + f.packets.length * f.packet_len) :
    ∃ k r, k < f.packets.length ∧ r ≤ f.packet_len ∧ m.destPacket dest = k ∧
      dest = f.header.length + (k * f.packet_len + r) := by
  have hp := h.valid.packet_len
  have hlength := h.valid.length
  have hcount := List.length_pos_iff.mpr h.valid.packets
  obtain ⟨d, rfl⟩ := Nat.exists_eq_add_of_le hge
  have hd : ((f.header.length + d : ℕ) - f.header.length : ℤ) / f.packet_len =
      (d / f.packet_len : ℕ) := by
    rw [Nat.cast_add, add_sub_cancel_left, Int.natCast_ediv]
  rw [destPacket, h.header_len, h.packet_len, h.num_packets, uint64_eq (by omega),
    uint64_eq (by omega), hd]
  rcases Nat.lt_or_eq_of_le (Nat.le_of_add_le_add_left hle) with hlt | rfl
  · refine ⟨d / f.packet_len, d % f.packet_len, Nat.div_lt_of_lt_mul (by rwa [Nat.mul_comm]),
      (Nat.mod_lt d hp).le, if_neg (by omega), ?_⟩
    rw [Nat.div_add_mod' d f.packet_len]
  · obtain ⟨n, hn⟩ := Nat.exists_eq_add_one.mpr hcount
    refine ⟨n, f.packet_len, by omega, Nat.le_refl _, ?_, ?_⟩
    · rw [if_pos (by omega), Nat.mul_div_cancel _ hp, hn]
      omega
    · rw [hn, Nat.succ_mul]

/-- The number of a place behind the end is not one of a packet. -/
theorem Opened.destPacket_of_gt (h : Opened net f m) {dest : ℕ} (hdest : dest < 2 ^ 63)
    (hgt : f.header.length + f.packets.length * f.packet_len < dest)
    (hlt : dest < f.header.length + NO_SEQ * f.packet_len) :
    ∃ k, f.packets.length ≤ k ∧ k < NO_SEQ ∧ m.destPacket dest = k := by
  have hp := h.valid.packet_len
  obtain ⟨d, rfl⟩ := Nat.exists_eq_add_of_le (Nat.le_of_add_right_le hgt.le)
  have hd : ((f.header.length + d : ℕ) - f.header.length : ℤ) / f.packet_len =
      (d / f.packet_len : ℕ) := by
    rw [Nat.cast_add, add_sub_cancel_left, Int.natCast_ediv]
  refine ⟨d / f.packet_len, (Nat.le_div_iff_mul_le hp).mpr (by omega),
    Nat.div_lt_of_lt_mul (by rw [Nat.mul_comm]; omega), ?_⟩
  rw [destPacket, h.header_len, h.packet_len, h.num_packets, uint64_eq (by omega),
    uint64_eq (by omega), if_neg (by omega), hd]

/-- A seek to a place up to the end. -/
theorem At.seekTo (h : At net f pos m) {dest : ℕ}
    (hle : dest ≤ f.header.length + f.packets.length * f.packet_len) :
    ∃ m', seekTo net m dest = .ok (dest, m') ∧ At net f dest m' := by
  have hp := h.valid.packet_len
  rw [Mmsh.seekTo, h.header_len]
  rcases Nat.lt_or_ge dest f.header.length with hlt | hge
  · rw [if_pos (by omega)]
    exact h.seekHeader hlt
  · obtain ⟨k, r, hk, hr, hpacket, rfl⟩ := h.destPacket_of_le hge hle
    rw [if_neg (by omega), if_neg (by rw [h.packet_len]; omega)]
    dsimp only
    rw [hpacket]
    -- the right packet is asked for, unless it is in the buffer
    have hseek : ∀ m₁, Opened net f m₁ → InPacket f m₁ k →
        ∃ m', m₁.seekPacket (f.header.length + (k * f.packet_len + r) : ℕ) k =
          (((f.header.length + (k * f.packet_len + r) : ℕ) : ℤ), m') ∧
            At net f (f.header.length + (k * f.packet_len + r)) m' := by
      intro m₁ hm₁ hpacket₁
      refine ⟨_, ?_, hpacket₁.at_packet hm₁ hr⟩
      have hread : (((f.header.length + (k * f.packet_len + r) : ℕ) : ℤ) -
          (m₁.asf_header_len + k * m₁.asf_packet_len)).toNat = r := by
        rw [hm₁.header_len, hm₁.packet_len]
        omega
      rw [seekPacket]
      dsimp only
      rw [if_pos (congrArg Nat.cast hpacket₁.seq.symm), hread]
    split
    · rename_i hseq
      rcases h.inPacket with ⟨k', hk'⟩ | hend
      · have hsame : k = k' := by
          rw [hk'.seq] at hseq
          exact Nat.cast_inj.mp hseq
        subst hsame
        obtain ⟨m', hm', hat⟩ := hseek m h.toOpened hk'
        exact ⟨m', congrArg _ hm', hat⟩
      · have hno := hend.seq
        have hcount := h.valid.count
        omega
    · have hcount := h.valid.count
      rw [if_neg (by rw [uint64_eq (by rw [NO_SEQ] at hcount; omega), h.num_packets]; omega)]
      have hplace : f.Place (f.header.length + k * m.asf_packet_len) k :=
        ⟨hk, .inl (by rw [h.packet_len])⟩
      obtain ⟨m₁, hreopen, hm₁, hpacket₁⟩ := reopen_opened h.toOpened hplace
      rw [hreopen]
      obtain ⟨m', hm', hat⟩ := hseek m₁ hm₁ hpacket₁
      exact ⟨m', congrArg _ hm', hat⟩

/-- A seek behind the end changes nothing. -/
theorem At.seekTo_beyond (h : At net f pos m) {dest : ℕ} (hdest : dest < 2 ^ 63)
    (hgt : f.header.length + f.packets.length * f.packet_len < dest)
    (hlt : dest < f.header.length + NO_SEQ * f.packet_len) :
    Mmsh.seekTo net m dest = .ok ((pos : ℤ), m) := by
  have hp := h.valid.packet_len
  have hcount := List.length_pos_iff.mpr h.valid.packets
  obtain ⟨k, hk, hno, hpacket⟩ := h.destPacket_of_gt hdest hgt hlt
  have hseq : (k : ℤ) ≠ m.chunk_seq_number := by
    rcases h.inPacket with ⟨k', hk'⟩ | hend
    · have hk'lt := hk'.lt
      rw [hk'.seq]
      omega
    · rw [hend.seq]
      omega
  have hsmall : (k : ℤ) < 2 ^ 64 := by
    rw [NO_SEQ] at hno
    omega
  rw [Mmsh.seekTo, if_neg (by rw [h.header_len]; omega), if_neg (by rw [h.packet_len]; omega)]
  dsimp only
  rw [hpacket, if_neg hseq, if_pos, h.current_pos]
  rw [h.num_packets, uint64_eq (by omega)]
  omega

/-! ## Runs -/

/-- The place that a seek is to.  One relative to the end has none, as `mmsh_seek` changes nothing
then and returns the old position. -/
def place (pos : ℕ) (offset : ℤ) : Origin → Option ℤ
  | .SEEK_SET => some offset
  | .SEEK_CUR => some (pos + offset)
  | .SEEK_END => none
  | .other => none

/-- What a call returns for a content at a position, and the position after it: a file, but a seek
without a place, or to one behind the end, changes nothing and returns the old position. -/
def fileCall (content : List Byte) (pos : ℕ) : Call → Returned × ℕ
  | .read len =>
      let data := (content.drop pos).take len.toNat
      (.bytes data, pos + data.length)
  | .seek offset origin =>
      match place pos offset origin with
      | none => (.place pos, pos)
      | some dest =>
          if dest ≤ content.length then (.place dest, dest.toNat) else (.place pos, pos)
  | .timeSeek _ => (.done false, pos)

/-- What calls return for a content. -/
def fileCalls (content : List Byte) (pos : ℕ) : List Call → List Returned
  | [] => []
  | c :: calls =>
      (fileCall content pos c).1 :: fileCalls content (fileCall content pos c).2 calls

/-- What calls return for a stream. -/
def calls (net : Net) (fuel : ℕ) (m : Mmsh) : List Call → Except Fault (List Returned)
  | [] => .ok []
  | c :: cs =>
      match call net fuel m c with
      | .error f => .error f
      | .ok (r, m) => (calls net fuel m cs).map (r :: ·)

/-- Reads, and seeks to places that are not before the beginning, nor so far behind the end that
the number of the packet is not one. -/
def Within (f : Film) (pos : ℕ) : Call → Prop
  | .read _ => True
  | .seek offset origin => ∀ dest ∈ place pos offset origin,
      0 ≤ dest ∧ dest < 2 ^ 63 ∧ dest < f.header.length + NO_SEQ * f.packet_len
  | .timeSeek _ => False

/-- All calls are within. -/
def AllWithin (f : Film) (pos : ℕ) : List Call → Prop
  | [] => True
  | c :: calls => Within f pos c ∧ AllWithin f (fileCall f.content pos c).2 calls

variable {c : Call}

/-- A call to a stream of the film is one to its content. -/
theorem At.call (h : At net f pos m) (hc : Within f pos c) :
    ∃ m', (∃ enough, ∀ fuel ≥ enough,
      call net fuel m c = .ok ((fileCall f.content pos c).1, m')) ∧
        At net f (fileCall f.content pos c).2 m' := by
  cases c with
  | read len =>
      obtain ⟨m', ⟨enough, hread⟩, hm'⟩ := h.mmsh_read len
      refine ⟨m', ⟨enough, fun fuel hfuel ↦ ?_⟩, hm'⟩
      rw [Mmsh.call, hread fuel hfuel]
      rfl
  | seek offset origin =>
      have hseek : ∃ r m', mmsh_seek net m offset origin = .ok (r, m') ∧
          (fileCall f.content pos (.seek offset origin)).1 = .place r ∧
            At net f (fileCall f.content pos (.seek offset origin)).2 m' := by
        have hplace : m.seekDest offset origin = place pos offset origin := by
          cases origin <;> simp [seekDest, place, h.current_pos]
        rw [mmsh_seek, if_neg (by rw [h.seekable]; decide), hplace, fileCall]
        cases hdest : place pos offset origin with
        | none => exact ⟨pos, m, by rw [← h.current_pos], rfl, h⟩
        | some dest =>
            obtain ⟨hnonneg, hsmall, hlt⟩ := hc dest hdest
            obtain ⟨dest, rfl⟩ := Int.eq_ofNat_of_zero_le hnonneg
            dsimp only
            rw [length_content h.valid]
            split
            · rename_i hle
              obtain ⟨m', hm', hat⟩ := h.seekTo (Int.ofNat_le.mp hle)
              exact ⟨dest, m', hm', rfl, hat⟩
            · rename_i hgt
              exact ⟨pos, m, h.seekTo_beyond (by omega) (by omega) (by omega), rfl, h⟩
      obtain ⟨r, m', hm', hreturned, hat⟩ := hseek
      refine ⟨m', ⟨0, fun fuel _ ↦ ?_⟩, hat⟩
      rw [Mmsh.call, hm', hreturned]
      rfl
  | timeSeek time_seek => exact hc.elim

theorem At.calls {cs : List Call} (h : At net f pos m) (hcs : AllWithin f pos cs) :
    ∃ enough, ∀ fuel ≥ enough, calls net fuel m cs = .ok (fileCalls f.content pos cs) := by
  induction cs generalizing pos m with
  | nil => exact ⟨0, fun _ _ ↦ rfl⟩
  | cons c cs ih =>
      obtain ⟨m', ⟨enough, hcall⟩, hm'⟩ := h.call hcs.1
      obtain ⟨more, hcalls⟩ := ih hm' hcs.2
      refine ⟨max enough more, fun fuel hfuel ↦ ?_⟩
      rw [Mmsh.calls, hcall fuel (le_trans (le_max_left _ _) hfuel)]
      dsimp only
      rw [hcalls fuel (le_trans (le_max_right _ _) hfuel)]
      rfl

end Mmsh

end CodeToolKit.Libmms
