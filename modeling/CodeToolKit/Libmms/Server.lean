import CodeToolKit.Libmms.AsfObjects
import CodeToolKit.Libmms.MmshRead

/-!
# A server

The chunks that a server sends, and what the functions of a stream make of them.
-/

namespace CodeToolKit.Libmms

open Lib

/-- A chunk: its type, its length, the extended header and the data. -/
def chunk (type : ℕ) (ext data : List Byte) : List Byte :=
  toBytes 2 type ++ (toBytes 2 (ext.length + data.length) ++ (ext ++ data))

/-- The chunks of packets, the first of which has the number `seq`, and of the end. -/
def packetChunks (unread : List Byte) : ℕ → List (List Byte) → List Byte
  | _, [] => chunk CHUNK_TYPE_END (toBytes 4 0) []
  | seq, p :: packets =>
      chunk CHUNK_TYPE_DATA (toBytes 4 seq ++ unread) p ++ packetChunks unread (seq + 1) packets

/-- A film on a server: its header and its packets, what the header says of the packets and the
streams, the streams that are chosen, and the bytes of an answer and of the chunks that do not
matter. -/
structure Film where
  header : List Byte
  packets : List (List Byte)
  packet_len : ℕ
  streams : List Stream
  choice : ℤ × ℤ
  answer : List Byte
  unread : List Byte

namespace Film

/-- What is known after the header was read. -/
structure Described (f : Film) (bandwidth : ℤ) (a : Asf) : Prop where
  contains : Contains a.asf_header 0 f.header
  header_len : a.asf_header_len = f.header.length
  streams : a.streams = f.streams
  packet_len : a.asf_packet_len = f.packet_len
  num_packets : a.asf_num_packets = f.packets.length
  choice : mms_get_best_stream_ids a bandwidth = f.choice

/-- The film can be played, at a bandwidth: the header describes it whatever was known before, and
everything has room where it is to be put. -/
structure Valid (f : Film) (bandwidth : ℤ) : Prop where
  header : f.header.length ≤ ASF_HEADER_SIZE
  described : ∀ a : Asf, Contains a.asf_header 0 f.header → a.asf_header_len = f.header.length →
    ∃ b, a.interp_asf_header = some b ∧ f.Described bandwidth b
  streams : f.streams ≠ []
  selection : (stream_selection f.choice.1 f.choice.2 f.streams []).isSome
  packet_len : 0 < f.packet_len
  packets : f.packets ≠ []
  packet : ∀ p ∈ f.packets, p.length ≤ f.packet_len ∧ p.length + 8 < 2 ^ 16
  count : f.packets.length < NO_SEQ
  length : f.header.length + f.packets.length * f.packet_len < 2 ^ 63
  unread : f.unread.length = 4
  answer : ∀ seekable, get_answer f.answer seekable = (true, ⟨.seekable, true⟩, [])

/-- The chunk of the header. -/
def headerChunk (f : Film) : List Byte :=
  chunk CHUNK_TYPE_ASF_HEADER (f.unread ++ f.unread) f.header

/-- The chunks from a packet on. -/
def chunksFrom (f : Film) (k : ℕ) : List Byte := packetChunks f.unread k (f.packets.drop k)

/-- A packet, as it is delivered. -/
def pad (f : Film) (p : List Byte) : List Byte := p ++ List.replicate (f.packet_len - p.length) 0

/-- The header, as it is delivered: without the bitrates of the streams that were not chosen. -/
def visible (f : Film) : List Byte :=
  (List.range f.header.length).map
    ({ Asf.ofBytes f.header with
      streams := f.streams }.mms_disable_disabled_streams_in_asf_header
        f.choice.1 f.choice.2).asf_header

/-- What is delivered. -/
def content (f : Film) : List Byte := f.visible ++ f.packets.flatMap f.pad

end Film

namespace Mmsh

variable {m : Mmsh} {answers : List Char → Option Answer} {broken : Bool} {bytes rest : List Byte}

/-- Bytes that are there are read. -/
theorem io_read_append (hs : m.s = some ⟨answers, bytes ++ rest, broken⟩) {num : ℕ}
    (hnum : bytes.length = num) :
    m.io_read num = ((num : ℤ), bytes, { m with s := some ⟨answers, rest, broken⟩ }) := by
  rw [io_read_some hs, Socket.io_read]
  dsimp only
  have htake : (bytes ++ rest).take num = bytes := by rw [← hnum, List.take_left]
  have hdrop : (bytes ++ rest).drop num = rest := by rw [← hnum, List.drop_left]
  rw [htake, hdrop, if_neg, hnum]
  rintro ⟨hpos, hnil, -⟩
  rw [(List.append_eq_nil_iff.mp hnil).1, List.length_nil] at hnum
  omega

theorem type_getD (type length : ℕ) :
    (LE_16 fun i ↦ (toBytes 2 type ++ toBytes 2 length).getD i 0).toNat = type % 2 ^ 16 :=
  LE_16_toNat.trans (ofBytes_toBytes 2 type)

theorem length_getD (type length : ℕ) :
    (LE_16 fun i ↦ (toBytes 2 type ++ toBytes 2 length).getD (2 + i) 0).toNat = length % 2 ^ 16 :=
  LE_16_toNat.trans (ofBytes_toBytes 2 length)

theorem seq_getD (seq : ℕ) (unread : List Byte) :
    (LE_32 fun i ↦ (toBytes 4 seq ++ unread).getD i 0).toNat = seq % 2 ^ 32 :=
  LE_32_toNat.trans (ofBytes_toBytes 4 seq)

/-- The head of a chunk is read as it was written. -/
theorem get_chunk_header_chunk {type : ℕ} {ext data : List Byte}
    (hs : m.s = some ⟨answers, chunk type ext data ++ rest, broken⟩) (htype : type < 2 ^ 16)
    (hext : ext.length = extHeaderLen type) (hlen : ext.length + data.length < 2 ^ 16) :
    m.get_chunk_header = (.success, { m with
      s := some ⟨answers, data ++ rest, broken⟩
      chunk_type := type
      chunk_length := data.length
      chunk_seq_number :=
        if type = CHUNK_TYPE_DATA ∨ type = CHUNK_TYPE_END then
          (LE_32 fun i ↦ ext.getD i 0).toNat
        else NO_SEQ }) := by
  have hhead : chunk type ext data ++ rest =
      (toBytes 2 type ++ toBytes 2 (ext.length + data.length)) ++ (ext ++ (data ++ rest)) := by
    simp only [chunk, List.append_assoc]
  rw [hhead] at hs
  have hnum : (toBytes 2 type ++ toBytes 2 (ext.length + data.length)).length =
      CHUNK_HEADER_LENGTH := rfl
  rw [get_chunk_header, io_read_append hs hnum]
  dsimp only
  rw [if_neg (by simp), type_getD, length_getD, Nat.mod_eq_of_lt htype, Nat.mod_eq_of_lt hlen,
    extHeader]
  dsimp only
  rw [io_read_append rfl hext]
  dsimp only
  rw [if_neg (by simp), ← hext]
  have hlength : (ext.length + data.length + 2 ^ 16 - ext.length) % 2 ^ 16 = data.length := by
    omega
  rw [hlength]

/-- The data of a packet are padded. -/
theorem dataPacket_chunk {data : List Byte} (hs : m.s = some ⟨answers, data ++ rest, broken⟩)
    (hlen : m.chunk_length = data.length) (hle : data.length ≤ m.asf_packet_len) :
    m.dataPacket = (.success, { m with
      s := some ⟨answers, rest, broken⟩
      buf := data ++ List.replicate (m.asf_packet_len - data.length) 0 }) := by
  rw [dataPacket, io_read_append hs hlen.symm]
  dsimp only
  rw [if_neg (by simp), if_neg (by omega), hlen]

/-- The end of the connection. -/
theorem get_chunk_header_nil (hs : m.s = some ⟨answers, [], false⟩) :
    m.get_chunk_header = (.eos, m) := by
  have hread : m.io_read CHUNK_HEADER_LENGTH = (0, [], m) := by
    rw [io_read_some hs, Socket.io_read]
    simp [← hs]
  rw [get_chunk_header, hread]
  dsimp only
  rw [if_pos (by decide), if_pos rfl]

/-! ## The header -/

variable {f : Film} {bandwidth : ℤ}

/-- The header is received into an empty array. -/
theorem contains_received {a : Asf} {header : List Byte} (hlen : a.asf_header_len = 0)
    (hsize : header.length ≤ ASF_HEADER_SIZE) :
    Contains (a.received header).asf_header 0 header := by
  refine ⟨Int.le_refl 0, by omega, fun k hk ↦ ?_⟩
  rw [Int.toNat_zero, Nat.zero_add, Asf.received]
  dsimp only
  rw [hlen, if_neg (Nat.not_lt_zero k), Nat.sub_zero, List.getD_eq_getElem?_getD,
    List.getElem?_eq_getElem hk, Option.getD_some]

theorem headerChunks_header (hf : f.Valid bandwidth) (fuel : ℕ) (hlen : m.asf_header_len = 0)
    (hs : m.s = some ⟨answers, f.headerChunk ++ rest, broken⟩) :
    ∃ b, f.Described bandwidth b ∧ headerChunks (fuel + 1) m = headerChunks fuel { m with
      toAsf := b
      s := some ⟨answers, rest, broken⟩
      chunk_type := CHUNK_TYPE_ASF_HEADER
      chunk_length := f.header.length
      chunk_seq_number := NO_SEQ } := by
  have hheader := hf.header
  have hsize : ASF_HEADER_SIZE = 16384 := rfl
  have hext : (f.unread ++ f.unread).length = 8 := by rw [List.length_append, hf.unread]
  have hchunk := get_chunk_header_chunk hs (by decide) hext (by omega)
  rw [if_neg (by decide)] at hchunk
  obtain ⟨b, hinterp, hb⟩ := hf.described (m.toAsf.received f.header)
    (contains_received hlen hheader) (by rw [Asf.received]; dsimp only; rw [hlen, Nat.zero_add])
  refine ⟨b, hb, ?_⟩
  rw [headerChunks, hchunk]
  dsimp only
  rw [if_pos rfl, if_neg (by omega), receiveHeader, io_read_append rfl rfl]
  dsimp only
  rw [decide_eq_true rfl]
  dsimp only
  rw [hinterp]

theorem chunksFrom_of_lt {k : ℕ} (hk : k < f.packets.length) : f.chunksFrom k =
    chunk CHUNK_TYPE_DATA (toBytes 4 k ++ f.unread) f.packets[k] ++ f.chunksFrom (k + 1) := by
  rw [Film.chunksFrom, List.drop_eq_getElem_cons hk, packetChunks]
  rfl

/-- The head of the chunk of a packet. -/
theorem get_chunk_header_data (hf : f.Valid bandwidth) {k : ℕ} (hk : k < f.packets.length)
    (hs : m.s = some ⟨answers, f.chunksFrom k, broken⟩) :
    m.get_chunk_header = (.success, { m with
      s := some ⟨answers, f.packets[k] ++ f.chunksFrom (k + 1), broken⟩
      chunk_type := CHUNK_TYPE_DATA
      chunk_length := f.packets[k].length
      chunk_seq_number := k }) := by
  rw [chunksFrom_of_lt hk] at hs
  obtain ⟨-, hsize⟩ := hf.packet _ (List.getElem_mem hk)
  have hext : (toBytes 4 k ++ f.unread).length = 8 := by
    rw [List.length_append, length_toBytes, hf.unread]
  have hcount : k < 2 ^ 32 := Nat.lt_trans hk (Nat.lt_trans hf.count (by decide))
  rw [get_chunk_header_chunk hs (by decide) hext (by omega), if_pos (.inl rfl), seq_getD,
    Nat.mod_eq_of_lt hcount]

/-- A connection that ends after the header. -/
theorem get_header_describe (hf : f.Valid bandwidth)
    (hs : m.s = some ⟨answers, f.headerChunk, false⟩) :
    ∃ m', m.get_header = .ok (.eos, m') ∧ f.Described bandwidth m'.toAsf ∧
      ∃ a s type length seq, m' = { m with
        toAsf := a, s := s, chunk_type := type, chunk_length := length, chunk_seq_number := seq,
        asf_header_read := 0, buf := [] } := by
  have hleft : m.left = f.headerChunk.length := by
    rw [left, hs]
    rfl
  have hchunk : 1 ≤ f.headerChunk.length := by
    rw [Film.headerChunk, chunk, List.length_append, length_toBytes]
    omega
  obtain ⟨fuel, hfuel⟩ := Nat.exists_eq_add_of_le' hchunk
  rw [← List.append_nil f.headerChunk] at hs
  obtain ⟨b, hb, hheader⟩ := headerChunks_header (m := { m with
    asf_header_len := 0, asf_header_read := 0, buf := [] }) hf (fuel + 1) rfl hs
  rw [get_header, hleft, hfuel, hheader, headerChunks, get_chunk_header_nil rfl]
  exact ⟨_, rfl, hb, _, _, _, _, _, rfl⟩

/-- A connection on which the packets follow the header. -/
theorem get_header_play (hf : f.Valid bandwidth) {k : ℕ} (hk : k < f.packets.length)
    (hs : m.s = some ⟨answers, f.headerChunk ++ f.chunksFrom k, false⟩) :
    ∃ b length, f.Described bandwidth b ∧ m.get_header = .ok (.success, { m with
      toAsf := b
      s := some ⟨answers, f.chunksFrom (k + 1), false⟩
      chunk_type := CHUNK_TYPE_DATA
      chunk_length := length
      chunk_seq_number := k
      buf := f.pad f.packets[k]
      asf_header_read := 0 }) := by
  have hleft : m.left = (f.headerChunk ++ f.chunksFrom k).length := by
    rw [left, hs]
    rfl
  have hchunk : 1 ≤ (f.headerChunk ++ f.chunksFrom k).length := by
    rw [Film.headerChunk, chunk, List.length_append, List.length_append, length_toBytes]
    omega
  obtain ⟨fuel, hfuel⟩ := Nat.exists_eq_add_of_le' hchunk
  obtain ⟨b, hb, hheader⟩ := headerChunks_header (m := { m with
    asf_header_len := 0, asf_header_read := 0, buf := [] }) hf (fuel + 1) rfl hs
  obtain ⟨hle, hsize⟩ := hf.packet _ (List.getElem_mem hk)
  refine ⟨b, f.packets[k].length, hb, ?_⟩
  have hdata := get_chunk_header_data hf hk (m := { m with
    toAsf := b
    s := some ⟨answers, f.chunksFrom k, false⟩
    chunk_type := CHUNK_TYPE_ASF_HEADER
    chunk_length := f.header.length
    chunk_seq_number := NO_SEQ
    asf_header_read := 0
    buf := [] }) rfl
  rw [get_header, hleft, hfuel, hheader, headerChunks, hdata]
  dsimp only
  rw [if_neg (by decide)]
  dsimp only
  rw [if_pos rfl, dataPacket_chunk rfl rfl (hb.packet_len.symm ▸ hle)]
  dsimp only
  rw [hb.packet_len]
  rfl

end Mmsh

/-- The header of a film of two packets, with two streams of sound. -/
def smallObjects : List HeaderObject :=
  [.file ⟨List.replicate 16 0, 100000, 7, 2, 9, 9, 3000, 2, 4, 4, 64000⟩,
   .stream ⟨guidOf GUID_ASF_AUDIO_MEDIA, List.replicate 32 0, 1, []⟩,
   .stream ⟨guidOf GUID_ASF_AUDIO_MEDIA, List.replicate 32 0, 2, []⟩,
   .bitrates [⟨1, 64000⟩, ⟨2, 32000⟩]]

def smallFilm : Film where
  header := List.replicate 30 0 ++ (smallObjects.flatMap HeaderObject.bytes ++ [])
  packets := [[1, 2, 3], [4]]
  packet_len := 4
  streams := [⟨1, .audio, 64000, 310⟩, ⟨2, .audio, 32000, 316⟩]
  choice := (1, -1)
  answer := "HTTP/1.0 200 OK\r\nPragma: features=\"seekable\"\r\n\r\n".toList.map fun c ↦
    .ofNat 8 c.toNat
  unread := [0, 0, 0, 0]

end CodeToolKit.Libmms
