import CodeToolKit.Libmms.Bswap
import Mathlib.Data.Int.Notation

/-!
# ASF headers

`interp_asf_header` of `mms-common-funcs.h`, which both protocols run over the array
`asf_header`.  It walks from object to object: the file properties give the length of the
packets, the stream properties and the bitrate properties fill the list of streams, and the
header extension holds objects of its own.

A read outside the array is undefined, and an object of length zero is read again and again:
in both cases there is no result.
-/

namespace CodeToolKit.Libmms

open Lib

/-- The size of `asf_header`. -/
def ASF_HEADER_SIZE : ℕ := 8192 * 2

/-- The size of `buf`. -/
def BUF_SIZE : ℕ := 102400

/-- The size of `streams`. -/
def ASF_MAX_NUM_STREAMS : ℕ := 23

/-- `GUID`. -/
structure GUID where
  Data1 : ℕ
  Data2 : ℕ
  Data3 : ℕ
  Data4 : List Byte
  deriving DecidableEq

/-- The table `guids`. -/
def guids : List GUID :=
  [⟨0, 0, 0, [0, 0, 0, 0, 0, 0, 0, 0]⟩, -- error
   ⟨0x75b22630, 0x668e, 0x11cf, [0xa6, 0xd9, 0x00, 0xaa, 0x00, 0x62, 0xce, 0x6c]⟩, -- header
   ⟨0x75b22636, 0x668e, 0x11cf, [0xa6, 0xd9, 0x00, 0xaa, 0x00, 0x62, 0xce, 0x6c]⟩, -- data
   ⟨0x33000890, 0xe5b1, 0x11cf, [0x89, 0xf4, 0x00, 0xa0, 0xc9, 0x03, 0x49, 0xcb]⟩, -- simple index
   ⟨0xd6e229d3, 0x35da, 0x11d1, [0x90, 0x34, 0x00, 0xa0, 0xc9, 0x03, 0x49, 0xbe]⟩, -- index
   ⟨0xfeb103f8, 0x12ad, 0x4c64, [0x84, 0x0f, 0x2a, 0x1d, 0x2f, 0x7a, 0xd4, 0x8c]⟩, -- media object index
   ⟨0x3cb73fd0, 0x0c4a, 0x4803, [0x95, 0x3d, 0xed, 0xf7, 0xb6, 0x22, 0x8f, 0x0c]⟩, -- timecode index
   ⟨0x8cabdca1, 0xa947, 0x11cf, [0x8e, 0xe4, 0x00, 0xc0, 0x0c, 0x20, 0x53, 0x65]⟩, -- file properties
   ⟨0xb7dc0791, 0xa9b7, 0x11cf, [0x8e, 0xe6, 0x00, 0xc0, 0x0c, 0x20, 0x53, 0x65]⟩, -- stream header
   ⟨0x5fbf03b5, 0xa92e, 0x11cf, [0x8e, 0xe3, 0x00, 0xc0, 0x0c, 0x20, 0x53, 0x65]⟩, -- header extension
   ⟨0x86d15240, 0x311d, 0x11d0, [0xa3, 0xa4, 0x00, 0xa0, 0xc9, 0x03, 0x48, 0xf6]⟩, -- codec list
   ⟨0x1efb1a30, 0x0b62, 0x11d0, [0xa3, 0x9b, 0x00, 0xa0, 0xc9, 0x03, 0x48, 0xf6]⟩, -- script command
   ⟨0xf487cd01, 0xa951, 0x11cf, [0x8e, 0xe6, 0x00, 0xc0, 0x0c, 0x20, 0x53, 0x65]⟩, -- marker
   ⟨0xd6e229dc, 0x35da, 0x11d1, [0x90, 0x34, 0x00, 0xa0, 0xc9, 0x03, 0x49, 0xbe]⟩, -- bitrate mutual exclusion
   ⟨0x75b22635, 0x668e, 0x11cf, [0xa6, 0xd9, 0x00, 0xaa, 0x00, 0x62, 0xce, 0x6c]⟩, -- error correction
   ⟨0x75b22633, 0x668e, 0x11cf, [0xa6, 0xd9, 0x00, 0xaa, 0x00, 0x62, 0xce, 0x6c]⟩, -- content description
   ⟨0xd2d0a440, 0xe307, 0x11d2, [0x97, 0xf0, 0x00, 0xa0, 0xc9, 0x5e, 0xa8, 0x50]⟩, -- extended content description
   ⟨0x7bf875ce, 0x468d, 0x11d1, [0x8d, 0x82, 0x00, 0x60, 0x97, 0xc9, 0xa2, 0xb2]⟩, -- stream bitrate properties
   ⟨0x298ae614, 0x2622, 0x4c17, [0xb9, 0x35, 0xda, 0xe0, 0x7e, 0xe9, 0x28, 0x9c]⟩, -- extended content encryption
   ⟨0x1806d474, 0xcadf, 0x4509, [0xa4, 0xba, 0x9a, 0xab, 0xcb, 0x96, 0xaa, 0xe8]⟩, -- padding
   ⟨0xf8699e40, 0x5b4d, 0x11cf, [0xa8, 0xfd, 0x00, 0x80, 0x5f, 0x5c, 0x44, 0x2b]⟩, -- audio media
   ⟨0xbc19efc0, 0x5b4d, 0x11cf, [0xa8, 0xfd, 0x00, 0x80, 0x5f, 0x5c, 0x44, 0x2b]⟩, -- video media
   ⟨0x59dacfc0, 0x59e6, 0x11d0, [0xa3, 0xac, 0x00, 0xa0, 0xc9, 0x03, 0x48, 0xf6]⟩, -- command media
   ⟨0xb61be100, 0x5b4e, 0x11cf, [0xa8, 0xfd, 0x00, 0x80, 0x5f, 0x5c, 0x44, 0x2b]⟩, -- JFIF media (JPEG)
   ⟨0x35907de0, 0xe415, 0x11cf, [0xa9, 0x17, 0x00, 0x80, 0x5f, 0x5c, 0x44, 0x2b]⟩, -- Degradable JPEG media
   ⟨0x91bd222c, 0xf21c, 0x497a, [0x8b, 0x6d, 0x5a, 0xa8, 0x6b, 0xfc, 0x01, 0x85]⟩, -- File Transfer media
   ⟨0x3afb65e2, 0x47ef, 0x40f2, [0xac, 0x2c, 0x70, 0xa9, 0x0d, 0x71, 0xd3, 0x43]⟩, -- Binary media
   ⟨0x20fb5700, 0x5b55, 0x11cf, [0xa8, 0xfd, 0x00, 0x80, 0x5f, 0x5c, 0x44, 0x2b]⟩, -- no error correction
   ⟨0xbfc3cd50, 0x618f, 0x11cf, [0x8b, 0xb2, 0x00, 0xaa, 0x00, 0xb4, 0xe2, 0x20]⟩, -- audio spread
   ⟨0xd6e22a01, 0x35da, 0x11d1, [0x90, 0x34, 0x00, 0xa0, 0xc9, 0x03, 0x49, 0xbe]⟩, -- mutex bitrate
   ⟨0xd6e22a02, 0x35da, 0x11d1, [0x90, 0x34, 0x00, 0xa0, 0xc9, 0x03, 0x49, 0xbe]⟩, -- mutex unknown
   ⟨0xabd3d211, 0xa9ba, 0x11cf, [0x8e, 0xe6, 0x00, 0xc0, 0x0c, 0x20, 0x53, 0x65]⟩, -- reserved_1
   ⟨0x4b1acbe3, 0x100b, 0x11d0, [0xa3, 0x9b, 0x00, 0xa0, 0xc9, 0x03, 0x48, 0xf6]⟩, -- reserved script command
   ⟨0x4cfedb20, 0x75f6, 0x11cf, [0x9c, 0x0f, 0x00, 0xa0, 0xc9, 0x03, 0x49, 0xcb]⟩, -- reserved marker
   ⟨0x49f1a440, 0x4ece, 0x11d0, [0xa3, 0xac, 0x00, 0xa0, 0xc9, 0x03, 0x48, 0xf6]⟩, -- audio conceal none
   ⟨0x86d15241, 0x311d, 0x11d0, [0xa3, 0xa4, 0x00, 0xa0, 0xc9, 0x03, 0x48, 0xf6]⟩, -- codec comment1 header
   ⟨0xd6e229d1, 0x35da, 0x11d1, [0x90, 0x34, 0x00, 0xa0, 0xc9, 0x03, 0x49, 0xbe]⟩, -- asf 2.0 header
   ⟨0x14e6a5cb, 0xc672, 0x4332, [0x83, 0x99, 0xa9, 0x69, 0x52, 0x06, 0x5b, 0x5a]⟩] -- extended stream properties

def GUID_ERROR : ℕ := 0
def GUID_ASF_DATA : ℕ := 2
def GUID_ASF_FILE_PROPERTIES : ℕ := 7
def GUID_ASF_STREAM_PROPERTIES : ℕ := 8
def GUID_ASF_HEADER_EXTENSION : ℕ := 9
def GUID_ASF_STREAM_BITRATE_PROPERTIES : ℕ := 17
def GUID_ASF_AUDIO_MEDIA : ℕ := 20
def GUID_ASF_VIDEO_MEDIA : ℕ := 21
def GUID_ASF_COMMAND_MEDIA : ℕ := 22
def GUID_ASF_JFIF_MEDIA : ℕ := 23
def GUID_ASF_DEGRADABLE_JPEG_MEDIA : ℕ := 24
def GUID_ASF_EXTENDED_STREAM_PROPERTIES : ℕ := 37

/-- `stream_type`. -/
inductive StreamType where
  | unknown
  | audio
  | video
  | control
  deriving DecidableEq

/-- `mms_stream_t`. -/
structure Stream where
  stream_id : ℕ
  stream_type : StreamType
  bitrate : ℤ
  bitrate_pos : ℤ
  deriving DecidableEq

/-- What `mms_t` and `mmsh_t` keep of an ASF header.  `streams` holds the `num_stream_ids`
entries that are in use. -/
structure Asf where
  asf_header : ℕ → Byte
  asf_header_len : ℕ
  streams : List Stream
  asf_packet_len : ℕ
  file_len : ℕ
  file_time : ℕ
  time_len : ℕ
  preroll : ℕ
  asf_num_packets : ℕ
  has_audio : Bool
  has_video : Bool

/-- An `int`. -/
def int32 (z : ℤ) : ℤ := z.bmod (2 ^ 32)

/-- A `uint64_t`. -/
def uint64 (z : ℤ) : ℤ := z % 2 ^ 64

theorem int32_eq {z : ℤ} (h : -2 ^ 31 ≤ z ∧ z < 2 ^ 31) : int32 z = z :=
  Int.bmod_eq_of_le (by omega) (by omega)

theorem uint64_eq {z : ℤ} (h : 0 ≤ z ∧ z < 2 ^ 64) : uint64 z = z := Int.emod_eq_of_lt h.1 h.2

namespace Asf

/-- A new connection, which `calloc` clears, after its header was received. -/
def ofBytes (header : List Byte) : Asf where
  asf_header i := header.getD i 0
  asf_header_len := header.length
  streams := []
  asf_packet_len := 0
  file_len := 0
  file_time := 0
  time_len := 0
  preroll := 0
  asf_num_packets := 0
  has_audio := false
  has_video := false

/-! ## The source -/

/-- `this->asf_header + i`, of which `n` bytes are read. -/
def ptr (a : Asf) (i : ℤ) (n : ℕ) : Option (ℕ → Byte) :=
  if 0 ≤ i ∧ i + n ≤ ASF_HEADER_SIZE then some fun k ↦ a.asf_header (i.toNat + k) else none

/-- `LE_16(this->asf_header + i)`. -/
def le16 (a : Asf) (i : ℤ) : Option ℕ := (a.ptr i 2).map fun p ↦ (LE_16 p).toNat

/-- `LE_32(this->asf_header + i)`. -/
def le32 (a : Asf) (i : ℤ) : Option (BitVec 32) := (a.ptr i 4).map LE_32

/-- `LE_64(this->asf_header + i)`. -/
def le64 (a : Asf) (i : ℤ) : Option (BitVec 64) := (a.ptr i 8).map LE_64

/-- `get_guid`. -/
def get_guid (a : Asf) (offset : ℤ) : Option ℕ := do
  let buffer ← a.ptr offset 16
  let g : GUID := ⟨(LE_32 buffer).toNat, (LE_16 fun k ↦ buffer (4 + k)).toNat,
    (LE_16 fun k ↦ buffer (6 + k)).toNat, (List.range 8).map fun i ↦ buffer (8 + i)⟩
  return (guids.tail.findIdx? (· == g)).elim GUID_ERROR (· + 1)

/-- The search for a stream, and the change of its entry; a new stream is added to the list, if
there is room. -/
def withStream (streams : List Stream) (stream_id : ℕ) (change : Stream → Stream) : List Stream :=
  let stream_index := streams.findIdx fun s ↦ s.stream_id == stream_id
  if stream_index = streams.length then
    if streams.length ≥ ASF_MAX_NUM_STREAMS then streams
    else streams ++ [change ⟨stream_id, .unknown, 0, 0⟩]
  else streams.modify stream_index change

/-- The `switch` of `interp_stream_properties`. -/
def stream_type (guid : ℕ) : StreamType :=
  if guid = GUID_ASF_AUDIO_MEDIA then .audio
  else if guid = GUID_ASF_VIDEO_MEDIA ∨ guid = GUID_ASF_JFIF_MEDIA ∨
      guid = GUID_ASF_DEGRADABLE_JPEG_MEDIA then .video
  else if guid = GUID_ASF_COMMAND_MEDIA then .control
  else .unknown

/-- `interp_stream_properties`.  The `switch` also sets the flag of an audio or a video stream. -/
def interp_stream_properties (a : Asf) (i : ℤ) : Option Asf := do
  let type := stream_type (← a.get_guid i)
  let flags ← a.le16 (i + 48)
  let stream_id := flags &&& 0x7f
  return { a with
    has_audio := a.has_audio || type == .audio
    has_video := a.has_video || type == .video
    streams := withStream a.streams stream_id fun s ↦ { s with stream_type := type } }

/-- The loop over the bitrates, from the record `j` on. -/
def interp_bitrates (i : ℤ) : ℕ → ℕ → Asf → Option Asf
  | 0, _, a => some a
  | n + 1, j, a => do
      let stream_id ← a.le16 (i + 24 + 2 + j * 6)
      let bitrate ← a.le32 (i + 24 + 4 + j * 6)
      interp_bitrates i n (j + 1) { a with
        streams := withStream a.streams stream_id fun s ↦
          { s with bitrate := bitrate.toInt, bitrate_pos := i + 24 + 4 + j * 6 } }

/-- The loop over the stream names of an object at `base`. -/
def skip_names (a : Asf) (base l : ℤ) : ℕ → ℤ → Option ℤ
  | 0, ext_j => some ext_j
  | x + 1, ext_j =>
      if ext_j + 4 ≤ l then do
        let _lang_id_index ← a.le16 (base + ext_j)
        let stream_name_len ← a.le16 (base + (ext_j + 2))
        skip_names a base l x (ext_j + 2 + (stream_name_len + 2))
      else some ext_j

/-- The loop over the extension systems of an object at `base`. -/
def skip_systems (a : Asf) (base l : ℤ) : ℕ → ℤ → Option ℤ
  | 0, ext_j => some ext_j
  | x + 1, ext_j =>
      if ext_j + 22 ≤ l then do
        let len ← a.le16 (base + (ext_j + 18))
        skip_systems a base l x (ext_j + 18 + (4 + len))
      else some ext_j

/-- Extended stream properties at `base`, of length `l`. -/
def interp_extended (a : Asf) (base l : ℤ) : Option Asf := do
  let _stream_no ← a.le16 (base + 24 + 48)
  let name_count ← a.le16 (base + 24 + 60)
  let ext_count ← a.le16 (base + 24 + 62)
  let ext_j ← skip_names a base l name_count (24 + 64)
  let ext_j ← skip_systems a base l ext_count ext_j
  if ext_j + 24 ≤ l then
    let guid ← a.get_guid (base + ext_j)
    let len ← a.le64 (base + ext_j + 16)
    if guid = GUID_ASF_STREAM_PROPERTIES ∧ int32 (ext_j + (len.setWidth 32).toInt) ≤ l then
      a.interp_stream_properties (base + ext_j + 24)
    else return a
  else return a

/-- The test in the loop over the objects of a header extension, for an object at `base` of
length `l`. -/
def interp_extension_object (a : Asf) (guid : ℕ) (base l : ℤ) : Option Asf :=
  if guid = GUID_ASF_EXTENDED_STREAM_PROPERTIES ∧ 24 + 64 ≤ l then a.interp_extended base l
  else some a

/-- The loop over the objects of a header extension at `i`, of length `length`, for a number of
iterations. -/
def interp_extension (i length : ℤ) : ℕ → ℤ → Asf → Option Asf
  | 0, _, _ => none
  | fuel + 1, j, a =>
      if uint64 (j + 24) ≤ length then do
        let guid ← a.get_guid (i + j)
        let l := ((← a.le64 (i + j + 16)).setWidth 32).toInt
        if uint64 (int32 (j + l)) > length then return a
        else
          let a ← a.interp_extension_object guid (i + j) l
          interp_extension i length fuel (int32 (j + l)) a
      else some a

/-- The `switch` of `interp_asf_header`, for an object at `i`. -/
def interp_object (a : Asf) (guid : ℕ) (i length : ℤ) : Option Asf :=
  if guid = GUID_ASF_FILE_PROPERTIES then do
    let asf_packet_len := (← a.le32 (i + 92)).toNat
    if asf_packet_len > BUF_SIZE then return { a with asf_packet_len := 0 }
    let file_len := (← a.le64 (i + 40)).toNat
    let file_time := (← a.le64 (i + 48)).toNat
    let asf_num_packets := (← a.le64 (i + 56)).toNat
    let time_len := (← a.le64 (i + 64)).toNat
    let preroll := (← a.le64 (i + 80)).toNat
    return { a with asf_packet_len, file_len, file_time, asf_num_packets, time_len, preroll }
  else if guid = GUID_ASF_STREAM_PROPERTIES then a.interp_stream_properties (i + 24)
  else if guid = GUID_ASF_STREAM_BITRATE_PROPERTIES then do
    let streams ← a.le16 (i + 24)
    interp_bitrates i streams 0 a
  else if guid = GUID_ASF_HEADER_EXTENSION then
    if 24 + 18 + 4 > length then some a
    else do
      let _size ← a.le32 (i + 24 + 18)
      interp_extension i length (ASF_HEADER_SIZE + 1) (24 + 18 + 4) a
  else if guid = GUID_ASF_DATA then do
    let asf_num_packets := (← a.le64 (i + 40 - 24)).toNat
    return { a with asf_num_packets }
  else some a

/-- The loop of `interp_asf_header`, for a number of iterations. -/
def interp_objects : ℕ → ℤ → Asf → Option Asf
  | 0, _, _ => none
  | fuel + 1, i, a =>
      if i + 24 ≤ a.asf_header_len then do
        let guid ← a.get_guid i
        let length : ℤ := (← a.le64 (i + 16)).toNat
        if uint64 (i + length) > a.asf_header_len then return a
        else
          let a ← a.interp_object guid i length
          interp_objects fuel (uint64 (i + length)) a
      else some a

/-- `interp_asf_header`. -/
def interp_asf_header (a : Asf) : Option Asf :=
  interp_objects (ASF_HEADER_SIZE + 1) 30
    { a with asf_packet_len := 0, streams := [], asf_num_packets := 0 }

end Asf

end CodeToolKit.Libmms
