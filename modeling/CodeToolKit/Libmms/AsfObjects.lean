import CodeToolKit.Libmms.AsfSound

/-!
# Writing a header

The objects of a header as data, their bytes, and what each of them changes.
`interp_asf_header` of the bytes makes these changes, one object after the other
(`interp_asf_header_bytes`).

The five 64-bit numbers of a file properties object come back only if their bit 31 is clear
(`signExtended`), and a data object stands for as many packets as its length says.
-/

namespace CodeToolKit.Libmms

open Lib

/-- `bs` stand in the header from `i` on. -/
def Contains (header : ℕ → Byte) (i : ℤ) (bs : List Byte) : Prop :=
  0 ≤ i ∧ i + bs.length ≤ ASF_HEADER_SIZE ∧ ∀ k (h : k < bs.length), header (i.toNat + k) = bs[k]

namespace Contains

variable {header : ℕ → Byte} {i j : ℤ} {bs xs ys : List Byte}

theorem append : Contains header i (xs ++ ys) ↔
    Contains header i xs ∧ Contains header (i + xs.length) ys := by
  constructor
  · rintro ⟨hi, hsize, hget⟩
    rw [List.length_append] at hsize
    refine ⟨⟨hi, by omega, fun k hk ↦ ?_⟩, ⟨by omega, by omega, fun k hk ↦ ?_⟩⟩
    · rw [hget k (by rw [List.length_append]; omega), List.getElem_append_left hk]
    · have hnat : (i + xs.length).toNat + k = i.toNat + (xs.length + k) := by omega
      rw [hnat, hget (xs.length + k) (by rw [List.length_append]; omega),
        List.getElem_append_right (Nat.le_add_right _ _)]
      simp only [Nat.add_sub_cancel_left]
  · rintro ⟨⟨hi, -, hx⟩, -, hsize, hy⟩
    refine ⟨hi, by rw [List.length_append]; omega, fun k hk ↦ ?_⟩
    rw [List.length_append] at hk
    by_cases hlt : k < xs.length
    · rw [hx k hlt, List.getElem_append_left hlt]
    · have hnat : i.toNat + k = (i + xs.length).toNat + (k - xs.length) := by omega
      rw [hnat, hy (k - xs.length) (by omega), List.getElem_append_right (Nat.not_lt.mp hlt)]

/-- The first part of what stands there. -/
theorem left (h : Contains header i (xs ++ ys)) : Contains header i xs := (append.mp h).1

/-- What stands behind the first part. -/
theorem right (h : Contains header i (xs ++ ys)) (hj : j = i + xs.length) : Contains header j ys :=
  hj ▸ (append.mp h).2

end Contains

namespace Asf

variable {a : Asf} {i : ℤ} {n : ℕ} {bs : List Byte}

/-- Where `n` bytes stand, they are read. -/
theorem ptr_of_contains (hn : bs.length = n) (h : Contains a.asf_header i bs) :
    ∃ p, a.ptr i n = some p ∧ (List.range n).map p = bs := by
  refine ⟨_, if_pos ⟨h.1, hn ▸ h.2.1⟩, List.ext_getElem ?_ fun k hk hk' ↦ ?_⟩
  · rw [List.length_map, List.length_range, hn]
  · rw [List.getElem_map, List.getElem_range, h.2.2 k hk']

theorem le16_of_contains (hn : n < 2 ^ 16) (h : Contains a.asf_header i (toBytes 2 n)) :
    a.le16 i = some n := by
  obtain ⟨p, hp, hbytes⟩ := ptr_of_contains (length_toBytes 2 n) h
  have hval : (LE_16 p).toNat = n := by
    rw [LE_16_toNat, ← ofBytes_toBytes_of_lt (w := 2) hn, ← hbytes]
    rfl
  rw [le16, hp, Option.map_some, hval]

theorem le32_of_contains (hn : n < 2 ^ 32) (h : Contains a.asf_header i (toBytes 4 n)) :
    a.le32 i = some (BitVec.ofNat 32 n) := by
  obtain ⟨p, hp, hbytes⟩ := ptr_of_contains (length_toBytes 4 n) h
  have hval : LE_32 p = BitVec.ofNat 32 n := by
    apply BitVec.eq_of_toNat_eq
    rw [LE_32_toNat, BitVec.toNat_ofNat, Nat.mod_eq_of_lt hn,
      ← ofBytes_toBytes_of_lt (w := 4) (n := n) hn, ← hbytes]
    rfl
  rw [le32, hp, Option.map_some, hval]

theorem le64_of_contains (hn : n < 2 ^ 64) (h : Contains a.asf_header i (toBytes 8 n)) :
    ∃ v, a.le64 i = some v ∧ v.toNat = signExtended n := by
  obtain ⟨p, hp, hbytes⟩ := ptr_of_contains (length_toBytes 8 n) h
  refine ⟨LE_64 p, by rw [le64, hp, Option.map_some], ?_⟩
  rw [LE_64_toNat, ← ofBytes_toBytes_of_lt (w := 8) (n := n) hn, ← hbytes]
  rfl

end Asf

/-! ## Names of objects -/

/-- The bytes of a GUID. -/
def GUID.bytes (g : GUID) : List Byte :=
  toBytes 4 g.Data1 ++ (toBytes 2 g.Data2 ++ (toBytes 2 g.Data3 ++ g.Data4))

/-- The fields are as wide as they are declared. -/
structure GUID.Valid (g : GUID) : Prop where
  data1 : g.Data1 < 2 ^ 32
  data2 : g.Data2 < 2 ^ 16
  data3 : g.Data3 < 2 ^ 16
  data4 : g.Data4.length = 8

/-- The number of a GUID in the table. -/
def GUID.kind (g : GUID) : ℕ := (guids.tail.findIdx? (· == g)).elim GUID_ERROR (· + 1)

theorem GUID.Valid.length_bytes {g : GUID} (h : g.Valid) : g.bytes.length = 16 := by
  rw [GUID.bytes, List.length_append, List.length_append, List.length_append, length_toBytes,
    length_toBytes, length_toBytes, h.data4]

/-- The entry of the table. -/
def guidOf (kind : ℕ) : GUID := guids.getD kind ⟨0, 0, 0, []⟩

instance : DecidablePred GUID.Valid := fun g ↦
  decidable_of_iff (g.Data1 < 2 ^ 32 ∧ g.Data2 < 2 ^ 16 ∧ g.Data3 < 2 ^ 16 ∧ g.Data4.length = 8)
    ⟨fun h ↦ ⟨h.1, h.2.1, h.2.2.1, h.2.2.2⟩, fun h ↦ ⟨h.data1, h.data2, h.data3, h.data4⟩⟩

theorem valid_guidOf : ∀ kind < guids.length, (guidOf kind).Valid := by decide

theorem kind_guidOf : ∀ kind < guids.length, (guidOf kind).kind = kind := by decide

theorem Asf.get_guid_of_contains {a : Asf} {i : ℤ} {g : GUID} (hg : g.Valid)
    (h : Contains a.asf_header i g.bytes) : a.get_guid i = some g.kind := by
  obtain ⟨p, hp, hbytes⟩ := ptr_of_contains hg.length_bytes h
  -- the sixteen bytes, in the fields of the GUID
  have hsplit : [p 0, p 1, p 2, p 3] ++ ([p 4, p 5] ++ ([p 6, p 7] ++
      (List.range 8).map fun i ↦ p (8 + i))) = g.bytes := hbytes
  rw [GUID.bytes] at hsplit
  obtain ⟨h1, hsplit⟩ := List.append_inj hsplit (length_toBytes 4 g.Data1).symm
  obtain ⟨h2, hsplit⟩ := List.append_inj hsplit (length_toBytes 2 g.Data2).symm
  obtain ⟨h3, h4⟩ := List.append_inj hsplit (length_toBytes 2 g.Data3).symm
  have hguid : (⟨(LE_32 p).toNat, (LE_16 fun k ↦ p (4 + k)).toNat,
      (LE_16 fun k ↦ p (6 + k)).toNat, (List.range 8).map fun i ↦ p (8 + i)⟩ : GUID) = g := by
    rw [LE_32_toNat, LE_16_toNat, LE_16_toNat, h1, h2, h3, h4, ofBytes_toBytes_of_lt hg.data1,
      ofBytes_toBytes_of_lt hg.data2, ofBytes_toBytes_of_lt hg.data3]
  rw [get_guid, hp]
  exact congrArg (fun g : GUID ↦ some g.kind) hguid

/-! ## Objects -/

/-- An object: its GUID, its length, and what it holds. -/
def objectBytes (g : GUID) (body : List Byte) : List Byte :=
  g.bytes ++ (toBytes 8 (24 + body.length) ++ body)

/-- What a file properties object holds. -/
structure FileProperties where
  file_id : List Byte
  file_size : ℕ
  creation_date : ℕ
  data_packets : ℕ
  play_duration : ℕ
  send_duration : ℕ
  preroll : ℕ
  flags : ℕ
  min_packet_size : ℕ
  max_packet_size : ℕ
  max_bitrate : ℕ

/-- The bytes of a file properties object. -/
def FileProperties.body (p : FileProperties) : List Byte :=
  p.file_id ++ (toBytes 8 p.file_size ++ (toBytes 8 p.creation_date ++
    (toBytes 8 p.data_packets ++ (toBytes 8 p.play_duration ++ (toBytes 8 p.send_duration ++
      (toBytes 8 p.preroll ++ (toBytes 4 p.flags ++ (toBytes 4 p.min_packet_size ++
        (toBytes 4 p.max_packet_size ++ toBytes 4 p.max_bitrate)))))))))

/-- The fields that are read are as wide as they are declared. -/
structure FileProperties.Valid (p : FileProperties) : Prop where
  file_id : p.file_id.length = 16
  file_size : p.file_size < 2 ^ 64
  creation_date : p.creation_date < 2 ^ 64
  data_packets : p.data_packets < 2 ^ 64
  play_duration : p.play_duration < 2 ^ 64
  preroll : p.preroll < 2 ^ 64
  min_packet_size : p.min_packet_size < 2 ^ 32

/-- What a stream properties object holds: the GUID of the type, the fields that are not read, the
flags with the number of the stream, and the rest. -/
structure StreamProperties where
  type : GUID
  unread : List Byte
  flags : ℕ
  rest : List Byte

/-- The bytes of a stream properties object. -/
def StreamProperties.body (p : StreamProperties) : List Byte :=
  p.type.bytes ++ (p.unread ++ (toBytes 2 p.flags ++ p.rest))

structure StreamProperties.Valid (p : StreamProperties) : Prop where
  type : p.type.Valid
  unread : p.unread.length = 32
  flags : p.flags < 2 ^ 16

/-- A record of the bitrate properties. -/
structure BitrateRecord where
  stream_id : ℕ
  bitrate : ℕ

/-- The bytes of a record. -/
def BitrateRecord.bytes (r : BitrateRecord) : List Byte :=
  toBytes 2 r.stream_id ++ toBytes 4 r.bitrate

structure BitrateRecord.Valid (r : BitrateRecord) : Prop where
  stream_id : r.stream_id < 2 ^ 16
  bitrate : r.bitrate < 2 ^ 32

/-- The bytes of the bitrate properties. -/
def bitratesBody (records : List BitrateRecord) : List Byte :=
  toBytes 2 records.length ++ records.flatMap BitrateRecord.bytes

/-- What an extended stream properties object holds: the fields before the counts, the names and
the extension systems, and perhaps a stream properties object. -/
structure ExtendedProperties where
  fixed : List Byte
  names : List (ℕ × List Byte)
  systems : List (List Byte × List Byte)
  stream : Option StreamProperties

/-- The bytes of a stream name. -/
def nameBytes (name : ℕ × List Byte) : List Byte :=
  toBytes 2 name.1 ++ (toBytes 2 name.2.length ++ name.2)

/-- The bytes of an extension system. -/
def systemBytes (system : List Byte × List Byte) : List Byte :=
  system.1 ++ (toBytes 4 system.2.length ++ system.2)

/-- The bytes of the stream properties, if there are any. -/
def ExtendedProperties.streamBytes (p : ExtendedProperties) : List Byte :=
  p.stream.elim [] fun s ↦ objectBytes (guidOf GUID_ASF_STREAM_PROPERTIES) s.body

/-- The bytes of an extended stream properties object. -/
def ExtendedProperties.body (p : ExtendedProperties) : List Byte :=
  p.fixed ++ (toBytes 2 p.names.length ++ (toBytes 2 p.systems.length ++
    (p.names.flatMap nameBytes ++ (p.systems.flatMap systemBytes ++ p.streamBytes))))

structure ExtendedProperties.Valid (p : ExtendedProperties) : Prop where
  fixed : p.fixed.length = 60
  names : p.names.length < 2 ^ 16
  systems : p.systems.length < 2 ^ 16
  name : ∀ name ∈ p.names, name.1 < 2 ^ 16 ∧ name.2.length < 2 ^ 16
  system : ∀ system ∈ p.systems, system.1.length = 18 ∧ system.2.length < 2 ^ 16
  stream : ∀ s ∈ p.stream, s.Valid

/-- An object of a header extension. -/
inductive ExtensionObject where
  | extended (p : ExtendedProperties)
  | other (g : GUID) (body : List Byte)

/-- The bytes of an object of a header extension. -/
def ExtensionObject.bytes : ExtensionObject → List Byte
  | .extended p => objectBytes (guidOf GUID_ASF_EXTENDED_STREAM_PROPERTIES) p.body
  | .other g body => objectBytes g body

def ExtensionObject.Valid : ExtensionObject → Prop
  | .extended p => p.Valid
  | .other g _ => g.Valid ∧ g.kind ≠ GUID_ASF_EXTENDED_STREAM_PROPERTIES

/-- An object of a header. -/
inductive HeaderObject where
  | file (p : FileProperties)
  | stream (p : StreamProperties)
  | bitrates (records : List BitrateRecord)
  | extension (reserved : List Byte) (objects : List ExtensionObject)
  | data (body : List Byte)
  | other (g : GUID) (body : List Byte)

/-- The GUIDs that `interp_asf_header` knows. -/
def headerKinds : List ℕ :=
  [GUID_ASF_FILE_PROPERTIES, GUID_ASF_STREAM_PROPERTIES, GUID_ASF_STREAM_BITRATE_PROPERTIES,
   GUID_ASF_HEADER_EXTENSION, GUID_ASF_DATA]

/-- The GUID of an object. -/
def HeaderObject.guid : HeaderObject → GUID
  | .file _ => guidOf GUID_ASF_FILE_PROPERTIES
  | .stream _ => guidOf GUID_ASF_STREAM_PROPERTIES
  | .bitrates _ => guidOf GUID_ASF_STREAM_BITRATE_PROPERTIES
  | .extension _ _ => guidOf GUID_ASF_HEADER_EXTENSION
  | .data _ => guidOf GUID_ASF_DATA
  | .other g _ => g

/-- What an object holds. -/
def HeaderObject.body : HeaderObject → List Byte
  | .file p => p.body
  | .stream p => p.body
  | .bitrates records => bitratesBody records
  | .extension reserved objects => reserved ++
      (toBytes 4 (objects.flatMap ExtensionObject.bytes).length ++
        objects.flatMap ExtensionObject.bytes)
  | .data body => body
  | .other _ body => body

/-- The bytes of an object. -/
def HeaderObject.bytes (o : HeaderObject) : List Byte := objectBytes o.guid o.body

def HeaderObject.Valid : HeaderObject → Prop
  | .file p => p.Valid
  | .stream p => p.Valid
  | .bitrates records => records.length < 2 ^ 16 ∧ ∀ r ∈ records, r.Valid
  | .extension reserved objects => reserved.length = 18 ∧ ∀ o ∈ objects, o.Valid
  | .data _ => True
  | .other g _ => g.Valid ∧ g.kind ∉ headerKinds

/-! ## What objects change -/

namespace Asf

/-- What file properties change. -/
def setFile (a : Asf) (p : FileProperties) : Asf :=
  if p.min_packet_size > BUF_SIZE then { a with asf_packet_len := 0 }
  else { a with
    asf_packet_len := p.min_packet_size
    file_len := signExtended p.file_size
    file_time := signExtended p.creation_date
    asf_num_packets := signExtended p.data_packets
    time_len := signExtended p.play_duration
    preroll := signExtended p.preroll }

/-- What stream properties change. -/
def setStream (a : Asf) (p : StreamProperties) : Asf := { a with
  has_audio := a.has_audio || stream_type p.type.kind == .audio
  has_video := a.has_video || stream_type p.type.kind == .video
  streams := withStream a.streams (p.flags &&& 0x7f) fun s ↦
    { s with stream_type := stream_type p.type.kind } }

/-- What a record of bitrate properties changes, when its bitrate stands at `pos`. -/
def setBitrate (a : Asf) (r : BitrateRecord) (pos : ℤ) : Asf := { a with
  streams := withStream a.streams r.stream_id fun s ↦
    { s with bitrate := (BitVec.ofNat 32 r.bitrate).toInt, bitrate_pos := pos } }

/-- What bitrate properties change, when the first record stands at `pos`. -/
def setBitrates (a : Asf) (pos : ℤ) : List BitrateRecord → Asf
  | [] => a
  | r :: records => setBitrates (a.setBitrate r (pos + 2)) (pos + 6) records

/-- What an object of a header extension changes. -/
def setExtension (a : Asf) : ExtensionObject → Asf
  | .extended p => p.stream.elim a a.setStream
  | .other _ _ => a

/-- What an object at `i` changes. -/
def setObject (a : Asf) (i : ℤ) : HeaderObject → Asf
  | .file p => a.setFile p
  | .stream p => a.setStream p
  | .bitrates records => a.setBitrates (i + 26) records
  | .extension _ objects => objects.foldl setExtension a
  -- the number of packets is read where the length of the object stands
  | .data body => { a with asf_num_packets := 24 + body.length }
  | .other _ _ => a

/-- What objects change, the first of them at `i`. -/
def setObjects (a : Asf) (i : ℤ) : List HeaderObject → Asf
  | [] => a
  | o :: objects => setObjects (a.setObject i o) (i + o.bytes.length) objects

/-- The header stays as it is. -/
def SameHeader (a b : Asf) : Prop :=
  b.asf_header = a.asf_header ∧ b.asf_header_len = a.asf_header_len

theorem SameHeader.trans {a b c : Asf} (hab : SameHeader a b) (hbc : SameHeader b c) :
    SameHeader a c := ⟨hbc.1.trans hab.1, hbc.2.trans hab.2⟩

theorem header_setFile (a : Asf) (p : FileProperties) : SameHeader a (a.setFile p) := by
  rw [setFile]
  split <;> exact ⟨rfl, rfl⟩

theorem header_setBitrates {a : Asf} {pos : ℤ} {records : List BitrateRecord} :
    SameHeader a (a.setBitrates pos records) := by
  induction records generalizing a pos with
  | nil => exact ⟨rfl, rfl⟩
  | cons r records ih => exact ih

theorem header_setExtension (a : Asf) (o : ExtensionObject) : SameHeader a (a.setExtension o) := by
  cases o with
  | extended p => cases h : p.stream <;> simp [setExtension, h, setStream, SameHeader]
  | other => exact ⟨rfl, rfl⟩

theorem header_extension {a : Asf} {objects : List ExtensionObject} :
    SameHeader a (objects.foldl setExtension a) := by
  induction objects generalizing a with
  | nil => exact ⟨rfl, rfl⟩
  | cons o objects ih => exact (header_setExtension a o).trans ih

theorem header_setObject (a : Asf) (i : ℤ) (o : HeaderObject) : SameHeader a (a.setObject i o) := by
  cases o with
  | file p => exact header_setFile a p
  | stream p => exact ⟨rfl, rfl⟩
  | bitrates records => exact header_setBitrates
  | extension _ objects => exact header_extension
  | data => exact ⟨rfl, rfl⟩
  | other => exact ⟨rfl, rfl⟩

/-! ## Reading them -/

variable {a : Asf} {i : ℤ}

/-- The parts of an object. -/
theorem contains_object {header : ℕ → Byte} {g : GUID} {body : List Byte} (hg : g.Valid)
    (h : Contains header i (objectBytes g body)) : Contains header i g.bytes ∧
      Contains header (i + 16) (toBytes 8 (24 + body.length)) ∧ Contains header (i + 24) body := by
  have h16 := h.right (j := i + 16) (by rw [hg.length_bytes]; rfl)
  refine ⟨h.left, h16.left, h16.right ?_⟩
  rw [length_toBytes]
  omega

theorem interp_file {p : FileProperties} {length : ℤ} (hp : p.Valid)
    (h : Contains a.asf_header (i + 24) p.body) :
    a.interp_object GUID_ASF_FILE_PROPERTIES i length = some (a.setFile p) := by
  have h40 := h.right (j := i + 40) (by rw [hp.file_id]; omega)
  have h48 := h40.right (j := i + 48) (by rw [length_toBytes]; omega)
  have h56 := h48.right (j := i + 56) (by rw [length_toBytes]; omega)
  have h64 := h56.right (j := i + 64) (by rw [length_toBytes]; omega)
  have h72 := h64.right (j := i + 72) (by rw [length_toBytes]; omega)
  have h80 := h72.right (j := i + 80) (by rw [length_toBytes]; omega)
  have h88 := h80.right (j := i + 88) (by rw [length_toBytes]; omega)
  have h92 := h88.right (j := i + 92) (by rw [length_toBytes]; omega)
  have hmin : (BitVec.ofNat 32 p.min_packet_size).toNat = p.min_packet_size :=
    Nat.mod_eq_of_lt hp.min_packet_size
  obtain ⟨v40, hv40, he40⟩ := le64_of_contains hp.file_size h40.left
  obtain ⟨v48, hv48, he48⟩ := le64_of_contains hp.creation_date h48.left
  obtain ⟨v56, hv56, he56⟩ := le64_of_contains hp.data_packets h56.left
  obtain ⟨v64, hv64, he64⟩ := le64_of_contains hp.play_duration h64.left
  obtain ⟨v80, hv80, he80⟩ := le64_of_contains hp.preroll h80.left
  rw [interp_object, if_pos rfl, le32_of_contains hp.min_packet_size h92.left]
  simp only [Option.bind_eq_bind, Option.bind_some, hmin, hv40, hv48, hv56, hv64, hv80, he40, he48,
    he56, he64, he80, setFile]
  split <;> rfl

theorem interp_stream {p : StreamProperties} (hp : p.Valid) (h : Contains a.asf_header i p.body) :
    a.interp_stream_properties i = some (a.setStream p) := by
  have h16 := h.right (j := i + 16) (by rw [hp.type.length_bytes]; rfl)
  have h48 := h16.right (j := i + 48) (by rw [hp.unread]; omega)
  rw [interp_stream_properties, get_guid_of_contains hp.type h.left,
    le16_of_contains hp.flags h48.left]
  rfl

theorem interp_records {j : ℕ} {records : List BitrateRecord} (hrecords : ∀ r ∈ records, r.Valid)
    (h : Contains a.asf_header (i + 26 + j * 6) (records.flatMap BitrateRecord.bytes)) :
    interp_bitrates i records.length j a = some (a.setBitrates (i + 26 + j * 6) records) := by
  induction records generalizing a j with
  | nil => rfl
  | cons r records ih =>
      obtain ⟨hr, hrecords⟩ := List.forall_mem_cons.mp hrecords
      rw [List.flatMap_cons] at h
      have hid : a.le16 (i + 24 + 2 + j * 6) = some r.stream_id := by
        refine le16_of_contains hr.stream_id ?_
        have hpos : i + 24 + 2 + j * 6 = i + 26 + j * 6 := by omega
        exact hpos ▸ h.left.left
      have hrate : a.le32 (i + 24 + 4 + j * 6) = some (BitVec.ofNat 32 r.bitrate) :=
        le32_of_contains hr.bitrate (h.left.right (by rw [length_toBytes]; omega))
      have hnext : Contains a.asf_header (i + 26 + (j + 1 : ℕ) * 6)
          (records.flatMap BitrateRecord.bytes) := by
        refine h.right ?_
        rw [BitrateRecord.bytes, List.length_append, length_toBytes, length_toBytes]
        omega
      have hpos : i + 24 + 4 + j * 6 = i + 26 + j * 6 + 2 := by omega
      have hpos' : i + 26 + j * 6 + 6 = i + 26 + ((j + 1 : ℕ) : ℤ) * 6 := by omega
      rw [List.length_cons, interp_bitrates, hid, hrate, setBitrates, hpos']
      change interp_bitrates i records.length (j + 1) (a.setBitrate r (i + 24 + 4 + j * 6)) = _
      rw [hpos]
      exact ih hrecords hnext

theorem interp_names {base l ext_j : ℤ} {names : List (ℕ × List Byte)}
    (hnames : ∀ name ∈ names, name.1 < 2 ^ 16 ∧ name.2.length < 2 ^ 16)
    (h : Contains a.asf_header (base + ext_j) (names.flatMap nameBytes))
    (hl : ext_j + (names.flatMap nameBytes).length ≤ l) :
    skip_names a base l names.length ext_j = some (ext_j + (names.flatMap nameBytes).length) := by
  induction names generalizing ext_j with
  | nil => exact congrArg some (Int.add_zero ext_j).symm
  | cons name names ih =>
      obtain ⟨⟨hlang, hlen⟩, hnames⟩ := List.forall_mem_cons.mp hnames
      have hlength : (nameBytes name).length = 4 + name.2.length := by
        rw [nameBytes, List.length_append, List.length_append, length_toBytes, length_toBytes]
        omega
      rw [List.flatMap_cons] at h
      rw [List.flatMap_cons, List.length_append, hlength] at hl ⊢
      have hname := h.left
      have hid : a.le16 (base + ext_j) = some name.1 := le16_of_contains hlang hname.left
      have hlen' : a.le16 (base + (ext_j + 2)) = some name.2.length :=
        le16_of_contains hlen (hname.right (by rw [length_toBytes]; omega)).left
      have hnext : Contains a.asf_header (base + (ext_j + 2 + (name.2.length + 2)))
          (names.flatMap nameBytes) :=
        h.right (by rw [hlength]; omega)
      rw [List.length_cons, skip_names, if_pos (by omega), hid, hlen']
      change skip_names a base l names.length (ext_j + 2 + (name.2.length + 2)) = _
      rw [ih hnames hnext (by omega)]
      congr 1
      omega

theorem interp_systems {base l ext_j : ℤ} {systems : List (List Byte × List Byte)}
    (hsystems : ∀ system ∈ systems, system.1.length = 18 ∧ system.2.length < 2 ^ 16)
    (h : Contains a.asf_header (base + ext_j) (systems.flatMap systemBytes))
    (hl : ext_j + (systems.flatMap systemBytes).length ≤ l) :
    skip_systems a base l systems.length ext_j =
      some (ext_j + (systems.flatMap systemBytes).length) := by
  induction systems generalizing ext_j with
  | nil => exact congrArg some (Int.add_zero ext_j).symm
  | cons system systems ih =>
      obtain ⟨⟨hid, hlen⟩, hsystems⟩ := List.forall_mem_cons.mp hsystems
      have hlength : (systemBytes system).length = 22 + system.2.length := by
        rw [systemBytes, List.length_append, List.length_append, length_toBytes, hid]
        omega
      rw [List.flatMap_cons] at h
      rw [List.flatMap_cons, List.length_append, hlength] at hl ⊢
      have hinfo := (h.left.right (j := base + (ext_j + 18)) (by rw [hid]; omega)).left
      -- only the lower half of the length is read
      have hlow : toBytes 4 system.2.length =
          toBytes 2 system.2.length ++ toBytes 2 (system.2.length / 256 / 256) := rfl
      have hlen' : a.le16 (base + (ext_j + 18)) = some system.2.length :=
        le16_of_contains hlen (hlow ▸ hinfo).left
      have hnext : Contains a.asf_header (base + (ext_j + 18 + (4 + system.2.length)))
          (systems.flatMap systemBytes) :=
        h.right (by rw [hlength]; omega)
      rw [List.length_cons, skip_systems, if_pos (by omega), hlen']
      change skip_systems a base l systems.length (ext_j + 18 + (4 + system.2.length)) = _
      rw [ih hsystems hnext (by omega)]
      congr 1
      omega

theorem toInt_setWidth {v : BitVec 64} (h : v.toNat < 2 ^ 31) :
    (v.setWidth 32).toInt = v.toNat := by
  have hnat : (v.setWidth 32).toNat = v.toNat := by
    rw [BitVec.toNat_setWidth, Nat.mod_eq_of_lt (Nat.lt_trans h (by decide))]
  rw [BitVec.toInt_eq_toNat_of_lt (by omega), hnat]

/-- The length of an object is read as it was written. -/
theorem length_of_contains {n : ℕ} (hn : n < 2 ^ 31) (h : Contains a.asf_header i (toBytes 8 n)) :
    ∃ v, a.le64 i = some v ∧ v.toNat = n ∧ (v.setWidth 32).toInt = n := by
  obtain ⟨v, hv, hnat⟩ := le64_of_contains (Nat.lt_trans hn (by decide)) h
  rw [signExtended, if_pos (by rw [Nat.mod_eq_of_lt (by omega)]; exact hn)] at hnat
  exact ⟨v, hv, hnat, hnat ▸ toInt_setWidth (hnat ▸ hn)⟩

theorem le16_isSome (h : 0 ≤ i ∧ i + 2 ≤ ASF_HEADER_SIZE) : ∃ n, a.le16 i = some n :=
  ⟨_, by rw [le16, ptr, if_pos ⟨h.1, by omega⟩, Option.map_some]⟩

theorem interp_extended_of_contains {base : ℤ} {p : ExtendedProperties} (hp : p.Valid)
    (h : Contains a.asf_header (base + 24) p.body) (hbase : 0 ≤ base) :
    a.interp_extended base (24 + p.body.length) = some (a.setExtension (.extended p)) := by
  have h84 := h.right (j := base + 24 + 60) (by rw [hp.fixed]; rfl)
  have h86 := h84.right (j := base + 24 + 62) (by rw [length_toBytes]; omega)
  have h88 := h86.right (j := base + (24 + 64)) (by rw [length_toBytes]; omega)
  have hsystems := h88.right (j := base + (24 + 64 + (p.names.flatMap nameBytes).length)) (by omega)
  have hstream := hsystems.right (j := base + (24 + 64 + (p.names.flatMap nameBytes).length +
    (p.systems.flatMap systemBytes).length)) (by omega)
  have hlength : p.body.length = 64 + (p.names.flatMap nameBytes).length +
      (p.systems.flatMap systemBytes).length + p.streamBytes.length := by
    simp only [ExtendedProperties.body, List.length_append, length_toBytes, hp.fixed]
    omega
  have hsize := h.2.1
  obtain ⟨_, hno⟩ := le16_isSome (a := a) (i := base + 24 + 48) (by omega)
  have hnames := interp_names (l := 24 + p.body.length) hp.name h88.left (by omega)
  have hsys := interp_systems (l := 24 + p.body.length) hp.system hsystems.left (by omega)
  rw [interp_extended, hno, le16_of_contains hp.names h84.left,
    le16_of_contains hp.systems h86.left]
  simp only [Option.bind_eq_bind, Option.bind_some, hnames, hsys]
  rw [ExtendedProperties.streamBytes] at hlength hstream
  cases hs : p.stream with
  | none =>
      rw [hs, Option.elim_none, List.length_nil] at hlength
      rw [if_neg (by omega), setExtension, hs]
      rfl
  | some q =>
      have hq := hp.stream q hs
      have hvalid := valid_guidOf GUID_ASF_STREAM_PROPERTIES (by decide)
      rw [hs, Option.elim_some] at hlength hstream
      rw [objectBytes, List.length_append, List.length_append, hvalid.length_bytes,
        length_toBytes] at hlength
      obtain ⟨hguid, hlen, hbody⟩ := contains_object hvalid hstream
      have hend := hstream.2.1
      have hsmall : ASF_HEADER_SIZE = 16384 := rfl
      obtain ⟨v, hv, -, hint⟩ := length_of_contains (n := 24 + q.body.length)
        (by rw [objectBytes, List.length_append, List.length_append, hvalid.length_bytes,
              length_toBytes] at hend
            omega) hlen
      have hkind := kind_guidOf GUID_ASF_STREAM_PROPERTIES (by decide)
      have hfits : int32 (24 + 64 + (p.names.flatMap nameBytes).length +
          (p.systems.flatMap systemBytes).length + (v.setWidth 32).toInt) ≤
          24 + (p.body.length : ℤ) := by
        rw [hint, int32_eq (by omega)]
        omega
      rw [if_pos (by omega), get_guid_of_contains hvalid hguid, Option.bind_some, hv,
        Option.bind_some, if_pos ⟨hkind, hfits⟩, interp_stream hq hbody, setExtension, hs]
      rfl

theorem length_objectBytes {g : GUID} {body : List Byte} (hg : g.Valid) :
    (objectBytes g body).length = 24 + body.length := by
  rw [objectBytes, List.length_append, List.length_append, hg.length_bytes, length_toBytes]
  omega

/-- The head of an object: its GUID and its length are read as they were written. -/
theorem head_of_contains {g : GUID} {body : List Byte} (hg : g.Valid)
    (h : Contains a.asf_header i (objectBytes g body)) : a.get_guid i = some g.kind ∧
      ∃ v, a.le64 (i + 16) = some v ∧ v.toNat = 24 + body.length ∧
        (v.setWidth 32).toInt = 24 + body.length := by
  obtain ⟨hguid, hlen, -⟩ := contains_object hg h
  have hsize := h.2.1
  rw [length_objectBytes hg] at hsize
  have hsmall : ASF_HEADER_SIZE = 16384 := rfl
  have hi := h.1
  exact ⟨get_guid_of_contains hg hguid, length_of_contains (by omega) hlen⟩

theorem ExtensionObject.eq_objectBytes {o : ExtensionObject} (ho : o.Valid) :
    ∃ g body, o.bytes = objectBytes g body ∧ g.Valid ∧
      ∀ a : Asf, ∀ base, Contains a.asf_header base o.bytes →
        a.interp_extension_object g.kind base (24 + body.length) = some (a.setExtension o) := by
  cases o with
  | extended p =>
      have hvalid := valid_guidOf GUID_ASF_EXTENDED_STREAM_PROPERTIES (by decide)
      have hkind := kind_guidOf GUID_ASF_EXTENDED_STREAM_PROPERTIES (by decide)
      refine ⟨_, p.body, rfl, hvalid, fun a base h ↦ ?_⟩
      have hlong : 64 ≤ p.body.length := by
        simp only [ExtendedProperties.body, List.length_append, length_toBytes, ho.fixed]
        omega
      rw [hkind, interp_extension_object, if_pos ⟨rfl, by omega⟩]
      exact interp_extended_of_contains ho (contains_object hvalid h).2.2 h.1
  | other g body => exact ⟨g, body, rfl, ho.1, fun a base _ ↦ if_neg fun h ↦ ho.2 h.1⟩

theorem interp_extension_objects {length j : ℤ} {fuel : ℕ} {objects : List ExtensionObject}
    (hvalid : ∀ o ∈ objects, o.Valid) (hi : 0 ≤ i) (hj : 0 ≤ j)
    (h : Contains a.asf_header (i + j) (objects.flatMap ExtensionObject.bytes))
    (hlength : j + (objects.flatMap ExtensionObject.bytes).length = length)
    (hfuel : objects.length < fuel) :
    interp_extension i length fuel j a = some (objects.foldl setExtension a) := by
  have hsmall : ASF_HEADER_SIZE = 16384 := rfl
  have hsize := h.2.1
  induction objects generalizing a j fuel with
  | nil =>
      obtain ⟨fuel, rfl⟩ := Nat.exists_eq_add_one.mpr hfuel
      rw [List.flatMap_nil, List.length_nil] at hlength hsize
      rw [interp_extension, uint64_eq (by omega), if_neg (by omega)]
      rfl
  | cons o objects ih =>
      obtain ⟨fuel, rfl⟩ := Nat.exists_eq_add_one.mpr (Nat.zero_lt_of_lt hfuel)
      obtain ⟨ho, hobjects⟩ := List.forall_mem_cons.mp hvalid
      obtain ⟨g, body, hbytes, hg, hinterp⟩ := ExtensionObject.eq_objectBytes ho
      rw [List.flatMap_cons] at h
      have hlen : o.bytes.length = 24 + body.length := hbytes ▸ length_objectBytes hg
      rw [List.flatMap_cons, List.length_append, hlen] at hlength hsize
      obtain ⟨hguid, v, hv, -, hint⟩ := head_of_contains hg (hbytes ▸ h.left)
      have hnext : Contains (a.setExtension o).asf_header (i + (j + (24 + body.length)))
          (objects.flatMap ExtensionObject.bytes) := by
        rw [(header_setExtension a o).1]
        exact h.right (by rw [hlen]; omega)
      rw [interp_extension, uint64_eq (by omega), if_pos (by omega), hguid, hv]
      simp only [Option.bind_eq_bind, Option.bind_some, hint]
      rw [int32_eq (by omega), uint64_eq (by omega), if_neg (by omega), hinterp a (i + j) h.left,
        Option.bind_some]
      exact ih hobjects (by omega) hnext (by omega) (Nat.lt_of_succ_lt_succ hfuel) (by omega)

theorem HeaderObject.valid_guid {o : HeaderObject} (ho : o.Valid) : o.guid.Valid := by
  cases o with
  | file => exact valid_guidOf GUID_ASF_FILE_PROPERTIES (by decide)
  | stream => exact valid_guidOf GUID_ASF_STREAM_PROPERTIES (by decide)
  | bitrates => exact valid_guidOf GUID_ASF_STREAM_BITRATE_PROPERTIES (by decide)
  | extension => exact valid_guidOf GUID_ASF_HEADER_EXTENSION (by decide)
  | data => exact valid_guidOf GUID_ASF_DATA (by decide)
  | other => exact ho.1

/-- Every object takes 24 bytes, and as many objects fit as there is room. -/
theorem length_le_flatMap {α : Type} {bytes : α → List Byte} {objects : List α}
    (h : ∀ o ∈ objects, 24 ≤ (bytes o).length) :
    objects.length * 24 ≤ (objects.flatMap bytes).length := by
  induction objects with
  | nil => exact Nat.le_refl 0
  | cons o objects ih =>
      obtain ⟨ho, hobjects⟩ := List.forall_mem_cons.mp h
      rw [List.flatMap_cons, List.length_append, List.length_cons, Nat.succ_mul]
      have htail := ih hobjects
      omega

/-- What is done with an object is what the object changes. -/
theorem interp_object_of_contains {o : HeaderObject} (ho : o.Valid)
    (h : Contains a.asf_header i o.bytes) :
    a.interp_object o.guid.kind i (24 + o.body.length) = some (a.setObject i o) := by
  have hbody := (contains_object (HeaderObject.valid_guid ho) h).2.2
  cases o with
  | file p =>
      rw [HeaderObject.guid, kind_guidOf _ (by decide)]
      exact interp_file ho hbody
  | stream p =>
      rw [HeaderObject.guid, kind_guidOf _ (by decide)]
      exact interp_stream ho hbody
  | bitrates records =>
      rw [HeaderObject.guid, kind_guidOf _ (by decide), interp_object, if_neg (by decide),
        if_neg (by decide), if_pos rfl, le16_of_contains ho.1 hbody.left]
      have hrecords : Contains a.asf_header (i + 26 + (0 : ℕ) * 6)
          (records.flatMap BitrateRecord.bytes) :=
        hbody.right (by rw [length_toBytes]; omega)
      have hinterp := interp_records ho.2 hrecords
      rwa [Int.ofNat_zero, Int.zero_mul, Int.add_zero] at hinterp
  | extension reserved objects =>
      have hi := h.1
      have hsize := hbody.2.1
      have hsmall : ASF_HEADER_SIZE = 16384 := rfl
      have h42 := hbody.right (j := i + 24 + 18) (by rw [ho.1]; rfl)
      have hobjects : Contains a.asf_header (i + (24 + 18 + 4))
          (objects.flatMap ExtensionObject.bytes) :=
        h42.right (by rw [length_toBytes]; omega)
      have hlength : (HeaderObject.body (.extension reserved objects)).length =
          22 + (objects.flatMap ExtensionObject.bytes).length := by
        rw [HeaderObject.body, List.length_append, List.length_append, length_toBytes, ho.1]
        omega
      have hmany : objects.length * 24 ≤ (objects.flatMap ExtensionObject.bytes).length := by
        refine length_le_flatMap fun o hmem ↦ ?_
        obtain ⟨g, body, hbytes, hg, -⟩ := ExtensionObject.eq_objectBytes (ho.2 o hmem)
        rw [hbytes, length_objectBytes hg]
        exact Nat.le_add_right 24 _
      rw [hlength] at hsize ⊢
      rw [HeaderObject.guid, kind_guidOf _ (by decide), interp_object, if_neg (by decide),
        if_neg (by decide), if_neg (by decide), if_pos rfl, if_neg (by omega),
        le32_of_contains (by omega) h42.left]
      exact interp_extension_objects ho.2 hi (by decide) hobjects (by omega) (by omega)
  | data body =>
      obtain ⟨-, v, hv, hnat, -⟩ := head_of_contains (HeaderObject.valid_guid ho) h
      have hpos : i + 40 - 24 = i + 16 := by omega
      rw [HeaderObject.guid, kind_guidOf _ (by decide), interp_object, if_neg (by decide),
        if_neg (by decide), if_neg (by decide), if_neg (by decide), if_pos rfl, hpos, hv]
      simp only [Option.bind_eq_bind, Option.bind_some, hnat]
      rfl
  | other g body =>
      obtain ⟨hfile, hstream, hbitrates, hextension, hdata⟩ :
          g.kind ≠ GUID_ASF_FILE_PROPERTIES ∧ g.kind ≠ GUID_ASF_STREAM_PROPERTIES ∧
            g.kind ≠ GUID_ASF_STREAM_BITRATE_PROPERTIES ∧ g.kind ≠ GUID_ASF_HEADER_EXTENSION ∧
            g.kind ≠ GUID_ASF_DATA := by
        simpa [headerKinds] using ho.2
      rw [HeaderObject.guid, interp_object, if_neg hfile, if_neg hstream, if_neg hbitrates,
        if_neg hextension, if_neg hdata]
      rfl

/-- A header ends before another object begins, or with the head of an object that is longer than
what is left. -/
def Ends (rest : List Byte) : Prop := rest.length < 24 ∨
  ∃ (g : GUID) (body : List Byte), ∃ n < 2 ^ 31, g.Valid ∧
    rest = g.bytes ++ (toBytes 8 n ++ body) ∧ rest.length < n

theorem interp_objects_of_contains {fuel : ℕ} {objects : List HeaderObject} {rest : List Byte}
    (hvalid : ∀ o ∈ objects, o.Valid) (hrest : Ends rest)
    (h : Contains a.asf_header i (objects.flatMap HeaderObject.bytes ++ rest))
    (hlength : i + (objects.flatMap HeaderObject.bytes ++ rest).length = a.asf_header_len)
    (hfuel : objects.length < fuel) :
    interp_objects fuel i a = some (a.setObjects i objects) := by
  have hsmall : ASF_HEADER_SIZE = 16384 := rfl
  have hi := h.1
  have hsize := h.2.1
  induction objects generalizing a i fuel with
  | nil =>
      obtain ⟨fuel, rfl⟩ := Nat.exists_eq_add_one.mpr hfuel
      rw [List.flatMap_nil, List.nil_append] at h hlength hsize
      rcases hrest with hshort | ⟨g, body, n, hn, hg, hbytes, hlong⟩
      · rw [interp_objects, if_neg (by omega)]
        rfl
      · have hlen : rest.length = 24 + body.length := by
          rw [hbytes, List.length_append, List.length_append, hg.length_bytes, length_toBytes]
          omega
        rw [hbytes] at h
        have h16 := h.right (j := i + 16) (by rw [hg.length_bytes]; rfl)
        obtain ⟨v, hv, hnat, -⟩ := length_of_contains hn h16.left
        rw [interp_objects, if_pos (by omega), get_guid_of_contains hg h.left, hv]
        simp only [Option.bind_eq_bind, Option.bind_some, hnat]
        rw [uint64_eq (by omega), if_pos (by omega)]
        rfl
  | cons o objects ih =>
      obtain ⟨fuel, rfl⟩ := Nat.exists_eq_add_one.mpr (Nat.zero_lt_of_lt hfuel)
      obtain ⟨ho, hobjects⟩ := List.forall_mem_cons.mp hvalid
      have hlen : o.bytes.length = 24 + o.body.length :=
        length_objectBytes (HeaderObject.valid_guid ho)
      rw [List.flatMap_cons, List.append_assoc] at h
      rw [List.flatMap_cons, List.append_assoc, List.length_append, hlen] at hlength hsize
      obtain ⟨hguid, v, hv, hnat, -⟩ := head_of_contains (HeaderObject.valid_guid ho) h.left
      have hnext : Contains (a.setObject i o).asf_header (i + o.bytes.length)
          (objects.flatMap HeaderObject.bytes ++ rest) := by
        rw [(header_setObject a i o).1]
        exact h.right rfl
      have hstep : (↑(24 + o.body.length : ℕ) : ℤ) = 24 + o.body.length := by omega
      rw [interp_objects, if_pos (by omega), hguid, hv]
      simp only [Option.bind_eq_bind, Option.bind_some, hnat]
      rw [uint64_eq (by omega), if_neg (by omega), hstep, interp_object_of_contains ho h.left,
        Option.bind_some, setObjects, hlen, ← hstep]
      rw [hlen] at hnext
      exact ih hobjects hnext (by rw [(header_setObject a i o).2]; omega)
        (Nat.lt_of_succ_lt_succ hfuel) (by omega) (by omega)

/-- **Headers.**  Of a header that is 30 bytes, objects and an end, the objects are found where they
were written: what is recorded is what they change (`setObject`), one after the other. -/
theorem interp_asf_header_bytes {start rest : List Byte} {objects : List HeaderObject}
    (hstart : start.length = 30) (hvalid : ∀ o ∈ objects, o.Valid) (hrest : Ends rest)
    (h : Contains a.asf_header 0 (start ++ (objects.flatMap HeaderObject.bytes ++ rest)))
    (hlength : a.asf_header_len =
      (start ++ (objects.flatMap HeaderObject.bytes ++ rest)).length) :
    a.interp_asf_header = some (setObjects
      { a with asf_packet_len := 0, streams := [], asf_num_packets := 0 } 30 objects) := by
  have hsize := h.2.1
  have hsmall : ASF_HEADER_SIZE = 16384 := rfl
  have hmany : objects.length * 24 ≤ (objects.flatMap HeaderObject.bytes).length := by
    refine length_le_flatMap fun o ho ↦ ?_
    rw [HeaderObject.bytes, length_objectBytes (HeaderObject.valid_guid (hvalid o ho))]
    exact Nat.le_add_right 24 _
  rw [List.length_append, hstart] at hlength hsize
  rw [List.length_append] at hsize
  refine interp_objects_of_contains hvalid hrest (h.right (by rw [hstart]; rfl)) ?_ (by omega)
  rw [hlength]
  omega

theorem contains_ofBytes {header : List Byte} (h : header.length ≤ ASF_HEADER_SIZE) :
    Contains (ofBytes header).asf_header 0 header := by
  refine ⟨Int.le_refl 0, by omega, fun k hk ↦ ?_⟩
  have hget : header.getD k 0 = header[k] := by
    rw [List.getD_eq_getElem?_getD, List.getElem?_eq_getElem hk, Option.getD_some]
  rw [Int.toNat_zero, Nat.zero_add]
  exact hget

/-- A film: its packets, a stream of sound, a stream of pictures in an extension, and their
bitrates. -/
def film : List HeaderObject :=
  [.file ⟨List.replicate 16 0, 100000, 7, 20, 9, 9, 3000, 2, 1400, 1400, 64000⟩,
   .stream ⟨guidOf GUID_ASF_AUDIO_MEDIA, List.replicate 32 0, 1, []⟩,
   .extension (List.replicate 18 0) [.extended ⟨List.replicate 60 0, [(0, [65, 0])],
     [(List.replicate 18 0, [])],
     some ⟨guidOf GUID_ASF_VIDEO_MEDIA, List.replicate 32 0, 2, [1, 2]⟩⟩],
   .bitrates [⟨1, 64000⟩, ⟨2, 250000⟩]]

theorem valid_film : ∀ o ∈ film, o.Valid := by
  refine List.forall_mem_cons.mpr ⟨⟨rfl, ?_, ?_, ?_, ?_, ?_, ?_⟩, List.forall_mem_cons.mpr
    ⟨⟨valid_guidOf GUID_ASF_AUDIO_MEDIA (by decide), rfl, by decide⟩, List.forall_mem_cons.mpr
      ⟨⟨rfl, ?_⟩, List.forall_mem_singleton.mpr ⟨by decide, ?_⟩⟩⟩⟩ <;> try decide
  · refine List.forall_mem_singleton.mpr ⟨rfl, by decide, by decide, by decide, by decide, ?_⟩
    rintro s ⟨⟩
    exact ⟨valid_guidOf GUID_ASF_VIDEO_MEDIA (by decide), rfl, by decide⟩
  · rintro r (_ | ⟨_, _ | ⟨_, ⟨⟩⟩⟩) <;> exact ⟨by decide, by decide⟩

theorem film_read : ∃ b, (ofBytes (List.replicate 30 0 ++
      (film.flatMap HeaderObject.bytes ++ []))).interp_asf_header = some b ∧
    b.asf_packet_len = 1400 ∧ b.streams.map (fun s ↦ (s.stream_id, s.stream_type, s.bitrate)) =
      [(1, .audio, 64000), (2, .video, 250000)] :=
  ⟨_, interp_asf_header_bytes List.length_replicate valid_film (.inl (by decide))
    (contains_ofBytes (by decide +kernel)) rfl, rfl, by decide +kernel⟩

end Asf

end CodeToolKit.Libmms
