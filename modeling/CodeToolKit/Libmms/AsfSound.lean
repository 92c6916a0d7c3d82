import CodeToolKit.Libmms.AsfHeader
import Mathlib.Data.List.Nodup
import Mathlib.Logic.Relation

/-!
# What a header can do

Whatever the bytes of a header are, `interp_asf_header` does nothing but the five updates of
`Update`.  So an invariant of these holds after it: the list of streams fits its array and
names no stream twice, a packet fits its buffer, an audio or video stream that is recorded has its
flag set, and a recorded bitrate stands in the header where it is said to stand (`Sound`).
-/

namespace CodeToolKit.Libmms.Asf

/-- One change of the fields. -/
inductive Update : Asf → Asf → Prop where
  | file (a : Asf) {asf_packet_len : ℕ} (file_len file_time asf_num_packets time_len preroll : ℕ)
      (hle : asf_packet_len ≤ BUF_SIZE) : Update a { a with
        asf_packet_len, file_len, file_time, asf_num_packets, time_len, preroll }
  | tooLarge (a : Asf) : Update a { a with asf_packet_len := 0 }
  | stream (a : Asf) (stream_id : ℕ) (type : StreamType) : Update a { a with
      has_audio := a.has_audio || type == .audio
      has_video := a.has_video || type == .video
      streams := withStream a.streams stream_id fun s ↦ { s with stream_type := type } }
  | bitrate (a : Asf) (stream_id : ℕ) {pos : ℤ} {value : BitVec 32} (hpos : 0 < pos)
      (hvalue : a.le32 pos = some value) : Update a { a with
        streams := withStream a.streams stream_id fun s ↦
          { s with bitrate := value.toInt, bitrate_pos := pos } }
  | packets (a : Asf) (asf_num_packets : ℕ) : Update a { a with asf_num_packets }

/-- Any number of changes. -/
abbrev Updates : Asf → Asf → Prop := Relation.ReflTransGen Update

variable {a b : Asf}

/-- No change touches the header itself. -/
theorem Updates.header (h : Updates a b) :
    b.asf_header = a.asf_header ∧ b.asf_header_len = a.asf_header_len := by
  induction h with
  | refl => exact ⟨rfl, rfl⟩
  | tail _ h ih => cases h <;> exact ih

/-! ## The functions -/

theorem updates_stream_properties {i : ℤ} (h : a.interp_stream_properties i = some b) :
    Updates a b := by
  obtain ⟨guid, -, h⟩ := Option.bind_eq_some_iff.mp h
  obtain ⟨flags, -, h⟩ := Option.bind_eq_some_iff.mp h
  exact Option.some.inj h ▸ .single (.stream a _ _)

theorem updates_bitrates {i : ℤ} (hi : 0 ≤ i) {n j : ℕ} (h : interp_bitrates i n j a = some b) :
    Updates a b := by
  induction n generalizing j a with
  | zero => exact Option.some.inj h ▸ .refl
  | succ n ih =>
      obtain ⟨stream_id, -, h⟩ := Option.bind_eq_some_iff.mp h
      obtain ⟨value, hvalue, h⟩ := Option.bind_eq_some_iff.mp h
      exact .head (.bitrate a stream_id (by omega) hvalue) (ih h)

theorem updates_extended {base l : ℤ} (h : a.interp_extended base l = some b) : Updates a b := by
  obtain ⟨_, -, h⟩ := Option.bind_eq_some_iff.mp h
  obtain ⟨name_count, -, h⟩ := Option.bind_eq_some_iff.mp h
  obtain ⟨ext_count, -, h⟩ := Option.bind_eq_some_iff.mp h
  obtain ⟨_, -, h⟩ := Option.bind_eq_some_iff.mp h
  obtain ⟨ext_j, -, h⟩ := Option.bind_eq_some_iff.mp h
  split at h
  · obtain ⟨guid, -, h⟩ := Option.bind_eq_some_iff.mp h
    obtain ⟨len, -, h⟩ := Option.bind_eq_some_iff.mp h
    split at h
    · exact updates_stream_properties h
    · exact Option.some.inj h ▸ .refl
  · exact Option.some.inj h ▸ .refl

theorem updates_extension {i length : ℤ} {fuel : ℕ} {j : ℤ}
    (h : interp_extension i length fuel j a = some b) : Updates a b := by
  induction fuel generalizing j a with
  | zero => cases h
  | succ fuel ih =>
      rw [interp_extension] at h
      split at h
      · obtain ⟨guid, -, h⟩ := Option.bind_eq_some_iff.mp h
        obtain ⟨l, -, h⟩ := Option.bind_eq_some_iff.mp h
        dsimp only at h
        split at h
        · exact Option.some.inj h ▸ .refl
        · obtain ⟨a', ha', h⟩ := Option.bind_eq_some_iff.mp h
          refine Relation.ReflTransGen.trans ?_ (ih h)
          rw [interp_extension_object] at ha'
          split at ha'
          · exact updates_extended ha'
          · exact Option.some.inj ha' ▸ .refl
      · exact Option.some.inj h ▸ .refl

theorem updates_file {i : ℤ} {length : ℤ}
    (h : a.interp_object GUID_ASF_FILE_PROPERTIES i length = some b) : Updates a b := by
  rw [interp_object, if_pos rfl] at h
  obtain ⟨asf_packet_len, -, h⟩ := Option.bind_eq_some_iff.mp h
  dsimp only at h
  split at h
  · exact Option.some.inj h ▸ .single (.tooLarge a)
  · rename_i hle
    obtain ⟨file_len, -, h⟩ := Option.bind_eq_some_iff.mp h
    obtain ⟨file_time, -, h⟩ := Option.bind_eq_some_iff.mp h
    obtain ⟨asf_num_packets, -, h⟩ := Option.bind_eq_some_iff.mp h
    obtain ⟨time_len, -, h⟩ := Option.bind_eq_some_iff.mp h
    obtain ⟨preroll, -, h⟩ := Option.bind_eq_some_iff.mp h
    exact Option.some.inj h ▸ .single (.file a _ _ _ _ _ (Nat.not_lt.mp hle))

theorem updates_object {guid : ℕ} {i length : ℤ} (hi : 0 ≤ i)
    (h : a.interp_object guid i length = some b) : Updates a b := by
  by_cases hfile : guid = GUID_ASF_FILE_PROPERTIES
  · exact updates_file (hfile ▸ h)
  · rw [interp_object, if_neg hfile] at h
    split at h
    · exact updates_stream_properties h
    · split at h
      · obtain ⟨streams, -, h⟩ := Option.bind_eq_some_iff.mp h
        exact updates_bitrates hi h
      · split at h
        · split at h
          · exact Option.some.inj h ▸ .refl
          · obtain ⟨_, -, h⟩ := Option.bind_eq_some_iff.mp h
            exact updates_extension h
        · split at h
          · obtain ⟨asf_num_packets, -, h⟩ := Option.bind_eq_some_iff.mp h
            exact Option.some.inj h ▸ .single (.packets a _)
          · exact Option.some.inj h ▸ .refl

theorem uint64_nonneg (z : ℤ) : 0 ≤ uint64 z := Int.emod_nonneg z (by decide)

theorem updates_objects {fuel : ℕ} {i : ℤ} (hi : 0 ≤ i) (h : interp_objects fuel i a = some b) :
    Updates a b := by
  induction fuel generalizing i a with
  | zero => cases h
  | succ fuel ih =>
      rw [interp_objects] at h
      split at h
      · obtain ⟨guid, -, h⟩ := Option.bind_eq_some_iff.mp h
        obtain ⟨length, -, h⟩ := Option.bind_eq_some_iff.mp h
        dsimp only at h
        split at h
        · exact Option.some.inj h ▸ .refl
        · obtain ⟨a', ha', h⟩ := Option.bind_eq_some_iff.mp h
          exact (updates_object hi ha').trans (ih (uint64_nonneg _) h)
      · exact Option.some.inj h ▸ .refl

/-! ## The invariant -/

/-- What holds of the fields after a header was interpreted. -/
structure Sound (a : Asf) : Prop where
  fits : a.streams.length ≤ ASF_MAX_NUM_STREAMS
  distinct : (a.streams.map Stream.stream_id).Nodup
  packet_le : a.asf_packet_len ≤ BUF_SIZE
  audio : ∀ s ∈ a.streams, s.stream_type = .audio → a.has_audio = true
  video : ∀ s ∈ a.streams, s.stream_type = .video → a.has_video = true
  bitrate : ∀ s ∈ a.streams, (s.bitrate_pos = 0 ∧ s.bitrate = 0) ∨
    (0 < s.bitrate_pos ∧ (a.le32 s.bitrate_pos).map BitVec.toInt = some s.bitrate)

/-- The entry of a stream is changed, or added, or there is no room. -/
theorem withStream_cases (streams : List Stream) (stream_id : ℕ) (change : Stream → Stream) :
    withStream streams stream_id change = streams ∨
    ((∀ s ∈ streams, s.stream_id ≠ stream_id) ∧ streams.length < ASF_MAX_NUM_STREAMS ∧
      withStream streams stream_id change = streams ++ [change ⟨stream_id, .unknown, 0, 0⟩]) ∨
    ∃ before s after, streams = before ++ s :: after ∧ s.stream_id = stream_id ∧
      withStream streams stream_id change = before ++ change s :: after := by
  rw [withStream]
  split
  · rename_i hnew
    split
    · exact .inl rfl
    · rename_i hroom
      refine .inr (.inl ⟨?_, Nat.not_le.mp hroom, rfl⟩)
      intro s hs
      have hmiss := List.findIdx_eq_length.mp hnew s hs
      simpa using hmiss
  · rename_i hfound
    have hlt : streams.findIdx (fun s ↦ s.stream_id == stream_id) < streams.length :=
      Nat.lt_of_le_of_ne List.findIdx_le_length hfound
    refine .inr (.inr ⟨_, _, _, ?_, ?_, List.modify_eq_take_cons_drop hlt⟩)
    · rw [← List.drop_eq_getElem_cons hlt, List.take_append_drop]
    · simpa using List.findIdx_getElem (w := hlt)

section

variable {streams : List Stream} {stream_id : ℕ} {change : Stream → Stream}

theorem length_withStream (h : streams.length ≤ ASF_MAX_NUM_STREAMS) :
    (withStream streams stream_id change).length ≤ ASF_MAX_NUM_STREAMS := by
  rcases withStream_cases streams stream_id change with heq | ⟨-, hroom, heq⟩ |
    ⟨before, s, after, rfl, -, heq⟩
  · rw [heq]
    exact h
  · rw [heq, List.length_append]
    exact hroom
  · rw [heq]
    simpa using h

theorem nodup_withStream (hid : ∀ s, (change s).stream_id = s.stream_id)
    (h : (streams.map Stream.stream_id).Nodup) :
    ((withStream streams stream_id change).map Stream.stream_id).Nodup := by
  rcases withStream_cases streams stream_id change with heq | ⟨hnew, -, heq⟩ |
    ⟨before, s, after, rfl, -, heq⟩
  · rw [heq]
    exact h
  · rw [heq, List.map_append, List.map_singleton, hid, ← List.concat_eq_append,
      List.nodup_concat]
    refine ⟨fun hmem ↦ ?_, h⟩
    obtain ⟨s, hs, hsid⟩ := List.mem_map.mp hmem
    exact hnew s hs hsid
  · rw [List.map_append, List.map_cons] at h
    rw [heq, List.map_append, List.map_cons, hid]
    exact h

/-- An entry of the changed list is an old one or a changed one. -/
theorem mem_withStream {s : Stream} (h : s ∈ withStream streams stream_id change) :
    s ∈ streams ∨ ∃ s', (s' ∈ streams ∨ s' = ⟨stream_id, .unknown, 0, 0⟩) ∧ s = change s' := by
  rcases withStream_cases streams stream_id change with heq | ⟨-, -, heq⟩ |
    ⟨before, s', after, rfl, -, heq⟩
  · exact .inl (heq ▸ h)
  · rw [heq, List.mem_append, List.mem_singleton] at h
    exact h.imp_right fun h ↦ ⟨_, .inr rfl, h⟩
  · rw [heq, List.mem_append, List.mem_cons] at h
    rcases h with h | h | h
    · exact .inl (List.mem_append_left _ h)
    · exact .inr ⟨s', .inl (by simp), h⟩
    · exact .inl (List.mem_append_right _ (List.mem_cons_of_mem _ h))

end

/-- Nothing is recorded. -/
theorem sound_cleared (a : Asf) :
    Sound { a with asf_packet_len := 0, streams := [], asf_num_packets := 0 } where
  fits := Nat.zero_le _
  distinct := List.nodup_nil
  packet_le := Nat.zero_le _
  audio _ hs := absurd hs List.not_mem_nil
  video _ hs := absurd hs List.not_mem_nil
  bitrate _ hs := absurd hs List.not_mem_nil

/-- The type of a stream is recorded. -/
theorem Sound.stream (h : Sound a) (stream_id : ℕ) (type : StreamType) : Sound { a with
    has_audio := a.has_audio || type == .audio
    has_video := a.has_video || type == .video
    streams := withStream a.streams stream_id fun s ↦ { s with stream_type := type } } where
  fits := length_withStream h.fits
  distinct := nodup_withStream (fun _ ↦ rfl) h.distinct
  packet_le := h.packet_le
  audio s hs htype := by
    rcases mem_withStream hs with hs | ⟨s', -, rfl⟩
    · exact Bool.or_eq_true_iff.mpr (.inl (h.audio s hs htype))
    · exact Bool.or_eq_true_iff.mpr (.inr (beq_iff_eq.mpr htype))
  video s hs htype := by
    rcases mem_withStream hs with hs | ⟨s', -, rfl⟩
    · exact Bool.or_eq_true_iff.mpr (.inl (h.video s hs htype))
    · exact Bool.or_eq_true_iff.mpr (.inr (beq_iff_eq.mpr htype))
  bitrate s hs := by
    rcases mem_withStream hs with hs | ⟨s', hs', rfl⟩
    · exact h.bitrate s hs
    · rcases hs' with hs' | rfl
      · exact h.bitrate s' hs'
      · exact .inl ⟨rfl, rfl⟩

/-- The bitrate of a stream is recorded. -/
theorem Sound.bitrateAt (h : Sound a) (stream_id : ℕ) {pos : ℤ} {value : BitVec 32} (hpos : 0 < pos)
    (hvalue : a.le32 pos = some value) : Sound { a with
      streams := withStream a.streams stream_id fun s ↦
        { s with bitrate := value.toInt, bitrate_pos := pos } } where
  fits := length_withStream h.fits
  distinct := nodup_withStream (fun _ ↦ rfl) h.distinct
  packet_le := h.packet_le
  audio s hs htype := by
    rcases mem_withStream hs with hs | ⟨s', hs' | rfl, rfl⟩
    · exact h.audio s hs htype
    · exact h.audio s' hs' htype
    · cases htype
  video s hs htype := by
    rcases mem_withStream hs with hs | ⟨s', hs' | rfl, rfl⟩
    · exact h.video s hs htype
    · exact h.video s' hs' htype
    · cases htype
  bitrate s hs := by
    rcases mem_withStream hs with hs | ⟨s', -, rfl⟩
    · exact h.bitrate s hs
    · exact .inr ⟨hpos, congrArg (Option.map BitVec.toInt) hvalue⟩

/-- Every change keeps the invariant. -/
theorem Sound.update (h : Sound a) (hab : Update a b) : Sound b := by
  cases hab with
  | file _ _ _ _ _ hle => exact { h with packet_le := hle }
  | tooLarge => exact { h with packet_le := Nat.zero_le _ }
  | stream stream_id type => exact h.stream stream_id type
  | bitrate stream_id hpos hvalue => exact h.bitrateAt stream_id hpos hvalue
  | packets => exact { h with }

/-- **Headers.**  However a header looks like, the fields are sound after it was interpreted. -/
theorem sound_of_interp (h : a.interp_asf_header = some b) :
    Sound b ∧ b.asf_header = a.asf_header ∧ b.asf_header_len = a.asf_header_len := by
  have hupdates := updates_objects (by decide) h
  refine ⟨?_, hupdates.header⟩
  clear h
  induction hupdates with
  | refl => exact sound_cleared a
  | tail _ hstep ih => exact ih.update hstep

/-- A header whose only object gives the bitrate of one stream. -/
def oneBitrate : List Byte :=
  [0x30, 0x26, 0xb2, 0x75, 0x8e, 0x66, 0xcf, 0x11, 0xa6, 0xd9, 0x00, 0xaa, 0x00, 0x62, 0xce, 0x6c,
   62, 0, 0, 0, 0, 0, 0, 0, 1, 0, 0, 0, 1, 2,
   0xce, 0x75, 0xf8, 0x7b, 0x8d, 0x46, 0xd1, 0x11, 0x8d, 0x82, 0x00, 0x60, 0x97, 0xc9, 0xa2, 0xb2,
   32, 0, 0, 0, 0, 0, 0, 0, 1, 0, 3, 0, 0x00, 0xfa, 0, 0]

theorem oneBitrate_sound : ∃ b, (ofBytes oneBitrate).interp_asf_header = some b ∧
    b.streams = [⟨3, .unknown, 64000, 58⟩] ∧ Sound b := by
  have h : (ofBytes oneBitrate).interp_asf_header.map streams =
      some [⟨3, .unknown, 64000, 58⟩] := by
    decide +kernel
  obtain ⟨b, hb, hstreams⟩ := Option.map_eq_some_iff.mp h
  exact ⟨b, hb, hstreams, (sound_of_interp hb).1⟩

end CodeToolKit.Libmms.Asf
