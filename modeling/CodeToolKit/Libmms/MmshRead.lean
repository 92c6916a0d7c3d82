import CodeToolKit.Lib.Reader
import CodeToolKit.Libmms.Mmsh

/-!
# Reading in pieces

`mmsh_read` is a reader of a buffer: of what it finds in the header or in the packet it takes what
it needs, and leaves the rest for the next call.  So it does not matter into which calls a program
divides what it reads (`mmsh_read_pieces`), whatever the server sends and however often the stream
is opened again on the way.
-/

namespace CodeToolKit.Libmms.Mmsh

open Lib

variable {net : Net} {m m' m'' : Mmsh}

/-! ## What is kept -/

/-- The fields that no function below `mmsh_read` changes. -/
def kept (m : Mmsh) : ℕ × ℤ × List Char × List Char × ℤ × ℤ :=
  (m.buf_read, m.current_pos, m.uri, m.http_host, m.http_port, m.bandwidth)

theorem io_read_some {s : Socket} (hs : m.s = some s) (num : ℕ) : m.io_read num =
    ((s.io_read num).1, (s.io_read num).2.1, { m with s := some (s.io_read num).2.2 }) := by
  rw [io_read, hs]

theorem io_read_none (hs : m.s = none) (num : ℕ) : m.io_read num = (-1, [], m) := by
  rw [io_read, hs]

/-- What a read of the connection does. -/
theorem io_read_spec {num : ℕ} {len : ℤ} {data : List Byte} (h : m.io_read num = (len, data, m')) :
    (∃ s, m' = { m with s := s }) ∧ (0 ≤ len → m'.s.isSome ∧ (data.length : ℤ) = len) := by
  cases hs : m.s with
  | none =>
      rw [io_read_none hs] at h
      cases h
      exact ⟨⟨m.s, rfl⟩, fun hlen ↦ (by cases hlen)⟩
  | some s =>
      rw [io_read_some hs] at h
      cases h
      refine ⟨⟨_, rfl⟩, fun hlen ↦ ⟨rfl, ?_⟩⟩
      rw [Socket.io_read] at hlen ⊢
      dsimp only at hlen ⊢
      split at hlen
      · cases hlen
      · rename_i hnone
        rw [if_neg hnone]

/-- What a chunk header changes. -/
def AtChunk (m m' : Mmsh) : Prop := ∃ s type length seq, m' = { m with
  s := s, chunk_type := type, chunk_length := length, chunk_seq_number := seq }

theorem extHeader_spec {status : Status} (h : m.extHeader = (status, m')) :
    AtChunk m m' ∧ (status = .success → m'.s.isSome) ∧ status ≠ .gotHeaderNData := by
  rw [extHeader] at h
  rcases hio : m.io_read (extHeaderLen m.chunk_type) with ⟨len, data, m₁⟩
  obtain ⟨⟨s, rfl⟩, hsome⟩ := io_read_spec hio
  rw [hio] at h
  dsimp only at h
  split at h
  · cases h
    exact ⟨⟨s, _, _, _, rfl⟩, fun h ↦ (by cases h), by simp⟩
  · rename_i hlen
    cases h
    exact ⟨⟨s, _, _, _, rfl⟩, fun _ ↦ (hsome (by omega)).1, by simp⟩

/-- What `get_chunk_header` does. -/
theorem get_chunk_header_spec {status : Status} (h : m.get_chunk_header = (status, m')) :
    AtChunk m m' ∧ (status = .success → m'.s.isSome) ∧ status ≠ .gotHeaderNData := by
  rw [get_chunk_header] at h
  rcases hio : m.io_read CHUNK_HEADER_LENGTH with ⟨len, data, m₁⟩
  obtain ⟨⟨s, rfl⟩, -⟩ := io_read_spec hio
  rw [hio] at h
  dsimp only at h
  split at h
  · cases h
    exact ⟨⟨s, _, _, _, rfl⟩, by split <;> simp, by split <;> simp⟩
  · obtain ⟨⟨s', type, length, seq, rfl⟩, hsome, hstatus⟩ := extHeader_spec h
    exact ⟨⟨s', type, length, seq, rfl⟩, hsome, hstatus⟩

/-- What `dataPacket` does. -/
theorem dataPacket_spec {status : Status} (h : m.dataPacket = (status, m')) :
    (status = .error ∧ ∃ s, m' = { m with s := s }) ∨
    (status = .success ∧ ∃ s buf, m' = { m with s := some s, buf := buf } ∧
      buf.length = m.asf_packet_len) := by
  rw [dataPacket] at h
  rcases hio : m.io_read m.chunk_length with ⟨len, data, m₁⟩
  obtain ⟨⟨s, rfl⟩, hsome⟩ := io_read_spec hio
  rw [hio] at h
  dsimp only at h
  split at h
  · cases h
    exact .inl ⟨rfl, s, rfl⟩
  · rename_i hlen
    split at h
    · cases h
      exact .inl ⟨rfl, s, rfl⟩
    · rename_i hle
      obtain ⟨hs, hdata⟩ := hsome (by omega)
      obtain ⟨s, rfl⟩ := Option.isSome_iff_exists.mp hs
      cases h
      refine .inr ⟨rfl, s, _, rfl, ?_⟩
      rw [List.length_append, List.length_replicate]
      omega

theorem receiveHeader_spec {ok : Bool} (h : m.receiveHeader = (ok, m')) :
    ∃ s data, m' = { m with s := s, toAsf := m.toAsf.received data } ∧
      (ok = true → s.isSome ∧ data.length = m.chunk_length) := by
  rw [receiveHeader] at h
  rcases hio : m.io_read m.chunk_length with ⟨len, data, m₁⟩
  obtain ⟨⟨s, rfl⟩, hsome⟩ := io_read_spec hio
  rw [hio] at h
  cases h
  refine ⟨s, data, rfl, fun hok ↦ ?_⟩
  have hlen : len = m.chunk_length := of_decide_eq_true hok
  obtain ⟨hs, hdata⟩ := hsome (by omega)
  exact ⟨hs, by omega⟩

/-- What `headerChunks` does. -/
theorem headerChunks_spec {fuel : ℕ} {status : Status}
    (h : headerChunks fuel m = .ok (status, m')) :
    m'.kept = m.kept ∧ m'.buf = m.buf ∧ (status = .success → m'.s.isSome) ∧
      status ≠ .gotHeaderNData := by
  induction fuel generalizing m with
  | zero => cases h
  | succ fuel ih =>
      rw [headerChunks] at h
      rcases hchunk : m.get_chunk_header with ⟨st, m₁⟩
      obtain ⟨⟨s, type, length, seq, rfl⟩, hsome, hstatus⟩ := get_chunk_header_spec hchunk
      rw [hchunk] at h
      split at h
      · rename_i heq
        cases heq
        split at h
        · split at h
          · cases h
            exact ⟨rfl, rfl, by simp, by simp⟩
          · rcases hreceive : receiveHeader _ with ⟨ok, m₂⟩
            rw [hreceive] at h
            obtain ⟨s, data, rfl, hs⟩ := receiveHeader_spec hreceive
            cases ok with
            | false =>
                cases h
                exact ⟨rfl, rfl, by simp, by simp⟩
            | true =>
                dsimp only at h
                split at h
                · cases h
                · obtain ⟨hkept, hbuf, hsuccess⟩ := ih h
                  exact ⟨hkept, hbuf, hsuccess⟩
        · cases h
          exact ⟨rfl, rfl, hsome, by simp⟩
      · rename_i heq
        cases heq
        cases h
        exact ⟨rfl, rfl, hsome, hstatus⟩

/-- What `get_header` does. -/
theorem get_header_spec {status : Status} (h : m.get_header = .ok (status, m')) :
    m'.kept = m.kept ∧ status ≠ .gotHeaderNData ∧ (status ≠ .success → m'.buf = []) ∧
      (status = .success → m'.s.isSome ∧ m'.buf.length = m'.asf_packet_len) := by
  rw [get_header] at h
  rcases hchunks : headerChunks _ _ with f | ⟨st, m₁⟩
  · rw [hchunks] at h
    cases h
  · obtain ⟨hkept, hbuf, -, hstatus⟩ := headerChunks_spec hchunks
    rw [hchunks] at h
    split at h
    · rename_i heq
      cases heq
    · rename_i heq
      cases heq
      split at h
      · rcases dataPacket_spec (Except.ok.inj h) with ⟨rfl, s, rfl⟩ | ⟨rfl, s, buf, rfl, hlen⟩
        · exact ⟨hkept, by simp, fun _ ↦ hbuf, by simp⟩
        · exact ⟨hkept, by simp, by simp, fun _ ↦ ⟨rfl, hlen⟩⟩
      · cases h
        exact ⟨hkept, by simp, fun _ ↦ hbuf, by simp⟩
    · rename_i hfailed heq
      cases heq
      cases h
      exact ⟨hkept, hstatus, fun _ ↦ hbuf, fun h ↦ (hfailed h).elim⟩

theorem mms_tcp_connect_spec {ok : Bool} (h : mms_tcp_connect net m = (ok, m')) :
    ∃ s connects, m' = { m with s := s, connects := connects } ∧ s.isSome = ok := by
  rw [mms_tcp_connect] at h
  split at h <;> cases h <;> exact ⟨_, _, rfl, rfl⟩

theorem send_command_spec {cmd : List Char} {ok : Bool} (h : m.send_command cmd = (ok, m')) :
    ∃ s, m' = { m with s := s } := by
  rw [send_command] at h
  split at h <;> cases h
  · exact ⟨m.s, rfl⟩
  · exact ⟨_, rfl⟩

theorem get_answer_spec {ok : Bool} (h : m.get_answer = (ok, m')) :
    ∃ s type seekable, m' = { m with s := s, stream_type := type, seekable := seekable } := by
  rw [get_answer] at h
  split at h <;> cases h
  · exact ⟨m.s, _, m.seekable, rfl⟩
  · exact ⟨_, _, _, rfl⟩

/-- What `exchange` does. -/
theorem exchange_spec {cmd : List Char} {status : Status}
    (h : m.exchange cmd = .ok (status, m')) : m'.kept = m.kept ∧
      (status = .success → m'.s.isSome ∧ m'.buf.length = m'.asf_packet_len) := by
  rw [exchange] at h
  rcases hsend : m.send_command cmd with ⟨ok, m₁⟩
  obtain ⟨s, rfl⟩ := send_command_spec hsend
  rw [hsend] at h
  cases ok with
  | false =>
      cases h
      exact ⟨rfl, by simp⟩
  | true =>
      dsimp only at h
      rcases hanswer : get_answer _ with ⟨ok, m₂⟩
      obtain ⟨s, type, seekable, rfl⟩ := get_answer_spec hanswer
      rw [hanswer] at h
      cases ok with
      | false =>
          cases h
          exact ⟨rfl, by simp⟩
      | true =>
          obtain ⟨hkept, -, -, hsuccess⟩ := get_header_spec h
          exact ⟨hkept, hsuccess⟩

/-- What `firstRequest` does. -/
theorem firstRequest_spec {ok : Bool} (h : firstRequest net m = .ok (ok, m')) :
    m'.kept = m.kept ∧ (ok = false → m'.s = none) := by
  rw [firstRequest] at h
  rcases hconnect : mms_tcp_connect net { m with s := none } with ⟨ok₁, m₁⟩
  obtain ⟨s, connects, rfl, hs⟩ := mms_tcp_connect_spec hconnect
  rw [hconnect] at h
  cases ok₁ with
  | false =>
      cases h
      exact ⟨rfl, fun _ ↦ by simpa using hs⟩
  | true =>
      dsimp only at h
      split at h
      · cases h
      · rename_i hexchange
        cases h
        exact ⟨(exchange_spec hexchange).1, fun _ ↦ rfl⟩
      · rename_i hexchange
        split at h <;> cases h
        · exact ⟨(exchange_spec hexchange).1, fun _ ↦ rfl⟩
        · exact ⟨(exchange_spec hexchange).1, by simp⟩

/-- What `secondRequest` does. -/
theorem secondRequest_spec {seek time_seek : ℤ} {ok : Bool}
    (h : secondRequest net m seek time_seek = .ok (ok, m')) :
    m'.kept = m.kept ∧ (ok = false → m'.s = none) ∧
      (ok = true → m'.s.isSome ∧ m'.buf.length = m'.asf_packet_len ∧ 0 < m'.asf_packet_len) := by
  rw [secondRequest] at h
  dsimp only at h
  rcases hconnect : mms_tcp_connect net { m with s := none } with ⟨ok₁, m₁⟩
  obtain ⟨s, connects, rfl, hs⟩ := mms_tcp_connect_spec hconnect
  rw [hconnect] at h
  cases ok₁ with
  | false =>
      cases h
      exact ⟨rfl, fun _ ↦ by simpa using hs, by simp⟩
  | true =>
      dsimp only at h
      split at h
      · cases h
      · split at h
        · cases h
        · rename_i m₂ hexchange
          obtain ⟨hkept, hsuccess⟩ := exchange_spec hexchange
          obtain ⟨hsome, hlen⟩ := hsuccess rfl
          split at h
          · cases h
            exact ⟨hkept, fun _ ↦ rfl, by simp⟩
          · rename_i hempty
            cases h
            obtain ⟨header, hdisable⟩ := m₂.disable_eq (mms_get_best_stream_ids m.toAsf
              m.bandwidth).1 (mms_get_best_stream_ids m.toAsf m.bandwidth).2
            rw [hdisable]
            exact ⟨hkept, by simp, fun _ ↦
              ⟨hsome, hlen, Nat.pos_of_ne_zero fun h ↦ hempty (.inl h)⟩⟩
        · rename_i hexchange
          cases h
          exact ⟨(exchange_spec hexchange).1, fun _ ↦ rfl, by simp⟩

/-- What `mmsh_connect_int` does. -/
theorem mmsh_connect_int_spec {seek time_seek : ℤ} {ok : Bool}
    (h : mmsh_connect_int net m seek time_seek = .ok (ok, m')) :
    m'.kept = m.kept ∧ (ok = false → m'.s = none) ∧
      (ok = true → m'.s.isSome ∧ m'.buf.length = m'.asf_packet_len ∧ 0 < m'.asf_packet_len) := by
  rw [mmsh_connect_int] at h
  split at h
  · cases h
  · rename_i hfirst
    cases h
    obtain ⟨hkept, hnone⟩ := firstRequest_spec hfirst
    exact ⟨hkept, hnone, by simp⟩
  · rename_i hfirst
    obtain ⟨hkept, hsecond⟩ := secondRequest_spec h
    exact ⟨hkept.trans (firstRequest_spec hfirst).1, hsecond⟩

/-- What `get_media_packet` does. -/
theorem get_media_packet_spec {status : Status} (h : get_media_packet net m = .ok (status, m')) :
    m'.kept = m.kept ∧ (status = .success ∨ status = .gotHeaderNData → m'.s.isSome) ∧
      (status = .success → m'.asf_header_read = m.asf_header_read ∧
        m'.asf_header_len = m.asf_header_len) := by
  rw [get_media_packet] at h
  rcases hchunk : m.get_chunk_header with ⟨st, m₁⟩
  obtain ⟨⟨s, type, length, seq, rfl⟩, hsome, hstatus⟩ := get_chunk_header_spec hchunk
  rw [hchunk] at h
  split at h
  · rename_i heq
    cases heq
    split at h
    · split at h
      · cases h
        exact ⟨rfl, by simp, by simp⟩
      · split at h
        · cases h
        · rename_i hconnect
          cases h
          exact ⟨(mmsh_connect_int_spec hconnect).1, by simp, by simp⟩
        · rename_i hconnect
          cases h
          obtain ⟨hkept, -, hok⟩ := mmsh_connect_int_spec hconnect
          exact ⟨hkept, fun _ ↦ (hok rfl).1, by simp⟩
    · split at h
      · rcases dataPacket_spec (Except.ok.inj h) with ⟨rfl, s, rfl⟩ | ⟨rfl, s, buf, rfl, -⟩
        · exact ⟨rfl, by simp, by simp⟩
        · exact ⟨rfl, fun _ ↦ rfl, fun _ ↦ ⟨rfl, rfl⟩⟩
      · split at h
        · split at h
          · cases h
            exact ⟨rfl, by simp, by simp⟩
          · split at h
            · cases h
            · rename_i hheader
              obtain ⟨hkept, -, -, hsuccess⟩ := get_header_spec hheader
              split at h
              · cases h
              · cases h
                exact ⟨hkept, fun _ ↦ (hsuccess rfl).1, by simp⟩
            · rename_i hfailed hheader
              cases h
              obtain ⟨hkept, hnot, -, -⟩ := get_header_spec hheader
              refine ⟨hkept, fun h ↦ ?_, fun h ↦ (hfailed h).elim⟩
              rcases h with h | h
              · exact (hfailed h).elim
              · exact absurd h hnot
        · cases h
          exact ⟨rfl, by simp, by simp⟩
  · rename_i hfailed heq
    cases heq
    cases h
    refine ⟨rfl, fun h ↦ ?_, fun h ↦ (hfailed h).elim⟩
    rcases h with h | h
    · exact hsome h
    · exact absurd h hstatus

/-! ## Reading -/

/-- Bytes of the header were taken. -/
def tookHeader (m : Mmsh) (n : ℕ) : Mmsh :=
  { m with asf_header_read := m.asf_header_read + n, current_pos := m.current_pos + n }

/-- Bytes of the packet were taken. -/
def tookPacket (m : Mmsh) (n : ℕ) : Mmsh :=
  { m with buf_read := m.buf_read + n, current_pos := m.current_pos + n }

/-- What `mmsh_read` finds. -/
def supply (net : Net) (m : Mmsh) : Supply Mmsh Byte Fault :=
  if m.asf_header_read < m.asf_header_len then .elements m.headerLeft m.tookHeader
  else match nextPacket net m with
    | .error f => .fail f
    | .ok (.success, m) =>
        if m.bytes_left < 0 then .fail .copy
        else .elements (m.buf.drop m.buf_read) m.tookPacket
    | .ok (.gotHeaderNData, m) => .again m
    | .ok (_, m) => .stop m

theorem tookHeader_tookHeader (n k : ℕ) :
    (m.tookHeader n).tookHeader k = m.tookHeader (n + k) := by
  simp [tookHeader, Nat.add_assoc, Int.add_assoc]

theorem tookPacket_tookPacket (n k : ℕ) :
    (m.tookPacket n).tookPacket k = m.tookPacket (n + k) := by
  simp [tookPacket, Nat.add_assoc, Int.add_assoc]

theorem length_headerLeft : m.headerLeft.length = m.asf_header_len - m.asf_header_read := by
  rw [headerLeft, List.length_map, List.length_range]

theorem headerLeft_drop (n : ℕ) : m.headerLeft.drop n = (m.tookHeader n).headerLeft := by
  refine List.ext_getElem ?_ fun i h h' ↦ ?_
  · rw [List.length_drop, length_headerLeft, length_headerLeft]
    exact Nat.sub_sub _ _ _
  · simp only [headerLeft, List.getElem_drop, List.getElem_map, List.getElem_range]
    exact congrArg m.asf_header (Nat.add_assoc ..).symm

theorem readLoop_eq {fuel left : ℕ} :
    readLoop net fuel left m = Reader.read (supply net) .steps fuel left m := by
  induction fuel generalizing left m with
  | zero => rfl
  | succ fuel ih =>
      rw [readLoop, Reader.read]
      split
      · rfl
      · rw [supply]
        split
        · have htake : m.headerLeft.take (min left (m.asf_header_len - m.asf_header_read)) =
              m.headerLeft.take left := by
            rw [← length_headerLeft, ← List.take_eq_take_min]
          dsimp only
          rw [length_headerLeft, ← ih, htake]
          rfl
        · rcases nextPacket net m with f | ⟨status, m₁⟩
          · rfl
          · cases status with
            | success =>
                dsimp only
                split
                · rfl
                · rename_i hleft
                  have hlen : m₁.bytes_left.toNat = (m₁.buf.drop m₁.buf_read).length := by
                    rw [List.length_drop, bytes_left]
                    omega
                  dsimp only
                  rw [hlen, ih, ← List.take_eq_take_min]
                  rfl
            | gotHeaderNData => exact ih
            | error => rfl
            | eos => rfl

/-- What `nextPacket` does. -/
theorem nextPacket_spec {status : Status} (h : nextPacket net m = .ok (status, m')) :
    (m.s.isSome → status = .success ∨ status = .gotHeaderNData → m'.s.isSome) ∧
      (status = .success → m'.asf_header_read = m.asf_header_read ∧
        m'.asf_header_len = m.asf_header_len) ∧
      (m.buf_read ≤ m.buf.length → m'.buf_read ≤ m'.buf.length) := by
  rw [nextPacket] at h
  split at h
  · obtain ⟨hkept, hsome, hheader⟩ := get_media_packet_spec h
    have hread : m'.buf_read = 0 := congrArg Prod.fst hkept
    exact ⟨fun _ ↦ hsome, hheader, fun _ ↦ hread ▸ Nat.zero_le _⟩
  · cases h
    exact ⟨fun h _ ↦ h, fun _ ↦ ⟨rfl, rfl⟩, id⟩

/-- The cases of `supply`. -/
inductive Found (net : Net) (m : Mmsh) : Supply Mmsh Byte Fault → Prop
  | header (h : m.asf_header_read < m.asf_header_len) :
      Found net m (.elements m.headerLeft m.tookHeader)
  | fault {f : Fault} (h : nextPacket net m = .error f) : Found net m (.fail f)
  | negative {m₁ : Mmsh} (h : nextPacket net m = .ok (.success, m₁)) (hleft : m₁.bytes_left < 0) :
      Found net m (.fail .copy)
  | packet {m₁ : Mmsh} (hread : ¬ m.asf_header_read < m.asf_header_len)
      (h : nextPacket net m = .ok (.success, m₁)) (hleft : 0 ≤ m₁.bytes_left) :
      Found net m (.elements (m₁.buf.drop m₁.buf_read) m₁.tookPacket)
  | again {m₁ : Mmsh} (h : nextPacket net m = .ok (.gotHeaderNData, m₁)) : Found net m (.again m₁)
  | stop {m₁ : Mmsh} {status : Status} (h : nextPacket net m = .ok (status, m₁)) :
      Found net m (.stop m₁)

theorem found_supply (net : Net) (m : Mmsh) : Found net m (supply net m) := by
  rw [supply]
  split
  · rename_i hread
    exact .header hread
  · rename_i hread
    split
    · rename_i heq
      exact .fault heq
    · rename_i heq
      split
      · rename_i hleft
        exact .negative heq hleft
      · rename_i hleft
        exact .packet hread heq (Int.not_lt.mp hleft)
    · rename_i heq
      exact .again heq
    · rename_i heq
      exact .stop heq

/-- What is found is found again. -/
theorem coherent_supply (net : Net) : Reader.Coherent (supply net) := by
  intro m data after h n hn
  have hfound := found_supply net m
  rw [h] at hfound
  cases hfound with
  | header =>
      rw [length_headerLeft] at hn
      have hmore : (m.tookHeader n).asf_header_read < (m.tookHeader n).asf_header_len := by
        change m.asf_header_read + n < m.asf_header_len
        omega
      rw [supply, if_pos hmore, headerLeft_drop]
      exact congrArg _ (funext fun k ↦ tookHeader_tookHeader n k)
  | @packet m₁ hread hnext hleft =>
      rw [List.length_drop] at hn
      have hleft' : (m₁.tookPacket n).bytes_left = m₁.bytes_left - n := by
        simp [bytes_left, tookPacket, Int.sub_sub]
      have hread' : ¬ (m₁.tookPacket n).asf_header_read < (m₁.tookPacket n).asf_header_len := by
        obtain ⟨heq, heq'⟩ := (nextPacket_spec hnext).2.1 rfl
        change ¬ m₁.asf_header_read < m₁.asf_header_len
        rwa [heq, heq']
      have hmore : (m₁.tookPacket n).bytes_left ≠ 0 := by
        rw [hleft', bytes_left]
        omega
      rw [supply, if_neg hread', nextPacket, if_neg hmore]
      dsimp only
      rw [if_neg (by rw [hleft', bytes_left]; omega), List.drop_drop]
      exact congrArg _ (funext fun k ↦ tookPacket_tookPacket n k)

/-- What is found comes over a connection that stays open. -/
theorem isSome_of_supply (h : m.s.isSome) :
    (∀ data after, supply net m = .elements data after → ∀ n, (after n).s.isSome) ∧
      ∀ t, supply net m = .again t → t.s.isSome := by
  have hfound := found_supply net m
  refine ⟨fun data after heq n ↦ ?_, fun t heq ↦ ?_⟩ <;> rw [heq] at hfound
  · cases hfound with
    | header => exact h
    | packet _ hnext => exact (nextPacket_spec hnext).1 h (.inl rfl)
  · cases hfound with
    | again hnext => exact (nextPacket_spec hnext).1 h (.inr rfl)

/-- A full read leaves the connection open. -/
theorem isSome_of_reads {len : ℕ} {d : List Byte} (h : Reader.Reads (supply net) len m d m')
    (hsome : m.s.isSome) (hfull : d.length = len) : m'.s.isSome := by
  induction h with
  | done => exact hsome
  | elements _ hnext _ ih =>
      rw [List.length_append, List.length_take] at hfull
      exact ih ((isSome_of_supply hsome).1 _ _ hnext _) (by omega)
  | again _ hnext _ ih => exact ih ((isSome_of_supply hsome).2 _ hnext) hfull
  | stop hlen => exact absurd hfull hlen.ne

/-- A call of `mmsh_read` on an open connection is a read. -/
theorem mmsh_read_iff {len : ℕ} {d : List Byte} (hsome : m.s.isSome) :
    (∃ fuel, mmsh_read net fuel m len = .ok (d, m')) ↔ Reader.Reads (supply net) len m d m' := by
  have hread : ∀ fuel, mmsh_read net fuel m len = Reader.read (supply net) .steps fuel len m := by
    intro fuel
    rw [mmsh_read, if_neg (by simpa [Option.isSome_iff_ne_none] using hsome), readLoop_eq]
    rfl
  constructor
  · rintro ⟨fuel, h⟩
    exact Reader.reads_of_read ((hread fuel).symm.trans h)
  · intro h
    obtain ⟨enough, h⟩ := h.exists_read .steps
    exact ⟨enough, (hread enough).trans (h enough (Nat.le_refl _))⟩

theorem mmsh_read_none {fuel : ℕ} {len : ℤ} (h : m.s = none) :
    mmsh_read net fuel m len = .ok ([], m) := by
  rw [mmsh_read, h]
  rfl

/-- A program that reads pieces of these lengths, until one of them is short. -/
def readPieces (net : Net) (fuel : ℕ) : List ℕ → Mmsh → Except Fault (List Byte × Mmsh)
  | [], m => .ok ([], m)
  | len :: lens, m =>
      match mmsh_read net fuel m len with
      | .error f => .error f
      | .ok (d, m) =>
          if d.length < len then .ok (d, m)
          else (readPieces net fuel lens m).map fun r ↦ (d ++ r.1, r.2)

theorem readPieces_none {fuel : ℕ} {lens : List ℕ} (h : m.s = none) :
    readPieces net fuel lens m = .ok ([], m) := by
  induction lens with
  | nil => rfl
  | cons len lens ih =>
      rw [readPieces, mmsh_read_none h]
      dsimp only
      rw [ih]
      split <;> rfl

theorem reads_of_readPieces {fuel : ℕ} {lens : List ℕ} {d : List Byte} (hsome : m.s.isSome)
    (h : readPieces net fuel lens m = .ok (d, m')) :
    Reader.Reads (supply net) lens.sum m d m' := by
  induction lens generalizing m d with
  | nil =>
      cases h
      exact .done _
  | cons len lens ih =>
      rw [readPieces] at h
      rw [List.sum_cons]
      split at h
      · cases h
      · rename_i d₁ t hfirst
        have hread := (mmsh_read_iff hsome).mp ⟨fuel, hfirst⟩
        split at h
        · rename_i hshort
          cases h
          exact hread.of_short hshort _
        · rename_i hlong
          have hfull : d₁.length = len := Nat.le_antisymm hread.length_le (Nat.not_lt.mp hlong)
          cases hrest : readPieces net fuel lens t with
          | error f =>
              rw [hrest] at h
              cases h
          | ok r =>
              rw [hrest] at h
              cases h
              exact hread.append (coherent_supply net) hfull
                (ih (isSome_of_reads hread hsome hfull) hrest)

theorem exists_readPieces {lens : List ℕ} {d : List Byte} (hsome : m.s.isSome)
    (h : Reader.Reads (supply net) lens.sum m d m') :
    ∃ enough, ∀ fuel ≥ enough, readPieces net fuel lens m = .ok (d, m') := by
  induction lens generalizing m d with
  | nil =>
      obtain ⟨rfl, rfl⟩ := h.eq_of_zero
      exact ⟨0, fun _ _ ↦ rfl⟩
  | cons len lens ih =>
      rw [List.sum_cons] at h
      obtain ⟨d₁, t, hfirst, hrest⟩ := h.split (coherent_supply net)
      obtain ⟨enough, hread⟩ := hfirst.exists_read .steps
      have hread : ∀ fuel ≥ enough, mmsh_read net fuel m len = .ok (d₁, t) := by
        intro fuel hfuel
        rw [mmsh_read, if_neg (by simpa [Option.isSome_iff_ne_none] using hsome), readLoop_eq]
        exact hread fuel hfuel
      rcases hrest with ⟨hshort, rfl, rfl⟩ | ⟨hfull, d₂, rfl, hrest⟩
      · refine ⟨enough, fun fuel hfuel ↦ ?_⟩
        rw [readPieces, hread fuel hfuel]
        exact if_pos hshort
      · obtain ⟨enough', hpieces⟩ := ih (isSome_of_reads hfirst hsome hfull) hrest
        refine ⟨max enough enough', fun fuel hfuel ↦ ?_⟩
        rw [readPieces, hread fuel (Nat.le_trans (Nat.le_max_left ..) hfuel)]
        dsimp only
        rw [if_neg (by omega), hpieces fuel (Nat.le_trans (Nat.le_max_right ..) hfuel)]
        rfl

/-- **Reading in pieces** until a piece is short is reading all at once. -/
theorem mmsh_read_pieces (net : Net) (m m' : Mmsh) (lens : List ℕ) (d : List Byte) :
    (∃ fuel, readPieces net fuel lens m = .ok (d, m')) ↔
      ∃ fuel, mmsh_read net fuel m lens.sum = .ok (d, m') := by
  cases hs : m.s with
  | none =>
      simp only [readPieces_none hs, mmsh_read_none hs]
  | some s =>
      have hsome : m.s.isSome := by rw [hs]; rfl
      rw [mmsh_read_iff hsome]
      constructor
      · rintro ⟨fuel, h⟩
        exact reads_of_readPieces hsome h
      · intro h
        obtain ⟨enough, h⟩ := exists_readPieces hsome h
        exact ⟨enough, h enough (Nat.le_refl _)⟩

end CodeToolKit.Libmms.Mmsh
