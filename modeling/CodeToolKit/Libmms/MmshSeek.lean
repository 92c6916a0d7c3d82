import CodeToolKit.Lib.Transition
import CodeToolKit.Libmms.Server
import Mathlib.Tactic.Positivity

/-!
# Seeking in the buffer

`mmsh_seek` takes a place to be in the buffer when it is in the packet whose number was read last.
But the buffer is empty after a packet did not come: at the end of a connection, or when it broke.
Then `buf_read` is set behind the data, and the next read copies a negative number of bytes.

Such a seek is `Stale`.  As long as the places and the length of the stream are numbers of `off_t`
(`InRange`), it is the only way to this fault: a run of reads and seeks none of which is stale never
gets there, and after one that is stale every read of a byte does (`copy_iff_stale`).
-/

namespace CodeToolKit.Libmms.Mmsh

open Lib

variable {net : Net} {m m' : Mmsh}

/-! ## Faults -/

theorem headerChunks_fault {fuel : ℕ} {f : Fault} (h : headerChunks fuel m = .error f) :
    f = .steps ∨ f = .header := by
  induction fuel generalizing m with
  | zero => exact .inl (Except.error.inj h).symm
  | succ fuel ih =>
      rw [headerChunks] at h
      split at h
      · split at h
        · split at h
          · cases h
          · split at h
            · cases h
            · split at h
              · exact .inr (Except.error.inj h).symm
              · exact ih h
        · cases h
      · cases h

theorem get_header_fault {f : Fault} (h : m.get_header = .error f) : f = .steps ∨ f = .header := by
  rw [get_header] at h
  split at h
  · rename_i hchunks
    cases h
    exact headerChunks_fault hchunks
  · split at h <;> cases h
  · cases h

theorem exchange_fault {cmd : List Char} {f : Fault} (h : m.exchange cmd = .error f) :
    f = .steps ∨ f = .header := by
  rw [exchange] at h
  split at h
  · cases h
  · split at h
    · cases h
    · exact get_header_fault h

theorem firstRequest_fault {f : Fault} (h : firstRequest net m = .error f) :
    f = .steps ∨ f = .header := by
  rw [firstRequest] at h
  split at h
  · cases h
  · split at h
    · rename_i hexchange
      cases h
      exact exchange_fault hexchange
    · cases h
    · split at h <;> cases h

theorem secondRequest_fault {seek time_seek : ℤ} {f : Fault}
    (h : secondRequest net m seek time_seek = .error f) :
    f = .steps ∨ f = .header ∨ f = .selection := by
  rw [secondRequest] at h
  dsimp only at h
  split at h
  · cases h
  · split at h
    · exact .inr (.inr (Except.error.inj h).symm)
    · split at h
      · rename_i hexchange
        cases h
        exact (exchange_fault hexchange).imp_right .inl
      · split at h <;> cases h
      · cases h

theorem mmsh_connect_int_fault {seek time_seek : ℤ} {f : Fault}
    (h : mmsh_connect_int net m seek time_seek = .error f) :
    f = .steps ∨ f = .header ∨ f = .selection := by
  rw [mmsh_connect_int] at h
  split at h
  · rename_i hfirst
    cases h
    exact (firstRequest_fault hfirst).imp_right .inl
  · cases h
  · exact secondRequest_fault h

theorem get_media_packet_fault {f : Fault} (h : get_media_packet net m = .error f) :
    f = .steps ∨ f = .header ∨ f = .selection := by
  rw [get_media_packet] at h
  split at h
  · split at h
    · split at h
      · cases h
      · split at h
        · rename_i hconnect
          cases h
          exact mmsh_connect_int_fault hconnect
        · cases h
        · cases h
    · split at h
      · cases h
      · split at h
        · split at h
          · cases h
          · split at h
            · rename_i hheader
              cases h
              exact (get_header_fault hheader).imp_right .inl
            · split at h
              · exact .inr (.inl (Except.error.inj h).symm)
              · cases h
            · cases h
        · cases h
  · cases h

/-! ## Reading -/

/-- While there is a connection, `buf_read` is a place in the buffer. -/
def Fits (m : Mmsh) : Prop := m.s.isSome → m.buf_read ≤ m.buf.length

theorem supply_invariant (net : Net) :
    Reader.Invariant (supply net) fun m ↦ m.buf_read ≤ m.buf.length where
  elements {m data after} hm h n hn := by
    have hfound := found_supply net m
    rw [h] at hfound
    cases hfound with
    | header => exact hm
    | @packet m₁ _ hnext =>
        have hm₁ := (nextPacket_spec hnext).2.2 hm
        rw [List.length_drop] at hn
        change m₁.buf_read + n ≤ m₁.buf.length
        omega
  again {m t} hm h := by
    have hfound := found_supply net m
    rw [h] at hfound
    cases hfound with
    | again hnext => exact (nextPacket_spec hnext).2.2 hm
  stop {m t} hm h := by
    have hfound := found_supply net m
    rw [h] at hfound
    cases hfound with
    | stop hnext => exact (nextPacket_spec hnext).2.2 hm

/-- Nothing negative is copied out of a buffer that fits. -/
theorem supply_ne_copy (hm : m.buf_read ≤ m.buf.length) : supply net m ≠ .fail .copy := by
  intro h
  have hfound := found_supply net m
  rw [h] at hfound
  cases hfound with
  | fault hnext =>
      rw [nextPacket] at hnext
      split at hnext
      · have hfault := get_media_packet_fault hnext
        simp at hfault
      · cases hnext
  | negative hnext hleft =>
      have hm₁ := (nextPacket_spec hnext).2.2 hm
      rw [bytes_left] at hleft
      omega

theorem mmsh_read_fits {fuel : ℕ} {len : ℤ} (hm : Fits m) :
    mmsh_read net fuel m len ≠ .error .copy ∧
      ∀ d m', mmsh_read net fuel m len = .ok (d, m') → Fits m' := by
  rw [mmsh_read]
  split
  · refine ⟨fun h ↦ (by cases h), fun d m' h ↦ ?_⟩
    cases h
    exact hm
  · rename_i hs
    have hbuf := hm (by simpa [Option.isSome_iff_ne_none] using hs)
    rw [readLoop_eq]
    exact ⟨Reader.read_ne_error (supply_invariant net) hbuf (fun s ↦ supply_ne_copy) (by decide),
      fun d m' h _ ↦ (Reader.reads_of_read h).invariant (s := m) (supply_invariant net) hbuf⟩

/-! ## Seeking -/

/-- A seek that goes to a place in the packet whose number was read last, behind the data that the
buffer holds. -/
structure Stale (m : Mmsh) (dest : ℤ) : Prop where
  connected : m.s.isSome
  seekable : m.seekable = true
  behind : m.asf_header_len ≤ dest
  same : m.destPacket dest = m.chunk_seq_number
  beyond : m.buf.length < dest - (m.asf_header_len + m.chunk_seq_number * m.asf_packet_len)

/-- The place is one of `off_t`, and so is the length of the stream.  A server may announce a longer
one, which is computed modulo `2 ^ 64`. -/
structure InRange (m : Mmsh) (dest : ℤ) : Prop where
  dest_lt : dest < 2 ^ 63
  length_lt : m.asf_header_len + m.asf_num_packets * m.asf_packet_len < 2 ^ 63

/-- A place is in its packet, or at the end of it. -/
theorem destPacket_le {dest : ℤ} (hrange : InRange m dest) (hdest : m.asf_header_len ≤ dest)
    (hlen : 0 < m.asf_packet_len) :
    dest - (m.asf_header_len + m.destPacket dest * m.asf_packet_len) ≤ m.asf_packet_len := by
  have hpos : (0 : ℤ) < m.asf_packet_len := by omega
  have hdiv := Int.mul_ediv_add_emod (dest - m.asf_header_len) m.asf_packet_len
  have hmod := Int.emod_lt_of_pos (dest - m.asf_header_len) hpos
  rw [destPacket]
  split
  · rename_i hend
    have hlt := hrange.dest_lt
    have hlength := hrange.length_lt
    have hproduct : (0 : ℤ) ≤ m.asf_num_packets * m.asf_packet_len := by positivity
    have heq : dest = m.asf_header_len + m.asf_num_packets * m.asf_packet_len := by
      have h := hend.2
      rw [uint64_eq (by omega), uint64_eq (by omega)] at h
      exact h
    have hquot : (dest - m.asf_header_len) / m.asf_packet_len = m.asf_num_packets := by
      rw [heq, add_sub_cancel_left, Int.mul_ediv_cancel _ hpos.ne']
    rw [hquot, heq, Int.sub_mul]
    omega
  · rw [Int.mul_comm]
    omega

theorem reopen_spec {seek time_seek : ℤ} {ok : Bool}
    (h : reopen net m seek time_seek = .ok (ok, m')) :
    (ok = false → m'.s = none) ∧ (ok = true → m'.s.isSome ∧ m'.buf.length = m.asf_packet_len ∧
      m'.asf_header_len = m.asf_header_len ∧ m'.asf_packet_len = m.asf_packet_len) := by
  rw [reopen] at h
  split at h
  · cases h
  · rename_i hconnect
    cases h
    exact ⟨(mmsh_connect_int_spec hconnect).2.1, by simp⟩
  · rename_i hconnect
    obtain ⟨hsome, hbuf, -⟩ := (mmsh_connect_int_spec hconnect).2.2 rfl
    split at h
    · cases h
      exact ⟨fun _ ↦ rfl, by simp⟩
    · rename_i hsame
      cases h
      rw [not_or, Decidable.not_not, Decidable.not_not] at hsame
      exact ⟨by simp, fun _ ↦ ⟨hsome, hbuf.trans hsame.2, hsame.1, hsame.2⟩⟩

theorem fits_of_none (h : m.s = none) : Fits m := fun hs ↦ (by rw [h] at hs; cases hs)

theorem seekHeader_fits {dest pos : ℤ}
    (h : seekHeader net m dest = .ok (pos, m')) : Fits m' := by
  rw [seekHeader] at h
  split at h
  · cases h
  · rename_i heq
    split at heq
    · cases h
      exact fits_of_none ((reopen_spec heq).1 rfl)
    · cases heq
  · cases h
    exact fun _ ↦ Nat.zero_le _

/-- Where a seek ends, once the packet was asked for. -/
theorem seekPacket_fits {dest seq : ℤ} :
    Fits (m.seekPacket dest seq).2 ↔ (m.s.isSome → seq = m.chunk_seq_number →
      dest - (m.asf_header_len + seq * m.asf_packet_len) ≤ m.buf.length) := by
  rw [seekPacket]
  dsimp only
  by_cases hseq : seq = m.chunk_seq_number
  · rw [if_pos hseq]
    refine imp_congr_right fun _ ↦ Iff.trans ?_ ⟨fun h _ ↦ h, fun h ↦ h hseq⟩
    exact Int.toNat_le
  · rw [if_neg hseq]
    exact ⟨fun _ _ h ↦ absurd h hseq, fun _ _ ↦ Nat.zero_le _⟩

/-- A seek leaves the buffer fitting unless it is stale. -/
theorem seekTo_fits {dest pos : ℤ} (hm : Fits m) (hseekable : m.seekable = true)
    (hrange : InRange m dest) (h : seekTo net m dest = .ok (pos, m')) :
    Fits m' ↔ ¬ Stale m dest := by
  rw [seekTo] at h
  split at h
  · rename_i hheader
    exact ⟨fun _ hstale ↦ absurd hstale.behind (by omega), fun _ ↦ seekHeader_fits h⟩
  · rename_i hbehind
    split at h
    · cases h
    · rename_i hlen
      dsimp only at h
      split at h
      · -- in the packet that was read last
        rename_i hseq
        have h : (m.seekPacket dest (m.destPacket dest)).2 = m' :=
          congrArg Prod.snd (Except.ok.inj h)
        rw [← h, seekPacket_fits, hseq]
        constructor
        · intro hfits hstale
          exact absurd (hfits hstale.connected rfl) (Int.not_le.mpr hstale.beyond)
        · intro hstale hsome _
          by_contra hbeyond
          exact hstale ⟨hsome, hseekable, by omega, hseq, Int.not_le.mp hbeyond⟩
      · rename_i hother
        refine ⟨fun _ hstale ↦ hother hstale.same, fun _ ↦ ?_⟩
        split at h
        · cases h
          exact hm
        · split at h
          · cases h
          · rename_i hreopen
            cases h
            exact fits_of_none ((reopen_spec hreopen).1 rfl)
          · rename_i m₁ hreopen
            obtain ⟨-, hbuf, hheader, hpacket⟩ := (reopen_spec hreopen).2 rfl
            have h : (m₁.seekPacket dest (m.destPacket dest)).2 = m' :=
              congrArg Prod.snd (Except.ok.inj h)
            rw [← h, seekPacket_fits]
            intro _ _
            rw [hbuf, hheader, hpacket]
            exact destPacket_le hrange (by omega) (Nat.pos_of_ne_zero hlen)

/-- A stale seek leaves the header behind. -/
theorem seekTo_stale {dest pos : ℤ} (hstale : Stale m dest)
    (h : seekTo net m dest = .ok (pos, m')) : m'.asf_header_read = m'.asf_header_len := by
  have hbehind := hstale.behind
  rw [seekTo, if_neg (by omega)] at h
  split at h
  · cases h
  · rw [if_pos hstale.same] at h
    have h : (m.seekPacket dest (m.destPacket dest)).2 = m' := congrArg Prod.snd (Except.ok.inj h)
    rw [← h, seekPacket]
    dsimp only
    split <;> rfl

/-- After a stale seek the next read of a byte copies a negative number of bytes. -/
theorem read_of_not_fits {fuel : ℕ} {len : ℤ} (hread : m.asf_header_read = m.asf_header_len)
    (hm : ¬ Fits m) (hlen : 0 < len) : mmsh_read net (fuel + 1) m len = .error .copy := by
  rw [Fits, Classical.not_imp] at hm
  rw [mmsh_read, if_neg (by simpa [Option.isSome_iff_ne_none] using hm.1), readLoop,
    if_neg (by omega), if_neg (by omega), nextPacket, if_neg (by rw [bytes_left]; omega)]
  dsimp only
  rw [if_pos (by rw [bytes_left]; omega)]

/-! ## Runs -/

/-- A call of a program that plays a stream. -/
inductive Call where
  | read (len : ℤ)
  | seek (offset : ℤ) (origin : Origin)
  | timeSeek (time_seek : ℤ)

/-- What a call returns. -/
inductive Returned where
  | bytes (data : List Byte)
  | place (pos : ℤ)
  | done (ok : Bool)

/-- What a call returns, and the state after it, in a number of steps. -/
def call (net : Net) (fuel : ℕ) (m : Mmsh) : Call → Except Fault (Returned × Mmsh)
  | .read len => (mmsh_read net fuel m len).map (Prod.map .bytes id)
  | .seek offset origin => (mmsh_seek net m offset origin).map (Prod.map .place id)
  | .timeSeek time_seek => (mmsh_time_seek net m time_seek).map (Prod.map .done id)

/-- A program that connects to a server and then makes calls. -/
def program (net : Net) (uri http_host : List Char) (http_port bandwidth : ℤ) :
    System Mmsh (ℕ × Call) where
  start m := mmsh_connect_int net (init uri http_host http_port bandwidth) 0 0 = .ok (true, m)
  next m a := (call net a.1 m a.2).toOption.map Prod.snd

/-- A call that seeks no place outside the range, and none that is stale. -/
def Careful (m : Mmsh) (c : Call) : Prop := ∀ offset origin, c = .seek offset origin →
  ∀ dest ∈ m.seekDest offset origin, InRange m dest ∧ ¬ Stale m dest

theorem mmsh_seek_fits {offset pos : ℤ} {origin : Origin} (hm : Fits m)
    (hcareful : Careful m (.seek offset origin))
    (h : mmsh_seek net m offset origin = .ok (pos, m')) : Fits m' := by
  rw [mmsh_seek] at h
  split at h
  · cases h
    exact hm
  · rename_i hseekable
    split at h
    · cases h
      exact hm
    · rename_i dest hdest
      obtain ⟨hrange, hstale⟩ := hcareful offset origin rfl dest hdest
      exact (seekTo_fits hm (by simpa using hseekable) hrange h).mpr hstale

theorem call_fits {fuel : ℕ} {c : Call} {r : Returned} (hm : Fits m) (hcareful : Careful m c)
    (h : call net fuel m c = .ok (r, m')) : Fits m' := by
  cases c with
  | read len =>
      rw [call] at h
      cases hread : mmsh_read net fuel m len with
      | error f =>
          rw [hread] at h
          cases h
      | ok r =>
          rw [hread] at h
          cases h
          exact (mmsh_read_fits hm).2 _ _ hread
  | seek offset origin =>
      rw [call] at h
      cases hseek : mmsh_seek net m offset origin with
      | error f =>
          rw [hseek] at h
          cases h
      | ok r =>
          rw [hseek] at h
          cases h
          exact mmsh_seek_fits hm hcareful hseek
  | timeSeek time_seek =>
      rw [call, mmsh_time_seek] at h
      split at h
      · cases h
        exact hm
      · split at h
        · cases h
        · rename_i hreopen
          cases h
          exact fits_of_none ((reopen_spec hreopen).1 rfl)
        · cases h
          exact fun _ ↦ Nat.zero_le _

theorem next_eq_some {uri http_host : List Char} {http_port bandwidth : ℤ} {a : ℕ × Call}
    (h : (program net uri http_host http_port bandwidth).next m a = some m') :
    ∃ r, call net a.1 m a.2 = .ok (r, m') := by
  obtain ⟨r, hcall, rfl⟩ := Option.map_eq_some_iff.mp h
  cases hresult : call net a.1 m a.2 with
  | error f =>
      rw [hresult] at hcall
      cases hcall
  | ok r' =>
      rw [hresult] at hcall
      cases hcall
      exact ⟨_, rfl⟩

/-- **Stale seeks.**  In a run whose seeks are `InRange` and not stale no read copies a negative
number of bytes, and a seek that is `InRange` makes every read of a byte do so exactly if it is
stale. -/
theorem copy_iff_stale {uri http_host : List Char} {http_port bandwidth : ℤ}
    (h : (program net uri http_host http_port bandwidth).ReachableIf (fun m a ↦ Careful m a.2) m) :
    (∀ fuel len, mmsh_read net fuel m len ≠ .error .copy) ∧
    ∀ offset origin dest pos m', m.seekDest offset origin = some dest → m.seekable = true →
      InRange m dest → mmsh_seek net m offset origin = .ok (pos, m') →
        (Stale m dest ↔ ∀ fuel len, 0 < len → mmsh_read net (fuel + 1) m' len = .error .copy) := by
  have hm : Fits m := by
    refine h.invariant (fun m hstart _ ↦ ?_) fun m a m' hm hcareful hnext ↦ ?_
    · have hread : m.buf_read = 0 := congrArg Prod.fst (mmsh_connect_int_spec hstart).1
      exact hread ▸ Nat.zero_le _
    · obtain ⟨r, hcall⟩ := next_eq_some hnext
      exact call_fits hm hcareful hcall
  refine ⟨fun fuel len ↦ (mmsh_read_fits hm).1, ?_⟩
  intro offset origin dest pos m' hdest hseekable hrange hseek
  have hto : seekTo net m dest = .ok (pos, m') := by
    rwa [mmsh_seek, if_neg (by simp [hseekable]), hdest] at hseek
  have hfits := seekTo_fits hm hseekable hrange hto
  constructor
  · intro hstale fuel len hlen
    exact read_of_not_fits (seekTo_stale hstale hto) (fun h ↦ hfits.mp h hstale) hlen
  · intro hcopy
    by_contra hstale
    exact (mmsh_read_fits (hfits.mpr hstale)).1 (hcopy 0 1 (by decide))

/-- A server whose connections end in the first packet. -/
def cutShort : Net := fun _ ↦ some fun _ ↦ some ⟨smallFilm.answer ++ smallFilm.headerChunk ++
  chunk CHUNK_TYPE_DATA (toBytes 4 0 ++ smallFilm.unread) [1, 2, 3], false⟩

/-- The program that reads the header and the packet, until the end of the connection is found. -/
def readToEnd : Option Mmsh :=
  (mmsh_connect_int cutShort (init ['/'] ['h'] 80 100000) 0 0).toOption.bind fun r ↦
    if r.1 = true then (program cutShort ['/'] ['h'] 80 100000).next r.2 (10, .read 400) else none

theorem reachable_readToEnd {m : Mmsh} (h : readToEnd = some m) :
    (program cutShort ['/'] ['h'] 80 100000).ReachableIf (fun m a ↦ Careful m a.2) m := by
  obtain ⟨⟨ok, m₀⟩, hconnect, hread⟩ := Option.bind_eq_some_iff.mp h
  dsimp only at hread
  split at hread
  · rename_i hok
    have hstart : mmsh_connect_int cutShort (init ['/'] ['h'] 80 100000) 0 0 = .ok (true, m₀) := by
      generalize mmsh_connect_int _ _ _ _ = r at hconnect
      cases r with
      | error => cases hconnect
      | ok r => rw [← hok, ← Option.some.inj hconnect]
    exact .step (.start hstart) (fun _ _ hseek ↦ by cases hseek) hread
  · cases hread

theorem readToEnd_seek : (readToEnd.bind fun m ↦ (mmsh_seek cutShort m 321 .SEEK_SET).toOption.map
    fun r ↦ decide (r.1 = 321 ∧ m.s.isSome ∧ m.seekable = true ∧ m.asf_header_len = 320 ∧
      m.asf_packet_len = 4 ∧ m.asf_num_packets = 2 ∧ m.chunk_seq_number = 0 ∧ m.buf = [])) =
        some true := by
  decide +kernel

theorem copy_iff_stale_readToEnd : ∃ m m', readToEnd = some m ∧
    mmsh_seek cutShort m 321 .SEEK_SET = .ok (321, m') ∧
      mmsh_read cutShort 1 m' 1 = .error .copy := by
  obtain ⟨m, hm, hseek⟩ := Option.bind_eq_some_iff.mp readToEnd_seek
  obtain ⟨⟨pos, m'⟩, hseek, hfacts⟩ := Option.map_eq_some_iff.mp hseek
  obtain ⟨rfl, hs, hseekable, hheader, hpacket, hcount, hseq, hbuf⟩ := of_decide_eq_true hfacts
  have hseek : mmsh_seek cutShort m 321 .SEEK_SET = .ok (321, m') := by
    generalize mmsh_seek _ _ _ _ = r at hseek
    cases r with
    | error => cases hseek
    | ok r => exact congrArg _ (Option.some.inj hseek)
  have hrange : InRange m 321 := ⟨by decide, by rw [hheader, hpacket, hcount]; decide⟩
  have hdest : m.destPacket 321 = m.chunk_seq_number := by
    rw [destPacket, hheader, hpacket, hcount, hseq]
    decide
  have hstale : Stale m 321 := ⟨hs, hseekable, by rw [hheader]; decide, hdest, by
    rw [hbuf, hheader, hpacket, hseq]
    decide⟩
  exact ⟨m, m', hm, hseek, ((copy_iff_stale (reachable_readToEnd hm)).2 321 .SEEK_SET 321 321 m' rfl
    hseekable hrange hseek).mp hstale 0 1 (by decide)⟩

end CodeToolKit.Libmms.Mmsh
