import CodeToolKit.Lib.Pick
import CodeToolKit.Libmms.AsfSound

/-!
# The choice of streams

`mms_get_best_stream_ids` chooses an audio and a video stream for a bandwidth, in four passes
over the list of streams.  Each pass is a `pick`: the greatest bitrate, the greatest bitrate
that is positive and fits into what is left, or the least bitrate.

The first choice is the best audio stream and what fits beside it, and only if that is too
much, the audio stream is chosen again beside the video stream.  So the chosen streams fit the
bandwidth whenever some pair of streams does, and no better audio stream fits beside the chosen
video stream (`get_best_stream_ids_fits`).
-/

namespace CodeToolKit.Libmms

open Lib

/-! ## The source -/

/-- A stream and its bitrate, where -1 is no stream. -/
structure Choice where
  stream : ℤ
  rate : ℤ

/-- The loop of step 1: the best quality. -/
def bestQuality (type : StreamType) (streams : List Stream) (init : Choice) : Choice :=
  streams.foldl (fun c s ↦
    if s.stream_type = type ∧ (c.stream = -1 ∨ s.bitrate > c.rate) then ⟨s.stream_id, s.bitrate⟩
    else c) init

/-- The loops of the steps 2 and 4a: the best quality in the bandwidth that is left. -/
def bestFit (type : StreamType) (left : ℤ) (streams : List Stream) (init : Choice) :
    Choice :=
  (streams.foldl (fun (c : Choice × ℤ) s ↦
    if s.stream_type = type ∧ (int32 (left - s.bitrate) < c.2 ∧ left ≥ s.bitrate) then
      (⟨s.stream_id, s.bitrate⟩, int32 (left - s.bitrate))
    else c) (init, left)).1

/-- The loops of the steps 3 and 4b: the lowest bitrate. -/
def lowest (type : StreamType) (streams : List Stream) (init : Choice) : Choice :=
  streams.foldl (fun c s ↦
    if s.stream_type = type ∧ (c.stream = -1 ∨ s.bitrate < c.rate) then ⟨s.stream_id, s.bitrate⟩
    else c) init

/-- `bandwidth_left`, beside a stream of the bitrate. -/
def bandwidth_left (bandwidth rate : ℤ) : ℤ :=
  if int32 (bandwidth - rate) < 0 then 0 else int32 (bandwidth - rate)

/-- `mms_get_best_stream_ids`: the audio and the video stream. -/
def mms_get_best_stream_ids (a : Asf) (bandwidth : ℤ) : ℤ × ℤ :=
  -- Step 1
  let audio := bestQuality .audio a.streams ⟨-1, 0⟩
  -- Step 2
  let video := bestFit .video (bandwidth_left bandwidth audio.rate) a.streams ⟨-1, 0⟩
  -- Step 3
  let video := if video.stream = -1 ∧ a.has_video then lowest .video a.streams video else video
  -- Step 4
  let audio :=
    if int32 (audio.rate + video.rate) > bandwidth then
      let audio := bestFit .audio (bandwidth_left bandwidth video.rate) a.streams
        ⟨-1, audio.rate⟩
      if audio.stream = -1 then lowest .audio a.streams audio else audio
    else audio
  (audio.stream, video.stream)

/-! ## The passes -/

/-- What the variables of a loop show of the stream that was picked. -/
def chosen (rate : ℤ) : Option Stream → Choice
  | none => ⟨-1, rate⟩
  | some s => ⟨s.stream_id, s.bitrate⟩

theorem chosen_stream {rate : ℤ} {best : Option Stream} :
    (chosen rate best).stream = -1 ↔ best = none := by
  cases best with
  | none => exact ⟨fun _ ↦ rfl, fun _ ↦ rfl⟩
  | some s =>
      refine ⟨fun h ↦ ?_, fun h ↦ by cases h⟩
      have hid : (s.stream_id : ℤ) = -1 := h
      omega

variable {type : StreamType} {streams : List Stream} {rate left : ℤ}

/-- A loop takes a stream on the test of the pass. -/
theorem chosen_ite {P Q : Prop} [Decidable P] [Decidable Q] {s : Stream} {best : Option Stream}
    (h : P ↔ Q) : (if P then ⟨s.stream_id, s.bitrate⟩ else chosen rate best) =
      chosen rate (if Q then some s else best) := by
  by_cases hP : P
  · rw [if_pos hP, if_pos (h.mp hP)]
    rfl
  · rw [if_neg hP, if_neg (fun hQ ↦ hP (h.mpr hQ))]

theorem bestQuality_eq : bestQuality type streams ⟨-1, rate⟩ =
    chosen rate (pick (fun s ↦ s.stream_type = type) Stream.bitrate streams) := by
  refine foldl_pick _ _ (chosen rate) fun best _ s _ ↦ chosen_ite (and_congr_right fun _ ↦ ?_)
  rw [chosen_stream]
  cases best <;> simp [chosen]

theorem lowest_eq : lowest type streams ⟨-1, rate⟩ =
    chosen rate (pick (fun s ↦ s.stream_type = type) (fun s ↦ -s.bitrate) streams) := by
  refine foldl_pick _ _ (chosen rate) fun best _ s _ ↦ chosen_ite (and_congr_right fun _ ↦ ?_)
  rw [chosen_stream]
  cases best <;> simp [chosen]

/-- The bitrates are such that two of them can be added. -/
def Moderate (streams : List Stream) : Prop := ∀ s ∈ streams, 0 ≤ s.bitrate ∧ s.bitrate < 2 ^ 30

theorem bestFit_eq (hrate : Moderate streams) (hleft : 0 ≤ left ∧ left < 2 ^ 31) :
    bestFit type left streams ⟨-1, rate⟩ = chosen rate
      (pick (fun s ↦ s.stream_type = type ∧ 0 < s.bitrate ∧ s.bitrate ≤ left) Stream.bitrate
        streams) := by
  -- the third variable is what the picked stream leaves
  let view (best : Option Stream) : Choice × ℤ :=
    (chosen rate best, left - (best.map Stream.bitrate).getD 0)
  have hinit : ((⟨-1, rate⟩ : Choice), left) = view none := by
    change _ = ((⟨-1, rate⟩ : Choice), left - 0)
    rw [Int.sub_zero]
  rw [bestFit, hinit, foldl_pick (fun s ↦ s.stream_type = type ∧ 0 < s.bitrate ∧ s.bitrate ≤ left)
    Stream.bitrate view ?_]
  intro best hbest s hs
  rw [int32_eq (z := left - s.bitrate) (by have h := hrate s hs; omega)]
  have htest : (s.stream_type = type ∧ (left - s.bitrate < (view best).2 ∧ left ≥ s.bitrate)) ↔
      (s.stream_type = type ∧ 0 < s.bitrate ∧ s.bitrate ≤ left) ∧
        ∀ b ∈ best, b.bitrate < s.bitrate := by
    cases best with
    | none =>
        have hview : (view none).2 = left - 0 := rfl
        rw [hview]
        simp only [Option.mem_def, reduceCtorEq, false_implies, implies_true, and_true]
        exact and_congr_right fun _ ↦ (by omega)
    | some b =>
        have hview : (view (some b)).2 = left - b.bitrate := rfl
        have hpos := (hbest b rfl).2.1
        rw [hview]
        simp only [Option.mem_def, Option.some.injEq, forall_eq', and_assoc]
        exact and_congr_right fun _ ↦ (by omega)
  rw [better]
  split
  · rename_i h
    rw [if_pos (htest.mp h)]
    rfl
  · rename_i h
    rw [if_neg (fun h' ↦ h (htest.mpr h'))]

/-! ## The choice -/

/-- The bitrate of a choice. -/
def rateOf (s : Option Stream) : ℤ := (s.map Stream.bitrate).getD 0

/-- The stream is one of the type, if there is one. -/
def Offered (streams : List Stream) (type : StreamType) : Option Stream → Prop
  | none => ∀ s ∈ streams, s.stream_type ≠ type
  | some s => s ∈ streams ∧ s.stream_type = type

/-- `-1` or the number of the stream. -/
def idOf (s : Option Stream) : ℤ := (s.map fun s ↦ (s.stream_id : ℤ)).getD (-1)

theorem stream_chosen (best : Option Stream) : (chosen rate best).stream = idOf best := by
  cases best <;> rfl

theorem rate_chosen (best : Option Stream) : (chosen 0 best).rate = rateOf best := by
  cases best <;> rfl

/-- What is picked among all the streams of a type is offered. -/
theorem offered_pick (type : StreamType) (streams : List Stream) (key : Stream → ℤ) :
    Offered streams type (pick (fun s ↦ s.stream_type = type) key streams) := by
  cases h : pick (fun s ↦ s.stream_type = type) key streams with
  | none => exact fun s hs ↦ pick_none h hs
  | some s => exact ⟨(pick_some h).1, (pick_some h).2.1⟩

/-- The steps 2 and 3, and the steps 4a and 4b: what fits, or else the lowest bitrate. -/
def fitOrLowest (type : StreamType) (left : ℤ) (streams : List Stream) : Option Stream :=
  (pick (fun s ↦ s.stream_type = type ∧ 0 < s.bitrate ∧ s.bitrate ≤ left) Stream.bitrate
    streams).or (pick (fun s ↦ s.stream_type = type) (fun s ↦ -s.bitrate) streams)

theorem fitOrLowest_eq (hrate : Moderate streams) (hleft : 0 ≤ left ∧ left < 2 ^ 31) :
    (if (bestFit type left streams ⟨-1, rate⟩).stream = -1
      then lowest type streams (bestFit type left streams ⟨-1, rate⟩)
      else bestFit type left streams ⟨-1, rate⟩) =
    chosen rate (fitOrLowest type left streams) := by
  rw [bestFit_eq hrate hleft, fitOrLowest]
  cases pick (fun s ↦ s.stream_type = type ∧ 0 < s.bitrate ∧ s.bitrate ≤ left) Stream.bitrate
    streams with
  | none => exact lowest_eq
  | some s => exact if_neg (fun h ↦ by cases chosen_stream.mp h)

theorem offered_fitOrLowest (type : StreamType) (left : ℤ) (streams : List Stream) :
    Offered streams type (fitOrLowest type left streams) := by
  rw [fitOrLowest]
  cases h : pick (fun s ↦ s.stream_type = type ∧ 0 < s.bitrate ∧ s.bitrate ≤ left) Stream.bitrate
    streams with
  | none => exact offered_pick type streams _
  | some s => exact ⟨(pick_some h).1, (pick_some h).2.1.1⟩

/-- It fits and nothing better does, or nothing fits that takes any bandwidth, and nothing is
lower. -/
theorem rate_fitOrLowest (type : StreamType) (left : ℤ) (streams : List Stream) :
    (0 < rateOf (fitOrLowest type left streams) ∧ rateOf (fitOrLowest type left streams) ≤ left ∧
      ∀ s ∈ streams, s.stream_type = type → s.bitrate ≤ left →
        s.bitrate ≤ rateOf (fitOrLowest type left streams)) ∨
    ((∀ s, Offered streams type s → rateOf (fitOrLowest type left streams) ≤ rateOf s) ∧
      ∀ s ∈ streams, s.stream_type = type → s.bitrate ≤ left → s.bitrate ≤ 0) := by
  rw [fitOrLowest]
  cases h : pick (fun s ↦ s.stream_type = type ∧ 0 < s.bitrate ∧ s.bitrate ≤ left) Stream.bitrate
    streams with
  | some b =>
      obtain ⟨-, ⟨-, hpos, hle⟩, hmax⟩ := pick_some h
      refine .inl ⟨hpos, hle, fun s hs htype hfit ↦ ?_⟩
      by_cases hzero : 0 < s.bitrate
      · exact hmax s hs ⟨htype, hzero, hfit⟩
      · exact Int.le_trans (Int.not_lt.mp hzero) (Int.le_of_lt hpos)
  | none =>
      refine .inr ⟨fun s hs ↦ ?_, fun s hs htype hfit ↦ ?_⟩
      · rw [Option.none_or]
        cases hlow : pick (fun s ↦ s.stream_type = type) (fun s ↦ -s.bitrate) streams with
        | none =>
            cases s with
            | none => exact Int.le_refl _
            | some s => exact absurd hs.2 (pick_none hlow hs.1)
        | some b =>
            obtain ⟨hb, htype, hmin⟩ := pick_some hlow
            cases s with
            | none => exact absurd htype (hs b hb)
            | some s => exact Int.neg_le_neg_iff.mp (hmin s hs.1 hs.2)
      · exact Int.not_lt.mp fun hpos ↦ pick_none h hs ⟨htype, hpos, hfit⟩

/-- The video stream that is chosen beside an audio stream. -/
def videoBeside (streams : List Stream) (bandwidth : ℤ) (audio : Option Stream) : Option Stream :=
  fitOrLowest .video (bandwidth_left bandwidth (rateOf audio)) streams

/-- The audio stream that is chosen beside a video stream when the best one is too much. -/
def audioBeside (streams : List Stream) (bandwidth : ℤ) (video : Option Stream) : Option Stream :=
  fitOrLowest .audio (bandwidth_left bandwidth (rateOf video)) streams

section

variable {bandwidth r x : ℤ} (hband : -2 ^ 30 ≤ bandwidth ∧ bandwidth < 2 ^ 31)
  (hr : 0 ≤ r ∧ r < 2 ^ 30)

include hband hr

theorem bandwidth_left_eq : bandwidth_left bandwidth r = max (bandwidth - r) 0 := by
  rw [bandwidth_left, int32_eq (by omega)]
  split <;> omega

theorem bandwidth_left_range :
    0 ≤ bandwidth_left bandwidth r ∧ bandwidth_left bandwidth r < 2 ^ 31 := by
  rw [bandwidth_left_eq hband hr]
  omega

/-- What fits into the rest fits beside the stream, if it takes any bandwidth. -/
theorem le_of_le_left (hx : 0 < x) (h : x ≤ bandwidth_left bandwidth r) : x + r ≤ bandwidth := by
  rw [bandwidth_left_eq hband hr] at h
  omega

theorem le_left (h : x + r ≤ bandwidth) : x ≤ bandwidth_left bandwidth r := by
  rw [bandwidth_left_eq hband hr]
  omega

end

/-- The bitrate of an offered stream. -/
theorem rateOf_range (hrate : Moderate streams) {s : Option Stream} (hs : Offered streams type s) :
    0 ≤ rateOf s ∧ rateOf s < 2 ^ 30 := by
  cases s with
  | none => exact ⟨Int.le_refl 0, by decide⟩
  | some s => exact hrate s hs.1

/-- The choice, in terms of the passes. -/
theorem get_best_stream_ids_eq {a : Asf} (h : a.Sound) (hrate : Moderate a.streams) {bandwidth : ℤ}
    (hband : -2 ^ 30 ≤ bandwidth ∧ bandwidth < 2 ^ 31) {best video : Option Stream}
    (hbest : pick (fun s ↦ s.stream_type = .audio) Stream.bitrate a.streams = best)
    (hvideo : videoBeside a.streams bandwidth best = video) :
    mms_get_best_stream_ids a bandwidth =
      (idOf (if rateOf best + rateOf video > bandwidth then audioBeside a.streams bandwidth video
        else best), idOf video) := by
  have hfit : ∀ left, 0 ≤ left ∧ left < 2 ^ 31 →
      (if (bestFit .video left a.streams ⟨-1, 0⟩).stream = -1 ∧ a.has_video = true
      then lowest .video a.streams (bestFit .video left a.streams ⟨-1, 0⟩)
      else bestFit .video left a.streams ⟨-1, 0⟩) =
        chosen 0 (fitOrLowest .video left a.streams) := by
    intro left hleft
    by_cases hhas : a.has_video = true
    · rw [← fitOrLowest_eq hrate hleft]
      simp only [hhas, and_true]
    · -- there is no video stream to choose
      have hnone : ∀ s, ¬ Offered a.streams .video (some s) :=
        fun s hs ↦ hhas (h.video s hs.1 hs.2)
      rw [if_neg (fun h ↦ hhas h.2)]
      have hoffered := offered_fitOrLowest .video left a.streams
      rw [fitOrLowest] at hoffered ⊢
      rw [bestFit_eq hrate hleft]
      cases hpick : pick (fun s ↦ s.stream_type = .video ∧ 0 < s.bitrate ∧ s.bitrate ≤ left)
        Stream.bitrate a.streams with
      | some s => exact absurd ⟨(pick_some hpick).1, (pick_some hpick).2.1.1⟩ (hnone s)
      | none =>
          rw [hpick, Option.none_or] at hoffered
          rw [Option.none_or]
          cases hlow : pick (fun s ↦ s.stream_type = .video) (fun s ↦ -s.bitrate) a.streams with
          | some s => exact absurd (hlow ▸ hoffered) (hnone s)
          | none => rfl
  have hr : 0 ≤ rateOf best ∧ rateOf best < 2 ^ 30 :=
    rateOf_range hrate (hbest ▸ offered_pick .audio a.streams _)
  have hr' : 0 ≤ rateOf video ∧ rateOf video < 2 ^ 30 := by
    rw [← hvideo]
    exact rateOf_range hrate (offered_fitOrLowest .video _ a.streams)
  rw [mms_get_best_stream_ids, bestQuality_eq, hbest]
  dsimp only
  rw [rate_chosen, hfit _ (bandwidth_left_range hband hr), ← videoBeside, hvideo, rate_chosen,
    stream_chosen, fitOrLowest_eq hrate (bandwidth_left_range hband hr'), int32_eq (by omega)]
  by_cases hmuch : rateOf best + rateOf video > bandwidth
  · rw [if_pos hmuch, if_pos hmuch, stream_chosen]
    rfl
  · rw [if_neg hmuch, if_neg hmuch, stream_chosen]

/-- **The chosen streams fit** the bandwidth whenever any streams do, and no better audio stream
fits beside the chosen video stream. -/
theorem get_best_stream_ids_fits {a : Asf} (h : a.Sound) (hrate : Moderate a.streams)
    (bandwidth : ℤ) (hband : -2 ^ 30 ≤ bandwidth ∧ bandwidth < 2 ^ 31) :
    ∃ audio video, Offered a.streams .audio audio ∧ Offered a.streams .video video ∧
      mms_get_best_stream_ids a bandwidth = (idOf audio, idOf video) ∧
      (∀ audio' video', Offered a.streams .audio audio' → Offered a.streams .video video' →
        rateOf audio' + rateOf video' ≤ bandwidth → rateOf audio + rateOf video ≤ bandwidth) ∧
      ∀ s ∈ a.streams, s.stream_type = .audio → s.bitrate + rateOf video ≤ bandwidth →
        s.bitrate ≤ rateOf audio := by
  obtain ⟨best, hbest⟩ : ∃ best,
    pick (fun s ↦ s.stream_type = .audio) Stream.bitrate a.streams = best := ⟨_, rfl⟩
  obtain ⟨video, hvideo⟩ : ∃ video, videoBeside a.streams bandwidth best = video := ⟨_, rfl⟩
  have hoffered : Offered a.streams .audio best := hbest ▸ offered_pick ..
  have hoffered' : Offered a.streams .video video := hvideo ▸ offered_fitOrLowest ..
  have hr := rateOf_range hrate hoffered
  have hr' := rateOf_range hrate hoffered'
  rw [get_best_stream_ids_eq h hrate hband hbest hvideo]
  by_cases hmuch : rateOf best + rateOf video > bandwidth
  · rw [if_pos hmuch]
    -- the video stream did not fit beside the best audio stream, so it is the lowest one
    have hlowest : ∀ s, Offered a.streams .video s → rateOf video ≤ rateOf s := by
      rw [← hvideo, videoBeside] at hmuch ⊢
      rcases rate_fitOrLowest .video (bandwidth_left bandwidth (rateOf best)) a.streams
        with ⟨hpos, hfit, -⟩ | ⟨hlow, -⟩
      · have hsum := le_of_le_left hband hr hpos hfit
        omega
      · exact hlow
    have haudio : Offered a.streams .audio (audioBeside a.streams bandwidth video) :=
      offered_fitOrLowest ..
    refine ⟨_, video, haudio, hoffered', rfl, ?_, ?_⟩
    · intro audio' video' haudio' hvideo' hsum
      have hv := hlowest video' hvideo'
      rw [audioBeside]
      rcases rate_fitOrLowest .audio _ a.streams with ⟨hpos, hfit, -⟩ | ⟨hlow, -⟩
      · exact le_of_le_left hband hr' hpos hfit
      · have ha := hlow audio' haudio'
        omega
    · intro s hs htype hsum
      have hleft := le_left hband hr' hsum
      rcases rate_fitOrLowest .audio _ a.streams with ⟨-, -, hmax⟩ | ⟨-, hmax⟩
      · exact hmax s hs htype hleft
      · exact Int.le_trans (hmax s hs htype hleft) (rateOf_range hrate haudio).1
  · rw [if_neg hmuch]
    refine ⟨best, video, hoffered, hoffered', rfl, fun _ _ _ _ _ ↦ Int.not_lt.mp hmuch, ?_⟩
    intro s hs htype _
    cases best with
    | none => exact absurd htype (hoffered s hs)
    | some b => exact (pick_some hbest).2.2 s hs htype

/-- Two audio streams and a video stream, of 100, 60 and 50. -/
def threeStreams : Asf where
  asf_header i := if i = 4 then 100 else if i = 8 then 60 else if i = 12 then 50 else 0
  asf_header_len := 16
  streams := [⟨1, .audio, 100, 4⟩, ⟨2, .audio, 60, 8⟩, ⟨3, .video, 50, 12⟩]
  asf_packet_len := 0
  file_len := 0
  file_time := 0
  time_len := 0
  preroll := 0
  asf_num_packets := 0
  has_audio := true
  has_video := true

theorem sound_threeStreams : threeStreams.Sound where
  fits := by decide
  distinct := by decide
  packet_le := by decide
  audio _ _ _ := rfl
  video _ _ _ := rfl
  bitrate := by decide

/-- The second audio stream fits beside the video stream. -/
theorem threeStreams_fits : ∃ audio video,
    mms_get_best_stream_ids threeStreams 120 = (idOf audio, idOf video) ∧
      rateOf audio + rateOf video ≤ 120 := by
  obtain ⟨audio, video, -, -, hids, hfits, -⟩ :=
    get_best_stream_ids_fits sound_threeStreams (by unfold Moderate; decide) 120
      (by decide)
  refine ⟨audio, video, hids, hfits (some ⟨2, .audio, 60, 8⟩) (some ⟨3, .video, 50, 12⟩)
    ⟨?_, rfl⟩ ⟨?_, rfl⟩ (by decide)⟩ <;>
  simp [threeStreams]

end CodeToolKit.Libmms
