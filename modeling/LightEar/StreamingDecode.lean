import LightEar.Backend.Playback
import LightEar.StreamingPcm

/-!
# When a decoded stream may be started

The decoder of an operation reports that its stream is prepared when enough has been decoded, or
when the stream has ended.  The player starts a prepared stream when it finds it ready, for which
it must know the format.  Both agree unless the stream ends before the first block has been
decoded (`prepared_startable_iff`): then the format is not known, the stream is not started, and
preparing it again does nothing (`prepareLoadedStream_of_isBarren`).
-/

namespace LightEar

open Foundation

universe u

variable {α : Type u}

/-- How much must be decoded ahead of a position before it may be played. -/
def readyWindowMs : Nat := 12000

/-- How much is kept behind the playback position. -/
def streamPcmRetainBehindMs : Nat := lowWatermarkMs

/-! ## The player -/

/-- Whether enough is decoded for a position. -/
def streamReadyForPosition (positionMs durationMs bufferedUntilMs : Nat) (complete : Bool) : Bool :=
  let positionMs := min positionMs durationMs
  let readyUntil := min (satAdd positionMs readyWindowMs) durationMs
  decide (readyUntil ≤ bufferedUntilMs) || (complete && decide (positionMs ≤ bufferedUntilMs))

/-- Whether a buffer may be played from a position. -/
def streamPcmReadyForPosition (pcm : StreamingPcmState α) (positionMs durationMs : Nat) : Bool :=
  decide (pcm.basePositionMs ≤ positionMs) && pcm.spec.isSome &&
    streamReadyForPosition positionMs durationMs (min pcm.bufferedUntilMs durationMs) pcm.complete

/-- The stream that the player has loaded. -/
structure StreamingSession (α : Type u) where
  /-- The session it is for. -/
  sessionId : String
  /-- The track. -/
  trackId : String
  /-- The length of the track. -/
  durationMs : Nat
  /-- The decoded samples. -/
  pcm : StreamingPcmState α

/-- Starts a prepared stream, if it is loaded and ready; the output answers whether it could be
restarted. -/
def startPreparedStream (streaming : Option (StreamingSession α)) (sessionId trackId : String)
    (positionMs : Nat) (restarted : Except BackendError Unit) : Except BackendError Bool :=
  let ready := streaming.any fun streaming =>
    streaming.sessionId == sessionId && streaming.trackId == trackId &&
      streamPcmReadyForPosition streaming.pcm (min positionMs streaming.durationMs)
        streaming.durationMs
  if ready then restarted.map fun _ => true else .ok false

/-- What becomes of a stream that is loaded and is to be prepared. -/
inductive PrepareOutcome where
  | prepared
  | restarted
  | waits
  deriving DecidableEq, Repr

/-- Prepares a stream that is loaded already: it is ready, or the decoder has to start again
because it is not on its way to the position. -/
def prepareLoadedStream (pcm : StreamingPcmState α) (positionMs durationMs : Nat) :
    PrepareOutcome :=
  let positionMs := min positionMs durationMs
  if streamPcmReadyForPosition pcm positionMs durationMs then .prepared
  else if positionMs < pcm.basePositionMs ∨
      (pcm.streamPcmCacheWindow durationMs).2 < positionMs then
    .restarted
  else .waits

/-! ## The decoder -/

/-- What is decoded, and for what. -/
structure DecodeJob where
  /-- The operation that waits for it, if any. -/
  operationId : Option String
  /-- The session. -/
  sessionId : String
  /-- The track. -/
  track : PlaybackTrack
  /-- The position from which it is to be played. -/
  positionMs : Nat

/-- Where decoding must have come for the stream to be prepared. -/
def DecodeJob.readyUntil (job : DecodeJob) : Nat :=
  min (satAdd job.positionMs readyWindowMs) job.track.durationMs

/-- What the decoder gets from one packet. -/
inductive DecodeStep (α : Type u) where
  | otherTrack
  | decoded (channels sampleRate : Nat) (samples : List α)
  | decodeError (error : String)
  | interrupted
  | failed (error : String)

/-- How decoding goes on. -/
inductive DecodeOutcome where
  | goesOn
  | returns
  | fails (error : String)
  deriving DecidableEq, Repr

/-- What the decoder keeps. -/
structure DecodeState (α : Type u) where
  /-- The decoded samples. -/
  pcm : StreamingPcmState α
  /-- Whether the stream has been reported as prepared. -/
  readySent : Bool
  /-- How far the last report of the cache went. -/
  lastCacheEventMs : Nat
  /-- How many packets in a row could not be decoded. -/
  decodeErrors : Nat
  /-- The first error. -/
  firstDecodeError : Option String
  /-- The reports so far. -/
  events : List AudioPlayerEvent

/-- A number that is not zero. -/
def nonZero (n : Nat) : Option ℕ+ := if h : 0 < n then some ⟨n, h⟩ else none

/-- Whether to report how far the cache has come. -/
def shouldEmitStreamCacheEvent (bufferedUntilMs lastCacheEventMs : Nat) (readySent : Bool)
    (readyUntilMs : Nat) : Bool :=
  decide (satAdd lastCacheEventMs 1000 ≤ bufferedUntilMs) ||
    (!readySent && decide (readyUntilMs ≤ bufferedUntilMs))

namespace DecodeJob

variable (job : DecodeJob)

/-- The report that the stream is prepared. -/
def prepared (bufferedUntilMs : Nat) : AudioPlayerEvent :=
  .prepared job.operationId job.sessionId job.track.trackId bufferedUntilMs

/-- A report of the cache. -/
def cache (status : PlaybackCacheStatus) (bufferedUntilMs : Nat) : AudioPlayerEvent :=
  .cache job.operationId job.sessionId job.track.trackId status bufferedUntilMs

/-- Drops what lies behind the playback. -/
def trim (pcm : StreamingPcmState α) (playbackPositionMs : Nat) : StreamingPcmState α :=
  pcm.trimBefore (min playbackPositionMs job.track.durationMs) streamPcmRetainBehindMs

/-- Reports on decoded samples.  While there is enough ahead of the playback the decoder then
waits, and drops what lies behind the playback meanwhile. -/
def report (s : DecodeState α) (pcm : StreamingPcmState α) (playbackPositionMs : Nat) :
    DecodeState α :=
  let bufferedUntilMs := (pcm.streamPcmCacheWindow job.track.durationMs).2
  let emitsCache :=
    shouldEmitStreamCacheEvent bufferedUntilMs s.lastCacheEventMs s.readySent job.readyUntil
  let getsReady := !s.readySent && decide (job.readyUntil ≤ bufferedUntilMs)
  { s with
    pcm := job.trim pcm playbackPositionMs
    readySent := s.readySent || getsReady
    lastCacheEventMs := if emitsCache then bufferedUntilMs else s.lastCacheEventMs
    decodeErrors := 0
    events := s.events ++
      (if emitsCache then
        [job.cache (if s.readySent then .ready else .preparing) bufferedUntilMs] else []) ++
      (if getsReady then [job.prepared bufferedUntilMs, job.cache .ready bufferedUntilMs]
        else []) }

/-- One packet. -/
def decodeStep (playbackPositionMs : Nat) (s : DecodeState α) :
    DecodeStep α → DecodeOutcome × DecodeState α
  | .otherTrack => (.goesOn, s)
  | .decoded channels sampleRate samples =>
    match nonZero channels with
    | none => (.fails "decoded streaming audio has invalid channel count", s)
    | some channels =>
      match nonZero sampleRate with
      | none => (.fails "decoded streaming audio has invalid sample rate", s)
      | some sampleRate =>
        match s.pcm.setSpec channels sampleRate with
        | .error error => (.fails error, s)
        | .ok pcm =>
          (.goesOn,
            job.report s (job.trim (pcm.pushSamples samples) playbackPositionMs)
              playbackPositionMs)
  | .decodeError error =>
    let firstDecodeError := s.firstDecodeError.or (some error)
    let s' := { s with decodeErrors := s.decodeErrors + 1, firstDecodeError }
    if 3 < s'.decodeErrors then
      (.fails ("too many streaming audio decode errors: " ++
        firstDecodeError.getD "unknown decode error"), s')
    else (.goesOn, s')
  | .interrupted => (.returns, s)
  | .failed error => (.fails error, s)

/-- All packets, until the stream ends or decoding stops. -/
def decodeLoop (playbackPositionMs : Nat) :
    DecodeState α → List (DecodeStep α) → DecodeOutcome × DecodeState α
  | s, [] => (.goesOn, s)
  | s, step :: steps =>
    match job.decodeStep playbackPositionMs s step with
    | (.goesOn, s') => decodeLoop playbackPositionMs s' steps
    | stopped => stopped

/-- Before the first packet, after the reader has been placed at the position. -/
def start : DecodeState α where
  pcm := StreamingPcmState.new.setBasePosition job.positionMs
  readySent := false
  lastCacheEventMs := 0
  decodeErrors := 0
  firstDecodeError := none
  events := []

/-- The stream has ended. -/
def finish (s : DecodeState α) : DecodeState α :=
  let pcm := s.pcm.markComplete
  let bufferedUntilMs := (pcm.streamPcmCacheWindow job.track.durationMs).2
  { s with
    pcm
    events := s.events ++
      (if !s.readySent && decide (min job.positionMs job.track.durationMs ≤ bufferedUntilMs) then
        [job.prepared bufferedUntilMs] else []) ++
      [job.cache .ready bufferedUntilMs] }

/-- Decodes a stream while the playback stands at a position. -/
def decodeStreamingAudioInner (playbackPositionMs : Nat) (steps : List (DecodeStep α)) :
    DecodeOutcome × DecodeState α :=
  match job.decodeLoop playbackPositionMs job.start steps with
  | (.goesOn, s) => (.returns, job.finish s)
  | stopped => stopped

/-- Decodes a stream; a failure is noted in the buffer and reported, unless the decoder has been
given up. -/
def decodeStreamingAudio (playbackPositionMs : Nat) (canceled : Bool)
    (steps : List (DecodeStep α)) : DecodeState α :=
  match job.decodeStreamingAudioInner playbackPositionMs steps with
  | (.fails error, s) =>
    if canceled then s
    else { s with
      pcm := s.pcm.fail error
      events := s.events ++
        [.failed job.operationId job.sessionId job.track.trackId error] }
  | (_, s) => s

/-- The stream as the player has loaded it. -/
def session (s : DecodeState α) : StreamingSession α where
  sessionId := job.sessionId
  trackId := job.track.trackId
  durationMs := job.track.durationMs
  pcm := s.pcm

end DecodeJob

/-! ## Steps of the buffer -/

namespace StreamingPcmState

variable {p p' : StreamingPcmState α}

/-- A trim that keeps everything from the front on does nothing. -/
theorem trimBefore_eq_self {positionMs retainBehindMs : Nat}
    (h : positionMs ≤ p.basePositionMs + retainBehindMs) :
    p.trimBefore positionMs retainBehindMs = p := by
  have hfront : positionMs - retainBehindMs ≤ p.basePositionMs := Nat.sub_le_iff_le_add.2 h
  unfold trimBefore
  split
  · exact if_pos hfront
  · rfl

/-- A trim does not change the format. -/
theorem trimBefore_spec (p : StreamingPcmState α) (positionMs retainBehindMs : Nat) :
    (p.trimBefore positionMs retainBehindMs).spec = p.spec := by
  unfold trimBefore
  split
  · dsimp only
    split_ifs <;> rfl
  · rfl

/-- Noting the format changes nothing else, and changes no format that is known. -/
theorem of_setSpec {channels sampleRate : ℕ+} (h : p.setSpec channels sampleRate = .ok p') :
    p' = { p with channels := some channels, sampleRate := some sampleRate } ∧
      (p.spec.isSome → p' = p) := by
  unfold setSpec at h
  cases hchannels : p.channels with
  | none =>
    rw [hchannels] at h
    refine ⟨(Except.ok.inj h).symm, fun hspec => ?_⟩
    simp [spec, hchannels] at hspec
  | some existingChannels =>
    cases hrate : p.sampleRate with
    | none =>
      rw [hchannels, hrate] at h
      refine ⟨(Except.ok.inj h).symm, fun hspec => ?_⟩
      simp [spec, hrate] at hspec
    | some existingRate =>
      rw [hchannels, hrate] at h
      dsimp only at h
      split_ifs at h with hchanged
      obtain ⟨rfl, rfl⟩ : existingChannels = channels ∧ existingRate = sampleRate := by
        simpa using hchanged
      obtain rfl := Except.ok.inj h
      refine ⟨rfl, fun _ => ?_⟩
      rw [← hchannels, ← hrate]

/-- The buffer reaches at least to its own front. -/
theorem basePositionMs_le_bufferedUntilMs (h : p.basePositionMs ≤ u64Max) :
    p.basePositionMs ≤ p.bufferedUntilMs :=
  le_min (Nat.le_add_right _ _) h

/-- More samples reach at least as far. -/
theorem bufferedUntilMs_le_pushSamples (p : StreamingPcmState α) (samples : List α) :
    p.bufferedUntilMs ≤ (p.pushSamples samples).bufferedUntilMs := by
  have hlonger : p.durationMs ≤ (p.pushSamples samples).durationMs := by
    have hspec : (p.pushSamples samples).spec = p.spec := rfl
    have hlength : p.samples.length ≤ (p.pushSamples samples).samples.length := by
      simp [pushSamples]
    unfold durationMs
    rw [hspec]
    cases p.spec with
    | none => exact le_rfl
    | some spec =>
      exact Nat.div_le_div_right (Nat.div_le_div_right
        (min_le_min_right _ (Nat.mul_le_mul_right _ hlength)))
  exact min_le_min_right _ (Nat.add_le_add_left hlonger _)

/-- How far the cache is reported to reach. -/
theorem streamPcmCacheWindow_snd (h : p.basePositionMs ≤ u64Max) (durationMs : Nat) :
    (p.streamPcmCacheWindow durationMs).2 = min p.bufferedUntilMs durationMs :=
  max_eq_left (min_le_min_right _ (basePositionMs_le_bufferedUntilMs h))

end StreamingPcmState

/-- A prepared stream is started exactly if it is ready. -/
theorem startPreparedStream_ne_iff (session : StreamingSession α) {positionMs : Nat}
    (h : positionMs ≤ session.durationMs) (restarted : Except BackendError Unit) :
    startPreparedStream (some session) session.sessionId session.trackId positionMs restarted ≠
        .ok false ↔
      streamPcmReadyForPosition session.pcm positionMs session.durationMs = true := by
  unfold startPreparedStream
  simp only [Option.any_some, beq_self_eq_true, Bool.true_and, min_eq_left h]
  cases streamPcmReadyForPosition session.pcm positionMs session.durationMs with
  | false => simp
  | true => cases restarted <;> simp [Except.map]

namespace DecodeJob

variable (job : DecodeJob)

/-! ## While the stream goes on -/

/-- What holds before and after every packet: the front has stayed where it was, and a stream
that has been reported as prepared is ready. -/
structure Invariant (s : DecodeState α) : Prop where
  base : s.pcm.basePositionMs = job.positionMs
  readySent_iff : s.readySent = true ↔ ∃ ms, job.prepared ms ∈ s.events
  spec : s.readySent = true → s.pcm.spec.isSome
  buffered : s.readySent = true → job.readyUntil ≤ min s.pcm.bufferedUntilMs job.track.durationMs

variable {job} {s : DecodeState α}

/-- While the playback stands at the front, nothing is dropped. -/
theorem trim_eq_self {pcm : StreamingPcmState α} (h : pcm.basePositionMs = job.positionMs) :
    job.trim pcm job.positionMs = pcm :=
  StreamingPcmState.trimBefore_eq_self <| by
    rw [h]
    exact (min_le_left _ _).trans (Nat.le_add_right _ _)

/-- A packet changes no more than the count of errors, or its samples are reported on. -/
theorem decodeStep_cases (job : DecodeJob) (playbackPositionMs : Nat) (s : DecodeState α)
    (step : DecodeStep α) :
    (∃ outcome errors first, job.decodeStep playbackPositionMs s step =
      (outcome, { s with decodeErrors := errors, firstDecodeError := first })) ∨
    ∃ channels sampleRate samples pcm, s.pcm.setSpec channels sampleRate = .ok pcm ∧
      job.decodeStep playbackPositionMs s step =
        (.goesOn, job.report s (job.trim (pcm.pushSamples samples) playbackPositionMs)
          playbackPositionMs) := by
  cases step with
  | otherTrack => exact .inl ⟨_, _, _, rfl⟩
  | decoded channels sampleRate samples =>
    unfold decodeStep
    dsimp only
    split
    · exact .inl ⟨_, _, _, rfl⟩
    · split
      · exact .inl ⟨_, _, _, rfl⟩
      · split
        · exact .inl ⟨_, _, _, rfl⟩
        · rename_i pcm hpcm
          exact .inr ⟨_, _, _, pcm, hpcm, rfl⟩
  | decodeError error =>
    left
    unfold decodeStep
    dsimp only
    split_ifs
    · exact ⟨_, _, _, rfl⟩
    · exact ⟨_, _, _, rfl⟩
  | interrupted => exact .inl ⟨_, _, _, rfl⟩
  | failed error => exact .inl ⟨_, _, _, rfl⟩

theorem prepared_ne_cache {ms bufferedUntilMs : Nat} {status : PlaybackCacheStatus} :
    job.prepared ms ≠ job.cache status bufferedUntilMs :=
  nofun

/-- A report says that the stream is prepared exactly if it gets ready. -/
theorem prepared_mem_report (pcm : StreamingPcmState α) (playbackPositionMs : Nat) :
    (∃ ms, job.prepared ms ∈ (job.report s pcm playbackPositionMs).events) ↔
      (∃ ms, job.prepared ms ∈ s.events) ∨
        (s.readySent = false ∧
          job.readyUntil ≤ (pcm.streamPcmCacheWindow job.track.durationMs).2) := by
  unfold report
  dsimp only
  simp only [List.mem_append, exists_or]
  refine or_congr (or_iff_left ?_) ?_
  · rintro ⟨ms, hms⟩
    revert hms
    split
    · exact fun hms => prepared_ne_cache (List.mem_singleton.1 hms)
    · exact List.not_mem_nil
  · split_ifs with hgets
    · simpa [prepared, cache] using hgets
    · simpa using hgets

/-- A report on what has been pushed to the end keeps the invariant. -/
theorem Invariant.report (h : job.Invariant s) (hposition : job.positionMs ≤ u64Max)
    {pcm : StreamingPcmState α} (hbase : pcm.basePositionMs = job.positionMs)
    (hspec : pcm.spec.isSome)
    (hfar : s.readySent = true → s.pcm.bufferedUntilMs ≤ pcm.bufferedUntilMs) :
    job.Invariant (job.report s pcm job.positionMs) := by
  have hpcm : (job.report s pcm job.positionMs).pcm = pcm := trim_eq_self hbase
  have hwindow : (pcm.streamPcmCacheWindow job.track.durationMs).2 =
      min pcm.bufferedUntilMs job.track.durationMs :=
    StreamingPcmState.streamPcmCacheWindow_snd (hbase ▸ hposition) _
  have hready : (job.report s pcm job.positionMs).readySent = true ↔
      s.readySent = true ∨ (s.readySent = false ∧
        job.readyUntil ≤ (pcm.streamPcmCacheWindow job.track.durationMs).2) := by
    simp [DecodeJob.report]
  constructor
  case base => rw [hpcm, hbase]
  case readySent_iff => rw [hready, prepared_mem_report, h.readySent_iff]
  case spec =>
    rw [hpcm]
    exact fun _ => hspec
  case buffered =>
    rw [hpcm, hready, hwindow]
    rintro (hsent | ⟨-, hreached⟩)
    · exact (h.buffered hsent).trans (min_le_min_right _ (hfar hsent))
    · exact hreached

/-- One packet keeps the invariant. -/
theorem Invariant.decodeStep (h : job.Invariant s) (hposition : job.positionMs ≤ u64Max)
    (step : DecodeStep α) : job.Invariant (job.decodeStep job.positionMs s step).2 := by
  rcases decodeStep_cases job job.positionMs s step with
    ⟨outcome, errors, first, hstep⟩ | ⟨channels, sampleRate, samples, pcm, hpcm, hstep⟩
  · rw [hstep]
    exact ⟨h.base, h.readySent_iff, h.spec, h.buffered⟩
  · obtain ⟨hnoted, hknown⟩ := StreamingPcmState.of_setSpec hpcm
    have hbase : (pcm.pushSamples samples).basePositionMs = job.positionMs := by
      rw [hnoted]
      exact h.base
    have hspec : (pcm.pushSamples samples).spec.isSome := by
      rw [hnoted]
      rfl
    rw [hstep, trim_eq_self hbase]
    refine h.report hposition hbase hspec fun hsent => ?_
    rw [hknown (h.spec hsent)]
    exact s.pcm.bufferedUntilMs_le_pushSamples samples

/-- What every packet keeps is kept by all packets. -/
theorem decodeLoop_keeps {P : DecodeState α → Prop} {playbackPositionMs : Nat}
    (hstep : ∀ s step, P s → P (job.decodeStep playbackPositionMs s step).2) (h : P s)
    (steps : List (DecodeStep α)) : P (job.decodeLoop playbackPositionMs s steps).2 := by
  induction steps generalizing s with
  | nil => exact h
  | cons step steps ih =>
    have hnext := hstep s step h
    unfold decodeLoop
    split
    · rename_i s' hs'
      rw [hs'] at hnext
      exact ih hnext
    · exact hnext

/-- All packets keep the invariant. -/
theorem Invariant.decodeLoop (h : job.Invariant s) (hposition : job.positionMs ≤ u64Max)
    (steps : List (DecodeStep α)) :
    job.Invariant (job.decodeLoop job.positionMs s steps).2 :=
  decodeLoop_keeps (fun _ step hs => hs.decodeStep hposition step) h steps

/-- The invariant holds at first. -/
theorem Invariant.start (job : DecodeJob) : job.Invariant (job.start : DecodeState α) where
  base := rfl
  readySent_iff := by simp [DecodeJob.start]
  spec := nofun
  buffered := nofun

/-- A stream that has been reported as prepared while it went on is ready. -/
theorem Invariant.ready (h : job.Invariant s) (hposition : job.positionMs ≤ job.track.durationMs)
    (hsent : s.readySent = true) :
    streamPcmReadyForPosition s.pcm job.positionMs job.track.durationMs = true := by
  have hbuffered := h.buffered hsent
  unfold readyUntil at hbuffered
  unfold streamPcmReadyForPosition streamReadyForPosition
  rw [h.base, h.spec hsent, min_eq_left hposition]
  simp [hbuffered]

/-! ## When the stream has ended -/

/-- At the end the stream is reported as prepared, if it has not been before. -/
theorem Invariant.prepared_mem_finish (h : job.Invariant s) :
    ∃ ms, job.prepared ms ∈ (job.finish s).events := by
  cases hsent : s.readySent with
  | true =>
    obtain ⟨ms, hms⟩ := h.readySent_iff.1 hsent
    exact ⟨ms, List.mem_append_left _ (List.mem_append_left _ hms)⟩
  | false =>
    have hwindow : min job.positionMs job.track.durationMs ≤
        (s.pcm.markComplete.streamPcmCacheWindow job.track.durationMs).2 :=
      (min_le_min_right _ h.base.ge).trans (le_max_right _ _)
    refine ⟨(s.pcm.markComplete.streamPcmCacheWindow job.track.durationMs).2,
      List.mem_append_left _ (List.mem_append_right _ ?_)⟩
    rw [hsent, if_pos (by simpa using hwindow)]
    exact List.mem_singleton.2 rfl

/-- At the end the stream is ready exactly if the format is known. -/
theorem Invariant.ready_finish_iff (h : job.Invariant s)
    (hposition : job.positionMs ≤ job.track.durationMs)
    (hduration : job.track.durationMs ≤ u64Max) :
    streamPcmReadyForPosition (job.finish s).pcm job.positionMs job.track.durationMs = true ↔
      s.pcm.spec.isSome := by
  have hreaches : job.positionMs ≤ s.pcm.markComplete.bufferedUntilMs :=
    h.base.ge.trans (StreamingPcmState.basePositionMs_le_bufferedUntilMs
      (h.base.trans_le (hposition.trans hduration)))
  have hbase : s.pcm.markComplete.basePositionMs = job.positionMs := h.base
  have hspec : s.pcm.markComplete.spec = s.pcm.spec := rfl
  have hcomplete : s.pcm.markComplete.complete = true := rfl
  have hpcm : (job.finish s).pcm = s.pcm.markComplete := rfl
  unfold streamPcmReadyForPosition streamReadyForPosition
  rw [hpcm, hbase, hspec, hcomplete, min_eq_left hposition]
  simp [hreaches, hposition]

end DecodeJob

/-! ## Streams without a block -/

/-- Whether nothing is decoded from a packet and decoding may go on. -/
def DecodeStep.IsSkipped : DecodeStep α → Prop
  | .otherTrack => True
  | .decodeError _ => True
  | _ => False

/-- Whether a packet could not be decoded. -/
def DecodeStep.isDecodeError : DecodeStep α → Bool
  | .decodeError _ => true
  | _ => false

/-- The stream ends, with no block decoded before. -/
def IsBarren (steps : List (DecodeStep α)) : Prop :=
  (∀ step ∈ steps, step.IsSkipped) ∧ steps.countP DecodeStep.isDecodeError ≤ 3

namespace DecodeJob

variable {job : DecodeJob} {s : DecodeState α}

/-- Reported samples have a format. -/
theorem report_spec {pcm : StreamingPcmState α} {channels sampleRate : ℕ+}
    (hpcm : s.pcm.setSpec channels sampleRate = .ok pcm) (samples : List α)
    (playbackPositionMs : Nat) :
    (job.report s (job.trim (pcm.pushSamples samples) playbackPositionMs)
      playbackPositionMs).pcm.spec.isSome := by
  have hspec : (pcm.pushSamples samples).spec.isSome := by
    rw [(StreamingPcmState.of_setSpec hpcm).1]
    rfl
  simpa only [report, trim, StreamingPcmState.trimBefore_spec] using hspec

/-- A format that is known remains known. -/
theorem decodeStep_spec (job : DecodeJob) (h : s.pcm.spec.isSome) (playbackPositionMs : Nat)
    (step : DecodeStep α) : (job.decodeStep playbackPositionMs s step).2.pcm.spec.isSome := by
  rcases decodeStep_cases job playbackPositionMs s step with
    ⟨outcome, errors, first, hstep⟩ | ⟨channels, sampleRate, samples, pcm, hpcm, hstep⟩
  · rw [hstep]
    exact h
  · rw [hstep]
    exact report_spec hpcm samples playbackPositionMs

/-- After all packets too. -/
theorem decodeLoop_spec (job : DecodeJob) (h : s.pcm.spec.isSome) (playbackPositionMs : Nat)
    (steps : List (DecodeStep α)) :
    (job.decodeLoop playbackPositionMs s steps).2.pcm.spec.isSome :=
  decodeLoop_keeps (P := fun s => s.pcm.spec.isSome)
    (fun _ step hs => decodeStep_spec job hs playbackPositionMs step) h steps

/-- A block after which decoding goes on has made the format known. -/
theorem decodeStep_decoded_spec {playbackPositionMs channels sampleRate : Nat}
    {samples : List α} {s' : DecodeState α}
    (h : job.decodeStep playbackPositionMs s (.decoded channels sampleRate samples) =
      (.goesOn, s')) :
    s'.pcm.spec.isSome := by
  unfold decodeStep at h
  dsimp only at h
  split at h
  · simp at h
  · split at h
    · simp at h
    · split at h
      · simp at h
      · rename_i hpcm
        obtain rfl := (Prod.mk.inj h).2
        exact report_spec hpcm samples playbackPositionMs

/-- From an unknown format, the stream ends with the format still unknown exactly if no block has
been decoded. -/
theorem decodeLoop_spec_eq_none_iff (job : DecodeJob) (playbackPositionMs : Nat)
    (hspec : s.pcm.spec = none) (herrors : s.decodeErrors ≤ 3) (steps : List (DecodeStep α)) :
    ((job.decodeLoop playbackPositionMs s steps).1 = .goesOn ∧
        (job.decodeLoop playbackPositionMs s steps).2.pcm.spec = none) ↔
      (∀ step ∈ steps, step.IsSkipped) ∧
        s.decodeErrors + steps.countP DecodeStep.isDecodeError ≤ 3 := by
  induction steps generalizing s with
  | nil => simp [decodeLoop, hspec, herrors]
  | cons step steps ih =>
    rw [List.forall_mem_cons, List.countP_cons]
    cases step with
    | otherTrack =>
      rw [show job.decodeLoop playbackPositionMs s (.otherTrack :: steps) =
        job.decodeLoop playbackPositionMs s steps from rfl, ih hspec herrors]
      simp [DecodeStep.IsSkipped, DecodeStep.isDecodeError]
    | decoded channels sampleRate samples =>
      have hknown : ∀ s', job.decodeStep playbackPositionMs s
          (.decoded channels sampleRate samples) = (.goesOn, s') → s'.pcm.spec.isSome :=
        fun s' hs' => decodeStep_decoded_spec hs'
      refine iff_of_false ?_ fun hskipped => hskipped.1.1
      rintro ⟨hgoesOn, hnone⟩
      unfold decodeLoop at hgoesOn hnone
      split at hgoesOn
      · rename_i s' hs'
        rw [hs'] at hnone
        have hsome := decodeLoop_spec job (hknown s' hs') playbackPositionMs steps
        simp [hnone] at hsome
      · rename_i hstopped
        exact hstopped _ (Prod.ext hgoesOn rfl)
    | decodeError error =>
      by_cases hmany : 3 < s.decodeErrors + 1
      · have hstep : job.decodeLoop playbackPositionMs s (.decodeError error :: steps) =
            (.fails ("too many streaming audio decode errors: " ++
              (s.firstDecodeError.or (some error)).getD "unknown decode error"),
            { s with
              decodeErrors := s.decodeErrors + 1
              firstDecodeError := s.firstDecodeError.or (some error) }) := by
          simp [decodeLoop, decodeStep, hmany]
        rw [hstep]
        simp [DecodeStep.isDecodeError]
        omega
      · have hstep : job.decodeLoop playbackPositionMs s (.decodeError error :: steps) =
            job.decodeLoop playbackPositionMs
              { s with
                decodeErrors := s.decodeErrors + 1
                firstDecodeError := s.firstDecodeError.or (some error) } steps := by
          simp [decodeLoop, decodeStep, hmany]
        have hrest := ih (s := { s with
          decodeErrors := s.decodeErrors + 1
          firstDecodeError := s.firstDecodeError.or (some error) }) hspec (Nat.not_lt.1 hmany)
        rw [hstep, hrest]
        simp [DecodeStep.IsSkipped, DecodeStep.isDecodeError]
        omega
    | interrupted => simp [decodeLoop, decodeStep, DecodeStep.IsSkipped]
    | failed error => simp [decodeLoop, decodeStep, DecodeStep.IsSkipped]

/-- Before the first packet the format is unknown, so that it remains so exactly if the stream is
barren. -/
theorem start_decodeLoop_iff (job : DecodeJob) (playbackPositionMs : Nat)
    (steps : List (DecodeStep α)) :
    ((job.decodeLoop playbackPositionMs job.start steps).1 = .goesOn ∧
        (job.decodeLoop playbackPositionMs job.start steps).2.pcm.spec = none) ↔
      IsBarren steps := by
  have h := decodeLoop_spec_eq_none_iff job (s := job.start) playbackPositionMs rfl
    (Nat.zero_le 3) steps
  rw [show (job.start : DecodeState α).decodeErrors = 0 from rfl, Nat.zero_add] at h
  exact h

/-- A decoder that does not fail and is not interrupted comes to the end of the stream. -/
theorem decodeStreamingAudioInner_of_goesOn {playbackPositionMs : Nat}
    {steps : List (DecodeStep α)}
    (h : (job.decodeLoop playbackPositionMs job.start steps).1 = .goesOn) :
    job.decodeStreamingAudioInner playbackPositionMs steps =
      (.returns, job.finish (job.decodeLoop playbackPositionMs job.start steps).2) := by
  unfold decodeStreamingAudioInner
  split
  · rename_i s hs
    rw [hs]
  · rename_i hstopped
    exact (hstopped _ (Prod.ext h rfl)).elim

/-- Any other stops where it is. -/
theorem decodeStreamingAudioInner_of_not_goesOn {playbackPositionMs : Nat}
    {steps : List (DecodeStep α)}
    (h : (job.decodeLoop playbackPositionMs job.start steps).1 ≠ .goesOn) :
    job.decodeStreamingAudioInner playbackPositionMs steps =
      job.decodeLoop playbackPositionMs job.start steps := by
  unfold decodeStreamingAudioInner
  split
  · rename_i s hs
    exact absurd (congrArg Prod.fst hs) h
  · rfl

end DecodeJob

/-! ## Prepared and startable -/

/-- A decoder works for an operation while the playback stands at the operation's position.  If it
reports the stream as prepared then the player starts it there: this fails exactly if the stream
ends before a block has been decoded.  A decoder that is still at work is one that has just been
interrupted. -/
theorem prepared_startable_iff (job : DecodeJob)
    (hposition : job.positionMs ≤ job.track.durationMs)
    (hduration : job.track.durationMs ≤ u64Max) (steps : List (DecodeStep α)) :
    ((∃ ms, job.prepared ms ∈
        (job.decodeStreamingAudioInner job.positionMs steps).2.events) →
      ∀ restarted, startPreparedStream
        (some (job.session (job.decodeStreamingAudioInner job.positionMs steps).2))
        job.sessionId job.track.trackId job.positionMs restarted ≠ .ok false) ↔
    ¬ IsBarren steps := by
  have hloop := (DecodeJob.Invariant.start job).decodeLoop
    (hposition.trans hduration) steps
  have hstarts : ∀ s : DecodeState α, ∀ restarted,
      startPreparedStream (some (job.session s)) job.sessionId job.track.trackId job.positionMs
          restarted ≠ .ok false ↔
        streamPcmReadyForPosition s.pcm job.positionMs job.track.durationMs = true :=
    fun s restarted => startPreparedStream_ne_iff (job.session s) hposition restarted
  simp only [hstarts, forall_const, ← DecodeJob.start_decodeLoop_iff job job.positionMs]
  by_cases hgoesOn : (job.decodeLoop job.positionMs job.start steps).1 = .goesOn
  · -- the stream has ended, and has been reported as prepared then at the latest
    rw [DecodeJob.decodeStreamingAudioInner_of_goesOn hgoesOn]
    simp only [hloop.prepared_mem_finish, forall_const, hgoesOn, true_and,
      hloop.ready_finish_iff hposition hduration, Option.isSome_iff_ne_none, ne_eq]
  · rw [DecodeJob.decodeStreamingAudioInner_of_not_goesOn hgoesOn]
    simp only [hgoesOn, false_and, not_false_eq_true, iff_true, ← hloop.readySent_iff]
    exact hloop.ready hposition

/-- When a barren stream is prepared again, it is not reported as prepared and its decoder does
not start again. -/
theorem prepareLoadedStream_of_isBarren (job : DecodeJob)
    (hposition : job.positionMs ≤ job.track.durationMs)
    (hduration : job.track.durationMs ≤ u64Max) {steps : List (DecodeStep α)}
    (h : IsBarren steps) :
    prepareLoadedStream (job.decodeStreamingAudioInner job.positionMs steps).2.pcm job.positionMs
      job.track.durationMs = .waits := by
  obtain ⟨hgoesOn, hspec⟩ := (DecodeJob.start_decodeLoop_iff job job.positionMs steps).2 h
  have hloop := (DecodeJob.Invariant.start job).decodeLoop
    (hposition.trans hduration) steps
  rw [DecodeJob.decodeStreamingAudioInner_of_goesOn hgoesOn]
  set s := (job.decodeLoop job.positionMs job.start steps).2
  have hnotReady : ¬ streamPcmReadyForPosition (job.finish s).pcm job.positionMs
      job.track.durationMs = true := by
    rw [hloop.ready_finish_iff hposition hduration, hspec]
    exact Bool.false_ne_true
  have hbase : (job.finish s).pcm.basePositionMs = job.positionMs := hloop.base
  have hreached :
      job.positionMs ≤ ((job.finish s).pcm.streamPcmCacheWindow job.track.durationMs).2 :=
    (le_min hbase.ge hposition).trans (le_max_right _ _)
  unfold prepareLoadedStream
  simp only [min_eq_left hposition]
  rw [if_neg hnotReady, if_neg]
  rw [hbase, not_or, Nat.not_lt, Nat.not_lt]
  exact ⟨le_rfl, hreached⟩

/-- A listener has moved to the last second of a track. -/
def lastSecond : DecodeJob where
  operationId := some "seek"
  sessionId := "session"
  track := { trackId := "track", sourceKind := "bilibili", bvid := "bv", part := 1,
             durationMs := 180000 }
  positionMs := 179000

/-- The decoder comes to the end after it has decoded a block. -/
theorem lastSecond_startable :
    (∃ ms, lastSecond.prepared ms ∈ (lastSecond.decodeStreamingAudioInner 179000
      [.otherTrack, .decoded 2 44100 [0, 0]]).2.events) ∧
    ∀ restarted, startPreparedStream
      (some (lastSecond.session (lastSecond.decodeStreamingAudioInner 179000
        [.otherTrack, .decoded 2 44100 [0, 0]]).2))
      "session" "track" 179000 restarted ≠ .ok false := by
  have hprepared : ∃ ms, lastSecond.prepared ms ∈ (lastSecond.decodeStreamingAudioInner 179000
      [.otherTrack, .decoded 2 44100 [0, 0]]).2.events := ⟨179000, .tail _ (.head _)⟩
  refine ⟨hprepared, (prepared_startable_iff lastSecond (by decide) (by decide)
    [.otherTrack, .decoded 2 44100 [0, 0]]).2 (fun hbarren => ?_) hprepared⟩
  exact hbarren.1 (.decoded 2 44100 [0, 0]) (by simp)

/-- The reader comes to the end at once.  The stream is reported as prepared, but it is not
started; and it would only be waited for again. -/
theorem lastSecond_not_startable :
    (∃ ms, lastSecond.prepared ms ∈
      (lastSecond.decodeStreamingAudioInner (α := Nat) 179000 []).2.events) ∧
    (∀ restarted, startPreparedStream
      (some (lastSecond.session (lastSecond.decodeStreamingAudioInner (α := Nat) 179000 []).2))
      "session" "track" 179000 restarted = .ok false) ∧
    prepareLoadedStream (lastSecond.decodeStreamingAudioInner (α := Nat) 179000 []).2.pcm 179000
      180000 = .waits :=
  ⟨⟨179000, .head _⟩, fun _ => rfl, by decide⟩

end LightEar
