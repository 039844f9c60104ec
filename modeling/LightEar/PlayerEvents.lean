import LightEar.Backend.Step

/-!
# Reports of superseded streams

The player reports on streams that may have been replaced in the meantime.  The media found for
the tracks of a source are kept by their own resolver (`LocalMediaResolver`), which a failed stream
makes forget its track; `handlePlayerEvent` is the reaction of the backend together with it.  A
report that names an operation which is not in progress changes nothing, and one without a name
leaves the operation in progress alone (`stalePlayerEvents_inert`).
-/

namespace LightEar

open Foundation

/-! ## Media -/

/-- The key under which the media of a track are kept. -/
def localMediaKey (track : PlaybackTrack) : Option String :=
  if track.sourceKind = "bilibili" ∧ track.bvid ≠ "" ∧ 0 < track.part then
    some s!"bilibili:{track.bvid}:{track.part}"
  else none

/-- The tracks whose media have been found. -/
structure LocalMediaResolver where
  /-- The tracks by their keys. -/
  bilibiliTracks : AList fun _ : String => PlaybackTrack

namespace LocalMediaResolver

/-- Keeps what has been found for a track. -/
def remember (media : LocalMediaResolver) (track : PlaybackTrack) : LocalMediaResolver :=
  match localMediaKey track with
  | none => media
  | some key => ⟨media.bilibiliTracks.insert key track⟩

/-- Forgets what has been found for a track. -/
def invalidate (media : LocalMediaResolver) (track : PlaybackTrack) : LocalMediaResolver :=
  match localMediaKey track with
  | none => media
  | some key => ⟨media.bilibiliTracks.erase key⟩

end LocalMediaResolver

/-! ## Reactions -/

/-- A reaction of the backend together with the resolver. -/
abbrev MediaHandler := EStateM BackendError (Backend × LocalMediaResolver)

/-- A part of a reaction that does not ask for media. -/
def withoutMedia (m : Handler Unit) : MediaHandler Unit := onFst m id

/-- A part of a reaction that asks for media; the source finds those of some tracks, which are
kept. -/
def lookingUp (found : List PlaybackTrack) (m : Handler Unit) : MediaHandler Unit :=
  onFst m fun media => found.foldl LocalMediaResolver.remember media

/-- Forgets the media of a track, if there is one. -/
def invalidateMedia (track : Option PlaybackTrack) : MediaHandler Unit :=
  modify fun s => (s.1, (track.map s.2.invalidate).getD s.2)

/-- The track of a stream that has failed: that of the operation in progress or, when it is for
another stream, of the current playback. -/
def failedTrack (b : Backend) (sessionId trackId : String) : Option PlaybackTrack :=
  ((b.buffer.active.filter (·.isFor sessionId trackId)).bind (·.state.track)).or
    ((b.music.playbackState.filter (MusicState.playbackStateMatchesTrack · sessionId trackId)).bind
      PlaybackState.track)

/-- The stream of an operation is ready. -/
def handlePreparedStream (env : Env) (found : List PlaybackTrack)
    (operationId sessionId trackId : String) (bufferedUntilMs : Nat) : MediaHandler Unit := do
  let s ← get
  if activeBufferOperationMatches s.1 operationId sessionId trackId then
    let status : BufferPeerStatus := ⟨.ready, some bufferedUntilMs, none⟩
    withoutMedia (publishLocalBufferHealth env sessionId .ready (some bufferedUntilMs))
    withoutMedia (markLocalStatus env operationId sessionId status)
    withoutMedia (publishBufferStatus env operationId sessionId status)
    lookingUp found (resolveBufferOperation env)

/-- A stream has failed: its media are forgotten. -/
def handleFailedStream (env : Env) (found : List PlaybackTrack) (operationId : Option String)
    (sessionId trackId : String) (error : String) : MediaHandler Unit := do
  let s ← get
  if failureMatches s.1 operationId sessionId trackId then
    invalidateMedia (failedTrack s.1 sessionId trackId)
    withoutMedia (publishLocalBufferHealth env sessionId .failed none)
    match operationId with
    | some operationId =>
      match s.1.buffer.active.filter (·.isNamed operationId sessionId) with
      | none => return
      | some operation =>
        withoutMedia
          (handleBufferPrepareFailure env operation.state ("audio stream failed: " ++ error))
    | none =>
      match s.1.music.playbackState.filter
          (MusicState.playbackStateMatchesTrack · sessionId trackId) with
      | none => return
      | some state =>
        if state.leaderPeerId = s.1.localPeerId then
          withoutMedia (handleLocalLeaderAudioFailure env state "local audio stream failed")
          lookingUp found (startNextIfIdle env)
        else
          withoutMedia (markLocalAudioSessionFailed state)

/-- Acts on one report of the player. -/
def handlePlayerEvent (env : Env) (found : List PlaybackTrack) :
    AudioPlayerEvent → MediaHandler Unit
  | .prepared (some operationId) sessionId trackId bufferedUntilMs =>
    handlePreparedStream env found operationId sessionId trackId bufferedUntilMs
  | .failed operationId sessionId trackId error =>
    handleFailedStream env found operationId sessionId trackId error
  | event => withoutMedia (handleAudioPlayerEvent env event)

/-- The backend does what it does without the resolver. -/
theorem handlePlayerEvent_projects (env : Env) (found : List PlaybackTrack)
    (event : AudioPlayerEvent) :
    Projects (handlePlayerEvent env found event) (handleAudioPlayerEvent env event) := by
  unfold handlePlayerEvent handleAudioPlayerEvent
  split
  · refine .get_bind fun s => .ite ?_ (.pure _)
    exact .bind (.onFst _ _) fun _ => .bind (.onFst _ _) fun _ => .bind (.onFst _ _) fun _ =>
      .onFst _ _
  · rename_i operationId sessionId trackId error
    refine .get_bind fun s => .ite ?_ (.pure _)
    refine .modify_bind (fun _ => rfl) ?_
    refine .bind (.onFst _ _) fun _ => ?_
    cases operationId with
    | some operationId =>
      dsimp only
      cases s.1.buffer.active.filter (·.isNamed operationId sessionId) with
      | none => exact .pure _
      | some operation => exact .onFst _ _
    | none =>
      dsimp only
      cases s.1.music.playbackState.filter
          (MusicState.playbackStateMatchesTrack · sessionId trackId) with
      | none => exact .pure _
      | some state => exact .ite (.bind (.onFst _ _) fun _ => .onFst _ _) (.onFst _ _)
  · exact .onFst _ _

/-! ## Stale reports -/

namespace AudioPlayerEvent

/-- The operation that a report names. -/
def operationId : AudioPlayerEvent → Option String
  | prepared operationId _ _ _ | cache operationId _ _ _ _ | buffering operationId _ _ _
  | failed operationId _ _ _ | downloadStatus operationId _ _ => operationId
  | outputDeviceError | outputDeviceChanged | ended _ _ => none

/-- The session and track of the stream that a report is about. -/
def stream : AudioPlayerEvent → Option (String × String)
  | prepared _ sessionId trackId _ | cache _ sessionId trackId _ _
  | buffering _ sessionId trackId _ | failed _ sessionId trackId _
  | downloadStatus _ sessionId trackId | ended sessionId trackId => some (sessionId, trackId)
  | outputDeviceError | outputDeviceChanged => none

/-- The reports that a stream is ready or has failed. -/
def isDecisive : AudioPlayerEvent → Bool
  | prepared _ _ _ _ | failed _ _ _ _ => true
  | _ => false

end AudioPlayerEvent

section Matching

variable {b : Backend} {operation : BufferOperation} {sessionId trackId : String}

/-- While an operation is in progress for a stream, only reports that name it are about what is
current. -/
theorem streamEventMatchesCurrent_iff (hactive : b.buffer.active = some operation)
    (hstream : operation.isFor sessionId trackId = true) (operationId : Option String) :
    streamEventMatchesCurrent b operationId sessionId trackId = true ↔
      operationId = some operation.operationId := by
  unfold streamEventMatchesCurrent
  rw [hactive, Option.filter_some, if_pos hstream]
  exact beq_iff_eq

theorem streamEventMatchesCurrent_none (hactive : b.buffer.active = some operation)
    (hstream : operation.isFor sessionId trackId = true) :
    streamEventMatchesCurrent b none sessionId trackId = false := by
  rw [Bool.eq_false_iff, ne_eq, streamEventMatchesCurrent_iff hactive hstream]
  exact fun h => nomatch h

/-- What a handler keeps for reports about the current operation is not run on a nameless one
while an operation for its stream is in progress. -/
theorem finalState_ifCurrent_nameless
    (hbusy : ∃ operation ∈ b.buffer.active, operation.isFor sessionId trackId = true)
    (respond : Handler Unit) :
    finalState (if streamEventMatchesCurrent b none sessionId trackId = true then respond
      else pure ()) b = b := by
  obtain ⟨operation, hactive, hfor⟩ := hbusy
  rw [streamEventMatchesCurrent_none hactive hfor]
  rfl

theorem activeBufferOperationMatches_iff {operationId : String} :
    activeBufferOperationMatches b operationId sessionId trackId = true ↔
      ∃ operation ∈ b.buffer.active,
        operation.operationId = operationId ∧ operation.isFor sessionId trackId = true := by
  unfold activeBufferOperationMatches
  rw [Option.any_eq_true]
  simp

end Matching

/-- A report that a stream is ready or has failed changes nothing when it names an operation that
is not in progress for that stream. -/
theorem handlePlayerEvent_stale (env : Env) (found : List PlaybackTrack)
    {event : AudioPlayerEvent} (hdecisive : event.isDecisive = true) {operationId : String}
    (hname : event.operationId = some operationId) {sessionId trackId : String}
    (hstream : event.stream = some (sessionId, trackId)) {s : Backend × LocalMediaResolver}
    (hstale : activeBufferOperationMatches s.1 operationId sessionId trackId = false) :
    handlePlayerEvent env found event s = .ok () s := by
  cases event with
  | prepared name session track bufferedUntilMs =>
    cases hname
    cases hstream
    change (if activeBufferOperationMatches s.1 operationId sessionId trackId = true then _
      else pure () : MediaHandler Unit) s = _
    rw [hstale]
    rfl
  | failed name session track error =>
    cases hname
    cases hstream
    change (if activeBufferOperationMatches s.1 operationId sessionId trackId = true then _
      else pure () : MediaHandler Unit) s = _
    rw [hstale]
    rfl
  | _ => cases hdecisive

/-- A report that names no operation leaves the backend as it is while one is in progress for its
stream; about the output device it says nothing that concerns the operation. -/
theorem handleAudioPlayerEvent_nameless (env : Env) {event : AudioPlayerEvent}
    (hname : event.operationId = none) {b : Backend}
    (hstream : ∀ stream ∈ event.stream, ∃ operation ∈ b.buffer.active,
      operation.isFor stream.1 stream.2 = true) :
    ∃ audioPlayer, finalState (handleAudioPlayerEvent env event) b = { b with audioPlayer } := by
  have hdevice : ∃ audioPlayer,
      finalState (if env.audio.currentTrackId.isNone then setAudioPlayer false else pure ()) b =
        { b with audioPlayer } := by
    split
    · exact ⟨false, rfl⟩
    · exact ⟨b.audioPlayer, rfl⟩
  cases event with
  | prepared name sessionId trackId bufferedUntilMs =>
    cases hname
    obtain ⟨operation, hactive, hfor⟩ := hstream (sessionId, trackId) rfl
    have hmatches : streamEventMatchesActiveOperation b sessionId trackId = true :=
      (Option.any_eq_true _ _).2 ⟨operation, hactive, hfor⟩
    refine ⟨b.audioPlayer, ?_⟩
    change finalState (handlePreparedForPlayback env sessionId trackId bufferedUntilMs) b = b
    unfold handlePreparedForPlayback
    rw [finalState_get_bind, hmatches]
    rfl
  | cache name sessionId trackId status bufferedUntilMs =>
    cases hname
    exact ⟨b.audioPlayer, finalState_ifCurrent_nameless (hstream (sessionId, trackId) rfl) _⟩
  | buffering name sessionId trackId bufferedUntilMs =>
    cases hname
    exact ⟨b.audioPlayer, finalState_ifCurrent_nameless (hstream (sessionId, trackId) rfl) _⟩
  | failed name sessionId trackId error =>
    cases hname
    exact ⟨b.audioPlayer, finalState_ifCurrent_nameless (hstream (sessionId, trackId) rfl) _⟩
  | outputDeviceError => exact hdevice
  | outputDeviceChanged => exact hdevice
  | downloadStatus name sessionId trackId => exact ⟨b.audioPlayer, rfl⟩
  | ended sessionId trackId => exact ⟨b.audioPlayer, rfl⟩

/-- Reports on superseded streams are inert.  One that a stream is ready or has failed, and that
names an operation, changes nothing at all unless that operation is in progress for that very
stream; one of any kind without a name leaves the coordinator as it is while an operation for its
stream is in progress; and then only reports that name the operation are about what is current. -/
theorem stalePlayerEvents_inert (env : Env) (found : List PlaybackTrack)
    (s : Backend × LocalMediaResolver) (event : AudioPlayerEvent) :
    (∀ operationId sessionId trackId, event.isDecisive = true →
        event.operationId = some operationId → event.stream = some (sessionId, trackId) →
          handlePlayerEvent env found event s = .ok () s ∨
            ∃ operation ∈ s.1.buffer.active,
              operation.operationId = operationId ∧ operation.isFor sessionId trackId = true) ∧
      (event.operationId = none →
        (∀ stream ∈ event.stream, ∃ operation ∈ s.1.buffer.active,
          operation.isFor stream.1 stream.2 = true) →
            (finalState (handlePlayerEvent env found event) s).1.buffer = s.1.buffer) ∧
      ∀ operation ∈ s.1.buffer.active, ∀ sessionId trackId,
        operation.isFor sessionId trackId = true → ∀ operationId,
          (streamEventMatchesCurrent s.1 operationId sessionId trackId = true ↔
            operationId = some operation.operationId) := by
  refine ⟨fun operationId sessionId trackId hdecisive hname hstream => ?_,
    fun hname hstream => ?_, fun operation hactive sessionId trackId hfor operationId =>
      streamEventMatchesCurrent_iff hactive hfor operationId⟩
  · by_cases hmatches : activeBufferOperationMatches s.1 operationId sessionId trackId = true
    · exact .inr (activeBufferOperationMatches_iff.1 hmatches)
    · rw [Bool.not_eq_true] at hmatches
      exact .inl (handlePlayerEvent_stale env found hdecisive hname hstream hmatches)
  · obtain ⟨audioPlayer, hfinal⟩ := handleAudioPlayerEvent_nameless env hname hstream
    rw [(handlePlayerEvent_projects env found event).finalState_fst, hfinal]

end LightEar
