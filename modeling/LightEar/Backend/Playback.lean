import LightEar.Backend.Vote

/-!
# Playback in the backend

A playback state from the room is loaded and handed to the player; the player's own reports mark
streams as ready, as loading or as failed.  The leader of a playback ends it when the track is
over or its stream fails, and pauses it for a new buffer operation when a majority of the room
has fallen behind.
-/

namespace LightEar

/-! ## Audio output -/

/-- Whether an error says that the output device is gone. -/
def isAudioOutputError (error : BackendError) : Bool :=
  ["audio output", "output device", "default output", "audio sink", "sink after reopening",
    "failed to configure default", "failed to open default"].any fun needle =>
    decide (needle.toList <:+: error.toLower.toList)

/-- Tries to open an audio output unless there is one. -/
def ensureAudioOutput (env : Env) : Handler Unit := do
  let b ← get
  if b.audioPlayer = false then
    setAudioPlayer env.audio.opens

/-- Drops the output when an error says that it is gone; says whether it did. -/
def handleLocalAudioOutputError (error : BackendError) : Handler Bool := do
  if isAudioOutputError error then
    setAudioPlayer false
    return true
  else
    return false

/-- Whether a player that stands elsewhere has to jump. -/
def mustJump (env : Env) (desiredPosition : Nat) (shouldPlay : Bool) (now : Int) : Bool :=
  let currentPosition := env.audio.positionMs now
  let drift := max currentPosition desiredPosition - min currentPosition desiredPosition
  drift > musicDriftSeekThresholdMs || (shouldPlay && !env.audio.isPlaying)

/-- Has the player follow a state it may not have loaded yet. -/
def playRemoteState (env : Env) (state : PlaybackState) (track : PlaybackTrack) (now : Int) :
    Except BackendError Unit :=
  let desiredPosition := playbackPositionMs state now
  let shouldPlay := playbackShouldBeAudible state now
  let load : Except BackendError Unit := do
    let playableTrack ← env.audio.playableTrack track
    env.audio.prepareStream none state.sessionId playableTrack desiredPosition
  if env.audio.currentTrackId ≠ some track.trackId ∨
      env.audio.currentSessionId ≠ some state.sessionId then
    load
  else if mustJump env desiredPosition shouldPlay now then do
    let started ← env.audio.startPreparedStream state.sessionId track.trackId desiredPosition
      shouldPlay
    if started then pure () else load
  else
    env.audio.setPlaying shouldPlay now

/-- Has the player follow a state it has loaded. -/
def syncLoadedPlayerToState (env : Env) (audioPlayer : Bool) (state : PlaybackState) (now : Int) :
    Except BackendError Unit :=
  match state.track with
  | none => .ok ()
  | some track =>
    let desiredPosition := playbackPositionMs state now
    let shouldPlay := playbackShouldBeAudible state now
    if audioPlayer = false then .ok ()
    else if env.audio.currentTrackId ≠ some track.trackId then .ok ()
    else if env.audio.currentSessionId.isSome ∧
        env.audio.currentSessionId ≠ some state.sessionId then .ok ()
    else if mustJump env desiredPosition shouldPlay now then
      env.audio.seek desiredPosition shouldPlay now
    else
      env.audio.setPlaying shouldPlay now

/-! ## Loading and ending -/

/-- Loads a playback state, removes the queue item it has started, and hands it to the player.
An error of the player is given back as a value: the state stays loaded. -/
def applyRemotePlaybackState (env : Env) (state : PlaybackState) :
    Handler (Except BackendError Unit) := do
  music (.setPlaybackState state)
  match state.track with
  | none => return .ok ()
  | some track =>
    music (.removeStartedPlaybackQueueItem state)
    let b ← get
    if b.audioPlayer then
      return playRemoteState env state track (env.clock .apply)
    else
      return .ok ()

/-- Loads a state that another peer prepares; says whether the local peer is ready at once. -/
def applyPlaybackPrepare (env : Env) (state : PlaybackState) : Handler Bool := do
  music (.setRemotePlaybackPrepare state env.now)
  haltPlayer env (env.clock .apply)
  match state.track with
  | none => return true
  | some track =>
    ensureAudioOutput env
    let b ← get
    if b.audioPlayer then
      let playableTrack ← liftExcept (env.audio.playableTrack track)
      liftExcept (env.audio.prepareStream none state.sessionId playableTrack state.positionMs)
      return false
    else
      return true

/-- Takes back a playback that the local peer prepares, and tells the room. -/
def cancelLocalPendingPlayback (env : Env) (reason : String) : Handler Unit := do
  let b ← get
  match (b.music.takeLocalPendingCancel b.localPeerId).1 with
  | none => return
  | some sessionId =>
    music (.takeLocalPendingCancel b.localPeerId)
    tryPublish env (.playbackCancel sessionId b.localPeerId reason)

/-- Starts a prepared playback when it is time. -/
def maybeStartPendingPlayback (env : Env) : Handler Unit := do
  let b ← get
  music (.maybeStartPendingPlayback b.localPeerId env.now (env.clock .pendingStart)
    musicStartDelay)
  match (b.music.maybeStartPendingPlayback b.localPeerId env.now (env.clock .pendingStart)
    musicStartDelay).1 with
  | none => return
  | some state => publishPlaybackState env state

/-- Stops the playback and tells the room. -/
def publishStop (env : Env) : Handler Unit := do
  let b ← get
  music (.stopCurrentPlayback b.localPeerId (env.clock .stop))
  publishPlaybackState env (b.music.stopCurrentPlayback b.localPeerId (env.clock .stop)).1

/-- Ends the playback that the local peer leads. -/
def stopCurrentPlayback (env : Env) (reason : String) : Handler Unit := do
  let b ← get
  match (b.music.takeLocalPendingCancel b.localPeerId).1 with
  | none => publishStop env
  | some sessionId =>
    music (.takeLocalPendingCancel b.localPeerId)
    publishRoomWire env (.playbackCancel sessionId b.localPeerId reason)
    publishStop env

/-- The stream of a playback the local peer leads has failed. -/
def handleLocalLeaderAudioFailure (env : Env) (state : PlaybackState) (reason : String) :
    Handler Unit := do
  insertFailedAudioSession state.sessionId
  let b ← get
  match (b.music.takeLocalPendingCancel b.localPeerId).1 with
  | some sessionId =>
    music (.takeLocalPendingCancel b.localPeerId)
    publishRoomWire env (.playbackCancel sessionId b.localPeerId reason)
  | none =>
    if b.music.playbackState.any (·.sessionId == state.sessionId) then
      publishStop env

/-! ## Reports of the player -/

/-- Whether an event of the player is about the operation in progress or, when there is none for
that session and track, about the current playback. -/
def streamEventMatchesCurrent (b : Backend) (operationId : Option String)
    (sessionId trackId : String) : Bool :=
  match b.buffer.active.filter (·.isFor sessionId trackId) with
  | some operation => operationId == some operation.operationId
  | none => b.music.playbackState.any (MusicState.playbackStateMatchesTrack · sessionId trackId)

/-- Whether an operation is in progress for a session and track. -/
def streamEventMatchesActiveOperation (b : Backend) (sessionId trackId : String) : Bool :=
  b.buffer.active.any (·.isFor sessionId trackId)

/-- Whether the operation in progress is the named one, for that session and track. -/
def activeBufferOperationMatches (b : Backend) (operationId sessionId trackId : String) : Bool :=
  b.buffer.active.any fun operation =>
    operation.operationId == operationId && operation.isFor sessionId trackId

/-- How far the player's cache has come. -/
inductive PlaybackCacheStatus where
  | preparing
  | ready
  | buffering
  | failed
  deriving DecidableEq, Repr

/-- The report that a state of the cache amounts to. -/
def PlaybackCacheStatus.bufferStatus : PlaybackCacheStatus → PlaybackBufferStatusKind
  | ready => .ready
  | preparing | buffering => .buffering
  | failed => .failed

/-- What the player reports. -/
inductive AudioPlayerEvent where
  | prepared (operationId : Option String) (sessionId trackId : String) (bufferedUntilMs : Nat)
  | cache (operationId : Option String) (sessionId trackId : String)
      (status : PlaybackCacheStatus) (bufferedUntilMs : Nat)
  | buffering (operationId : Option String) (sessionId trackId : String) (bufferedUntilMs : Nat)
  | failed (operationId : Option String) (sessionId trackId : String) (error : String)
  | downloadStatus (operationId : Option String) (sessionId trackId : String)
  | outputDeviceError
  | outputDeviceChanged
  | ended (sessionId trackId : String)

/-- The stream of an operation is ready. -/
def handlePreparedForOperation (env : Env) (operationId sessionId trackId : String)
    (bufferedUntilMs : Nat) : Handler Unit := do
  let b ← get
  if activeBufferOperationMatches b operationId sessionId trackId then
    let status : BufferPeerStatus := ⟨.ready, some bufferedUntilMs, none⟩
    publishLocalBufferHealth env sessionId .ready (some bufferedUntilMs)
    markLocalStatus env operationId sessionId status
    publishBufferStatus env operationId sessionId status
    resolveBufferOperation env

/-- A stream without an operation is ready. -/
def handlePreparedForPlayback (env : Env) (sessionId trackId : String) (bufferedUntilMs : Nat) :
    Handler Unit := do
  let b ← get
  let isCurrent :=
    b.music.playbackState.any (MusicState.playbackStateMatchesTrack · sessionId trackId)
  if streamEventMatchesActiveOperation b sessionId trackId || !isCurrent then
    return
  else if b.music.hasPendingPlayback then
    music (.markPlaybackReady sessionId b.localPeerId b.localPeerId)
    if (b.music.markPlaybackReady sessionId b.localPeerId b.localPeerId).1 then
      publishLocalBufferHealth env sessionId .ready (some bufferedUntilMs)
      maybeStartPendingPlayback env
      publishRoomWire env (.playbackReady sessionId b.localPeerId)
  else
    publishLocalBufferHealth env sessionId .ready (some bufferedUntilMs)
    match b.music.playbackState with
    | none => return
    | some state =>
      liftExcept (syncLoadedPlayerToState env b.audioPlayer state (env.clock .tick))

/-- Whether a failure report is about the operation it names or, without a name, about what the
local peer currently plays or prepares. -/
def failureMatches (b : Backend) (operationId : Option String) (sessionId trackId : String) :
    Bool :=
  match operationId with
  | none => streamEventMatchesCurrent b none sessionId trackId
  | some operationId => activeBufferOperationMatches b operationId sessionId trackId

/-- A stream has failed. -/
def handleFailed (env : Env) (operationId : Option String) (sessionId trackId : String)
    (error : String) : Handler Unit := do
  let b ← get
  if failureMatches b operationId sessionId trackId then
    publishLocalBufferHealth env sessionId .failed none
    match operationId with
    | some operationId =>
      match b.buffer.active.filter (·.isNamed operationId sessionId) with
      | none => return
      | some operation =>
        handleBufferPrepareFailure env operation.state ("audio stream failed: " ++ error)
    | none =>
      match b.music.playbackState.filter
          (MusicState.playbackStateMatchesTrack · sessionId trackId) with
      | none => return
      | some state =>
        if state.leaderPeerId = b.localPeerId then
          handleLocalLeaderAudioFailure env state "local audio stream failed"
          startNextIfIdle env
        else
          markLocalAudioSessionFailed state

/-- Acts on one report of the player.  A lost device is given up only while nothing is loaded;
otherwise the player itself tries to go on. -/
def handleAudioPlayerEvent (env : Env) : AudioPlayerEvent → Handler Unit
  | .prepared (some operationId) sessionId trackId bufferedUntilMs =>
    handlePreparedForOperation env operationId sessionId trackId bufferedUntilMs
  | .prepared none sessionId trackId bufferedUntilMs =>
    handlePreparedForPlayback env sessionId trackId bufferedUntilMs
  | .cache operationId sessionId trackId status bufferedUntilMs => do
    let b ← get
    if streamEventMatchesCurrent b operationId sessionId trackId then
      publishLocalBufferHealth env sessionId status.bufferStatus (some bufferedUntilMs)
  | .buffering operationId sessionId trackId bufferedUntilMs => do
    let b ← get
    if streamEventMatchesCurrent b operationId sessionId trackId then
      publishLocalBufferHealth env sessionId .buffering (some bufferedUntilMs)
  | .failed operationId sessionId trackId error =>
    handleFailed env operationId sessionId trackId error
  | .outputDeviceError | .outputDeviceChanged =>
    if env.audio.currentTrackId.isNone then setAudioPlayer false else pure ()
  -- These are told to the user only.
  | .downloadStatus _ _ _ | .ended _ _ => pure ()

/-- Acts on the reports of the player, in order; an error leaves the rest unread. -/
def handleAudioPlayerEvents : List (Env × AudioPlayerEvent) → Handler Unit
  | [] => return
  | (env, event) :: events => do
    handleAudioPlayerEvent env event
    handleAudioPlayerEvents events

/-! ## Lost majorities and finished tracks -/

/-- Pauses for a new buffer operation when a majority has fallen behind. -/
def maybePauseForBufferHealthLoss (env : Env) : Handler Unit := do
  let b ← get
  if b.buffer.isActive then
    return
  else
    match b.music.playbackState with
    | none => modifyHealth PlaybackHealth.clear
    | some current =>
      if current.leaderPeerId = b.localPeerId ∧ current.playing then
        let positionMs := playbackPositionMs current (env.clock .healthPosition)
        let (decision, health) := b.playbackHealth.evaluate current.sessionId b.roomPeerIds
          (satAdd positionMs lowWatermarkMs) env.now bufferHealthLossGrace bufferHealthStaleAfter
        modifyHealth fun _ => health
        match decision, MusicState.queueItemFromPlaybackState current with
        | .majorityLost _ _, some item =>
          let now := env.clock .healthPause
          music (.pausePlaybackForVote b.localPeerId now)
          match (b.music.pausePlaybackForVote b.localPeerId now).1 with
          | none => return
          | some state =>
            haltPlayer env now
            publishPlaybackState env state
            beginBufferOperation env item .resume positionMs
        | _, _ => return

/-- Who acts when a track has come to its end. -/
inductive FinishedPlaybackRole where
  | leader
  | follower
  deriving DecidableEq, Repr

/-- Whether a playback has come to its end, and in which role the local peer sees it. -/
def finishedPlaybackRole (state : PlaybackState) (localPeerId : PeerId) (nowMicros : Int)
    (localAudioFinished : Bool) : Option FinishedPlaybackRole :=
  if state.track.isNone || !state.playing || nowMicros < state.anchorTimeMicros then none
  else if !canPlayAtPosition state (playbackPositionMs state nowMicros) || localAudioFinished then
    if state.leaderPeerId = localPeerId then some .leader else some .follower
  else none

/-- Whether the player is to follow the current playback: not while its track is being
prepared in an operation. -/
def shouldSyncPlayerToPlaybackState (buffer : BufferCoordinator) (state : PlaybackState) : Bool :=
  match state.track with
  | none => true
  | some track => !buffer.active.any (·.isFor state.sessionId track.trackId)

end LightEar
