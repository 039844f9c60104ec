import LightEar.Backend.State

/-!
# Buffer operations in the backend

The leader of an operation asks the room to prepare (`beginBufferOperation`), looks at the
reports whenever something has changed (`resolveBufferOperation`), and then commits, gives up or
waits on.  A commit consumes the queue item of a start, stores the running state and publishes
it.  Status texts for the user interface are left out; what is published to the room is not.
-/

namespace LightEar

/-! ## Messages -/

/-- The request to prepare an operation. -/
def bufferPrepareMessage (operation : BufferOperation) (localPeerId : PeerId) : WireMessage :=
  .playbackBufferPrepare operation.operationId operation.state.sessionId
    ((operation.state.track.map PlaybackTrack.trackId).getD "") operation.state.positionMs
    operation.kind operation.expectedPeers localPeerId

/-- Publishes the queue as it is, if there is anything to tell. -/
def publishQueueSnapshot (env : Env) : Handler Unit := do
  let b ← get
  if b.music.hasQueueNews then
    publishRoomWire env (.queueState (b.music.queueState b.localPeerId))

/-- Gives the queue a new key and publishes it. -/
def publishQueueState (env : Env) : Handler Unit := do
  music (.markQueueChanged (env.clock .queuePublished))
  publishQueueSnapshot env

/-- Publishes a playback state. -/
def publishPlaybackState (env : Env) (state : PlaybackState) : Handler Unit :=
  publishRoomWire env (.playbackState state)

/-- Publishes a playback state that the local peer leads. -/
def publishPlaybackStateIfLocalSource (env : Env) (state : PlaybackState) : Handler Unit := do
  let b ← get
  if state.leaderPeerId = b.localPeerId then
    publishPlaybackState env state

/-- Reports the local status of an operation. -/
def publishBufferStatus (env : Env) (operationId sessionId : String)
    (status : BufferPeerStatus) : Handler Unit := do
  let b ← get
  tryPublish env (.playbackBufferStatus operationId sessionId b.localPeerId status)

/-- Records the local status of an operation. -/
def markLocalStatus (env : Env) (operationId sessionId : String) (status : BufferPeerStatus) :
    Handler Unit := do
  let b ← get
  coordinate (.markStatus operationId sessionId b.localPeerId status env.now)

/-- The report of a peer that is still loading from a position. -/
def bufferingStatus (positionMs : Nat) : BufferPeerStatus :=
  ⟨.buffering, some positionMs, none⟩

/-- The report of a peer that cannot go on. -/
def failedStatus (reason : String) : BufferPeerStatus :=
  ⟨.failed, none, some reason⟩

/-- The report of a peer without audio output: ready, so that the room can go on. -/
def silentReadyStatus (positionMs : Nat) (track : PlaybackTrack) : BufferPeerStatus :=
  ⟨.ready, some (min (satAdd positionMs bufferReadyWindowMs) track.durationMs), none⟩

/-- Records a local health report and publishes it when it says something new. -/
def publishLocalBufferHealth (env : Env) (sessionId : String) (status : PlaybackBufferStatusKind)
    (bufferedUntilMs : Option Nat) : Handler Unit := do
  let b ← get
  let (publish, health) := b.playbackHealth.markLocalStatusForPublish sessionId b.localPeerId
    status bufferedUntilMs env.now bufferHealthPublishMinInterval
  modifyHealth fun _ => health
  if publish then
    tryPublish env (.playbackBufferHealth sessionId b.localPeerId status bufferedUntilMs)

/-! ## Commit -/

/-- Starts the prepared stream of an operation; when the player does not have it ready, loads it
once more.  Without audio output there is nothing to start. -/
def startCommittedStream (env : Env) (operation : BufferOperation) : Handler Bool := do
  let b ← get
  match operation.state.track with
  | none => return true
  | some track =>
    if b.audioPlayer = false then
      return true
    let started ← liftExcept (env.audio.startPreparedStream operation.state.sessionId
      track.trackId operation.state.positionMs false)
    if started then
      return true
    let playableTrack ← liftExcept (env.audio.playableTrack track)
    liftExcept (env.audio.prepareStream (some operation.operationId) operation.state.sessionId
      playableTrack operation.state.positionMs)
    return false

/-- Consumes the queue item of a start operation and announces the queue. -/
def consumeStartItem (env : Env) (operation : BufferOperation) : Handler Unit :=
  if operation.kind = .start then do
    music (.removeBufferQueueItem operation.queueItemId (env.clock .queueRemoved))
    publishQueueState env
  else
    return

/-- Stores and publishes the running state of an operation, and gives it; gives nothing when
the stream could not be started yet. -/
def commitBufferOperation (env : Env) (operation : BufferOperation) :
    Handler (Option PlaybackState) := do
  let started ← startCommittedStream env operation
  if started then
    music .nextPlaybackVersion
    let b ← get
    let state := MusicState.committedState operation.state b.music.playbackVersion
      (env.clock .commit) musicStartDelay
    consumeStartItem env operation
    music (.setPlaybackState state)
    publishPlaybackState env state
    return some state
  else
    return none

/-- Ends a committed operation, and records the commit. -/
def settle (operation : BufferOperation) (state : PlaybackState) : Handler Unit := do
  modify fun b => b.recordCommit operation state
  coordinate (.cancel operation.operationId)

/-! ## Resolution -/

/-- Gives the local audio more time. -/
def extendDeadline (env : Env) : Handler Unit :=
  coordinate (.extendDeadline (env.now + bufferOperationTimeout))

/-- The quorum is there, but the local stream is not. -/
def waitForLocalAudio (env : Env) (operation : BufferOperation) (alreadyBuffering : Bool) :
    Handler Unit := do
  unless alreadyBuffering do
    markLocalStatus env operation.operationId operation.state.sessionId
      (bufferingStatus operation.state.positionMs)
    publishBufferStatus env operation.operationId operation.state.sessionId
      (bufferingStatus operation.state.positionMs)
  extendDeadline env

/-- The stream has to be loaded again: the local peer is buffering from now on. -/
def waitForReload (env : Env) (operation : BufferOperation) (alreadyBuffering : Bool) :
    Handler Unit := do
  markLocalStatus env operation.operationId operation.state.sessionId
    (bufferingStatus operation.state.positionMs)
  unless alreadyBuffering do
    publishBufferStatus env operation.operationId operation.state.sessionId
      (bufferingStatus operation.state.positionMs)
  extendDeadline env

/-- Whether the recorded status of a peer is of a given kind. -/
def BufferOperation.reports (operation : BufferOperation) (peerId : PeerId)
    (status : PlaybackBufferStatusKind) : Bool :=
  (operation.statuses.lookup peerId).any (·.status = status)

/-- A majority is ready: commits as soon as the local stream is ready too. -/
def resolveReady (env : Env) (operation : BufferOperation) : Handler Unit := do
  let b ← get
  let alreadyBuffering := operation.reports b.localPeerId .buffering
  if b.audioPlayer ∧ operation.reports b.localPeerId .ready = false then
    waitForLocalAudio env operation alreadyBuffering
  else
    match ← commitBufferOperation env operation with
    | none => waitForReload env operation alreadyBuffering
    | some state => settle operation state

/-- Drops the operation and tells the room why. -/
def cancelOperation (env : Env) (operation : BufferOperation) (reason : String) :
    Handler Unit := do
  coordinate .clear
  let b ← get
  publishRoomWire env (.playbackBufferCancel operation.operationId operation.state.sessionId
    b.localPeerId reason)

/-- No majority can become ready any more. -/
def resolveImpossible (env : Env) (operation : BufferOperation) : Handler Unit := do
  cancelOperation env operation "buffer quorum impossible"
  let b ← get
  if operation.reports b.localPeerId .failed then
    insertFailedAudioSession operation.state.sessionId
  consumeStartItem env operation

/-- Time is up: waits on while the local stream is loading, and gives up otherwise. -/
def resolveTimedOut (env : Env) (operation : BufferOperation) : Handler Unit := do
  let b ← get
  match operation.statuses.lookup b.localPeerId with
  | some ⟨.buffering, bufferedUntilMs, error⟩ =>
    extendDeadline env
    tryPublish env (bufferPrepareMessage operation b.localPeerId)
    coordinate (.markPreparePublished operation.operationId env.now)
    publishBufferStatus env operation.operationId operation.state.sessionId
      ⟨.buffering, bufferedUntilMs, error⟩
  | _ =>
    cancelOperation env operation "buffer quorum timed out"
    consumeStartItem env operation

/-- Nothing is decided: asks the room again when it is time. -/
def resolveWaiting (env : Env) : Handler Unit := do
  let b ← get
  match (b.buffer.prepareRepublishDue env.now bufferPrepareRepublishInterval).1 with
  | none => return
  | some operation =>
    coordinate (.prepareRepublishDue env.now bufferPrepareRepublishInterval)
    tryPublish env (bufferPrepareMessage operation b.localPeerId)

/-- Looks at the operation in progress, if the local peer leads it, and acts on its quorum. -/
def resolveBufferOperation (env : Env) : Handler Unit := do
  let b ← get
  match b.buffer.active with
  | none => return
  | some operation =>
    -- Only the leader decides; followers report and wait.
    if operation.state.leaderPeerId = b.localPeerId then
      match operation.quorum env.now with
      | .ready _ _ => resolveReady env operation
      | .impossible _ _ _ => resolveImpossible env operation
      | .timedOut _ _ => resolveTimedOut env operation
      | .waiting _ _ _ _ => resolveWaiting env
    else
      return

/-! ## Begin and end -/

/-- The session of an operation: a start opens a new one, the others keep the current one. -/
def operationSession (kind : PlaybackBufferOperationKind) (current : Option PlaybackState)
    (localPeerId : PeerId) (now : Int) (track : PlaybackTrack) : String :=
  let fresh := localPeerId ++ ":" ++ toString now ++ ":" ++ track.trackId
  match kind with
  | .start => fresh
  | .seek | .resume => (current.map PlaybackState.sessionId).getD fresh

/-- The name of an operation. -/
def newOperationId (kind : PlaybackBufferOperationKind) (localPeerId : PeerId) (now : Int) :
    String :=
  localPeerId ++ ":" ++ toString now ++ ":buffer:" ++ kind.label

/-- The state that an operation of the local peer is to commit. -/
def newOperationState (b : Backend) (item : QueueItem) (kind : PlaybackBufferOperationKind)
    (positionMs : Nat) (now : Int) : PlaybackState where
  sessionId := operationSession kind b.music.playbackState b.localPeerId now item.track
  leaderPeerId := b.localPeerId
  track := some item.track
  trackRequestedBy := some item.requestedBy
  stateVersion := satAdd b.music.playbackVersion 1
  issuedAtMicros := now
  playing := false
  positionMs := positionMs
  anchorTimeMicros := now
  rate := 1

/-- Halts the player, if there is one. -/
def haltPlayer (env : Env) (now : Int) : Handler Unit := do
  let b ← get
  if b.audioPlayer then
    liftExcept (env.audio.setPlaying false now)

/-- Asks the room to prepare an operation of the local peer, which is loading it itself. -/
def announceOperation (env : Env) (operationId : String) (state : PlaybackState)
    (item : QueueItem) (kind : PlaybackBufferOperationKind) (expectedPeers : Finset PeerId) :
    Handler Unit := do
  let b ← get
  tryPublish env (.playbackBufferPrepare operationId state.sessionId item.track.trackId
    state.positionMs kind expectedPeers b.localPeerId)
  coordinate (.markPreparePublished operationId env.now)
  markLocalStatus env operationId state.sessionId (bufferingStatus state.positionMs)
  publishBufferStatus env operationId state.sessionId (bufferingStatus state.positionMs)

/-- Loads the stream of an operation of the local peer; without audio output the local peer is
ready at once. -/
def loadOwnOperation (env : Env) (operationId : String) (state : PlaybackState)
    (item : QueueItem) : Handler Unit := do
  let b ← get
  if b.audioPlayer then
    let playableTrack ← liftExcept (env.audio.playableTrack item.track)
    liftExcept (env.audio.prepareStream (some operationId) state.sessionId playableTrack
      state.positionMs)
  else
    markLocalStatus env operationId state.sessionId (silentReadyStatus state.positionMs item.track)
    resolveBufferOperation env

/-- Opens an operation of the local peer, asks the room to prepare and loads the stream. -/
def beginBufferOperation (env : Env) (item : QueueItem) (kind : PlaybackBufferOperationKind)
    (positionMs : Nat) : Handler Unit := do
  let b ← get
  let now := env.clock .begin
  let operationId := newOperationId kind b.localPeerId now
  let state := newOperationState b item kind positionMs now
  let queueItemId := if kind = .start then some item.itemId else none
  coordinate (.startLeader operationId state kind queueItemId b.roomPeerIds
    (env.now + bufferOperationTimeout))
  haltPlayer env now
  announceOperation env operationId state item kind b.roomPeerIds
  loadOwnOperation env operationId state item

/-- Starts the front of the queue when nothing plays, waits or is being prepared. -/
def startNextIfIdle (env : Env) : Handler Unit := do
  let b ← get
  if b.music.canStartNext && !b.buffer.isActive then
    match b.music.queue.head? with
    | none => return
    | some item => beginBufferOperation env item .start 0
  else
    return

/-- Where something plays, waits or is being prepared, the next item is not started. -/
theorem startNextIfIdle_of_busy {b : Backend}
    (h : (b.music.canStartNext && !b.buffer.isActive) = false) (env : Env) :
    startNextIfIdle env b = .ok () b := by
  change (if (b.music.canStartNext && !b.buffer.isActive) = true then _ else pure () :
    Handler Unit) b = _
  rw [h, if_neg Bool.false_ne_true]
  rfl

/-- While an operation is in progress the next item is not started. -/
theorem startNextIfIdle_of_isActive {b : Backend} (h : b.buffer.isActive = true) (env : Env) :
    startNextIfIdle env b = .ok () b := by
  refine startNextIfIdle_of_busy ?_ env
  rw [h, Bool.not_true, Bool.and_false]

/-- Gives up an operation of the local peer because another peer has taken over. -/
def abandonLocalBufferOperation (env : Env) (reason : String) : Handler Unit := do
  let b ← get
  match (b.buffer.clearIfLocalLeader b.localPeerId).1 with
  | none => return
  | some operation =>
    coordinate (.clearIfLocalLeader b.localPeerId)
    tryPublish env (.playbackBufferCancel operation.operationId operation.state.sessionId
      b.localPeerId reason)

/-- Notes that a session cannot be heard here. -/
def markLocalAudioSessionFailed (state : PlaybackState) : Handler Unit :=
  insertFailedAudioSession state.sessionId

/-- The stream of an operation cannot be loaded: a leader gives the operation up, a follower
reports the failure and forgets the operation. -/
def handleBufferPrepareFailure (env : Env) (state : PlaybackState) (reason : String) :
    Handler Unit := do
  insertFailedAudioSession state.sessionId
  let b ← get
  match b.buffer.active.filter (·.state.sessionId == state.sessionId) with
  | none => markLocalAudioSessionFailed state
  | some operation =>
    if state.leaderPeerId = b.localPeerId then
      cancelOperation env operation reason
      consumeStartItem env operation
    else
      markLocalStatus env operation.operationId state.sessionId (failedStatus reason)
      publishBufferStatus env operation.operationId state.sessionId (failedStatus reason)
      markLocalAudioSessionFailed state
      coordinate .clear

end LightEar
