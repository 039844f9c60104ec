import LightEar.Backend.Playback

/-!
# Messages from the room

Every message names the peer it comes from in some field.  A message whose field does not agree
with its authenticated source is dropped (`validateWireSource`); the others go to one handler
each.  A handler never stops the backend: errors of what it calls are shown and forgotten.
-/

namespace LightEar

/-! ## Sources -/

/-- Whether a field names the source of a message. -/
def peerFieldMatchesSource (env : Env) (value : String) (source : PeerId) : Bool :=
  env.parsePeerId value == some source

/-- The field of a message that has to name its source, and the complaint if it does not. -/
def WireMessage.sourceField : WireMessage → String × String
  | playbackState state => (state.leaderPeerId, "playback leader does not match source")
  | playbackPrepare state _ => (state.leaderPeerId, "playback leader does not match source")
  | playbackReady _ peerId => (peerId, "playback ready peer does not match source")
  | playbackCancel _ leaderPeerId _ =>
    (leaderPeerId, "playback cancel leader does not match source")
  | playbackBufferPrepare _ _ _ _ _ _ leaderPeerId =>
    (leaderPeerId, "playback buffer leader does not match source")
  | playbackBufferStatus _ _ peerId _ =>
    (peerId, "playback buffer status peer does not match source")
  | playbackBufferHealth _ peerId _ _ =>
    (peerId, "playback buffer health peer does not match source")
  | playbackBufferCancel _ _ leaderPeerId _ =>
    (leaderPeerId, "playback buffer leader does not match source")
  | queueState state => (state.updatedBy, "queue state updated_by does not match source")
  | queueSummary peerId _ _ => (peerId, "queue summary peer_id does not match source")
  | queueRequest requester _ _ _ =>
    (requester, "queue request requester does not match source")
  | queueResponse _ state => (state.updatedBy, "queue response updated_by does not match source")
  | voteProposal proposal => (proposal.proposer, "vote proposer does not match source")
  | voteBallot _ peerId _ => (peerId, "vote ballot peer does not match source")

/-- Checks that a message comes from the peer it names. -/
def validateWireSource (env : Env) (message : WireMessage) (source : PeerId) :
    Except String Unit :=
  if peerFieldMatchesSource env message.sourceField.1 source then .ok ()
  else .error message.sourceField.2

/-! ## Playback -/

/-- Whether a state belongs to a session that cannot be heard here. -/
def playbackStateUsesFailedAudioSession (failedAudioSessions : Finset String)
    (state : PlaybackState) : Bool :=
  state.track.isSome && decide (state.sessionId ∈ failedAudioSessions)

/-- A playback state of another peer. -/
def handlePlaybackState (env : Env) (received : PlaybackState) : Handler Unit := do
  let state := normalizeRemotePlaybackState received (env.clock .received)
  if state.track.isNone then
    modify fun b => { b with failedAudioSessions := ∅ }
  let b ← get
  if playbackStateUsesFailedAudioSession b.failedAudioSessions state then
    return
  else if state.leaderPeerId ≠ b.localPeerId ∧
      shouldApplyPlaybackState b.music.playbackState state then
    abandonLocalBufferOperation env "superseded by remote playback"
    cancelLocalPendingPlayback env "superseded by remote playback"
    match ← applyRemotePlaybackState env state with
    | .ok () => coordinate (.clearMatching state)
    | .error error =>
      let outputGone ← handleLocalAudioOutputError error
      unless outputGone do
        markLocalAudioSessionFailed state

/-- A playback that another peer prepares. -/
def handlePlaybackPrepare (env : Env) (received : PlaybackState) (expectedPeers : List PeerId) :
    Handler Unit := do
  let b ← get
  let state := normalizeRemotePlaybackState received (env.clock .received)
  let isExpected := expectedPeers.isEmpty || expectedPeers.contains b.localPeerId
  if playbackStateUsesFailedAudioSession b.failedAudioSessions state then
    return
  else if state.leaderPeerId ≠ b.localPeerId ∧ isExpected ∧
      shouldApplyPlaybackState b.music.playbackState state then
    abandonLocalBufferOperation env "superseded by remote playback prepare"
    cancelLocalPendingPlayback env "superseded by remote playback prepare"
    attempt do
      let ready ← applyPlaybackPrepare env state
      if ready then
        tryPublish env (.playbackReady state.sessionId b.localPeerId)

/-- A peer is ready for a playback the local peer prepares. -/
def handlePlaybackReady (env : Env) (sessionId : String) (peerId : PeerId) : Handler Unit := do
  let b ← get
  music (.markPlaybackReady sessionId peerId b.localPeerId)
  attempt (maybeStartPendingPlayback env)

/-- A peer takes a playback back. -/
def handlePlaybackCancel (sessionId : String) (leaderPeerId : PeerId) : Handler Unit := do
  let b ← get
  if leaderPeerId ≠ b.localPeerId then
    music (.cancelPlayback sessionId)

/-! ## Buffer operations -/

/-- Whether the local peer has no part in an operation: it leads it itself, or is not expected. -/
def ignoresBufferPrepare (b : Backend) (expectedPeers : Finset PeerId) (leaderPeerId : PeerId) :
    Bool :=
  leaderPeerId = b.localPeerId || (expectedPeers.Nonempty && b.localPeerId ∉ expectedPeers)

/-- The state of an operation that another peer leads. -/
def remoteOperationState (env : Env) (b : Backend) (sessionId : String) (track : PlaybackTrack)
    (positionMs : Nat) (leaderPeerId : PeerId) : PlaybackState where
  sessionId := sessionId
  leaderPeerId := leaderPeerId
  track := some track
  trackRequestedBy := some leaderPeerId
  stateVersion := satAdd b.music.playbackVersion 1
  issuedAtMicros := env.clock .adopted
  playing := false
  positionMs := positionMs
  anchorTimeMicros := env.clock .adoptedAnchor
  rate := 1

/-- The player's answer to loading the stream of an operation. -/
def prepareRemoteStream (env : Env) (operationId sessionId : String) (track : PlaybackTrack)
    (positionMs : Nat) : Except BackendError Unit := do
  let playableTrack ← env.audio.playableTrack track
  env.audio.prepareStream (some operationId) sessionId playableTrack positionMs

/-- Loads the stream of an adopted operation, and reports at once if that fails or if there is
no audio output. -/
def loadAdoptedOperation (env : Env) (operationId sessionId : String) (track : PlaybackTrack)
    (positionMs : Nat) : Handler Unit := do
  ensureAudioOutput env
  let b ← get
  if b.audioPlayer then
    match prepareRemoteStream env operationId sessionId track positionMs with
    | .ok () => return
    | .error error =>
      let status := failedStatus ("stream prepare failed: " ++ error)
      markLocalStatus env operationId sessionId status
      publishBufferStatus env operationId sessionId status
  else
    let status := silentReadyStatus positionMs track
    markLocalStatus env operationId sessionId status
    publishBufferStatus env operationId sessionId status

/-- Gives up the local operation for one of another peer. -/
def adoptOperation (env : Env) (operationId sessionId : String) (track : PlaybackTrack)
    (positionMs : Nat) (kind : PlaybackBufferOperationKind) (expectedPeers : Finset PeerId)
    (leaderPeerId : PeerId) : Handler Unit := do
  abandonLocalBufferOperation env "superseded by remote buffer prepare"
  let b ← get
  coordinate (.receiveRemote operationId
    (remoteOperationState env b sessionId track positionMs leaderPeerId) kind expectedPeers
    bufferOperationTimeout env.now)
  publishBufferStatus env operationId sessionId (bufferingStatus positionMs)
  markLocalStatus env operationId sessionId (bufferingStatus positionMs)
  loadAdoptedOperation env operationId sessionId track positionMs

/-- Another peer asks to prepare an operation.  It is adopted unless its session cannot be heard
here, its start has been seen already, it is known, or its track is not. -/
def handlePlaybackBufferPrepare (env : Env) (operationId sessionId trackId : String)
    (positionMs : Nat) (kind : PlaybackBufferOperationKind) (expectedPeers : Finset PeerId)
    (leaderPeerId : PeerId) : Handler Unit := do
  let b ← get
  if ignoresBufferPrepare b expectedPeers leaderPeerId then
    return
  else if sessionId ∈ b.failedAudioSessions then
    publishBufferStatus env operationId sessionId
      (failedStatus "local audio already failed for this session")
  else if kind = .start ∧ MusicState.playbackStateResolvesBufferPrepare b.music.playbackState
      sessionId trackId leaderPeerId then
    return
  else
    match b.buffer.statusFor operationId sessionId b.localPeerId with
    | some localStatus => publishBufferStatus env operationId sessionId localStatus
    | none =>
      match b.music.findBufferTrack trackId with
      | none =>
        publishBufferStatus env operationId sessionId
          (failedStatus "track is not available locally")
      | some track =>
        adoptOperation env operationId sessionId track positionMs kind expectedPeers leaderPeerId

/-- A peer reports on an operation; the leader looks whether that decides it. -/
def handlePlaybackBufferStatus (env : Env) (operationId sessionId : String) (peerId : PeerId)
    (status : BufferPeerStatus) : Handler Unit := do
  coordinate (.markStatus operationId sessionId peerId status env.now)
  let b ← get
  if b.buffer.active.any (·.state.leaderPeerId == b.localPeerId) then
    attempt (resolveBufferOperation env)

/-- A peer cancels an operation, which is dropped whoever leads it. -/
def handlePlaybackBufferCancel (operationId : String) : Handler Unit :=
  coordinate (.cancel operationId)

/-! ## Queue and votes -/

/-- Takes over a newer queue, and looks whether that lets a vote pass. -/
def handleQueueState (env : Env) (state : QueueState) : Handler Unit := do
  let b ← get
  music (.applyRemoteQueueState state)
  if (b.music.applyRemoteQueueState state).1 then
    attempt (resolveActiveVote env)

/-- A peer says how new its queue is. -/
def handleQueueSummary (env : Env) (peerId : PeerId) (version : Nat) (updatedAtMicros : Int) :
    Handler Unit := do
  let b ← get
  if peerId ≠ b.localPeerId ∧
      isQueueStateNewer version updatedAtMicros b.music.queueVersion b.music.queueUpdatedAt ∧
      shouldRequestQueue b.queueRequestTimes peerId env.now then
    requestQueue env peerId

/-- A peer asks for the local queue. -/
def handleQueueRequest (env : Env) (requester target : PeerId) (knownVersion : Nat)
    (knownUpdatedAtMicros : Int) : Handler Unit := do
  let b ← get
  if target = b.localPeerId ∧ requester ≠ b.localPeerId ∧
      isQueueStateNewer b.music.queueVersion b.music.queueUpdatedAt knownVersion
        knownUpdatedAtMicros then
    tryPublish env (.queueResponse requester (b.music.queueState b.localPeerId))

/-- A peer proposes a vote. -/
def handleVoteProposal (env : Env) (proposal : VoteProposal) : Handler Unit := do
  let b ← get
  if proposal.proposer = b.localPeerId then
    return
  else
    match b.music.receiveVoteProposal proposal (env.now + voteTimeout) with
    | .error _ => return
    | .ok _ =>
      music (.receiveVoteProposal proposal (env.now + voteTimeout))
      requestQueueForVoteContext env proposal

/-- A peer votes. -/
def handleVoteBallot (env : Env) (voteId : String) (peerId : PeerId) (approve : Bool) :
    Handler Unit := do
  music (.castVoteFor voteId peerId approve)
  attempt (resolveActiveVote env)

/-! ## Dispatch -/

/-- The reaction to a message that has been checked. -/
def handleWireMessage (env : Env) : WireMessage → Handler Unit
  | .playbackState state => handlePlaybackState env state
  | .playbackPrepare state expectedPeers => handlePlaybackPrepare env state expectedPeers
  | .playbackReady sessionId peerId => handlePlaybackReady env sessionId peerId
  | .playbackCancel sessionId leaderPeerId _ => handlePlaybackCancel sessionId leaderPeerId
  | .playbackBufferPrepare operationId sessionId trackId positionMs kind expectedPeers
      leaderPeerId =>
    handlePlaybackBufferPrepare env operationId sessionId trackId positionMs kind expectedPeers
      leaderPeerId
  | .playbackBufferStatus operationId sessionId peerId status =>
    handlePlaybackBufferStatus env operationId sessionId peerId status
  | .playbackBufferHealth sessionId peerId status bufferedUntilMs =>
    modifyHealth fun health => health.markStatus sessionId peerId status bufferedUntilMs env.now
  | .playbackBufferCancel operationId _ _ _ => handlePlaybackBufferCancel operationId
  | .queueState state => handleQueueState env state
  | .queueSummary peerId version updatedAtMicros =>
    handleQueueSummary env peerId version updatedAtMicros
  | .queueRequest requester target knownVersion knownUpdatedAtMicros =>
    handleQueueRequest env requester target knownVersion knownUpdatedAtMicros
  | .queueResponse target state => do
    let b ← get
    if target = b.localPeerId then
      handleQueueState env state
  | .voteProposal proposal => handleVoteProposal env proposal
  | .voteBallot voteId peerId approve => handleVoteBallot env voteId peerId approve

/-- The reaction to a message from the network. -/
def applyWireMessage (env : Env) (source : PeerId) (message : WireMessage) : Handler Unit :=
  match validateWireSource env message source with
  | .error _ => return
  | .ok () => handleWireMessage env message

end LightEar
