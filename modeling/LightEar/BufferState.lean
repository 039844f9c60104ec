import LightEar.MusicState

/-!
# The buffer coordinator

Before a track starts, seeks or resumes, its leader opens a buffer operation: the expected peers
load the stream and report a status, and the leader goes on once a strict majority is ready.
A coordinator holds at most one operation, led by the local peer or by another one.

The functions follow the program one by one.  `CoordinatorOp` lists the ways in which the rest
of the program changes a coordinator, so that the life of an operation can be read off a list of
such changes.
-/

namespace LightEar

/-- What an operation prepares. -/
inductive PlaybackBufferOperationKind where
  | start
  | seek
  | resume
  deriving DecidableEq, Repr

/-- The name of a kind, as it stands in operation identifiers. -/
def PlaybackBufferOperationKind.label : PlaybackBufferOperationKind → String
  | start => "Start"
  | seek => "Seek"
  | resume => "Resume"

/-- What a peer reports. -/
inductive PlaybackBufferStatusKind where
  | ready
  | buffering
  | failed
  deriving DecidableEq, Repr

/-- A report of one peer. -/
structure BufferPeerStatus where
  /-- The kind of report. -/
  status : PlaybackBufferStatusKind
  /-- How far the peer has loaded. -/
  bufferedUntilMs : Option Nat
  /-- Why loading failed. -/
  error : Option String
  deriving DecidableEq, Repr

/-- An operation in progress. -/
structure BufferOperation where
  /-- Names the operation. -/
  operationId : String
  /-- The state to commit; its leader leads the operation. -/
  state : PlaybackState
  /-- What is prepared. -/
  kind : PlaybackBufferOperationKind
  /-- The queue item that a start consumes. -/
  queueItemId : Option String
  /-- The peers whose reports count. -/
  expectedPeers : Finset PeerId
  /-- The last report of each peer that has reported. -/
  statuses : AList fun _ : PeerId => BufferPeerStatus
  /-- When the operation gives up. -/
  deadline : Instant
  /-- When the others were last asked to prepare. -/
  preparePublishedAt : Option Instant

/-- The coordinator: at most one operation. -/
structure BufferCoordinator where
  /-- The operation in progress. -/
  active : Option BufferOperation

/-- How an operation stands. -/
inductive BufferQuorum where
  | waiting (ready buffering failed threshold : Nat)
  | ready (ready threshold : Nat)
  | impossible (ready failed threshold : Nat)
  | timedOut (ready threshold : Nat)
  deriving DecidableEq, Repr

/-- Whether a report was taken, and how the operation stands then. -/
inductive BufferStatusOutcome where
  | accepted (quorum : BufferQuorum)
  | ignored
  deriving DecidableEq, Repr

namespace BufferOperation

/-- How many peers report a given kind. -/
def count (operation : BufferOperation) (status : PlaybackBufferStatusKind) : Nat :=
  operation.statuses.entries.countP fun entry => entry.2.status = status

/-- How an operation stands: ready beats timed out beats impossible. -/
def quorum (operation : BufferOperation) (now : Instant) : BufferQuorum :=
  let ready := operation.count .ready
  let buffering := operation.count .buffering
  let failed := operation.count .failed
  let threshold := majorityThreshold operation.expectedPeers.card
  if threshold ≤ ready then
    .ready ready threshold
  else if operation.deadline ≤ now then
    .timedOut ready threshold
  else
    let remaining := operation.expectedPeers.card - (ready + failed)
    if ready + remaining < threshold then
      .impossible ready failed threshold
    else
      .waiting ready buffering failed threshold

/-- Whether a playback state ends the wait for this operation: the session plays the track, or
has been left. -/
def isResolvedByPlaybackState (operation : BufferOperation) (state : PlaybackState) : Bool :=
  if operation.state.sessionId ≠ state.sessionId then false
  else
    match state.track with
    | none => true
    | some track =>
      state.playing && operation.state.track.any (·.trackId == track.trackId)

/-- Whether an operation is the one a message names. -/
def isNamed (operation : BufferOperation) (operationId sessionId : String) : Bool :=
  operation.operationId == operationId && operation.state.sessionId == sessionId

/-- Whether an operation prepares the given track in the given session. -/
def isFor (operation : BufferOperation) (sessionId trackId : String) : Bool :=
  operation.state.sessionId == sessionId && operation.state.track.any (·.trackId == trackId)

/-- The operation without a peer. -/
def removePeer (operation : BufferOperation) (peerId : PeerId) : BufferOperation :=
  { operation with
    expectedPeers := operation.expectedPeers.erase peerId
    statuses := operation.statuses.erase peerId }

/-- The operation with a report. -/
def setStatus (operation : BufferOperation) (peerId : PeerId) (status : BufferPeerStatus) :
    BufferOperation :=
  { operation with statuses := operation.statuses.insert peerId status }

/-- Whether the prepare was never sent, or long enough ago. -/
def republishDue (operation : BufferOperation) (now interval : Instant) : Bool :=
  operation.preparePublishedAt.all fun last => now - last ≥ interval

end BufferOperation

namespace BufferCoordinator

/-- No operation. -/
def new : BufferCoordinator := ⟨none⟩

/-- Whether an operation is in progress. -/
def isActive (c : BufferCoordinator) : Bool := c.active.isSome

/-- Opens an operation of the local peer in place of whatever was active. -/
def startLeaderOperation (_c : BufferCoordinator) (operationId : String) (state : PlaybackState)
    (kind : PlaybackBufferOperationKind) (queueItemId : Option String)
    (expectedPeers : Finset PeerId) (deadline : Instant) : BufferCoordinator where
  active := some {
    operationId, state, kind, queueItemId, expectedPeers, deadline
    statuses := ∅
    preparePublishedAt := none }

/-- Adopts the operation of another peer, unless it is the active one already. -/
def receiveRemoteOperation (c : BufferCoordinator) (operationId : String) (state : PlaybackState)
    (kind : PlaybackBufferOperationKind) (expectedPeers : Finset PeerId) (timeout now : Instant) :
    BufferCoordinator :=
  if c.active.any (·.isNamed operationId state.sessionId) then c
  else
    ⟨some {
      operationId, state, kind, expectedPeers
      queueItemId := none
      statuses := ∅
      deadline := now + timeout
      preparePublishedAt := none }⟩

/-- The report of a peer on the operation it names. -/
def statusFor (c : BufferCoordinator) (operationId sessionId : String) (peerId : PeerId) :
    Option BufferPeerStatus :=
  match c.active with
  | none => none
  | some operation =>
    if operation.isNamed operationId sessionId then operation.statuses.lookup peerId else none

/-- Postpones the deadline. -/
def extendActiveDeadline (c : BufferCoordinator) (deadline : Instant) : BufferCoordinator :=
  ⟨c.active.map fun operation => { operation with deadline }⟩

/-- Stops expecting a peer; says how the operation then stands if anything changed. -/
def removeExpectedPeer (c : BufferCoordinator) (peerId : PeerId) (now : Instant) :
    Option BufferQuorum × BufferCoordinator :=
  match c.active with
  | none => (none, c)
  | some operation =>
    let operation' := operation.removePeer peerId
    let outcome :=
      if peerId ∈ operation.expectedPeers ∨ (operation.statuses.lookup peerId).isSome then
        some (operation'.quorum now)
      else none
    (outcome, ⟨some operation'⟩)

/-- Notes when the prepare of the named operation was sent. -/
def markPreparePublished (c : BufferCoordinator) (operationId : String) (now : Instant) :
    BufferCoordinator :=
  ⟨c.active.map fun operation =>
    if operation.operationId = operationId then { operation with preparePublishedAt := some now }
    else operation⟩

/-- Takes the operation whose prepare is due again, and notes that it is sent now. -/
def prepareRepublishDue (c : BufferCoordinator) (now interval : Instant) :
    Option BufferOperation × BufferCoordinator :=
  match c.active with
  | none => (none, c)
  | some operation =>
    if operation.republishDue now interval then
      let operation' := { operation with preparePublishedAt := some now }
      (some operation', ⟨some operation'⟩)
    else (none, c)

/-- Records the report of an expected peer on the operation and session it names. -/
def markStatus (c : BufferCoordinator) (operationId sessionId : String) (peerId : PeerId)
    (status : BufferPeerStatus) (now : Instant) : BufferStatusOutcome × BufferCoordinator :=
  match c.active with
  | none => (.ignored, c)
  | some operation =>
    if operation.isNamed operationId sessionId ∧ peerId ∈ operation.expectedPeers then
      let operation' := operation.setStatus peerId status
      (.accepted (operation'.quorum now), ⟨some operation'⟩)
    else (.ignored, c)

/-- How the operation in progress stands. -/
def quorum (c : BufferCoordinator) (now : Instant) : Option BufferQuorum :=
  c.active.map (·.quorum now)

/-- Drops the operation if it satisfies a condition; gives what was dropped. -/
def takeIf (c : BufferCoordinator) (p : BufferOperation → Bool) :
    Option BufferOperation × BufferCoordinator :=
  if c.active.any p then (c.active, ⟨none⟩) else (none, c)

/-- Drops the named operation. -/
def cancel (c : BufferCoordinator) (operationId : String) :
    Option BufferOperation × BufferCoordinator :=
  c.takeIf fun operation => operation.operationId == operationId

/-- Drops whatever operation there is. -/
def clear (c : BufferCoordinator) : Option BufferOperation × BufferCoordinator :=
  (c.active, ⟨none⟩)

/-- Drops an operation of the local peer. -/
def clearIfLocalLeader (c : BufferCoordinator) (localPeerId : PeerId) :
    Option BufferOperation × BufferCoordinator :=
  c.takeIf fun operation => operation.state.leaderPeerId == localPeerId

/-- Drops an operation that a playback state resolves. -/
def clearMatchingPlaybackState (c : BufferCoordinator) (state : PlaybackState) :
    Option BufferOperation × BufferCoordinator :=
  c.takeIf fun operation => operation.isResolvedByPlaybackState state

end BufferCoordinator

/-! ## Changes of a coordinator -/

/-- The ways in which the rest of the program changes a coordinator. -/
inductive CoordinatorOp where
  | startLeader (operationId : String) (state : PlaybackState)
      (kind : PlaybackBufferOperationKind) (queueItemId : Option String)
      (expectedPeers : Finset PeerId) (deadline : Instant)
  | receiveRemote (operationId : String) (state : PlaybackState)
      (kind : PlaybackBufferOperationKind) (expectedPeers : Finset PeerId)
      (timeout now : Instant)
  | extendDeadline (deadline : Instant)
  | removeExpectedPeer (peerId : PeerId) (now : Instant)
  | markPreparePublished (operationId : String) (now : Instant)
  | prepareRepublishDue (now interval : Instant)
  | markStatus (operationId sessionId : String) (peerId : PeerId) (status : BufferPeerStatus)
      (now : Instant)
  | cancel (operationId : String)
  | clear
  | clearIfLocalLeader (localPeerId : PeerId)
  | clearMatching (state : PlaybackState)

namespace CoordinatorOp

/-- The coordinator after a change. -/
def apply : CoordinatorOp → BufferCoordinator → BufferCoordinator
  | startLeader operationId state kind queueItemId expectedPeers deadline, c =>
    c.startLeaderOperation operationId state kind queueItemId expectedPeers deadline
  | receiveRemote operationId state kind expectedPeers timeout now, c =>
    c.receiveRemoteOperation operationId state kind expectedPeers timeout now
  | extendDeadline deadline, c => c.extendActiveDeadline deadline
  | removeExpectedPeer peerId now, c => (c.removeExpectedPeer peerId now).2
  | markPreparePublished operationId now, c => c.markPreparePublished operationId now
  | prepareRepublishDue now interval, c => (c.prepareRepublishDue now interval).2
  | markStatus operationId sessionId peerId status now, c =>
    (c.markStatus operationId sessionId peerId status now).2
  | cancel operationId, c => (c.cancel operationId).2
  | clear, c => c.clear.2
  | clearIfLocalLeader localPeerId, c => (c.clearIfLocalLeader localPeerId).2
  | clearMatching state, c => (c.clearMatchingPlaybackState state).2

/-- The coordinator after a list of changes. -/
def replay (ops : List CoordinatorOp) (c : BufferCoordinator) : BufferCoordinator :=
  ops.foldl (fun c op => op.apply c) c

@[simp] theorem replay_cons (op : CoordinatorOp) (ops : List CoordinatorOp)
    (c : BufferCoordinator) : replay (op :: ops) c = replay ops (op.apply c) := rfl

theorem replay_append (ops ops' : List CoordinatorOp) (c : BufferCoordinator) :
    replay (ops ++ ops') c = replay ops' (replay ops c) :=
  List.foldl_append ..

end CoordinatorOp

end LightEar
