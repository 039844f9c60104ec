import LightEar.Foundation.Effect
import LightEar.Backend.Music
import LightEar.PlaybackHealth

/-!
# The state of the backend and what it takes from outside

The backend of a peer keeps the music state, the buffer coordinator and the playback health, and
reacts to commands, timers and messages.  A reaction is a program over this state that may stop
with an error; what it takes from outside (clock readings, answers of the audio player, of the
media source and of the network) comes in an `Env`, so that a statement about all environments
is a statement about all behaviour of those parts.

`Backend` also carries three history variables that no reaction reads: the messages handed to
the network, the changes made to the coordinator, and the committed operations and executed
votes.
-/

namespace LightEar

/-! ## Messages -/

/-- The messages about queue, playback, buffering and votes. -/
inductive WireMessage where
  | playbackState (state : PlaybackState)
  | playbackPrepare (state : PlaybackState) (expectedPeers : List PeerId)
  | playbackReady (sessionId : String) (peerId : PeerId)
  | playbackCancel (sessionId : String) (leaderPeerId : PeerId) (reason : String)
  | playbackBufferPrepare (operationId sessionId trackId : String) (positionMs : Nat)
      (kind : PlaybackBufferOperationKind) (expectedPeers : Finset PeerId)
      (leaderPeerId : PeerId)
  | playbackBufferStatus (operationId sessionId : String) (peerId : PeerId)
      (status : BufferPeerStatus)
  | playbackBufferHealth (sessionId : String) (peerId : PeerId)
      (status : PlaybackBufferStatusKind) (bufferedUntilMs : Option Nat)
  | playbackBufferCancel (operationId sessionId : String) (leaderPeerId : PeerId)
      (reason : String)
  | queueState (state : QueueState)
  | queueSummary (peerId : PeerId) (version : Nat) (updatedAtMicros : Int)
  | queueRequest (requester target : PeerId) (knownVersion : Nat) (knownUpdatedAtMicros : Int)
  | queueResponse (target : PeerId) (state : QueueState)
  | voteProposal (proposal : VoteProposal)
  | voteBallot (voteId : String) (peerId : PeerId) (approve : Bool)
  deriving DecidableEq

/-- Why the network refuses a message. -/
inductive PublishError where
  | duplicate
  | noPeersSubscribedToTopic
  | allQueuesFull
  | other (text : String)
  deriving DecidableEq, Repr

/-- What became of a message. -/
inductive RoomPublishOutcome where
  | published
  | noSubscribers
  | congested
  deriving DecidableEq, Repr

/-- An error, as the text that is shown. -/
abbrev BackendError := String

/-- A refusal that only says that nobody new was reached is no error. -/
def classifyRoomPublish : Except PublishError Unit → Except BackendError RoomPublishOutcome
  | .ok () => .ok .published
  | .error .duplicate => .ok .published
  | .error .noPeersSubscribedToTopic => .ok .noSubscribers
  | .error .allQueuesFull => .ok .congested
  | .error (.other text) => .error text

/-! ## Environment -/

/-- The places at which a reaction reads the wall clock. -/
inductive ClockSite where
  | enqueue
  | seek
  | tick
  | musicSync
  | received
  | adopted
  | adoptedAnchor
  | apply
  | healthPosition
  | healthPause
  | stop
  | pendingStart
  | begin
  | commit
  | queueRemoved
  | queuePublished
  | propose
  deriving DecidableEq, Repr

/-- The answers of the audio player and of the media source. -/
structure AudioReplies where
  /-- Whether an output can be opened. -/
  opens : Bool
  /-- Answer to starting or halting the loaded stream. -/
  setPlaying : Bool → Int → Except BackendError Unit
  /-- Answer to starting a prepared stream: whether it was ready. -/
  startPreparedStream : String → String → Nat → Bool → Except BackendError Bool
  /-- The track with a media address the local peer can play. -/
  playableTrack : PlaybackTrack → Except BackendError PlaybackTrack
  /-- Answer to loading a stream for a session, and for an operation if one is named. -/
  prepareStream : Option String → String → PlaybackTrack → Nat → Except BackendError Unit
  /-- Answer to jumping to a position. -/
  seek : Nat → Bool → Int → Except BackendError Unit
  /-- The track the player has loaded. -/
  currentTrackId : Option String
  /-- The session the player has loaded it for. -/
  currentSessionId : Option String
  /-- Where the player stands. -/
  positionMs : Int → Nat
  /-- Whether the player runs. -/
  isPlaying : Bool
  /-- Whether the player has come to the end. -/
  isFinished : Int → Bool

/-- What one reaction takes from outside. -/
structure Env where
  /-- The reading of the monotonic clock. -/
  now : Instant
  /-- The readings of the wall clock. -/
  clock : ClockSite → Int
  /-- The parser of peer identifiers. -/
  parsePeerId : String → Option PeerId
  /-- The network's answer to a message. -/
  gossipsub : WireMessage → Except PublishError Unit
  /-- The audio player and the media source. -/
  audio : AudioReplies
  /-- The track behind a source identifier and part. -/
  resolveTrack : String → Nat → Except BackendError PlaybackTrack
  /-- A fresh name for a vote. -/
  newVoteId : PeerId → Int → String
  /-- A fresh name for a queue item. -/
  newQueueItemId : PeerId → String → String

/-! ## State -/

/-- A commit, as history records it. -/
structure Commit where
  /-- The operation as it was decided on. -/
  operation : BufferOperation
  /-- The changes of the coordinator up to then. -/
  log : List CoordinatorOp
  /-- Whether the peer had an audio output then. -/
  audioOutput : Bool
  /-- The state that was made for the operation. -/
  state : PlaybackState
  /-- The playback state the peer then held. -/
  stored : Option PlaybackState
  /-- The messages it had then handed to the network. -/
  published : List (WireMessage × RoomPublishOutcome)

/-- The execution of a playback vote, as history records it. -/
structure Execution where
  /-- The proposal that passed. -/
  proposal : VoteProposal
  /-- The peer in whose name it is executed. -/
  actor : PeerId
  /-- The playback state it found. -/
  prev : Option PlaybackState
  /-- The playback state it stored. -/
  next : Option PlaybackState
  deriving DecidableEq

/-- The state of one peer. -/
structure Backend where
  /-- The peer itself. -/
  localPeerId : PeerId
  /-- Peers that only help others to meet. -/
  rendezvousNodes : Finset PeerId
  /-- Peers with an open connection. -/
  connectedPeers : Finset PeerId
  /-- Queue, playback and vote. -/
  music : MusicState
  /-- The buffer operation in progress. -/
  buffer : BufferCoordinator
  /-- The health of the current playback. -/
  playbackHealth : PlaybackHealth
  /-- Sessions that cannot be heard here. -/
  failedAudioSessions : Finset String
  /-- Whether an audio output is open. -/
  audioPlayer : Bool
  /-- When to try to open one again. -/
  nextAudioOutputRetry : Instant
  /-- When each peer was last asked for its queue. -/
  queueRequestTimes : AList fun _ : PeerId => Instant
  /-- When the music was last announced to a new peer. -/
  lastMusicSnapshot : Option Instant
  /-- History: the messages handed to the network, and what became of each. -/
  published : List (WireMessage × RoomPublishOutcome)
  /-- History: the changes made to the coordinator. -/
  bufferLog : List CoordinatorOp
  /-- History: the commits. -/
  commits : List Commit
  /-- History: the executed playback votes. -/
  executions : List Execution

/-- A backend that has just started. -/
def Backend.new (localPeerId : PeerId) (rendezvousNodes : Finset PeerId) (audioPlayer : Bool)
    (nextAudioOutputRetry : Instant) : Backend where
  localPeerId := localPeerId
  rendezvousNodes := rendezvousNodes
  connectedPeers := ∅
  music := .new
  buffer := .new
  playbackHealth := .new
  failedAudioSessions := ∅
  audioPlayer := audioPlayer
  nextAudioOutputRetry := nextAudioOutputRetry
  queueRequestTimes := ∅
  lastMusicSnapshot := none
  published := []
  bufferLog := []
  commits := []
  executions := []

/-- A reaction: a program over the backend that may stop with an error. -/
abbrev Handler := EStateM BackendError Backend

/-- Peers with an open connection that belong to the room, and the local peer. -/
def Backend.roomPeerIds (b : Backend) : Finset PeerId :=
  insert b.localPeerId (b.connectedPeers \ b.rendezvousNodes)

/-- The size of the room. -/
def Backend.roomPeerCount (b : Backend) : Nat := b.roomPeerIds.card

/-! ## Elementary steps -/

/-- The backend after a change of the music state. -/
def Backend.changeMusic (b : Backend) (op : MusicOp) : Backend :=
  { b with music := op.apply b.music }

/-- The backend after a change of the coordinator, which is noted. -/
def Backend.changeBuffer (b : Backend) (op : CoordinatorOp) : Backend :=
  { b with buffer := op.apply b.buffer, bufferLog := b.bufferLog ++ [op] }

/-- The backend after a message was handed to the network, which is noted. -/
def Backend.recordPublished (b : Backend) (message : WireMessage) (outcome : RoomPublishOutcome) :
    Backend :=
  { b with published := b.published ++ [(message, outcome)] }

/-- The backend with a commit noted. -/
def Backend.recordCommit (b : Backend) (operation : BufferOperation) (state : PlaybackState) :
    Backend :=
  { b with commits := b.commits ++ [{
      operation, state
      log := b.bufferLog
      audioOutput := b.audioPlayer
      stored := b.music.playbackState
      published := b.published }] }

/-- The backend with the execution of a vote noted, before the change it makes. -/
def Backend.recordExecution (b : Backend) (proposal : VoteProposal) (actor : PeerId)
    (op : MusicOp) : Backend :=
  { b with executions := b.executions ++ [{
      proposal, actor
      prev := b.music.playbackState
      next := (op.apply b.music).playbackState }] }

/-- Makes a change of the music state. -/
def music (op : MusicOp) : Handler Unit :=
  modify fun b => b.changeMusic op

/-- Makes a change of the coordinator. -/
def coordinate (op : CoordinatorOp) : Handler Unit :=
  modify fun b => b.changeBuffer op

/-- Changes the health record. -/
def modifyHealth (f : PlaybackHealth → PlaybackHealth) : Handler Unit :=
  modify fun b => { b with playbackHealth := f b.playbackHealth }

/-- Notes that a session cannot be heard here. -/
def insertFailedAudioSession (sessionId : String) : Handler Unit :=
  modify fun b => { b with failedAudioSessions := insert sessionId b.failedAudioSessions }

/-- Opens or drops the audio output. -/
def setAudioPlayer (audioPlayer : Bool) : Handler Unit :=
  modify fun b => { b with audioPlayer }

/-- Goes on with the value of an answer, or stops with its error. -/
def liftExcept {α : Type} : Except BackendError α → Handler α
  | .ok a => pure a
  | .error e => throw e

/-- Runs a program and goes on even if it stopped with an error. -/
def attempt (m : Handler Unit) : Handler Unit := fun b =>
  match m b with
  | .ok _ b' => .ok () b'
  | .error _ b' => .ok () b'

/-- Hands a message to the network and tells what became of it; an error is told as well. -/
def publishRoomWireWithOutcome (env : Env) (message : WireMessage) :
    Handler (Except BackendError RoomPublishOutcome) := do
  match classifyRoomPublish (env.gossipsub message) with
  | .ok outcome =>
    modify fun b => b.recordPublished message outcome
    return .ok outcome
  | .error error => return .error error

/-- Hands a message to the network; a failure stops the reaction. -/
def publishRoomWire (env : Env) (message : WireMessage) : Handler Unit := do
  let outcome ← publishRoomWireWithOutcome env message
  let _ ← liftExcept outcome

/-- Hands a message to the network and does not care what becomes of it. -/
def tryPublish (env : Env) (message : WireMessage) : Handler Unit := do
  let _ ← publishRoomWireWithOutcome env message

/-! ## Constants -/

/-- How long an operation waits for its quorum. -/
def bufferOperationTimeout : Instant := millis 20000

/-- How often the prepare of a waiting operation is sent again. -/
def bufferPrepareRepublishInterval : Instant := millis 2000

/-- How much a peer without audio output claims to have loaded. -/
def bufferReadyWindowMs : Nat := 12000

/-- How far ahead a healthy peer has loaded. -/
def lowWatermarkMs : Nat := 5000

/-- How long a majority may be unhealthy. -/
def bufferHealthLossGrace : Instant := millis 3000

/-- How long a health report counts as recent. -/
def bufferHealthStaleAfter : Instant := millis 5000

/-- How often an unchanged health report is sent. -/
def bufferHealthPublishMinInterval : Instant := millis 1000

/-- How long to wait before another try to open an output. -/
def audioOutputRetryInterval : Instant := millis 5000

/-- How long a peer is not asked for its queue again. -/
def queueRequestCooldown : Instant := millis 5000

/-- How often the music is announced to new peers. -/
def musicSnapshotMinInterval : Instant := millis 1000

/-- How long a vote stays open. -/
def voteTimeout : Instant := millis 20000

/-- How far in the future a committed playback starts, in microseconds. -/
def musicStartDelay : Int := 1500000

/-- How far a player may be off before it jumps. -/
def musicDriftSeekThresholdMs : Nat := 700

end LightEar
