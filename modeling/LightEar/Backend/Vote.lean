import LightEar.Backend.Buffer

/-!
# Votes in the backend

Pausing, resuming, skipping and seeking, and removing or moving a queue item of another peer, are
put to the vote.  Every peer counts the ballots for itself and executes a passed vote on its own
copy, stamped with the time at which the proposal was made; only the proposer opens the buffer
operation of a resume or seek.
-/

namespace LightEar

/-- Whether a proposal is about a queue newer than the local one. -/
def queueVoteNeedsNewerState (proposal : VoteProposal) (localQueueVersion : Nat) : Bool :=
  proposal.action.isQueueAction && proposal.queueVersion > localQueueVersion

/-- Whether a peer has not been asked for its queue recently. -/
def shouldRequestQueue (requestTimes : AList fun _ : PeerId => Instant) (peerId : PeerId)
    (now : Instant) : Bool :=
  (requestTimes.lookup peerId).all fun last => now - last ≥ queueRequestCooldown

/-- Asks a peer for its queue, and notes when it was asked. -/
def requestQueue (env : Env) (target : PeerId) : Handler Unit := do
  let b ← get
  let outcome ← publishRoomWireWithOutcome env (.queueRequest b.localPeerId target
    b.music.queueVersion b.music.queueUpdatedAt)
  if outcome = .ok .published then
    modify fun b => { b with queueRequestTimes := b.queueRequestTimes.insert target env.now }

/-- Asks the proposer for the queue that a vote is about. -/
def requestQueueForVoteContext (env : Env) (proposal : VoteProposal) : Handler Unit := do
  let b ← get
  if queueVoteNeedsNewerState proposal b.music.queueVersion &&
      shouldRequestQueue b.queueRequestTimes proposal.proposer env.now then
    requestQueue env proposal.proposer

/-- The peer in whose name a vote is executed. -/
def actorPeerId (env : Env) (proposal : VoteProposal) (localPeerId : PeerId) : PeerId :=
  (env.parsePeerId proposal.proposer).getD localPeerId

/-- Makes the playback change of a vote, and records the execution. -/
def executeOnPlayback (proposal : VoteProposal) (actor : PeerId) (op : MusicOp) :
    Handler Unit := do
  modify fun b => b.recordExecution proposal actor op
  music op

/-- Pauses the playback for a vote, on the player and in the room. -/
def pauseForVote (env : Env) (proposal : VoteProposal) : Handler Unit := do
  let b ← get
  let actor := actorPeerId env proposal b.localPeerId
  executeOnPlayback proposal actor (.pausePlaybackForVote actor proposal.createdAtMicros)
  match (b.music.pausePlaybackForVote actor proposal.createdAtMicros).1 with
  | none => return
  | some state =>
    haltPlayer env proposal.createdAtMicros
    publishPlaybackStateIfLocalSource env state

/-- Pauses for a vote, and has the proposer prepare the current track from a position. -/
def prepareForVote (env : Env) (proposal : VoteProposal) (kind : PlaybackBufferOperationKind)
    (positionOf : PlaybackState → QueueItem → Nat) : Handler Unit := do
  let b ← get
  if proposal.proposer = b.localPeerId then
    match b.music.playbackState with
    | none => return
    | some current =>
      match MusicState.queueItemFromPlaybackState current with
      | none => return
      | some item =>
        pauseForVote env proposal
        beginBufferOperation env item kind (positionOf current item)
  else
    return

/-- Executes a resume vote. -/
def executeResume (env : Env) (proposal : VoteProposal) : Handler Unit :=
  prepareForVote env proposal .resume fun current _ =>
    playbackPositionMs current proposal.createdAtMicros

/-- Executes a seek vote. -/
def executeSeek (env : Env) (proposal : VoteProposal) (positionMs : Nat) : Handler Unit :=
  prepareForVote env proposal .seek fun _ item => min positionMs item.track.durationMs

/-- Executes a skip vote. -/
def executeSkip (env : Env) (proposal : VoteProposal) : Handler Unit := do
  let b ← get
  let actor := actorPeerId env proposal b.localPeerId
  executeOnPlayback proposal actor (.stopCurrentPlaybackForVote actor proposal.createdAtMicros)
  publishPlaybackStateIfLocalSource env
    (b.music.stopCurrentPlaybackForVote actor proposal.createdAtMicros).1
  if proposal.proposer = b.localPeerId then
    startNextIfIdle env

/-- Executes a vote about a queue item, if the item is there, and announces the queue. -/
def executeOnQueue (env : Env) (itemId : String) (op : MusicOp) : Handler Unit := do
  let b ← get
  if b.music.queue.any (MusicState.isItem itemId) then
    music op
    publishQueueSnapshot env

/-- Executes a passed vote on the local copy. -/
def executeVoteAction (env : Env) (proposal : VoteProposal) : Handler Unit :=
  match proposal.action with
  | .pause => pauseForVote env proposal
  | .resume => executeResume env proposal
  | .skip => executeSkip env proposal
  | .seek positionMs => executeSeek env proposal positionMs
  | .remove itemId =>
    executeOnQueue env itemId (.executeRemove itemId proposal.createdAtMicros)
  | .move itemId toIndex =>
    executeOnQueue env itemId (.executeMove itemId toIndex proposal.createdAtMicros)

/-- Executes a passed vote unless it has become stale. -/
def executePassedVote (env : Env) (proposal : VoteProposal) : Handler Unit := do
  let b ← get
  if (b.music.staleVoteReason proposal).isNone ∧
      b.music.shouldExecuteVoteLocally proposal b.localPeerId then
    executeVoteAction env proposal

/-- Looks at the ballot box and executes a passed vote. -/
def resolveActiveVote (env : Env) : Handler Unit := do
  let b ← get
  let threshold := majorityThreshold b.roomPeerCount
  match b.music.readyVoteWaitingForQueue threshold with
  | some proposal => requestQueueForVoteContext env proposal
  | none =>
    music (.resolveVote threshold b.roomPeerCount)
    match (b.music.resolveVote threshold b.roomPeerCount).1 with
    | some (.passed proposal) => executePassedVote env proposal
    | some (.rejected _) => return
    | none => return

/-- Puts an action to the vote. -/
def proposeOrExecuteVote (env : Env) (action : VoteAction) : Handler Unit := do
  let b ← get
  let now := env.clock .propose
  let proposal : VoteProposal := {
    voteId := env.newVoteId b.localPeerId now
    proposer := b.localPeerId
    action := action
    queueVersion := b.music.queueVersion
    playbackSessionId := b.music.playbackState.map PlaybackState.sessionId
    createdAtMicros := now }
  if b.music.activeVote.isSome || (b.music.staleVoteReason proposal).isSome then
    return
  else
    music (.startVote proposal (env.now + voteTimeout))
    publishRoomWire env (.voteProposal proposal)
    publishRoomWire env (.voteBallot proposal.voteId b.localPeerId true)
    resolveActiveVote env

/-- Votes on the proposal in progress. -/
def castVote (env : Env) (approve : Bool) : Handler Unit := do
  let b ← get
  music (.castVote b.localPeerId approve)
  match (b.music.castVote b.localPeerId approve).1 with
  | some (.accepted voteId) =>
    publishRoomWire env (.voteBallot voteId b.localPeerId approve)
    resolveActiveVote env
  | some (.duplicate _) => return
  | none => return

end LightEar
