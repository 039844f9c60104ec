import LightEar.Backend.Wire

/-!
# The main loop

The backend waits for commands of the user, ticks of two timers, messages and connection events,
and reacts to them one at a time.  An `Event` is one of these with the environment of the
reaction; a run is a list of events.  Whatever the reaction returns, the next event starts from
the state in which it stopped.
-/

namespace LightEar

/-! ## Commands -/

/-- What the user asks for. -/
inductive NetworkCommand where
  | enqueueBilibili (bvid : String) (part : Nat)
  | pause
  | resume
  | seek (positionMs : Nat)
  | skip
  | removeQueueItem (index : Nat)
  | moveQueueItem (source target : Nat)
  | vote (approve : Bool)

/-- The item at a place counted from one. -/
def queueItemAt (queue : List QueueItem) (index : Nat) : Option QueueItem :=
  if index = 0 then none else queue[index - 1]?

/-- Appends a track to the queue and announces it. -/
def enqueueBilibili (env : Env) (bvid : String) (part : Nat) : Handler Unit := do
  let b ← get
  match env.resolveTrack bvid (part - 1) with
  | .error _ => return
  | .ok track =>
    music (.appendQueueItem {
      itemId := env.newQueueItemId b.localPeerId track.trackId
      track := track
      requestedBy := b.localPeerId
      addedAtMicros := env.clock .enqueue })
    publishQueueState env
    startNextIfIdle env

/-- Puts an action on the current track to the vote. -/
def votePlayback (env : Env) (action : VoteAction) : Handler Unit := do
  let b ← get
  if b.music.hasTrack then
    proposeOrExecuteVote env action

/-- Seeks in a track of one's own. -/
def seekOwn (env : Env) (current : PlaybackState) (positionMs : Nat) : Handler Unit := do
  let b ← get
  match MusicState.queueItemFromPlaybackState current with
  | none => return
  | some item =>
    let now := env.clock .seek
    music (.pausePlaybackForVote b.localPeerId now)
    match (b.music.pausePlaybackForVote b.localPeerId now).1 with
    | none => beginBufferOperation env item .seek (min positionMs item.track.durationMs)
    | some state =>
      haltPlayer env now
      publishPlaybackState env state
      beginBufferOperation env item .seek (min positionMs item.track.durationMs)

/-- Seeks at once in a track of one's own, and by vote in another's. -/
def seek (env : Env) (positionMs : Nat) : Handler Unit := do
  let b ← get
  match b.music.playbackState with
  | none => return
  | some current =>
    if b.music.hasTrack = false then
      return
    else if canControlPlayback current b.localPeerId then
      seekOwn env current positionMs
    else
      proposeOrExecuteVote env (.seek positionMs)

/-- Removes an item of one's own at once, and another's by vote. -/
def removeQueueItem (env : Env) (index : Nat) : Handler Unit := do
  let b ← get
  match queueItemAt b.music.queue index with
  | none => return
  | some item =>
    if item.requestedBy = b.localPeerId then
      music (.removeQueueIndex index)
      publishQueueState env
    else
      proposeOrExecuteVote env (.remove item.itemId)

/-- Moves an item by vote. -/
def moveQueueItem (env : Env) (source target : Nat) : Handler Unit := do
  let b ← get
  match queueItemAt b.music.queue source with
  | none => return
  | some item => proposeOrExecuteVote env (.move item.itemId (target - 1))

/-- The reaction to a command. -/
def handleCommand (env : Env) : NetworkCommand → Handler Unit
  | .enqueueBilibili bvid part => enqueueBilibili env bvid part
  | .pause => votePlayback env .pause
  | .resume => votePlayback env .resume
  | .seek positionMs => seek env positionMs
  | .skip => votePlayback env .skip
  | .removeQueueItem index => removeQueueItem env index
  | .moveQueueItem source target => moveQueueItem env source target
  | .vote approve => castVote env approve

/-! ## Timers -/

/-- The parts of a local tick, each with an environment of its own. -/
inductive TickPhase where
  | restore
  | vote
  | pending
  | buffer
  | startNext
  | health
  | follow
  deriving DecidableEq, Repr

/-- Tries to get an audio output back while there is something to hear; says whether the tick
goes on. -/
def restoreAudioOutput (env : Env) : Handler Bool := do
  let b ← get
  if b.audioPlayer = false ∧ (b.music.hasTrack ∨ b.buffer.isActive) ∧
      b.nextAudioOutputRetry ≤ env.now then
    modify fun b => { b with
      nextAudioOutputRetry := env.now + audioOutputRetryInterval
      audioPlayer := env.audio.opens }
    match b.music.playbackState.filter (·.track.isSome) with
    | some state =>
      if env.audio.opens then
        match ← applyRemotePlaybackState env state with
        | .ok () => return true
        | .error error =>
          let outputGone ← handleLocalAudioOutputError error
          return !outputGone
      else
        return true
    | none => return true
  else
    return true

/-- Ends the playback when its track is over: the leader goes on to the next item, a follower
waits for the leader. -/
def finishPlayback (env : Env) (state : PlaybackState) : Handler Unit := do
  let b ← get
  let now := env.clock .tick
  match finishedPlaybackRole state b.localPeerId now
      (b.audioPlayer && env.audio.isFinished now) with
  | none => return
  | some .leader =>
    stopCurrentPlayback env "track finished"
    startNextIfIdle env
  | some .follower => music (.stopCurrentPlayback b.localPeerId (env.clock .stop))

/-- The player cannot follow the current playback. -/
def handleSyncFailure (env : Env) (state : PlaybackState) (error : BackendError) :
    Handler Unit := do
  let b ← get
  let outputGone ← handleLocalAudioOutputError error
  unless outputGone do
    insertFailedAudioSession state.sessionId
    if state.leaderPeerId = b.localPeerId then
      stopCurrentPlayback env "local audio playback failed"
      startNextIfIdle env
    else
      markLocalAudioSessionFailed state

/-- Keeps the player in step with the current playback. -/
def followPlayback (env : Env) : Handler Unit := do
  let b ← get
  match b.music.playbackState with
  | none => return
  | some state =>
    if shouldSyncPlayerToPlaybackState b.buffer state then
      match syncLoadedPlayerToState env b.audioPlayer state (env.clock .tick) with
      | .error error => handleSyncFailure env state error
      | .ok () => finishPlayback env state
    else
      return

/-- Reads the reports of the player, if there is one. -/
def drainPlayerEvents (events : List (Env × AudioPlayerEvent)) : Handler Unit := do
  let b ← get
  if b.audioPlayer then
    attempt (handleAudioPlayerEvents events)

/-- The reaction to the local timer, ten times a second. -/
def musicLocalTick (env : TickPhase → Env) (events : List (Env × AudioPlayerEvent)) :
    Handler Unit := do
  let goesOn ← restoreAudioOutput (env .restore)
  if goesOn then
    drainPlayerEvents events
    music (.takeTimedOutVote (env .vote).now)
    attempt (resolveActiveVote (env .vote))
    attempt (maybeStartPendingPlayback (env .pending))
    attempt (resolveBufferOperation (env .buffer))
    attempt (startNextIfIdle (env .startNext))
    attempt (maybePauseForBufferHealthLoss (env .health))
    followPlayback (env .follow)

/-- The reaction to the synchronisation timer, once a second: the leader refreshes its state. -/
def musicSyncTick (env : Env) : Handler Unit := do
  let b ← get
  music (.refreshPlaybackState b.localPeerId (env.clock .musicSync))
  match (b.music.refreshPlaybackState b.localPeerId (env.clock .musicSync)).1 with
  | none => return
  | some state => publishPlaybackState env state

/-! ## Connections -/

/-- Publishes queue and playback for a new peer. -/
def publishMusicSnapshot (env : Env) : Handler Unit := do
  publishQueueSnapshot env
  let b ← get
  match b.music.playbackState with
  | none => return
  | some state => publishPlaybackStateIfLocalSource env state

/-- Publishes queue and playback unless that was done a moment ago. -/
def publishMusicSnapshotIfDue (env : Env) : Handler Unit := do
  let b ← get
  if b.lastMusicSnapshot.all fun last => env.now - last ≥ musicSnapshotMinInterval then
    publishMusicSnapshot env
    modify fun b => { b with lastMusicSnapshot := some env.now }

/-- A connection to a peer has been opened. -/
def handleConnectionEstablished (env : Env) (peerId : PeerId) : Handler Unit := do
  modify fun b => { b with connectedPeers := insert peerId b.connectedPeers }
  attempt (publishMusicSnapshotIfDue env)

/-- Stops expecting a peer in the operation in progress, and looks whether that decides it. -/
def removeFromBufferQuorum (env : Env) (peerId : PeerId) : Handler Unit := do
  let b ← get
  coordinate (.removeExpectedPeer peerId env.now)
  if (b.buffer.removeExpectedPeer peerId env.now).1.isSome then
    attempt (resolveBufferOperation env)

/-- A connection to a peer has been closed; with the last one the peer has left. -/
def handleConnectionClosed (env : Env) (peerId : PeerId) (numEstablished : Nat) :
    Handler Unit :=
  if numEstablished = 0 then do
    modify fun b => { b with connectedPeers := b.connectedPeers.erase peerId }
    music (.removePendingPeer peerId)
    removeFromBufferQuorum env peerId
    attempt (maybeStartPendingPlayback env)
  else
    return

/-! ## Events -/

/-- What the main loop waits for. -/
inductive Event where
  | command (env : Env) (command : NetworkCommand)
  | musicLocal (env : TickPhase → Env) (events : List (Env × AudioPlayerEvent))
  | musicSync (env : Env)
  | wire (env : Env) (source : PeerId) (message : WireMessage)
  | connectionEstablished (env : Env) (peerId : PeerId)
  | connectionClosed (env : Env) (peerId : PeerId) (numEstablished : Nat)
  | slowPeer (env : Env) (peerId : PeerId)

/-- The reaction to an event. -/
def react : Event → Handler Unit
  | .command env command => handleCommand env command
  | .musicLocal env events => musicLocalTick env events
  | .musicSync env => musicSyncTick env
  | .wire env source message => applyWireMessage env source message
  | .connectionEstablished env peerId => handleConnectionEstablished env peerId
  | .connectionClosed env peerId numEstablished =>
    handleConnectionClosed env peerId numEstablished
  | .slowPeer env peerId => removeFromBufferQuorum env peerId

/-! ## A plain environment -/

/-- No audio output, and a player that agrees to everything. -/
def AudioReplies.silent : AudioReplies where
  opens := false
  setPlaying _ _ := .ok ()
  startPreparedStream _ _ _ _ := .ok true
  playableTrack track := .ok track
  prepareStream _ _ _ _ := .ok ()
  seek _ _ _ := .ok ()
  currentTrackId := none
  currentSessionId := none
  positionMs _ := 0
  isPlaying := false
  isFinished _ := false

/-- An environment in which every reading of the wall clock is the same, every message is
published and every nonempty text names a peer. -/
def Env.plain (micros : Int) : Env where
  now := micros.toNat * 1000
  clock _ := micros
  parsePeerId value := if value = "" then none else some value
  gossipsub _ := .ok ()
  audio := .silent
  resolveTrack bvid part := .ok {
    trackId := bvid ++ ":" ++ toString part
    sourceKind := "bilibili"
    bvid := bvid
    part := part
    durationMs := 240000 }
  newVoteId peerId createdAtMicros := "v-" ++ peerId ++ "-" ++ toString createdAtMicros
  newQueueItemId peerId trackId := "q-" ++ peerId ++ "-" ++ toString micros ++ "-" ++ trackId

/-! ## Runs -/

namespace Backend

/-- The state after an event. -/
def step (b : Backend) (event : Event) : Backend := Foundation.finalState (react event) b

/-- The state after a list of events. -/
def run (b : Backend) (events : List Event) : Backend := events.foldl step b

/-- The states a backend can get into. -/
def Reachable (b : Backend) : Prop :=
  ∃ localPeerId rendezvousNodes audioPlayer nextAudioOutputRetry events,
    b = (Backend.new localPeerId rendezvousNodes audioPlayer nextAudioOutputRetry).run events

end Backend

end LightEar
