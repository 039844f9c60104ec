import LightEar.Core

/-!
# The music state of one peer

Every peer keeps its own copy of the queue, of the playback state and of the vote in progress.
Copies meet by two last-writer-wins rules: a queue snapshot replaces the local queue when its
key (stamp, version) is greater, a playback state replaces the local one when its order key
(stamp, version, leader) is greater.  The functions below are those of the program, in its
order; every one of them is total and none of them reads a clock.
-/

namespace LightEar

/-! ## Order keys and positions -/

/-- Whether one queue key is above another. -/
def isQueueStateNewer (candidateVersion : Nat) (candidateUpdatedAt : Int) (localVersion : Nat)
    (localUpdatedAt : Int) : Bool :=
  candidateUpdatedAt > localUpdatedAt ||
    (candidateUpdatedAt == localUpdatedAt && candidateVersion > localVersion)

/-- Whether a snapshot is newer than a queue with the given key. -/
def shouldApplyQueueState (localVersion : Nat) (localUpdatedAt : Int) (state : QueueState) : Bool :=
  isQueueStateNewer state.version state.updatedAtMicros localVersion localUpdatedAt

theorem isQueueStateNewer_iff {v w : Nat} {s t : Int} :
    isQueueStateNewer v s w t = true ↔ t < s ∨ s = t ∧ w < v := by
  simp [isQueueStateNewer]

/-- The key by which playback states are ordered: stamp, version and leader. -/
structure PlaybackOrderKey where
  /-- The stamp of the state. -/
  issuedAtMicros : Int
  /-- The leader's count of changes. -/
  stateVersion : Nat
  /-- The leader, which breaks the remaining ties. -/
  leaderPeerId : PeerId
  deriving DecidableEq, Repr

namespace PlaybackOrderKey

/-- The lexicographic order of the three parts. -/
def lt (a b : PlaybackOrderKey) : Prop :=
  a.issuedAtMicros < b.issuedAtMicros ∨
    a.issuedAtMicros = b.issuedAtMicros ∧
      (a.stateVersion < b.stateVersion ∨
        a.stateVersion = b.stateVersion ∧ a.leaderPeerId < b.leaderPeerId)

instance : LT PlaybackOrderKey := ⟨lt⟩

instance (a b : PlaybackOrderKey) : Decidable (a < b) :=
  inferInstanceAs (Decidable (_ ∨ _ ∧ (_ ∨ _ ∧ _)))

theorem lt_iff {a b : PlaybackOrderKey} :
    a < b ↔ a.issuedAtMicros < b.issuedAtMicros ∨
      a.issuedAtMicros = b.issuedAtMicros ∧
        (a.stateVersion < b.stateVersion ∨
          a.stateVersion = b.stateVersion ∧ a.leaderPeerId < b.leaderPeerId) :=
  Iff.rfl

theorem lt_irrefl (a : PlaybackOrderKey) : ¬ a < a := by
  simp [lt_iff]

theorem lt_asymm {a b : PlaybackOrderKey} (h : a < b) : ¬ b < a := by
  simp only [lt_iff] at h ⊢
  rintro (h' | ⟨h', h'' | ⟨h'', h'''⟩⟩)
  · rcases h with h | ⟨h, -⟩ <;> omega
  · rcases h with h | ⟨h, h | ⟨h, -⟩⟩ <;> omega
  · rcases h with h | ⟨h, h | ⟨h, hlt⟩⟩
    · omega
    · omega
    · exact absurd hlt (String.lt_asymm h''')

end PlaybackOrderKey

/-- The order key of a playback state. -/
def playbackOrderKey (state : PlaybackState) : PlaybackOrderKey where
  issuedAtMicros := state.issuedAtMicros
  stateVersion := state.stateVersion
  leaderPeerId := state.leaderPeerId

/-- Whether an incoming playback state replaces the current one.  Between equal keys only a
state of the same track and leader that has moved on is taken. -/
def shouldApplyPlaybackState (current : Option PlaybackState) (next : PlaybackState) : Bool :=
  match current with
  | none => true
  | some current =>
    if playbackOrderKey next ≠ playbackOrderKey current then
      playbackOrderKey current < playbackOrderKey next
    else
      current.track.map PlaybackTrack.trackId == next.track.map PlaybackTrack.trackId &&
        current.leaderPeerId == next.leaderPeerId &&
          (current.anchorTimeMicros < next.anchorTimeMicros ||
            current.positionMs != next.positionMs || current.playing != next.playing)

/-- A state with a greater key is taken. -/
theorem shouldApplyPlaybackState_of_lt {current next : PlaybackState}
    (h : playbackOrderKey current < playbackOrderKey next) :
    shouldApplyPlaybackState (some current) next = true := by
  have hne : playbackOrderKey next ≠ playbackOrderKey current := fun heq => by
    rw [heq] at h
    exact PlaybackOrderKey.lt_irrefl _ h
  simp [shouldApplyPlaybackState, hne, h]

/-- A state with a smaller key is refused. -/
theorem shouldApplyPlaybackState_of_gt {current next : PlaybackState}
    (h : playbackOrderKey next < playbackOrderKey current) :
    shouldApplyPlaybackState (some current) next = false := by
  have hne : playbackOrderKey next ≠ playbackOrderKey current := fun heq => by
    rw [heq] at h
    exact PlaybackOrderKey.lt_irrefl _ h
  simp [shouldApplyPlaybackState, hne, PlaybackOrderKey.lt_asymm h]

/-- Moves the anchor of a received state to the local clock and keeps a scheduled start as far
ahead as it was for the sender. -/
def normalizeRemotePlaybackState (state : PlaybackState) (receivedAtMicros : Int) :
    PlaybackState :=
  let startDelayMicros :=
    if state.playing && state.anchorTimeMicros > state.issuedAtMicros then
      satI64 (state.anchorTimeMicros - state.issuedAtMicros)
    else 0
  { state with anchorTimeMicros := satI64 (receivedAtMicros + startDelayMicros) }

/-- Bounds a position by the length of the loaded track. -/
def clampPlaybackPositionMs (state : PlaybackState) (positionMs : Nat) : Nat :=
  match state.track with
  | none => positionMs
  | some track => min positionMs track.durationMs

/-- The position of a state at a given time.  The quotient is exact here where the program
computes it in `f64`. -/
def playbackPositionMs (state : PlaybackState) (nowMicros : Int) : Nat :=
  let positionMs :=
    if !state.playing then state.positionMs
    else
      let elapsedMicros : Int := max (satI64 (nowMicros - state.anchorTimeMicros)) 0
      let elapsedMs := ⌊(elapsedMicros : Rat) / 1000 * max state.rate 0⌋.toNat
      satAdd state.positionMs (min elapsedMs u64Max)
  clampPlaybackPositionMs state positionMs

/-- Whether a position is short of the end. -/
def canPlayAtPosition (state : PlaybackState) (positionMs : Nat) : Bool :=
  match state.track with
  | none => true
  | some track => positionMs < track.durationMs

/-- Whether a state is to be heard at a given time. -/
def playbackShouldBeAudible (state : PlaybackState) (nowMicros : Int) : Bool :=
  state.playing && nowMicros ≥ state.anchorTimeMicros &&
    canPlayAtPosition state (playbackPositionMs state nowMicros)

/-- Session and track of a state with a track. -/
def playbackTrackKey (state : PlaybackState) : Option (String × String) :=
  state.track.map fun track => (state.sessionId, track.trackId)

/-- Whether the local peer asked for the track that plays. -/
def canControlPlayback (state : PlaybackState) (localPeerId : PeerId) : Bool :=
  state.trackRequestedBy == some localPeerId

@[simp] theorem normalizeRemotePlaybackState_sessionId (state : PlaybackState) (t : Int) :
    (normalizeRemotePlaybackState state t).sessionId = state.sessionId := rfl

@[simp] theorem normalizeRemotePlaybackState_track (state : PlaybackState) (t : Int) :
    (normalizeRemotePlaybackState state t).track = state.track := rfl

@[simp] theorem normalizeRemotePlaybackState_issuedAtMicros (state : PlaybackState) (t : Int) :
    (normalizeRemotePlaybackState state t).issuedAtMicros = state.issuedAtMicros := rfl

@[simp] theorem normalizeRemotePlaybackState_trackRequestedBy (state : PlaybackState) (t : Int) :
    (normalizeRemotePlaybackState state t).trackRequestedBy = state.trackRequestedBy := rfl

/-! ## The state -/

/-- A playback waiting for the room to be ready. -/
structure PreparingPlayback where
  /-- The state to start with. -/
  state : PlaybackState
  /-- The peers waited for. -/
  expectedPeers : Finset PeerId
  /-- The peers that have reported. -/
  readyPeers : Finset PeerId
  /-- When waiting ends. -/
  deadline : Instant

/-- Idle, waiting to start, or playing. -/
inductive PlaybackPhase where
  | idle (state : Option PlaybackState)
  | preparing (preparing : PreparingPlayback)
  | active (state : PlaybackState)

/-- The queue, the playback and the vote of one peer. -/
structure MusicState where
  /-- The queued items, front first. -/
  queue : List QueueItem
  /-- How often the queue has changed. -/
  queueVersion : Nat
  /-- The stamp of the last change. -/
  queueUpdatedAt : Int
  /-- The local count of playback changes. -/
  playbackVersion : Nat
  /-- The vote in progress. -/
  activeVote : Option ActiveVote
  /-- What plays. -/
  playbackPhase : PlaybackPhase

namespace PreparingPlayback

/-- A playback another peer prepares: it is not waited for here. -/
def follower (state : PlaybackState) (now : Instant) : PreparingPlayback where
  state := state
  expectedPeers := ∅
  readyPeers := ∅
  deadline := now

/-- Whether the local peer waits for the others. -/
def isLeader (preparing : PreparingPlayback) (localPeerId : PeerId) : Bool :=
  preparing.state.leaderPeerId == localPeerId

/-- Whether everybody has reported. -/
def isReady (preparing : PreparingPlayback) : Bool :=
  preparing.expectedPeers ⊆ preparing.readyPeers

end PreparingPlayback

namespace MusicState

/-- Empty queue, nothing playing, no vote. -/
def new : MusicState where
  queue := []
  queueVersion := 0
  queueUpdatedAt := 0
  playbackVersion := 0
  activeVote := none
  playbackPhase := .idle none

/-- The snapshot of the queue that goes on the wire. -/
def queueState (m : MusicState) (localPeerId : PeerId) : QueueState where
  version := m.queueVersion
  updatedAtMicros := m.queueUpdatedAt
  updatedBy := localPeerId
  items := m.queue

/-- Gives the queue a new key: the next version and the given stamp. -/
def markQueueChanged (m : MusicState) (updatedAtMicros : Int) : MusicState :=
  { m with queueVersion := satAdd m.queueVersion 1, queueUpdatedAt := updatedAtMicros }

/-- Appends an item. -/
def appendQueueItem (m : MusicState) (item : QueueItem) : MusicState :=
  { m with queue := m.queue ++ [item] }

/-- Removes the item at a place counted from one. -/
def removeQueueIndex (m : MusicState) (index : Nat) : MusicState :=
  if index = 0 then m else { m with queue := m.queue.eraseIdx (index - 1) }

/-- The state of whatever phase the playback is in. -/
def playbackState (m : MusicState) : Option PlaybackState :=
  match m.playbackPhase with
  | .idle state => state
  | .preparing preparing => some preparing.state
  | .active state => some state

/-- Rewrites the state of whatever phase the playback is in. -/
def mapPlaybackState (m : MusicState) (f : PlaybackState → PlaybackState) : MusicState :=
  match m.playbackPhase with
  | .idle state => { m with playbackPhase := .idle (state.map f) }
  | .preparing preparing =>
    { m with playbackPhase := .preparing { preparing with state := f preparing.state } }
  | .active state => { m with playbackPhase := .active (f state) }

/-- Whether a playback waits for the room. -/
def hasPendingPlayback (m : MusicState) : Bool :=
  match m.playbackPhase with
  | .preparing _ => true
  | .idle _ | .active _ => false

/-- Whether a track is loaded. -/
def hasTrack (m : MusicState) : Bool :=
  (m.playbackState.bind PlaybackState.track).isSome

/-- Whether nothing stands in the way of the next queue item. -/
def canStartNext (m : MusicState) : Bool :=
  !m.hasPendingPlayback && !m.hasTrack

/-! ## Votes -/

/-- Why a proposal no longer fits the state of this peer, if it does not. -/
def staleVoteReason (m : MusicState) (proposal : VoteProposal) : Option String :=
  let queueReason (itemId : String) : Option String :=
    if proposal.queueVersion < m.queueVersion then
      some "queue changed during vote"
    else if proposal.queueVersion = m.queueVersion then
      if m.queue.any (·.itemId == itemId) then none
      else some "queue item is no longer available"
    else none
  let playbackReason : Option String :=
    match m.playbackState.bind fun state => state.track.map fun _ => state.sessionId with
    | none => some "no active playback"
    | some currentSession =>
      if proposal.playbackSessionId ≠ some currentSession then
        some "playback changed during vote"
      else none
  match proposal.action with
  | .remove itemId => queueReason itemId
  | .move itemId _ => queueReason itemId
  | .pause | .resume | .skip | .seek _ => playbackReason

/-- Drops a queue vote that a new queue has made stale. -/
def invalidateStaleQueueVote (m : MusicState) : MusicState :=
  match m.activeVote with
  | none => m
  | some vote =>
    if vote.proposal.action.isQueueAction && (m.staleVoteReason vote.proposal).isSome then
      { m with activeVote := none }
    else m

/-- Drops a playback vote. -/
def invalidatePlaybackVote (m : MusicState) : MusicState :=
  match m.activeVote with
  | none => m
  | some vote =>
    if vote.proposal.action.isPlaybackAction then { m with activeVote := none } else m

/-- Drops a playback vote when another session or track takes over. -/
def invalidatePlaybackVoteIfTrackChanges (m : MusicState) (next : PlaybackState) : MusicState :=
  match m.activeVote with
  | none => m
  | some vote =>
    if vote.proposal.action.isPlaybackAction &&
        m.playbackState.bind playbackTrackKey != playbackTrackKey next then
      { m with activeVote := none }
    else m

/-- Opens a vote with the proposer's own approval. -/
def openVote (m : MusicState) (proposal : VoteProposal) (deadline : Instant) : MusicState :=
  { m with activeVote := some ((ActiveVote.new proposal deadline).vote proposal.proposer true).2 }

/-- Opens the vote the local peer proposes. -/
def startVote (m : MusicState) (proposal : VoteProposal) (deadline : Instant) : MusicState :=
  m.openVote proposal deadline

/-- Opens the vote another peer proposes, unless one is open or the proposal is stale. -/
def receiveVoteProposal (m : MusicState) (proposal : VoteProposal) (deadline : Instant) :
    Except String MusicState :=
  if m.activeVote.isSome then .error "another vote is active"
  else
    match m.staleVoteReason proposal with
    | some reason => .error reason
    | none => .ok (m.openVote proposal deadline)

/-- Whether a ballot was counted, and the vote it was for. -/
inductive VoteCastOutcome where
  | accepted (voteId : String)
  | duplicate (voteId : String)
  deriving DecidableEq, Repr

/-- A ballot of the local peer. -/
def castVote (m : MusicState) (peerId : PeerId) (approve : Bool) :
    Option VoteCastOutcome × MusicState :=
  match m.activeVote with
  | none => (none, m)
  | some vote =>
    let (accepted, vote') := vote.vote peerId approve
    let outcome : VoteCastOutcome :=
      if accepted then .accepted vote.proposal.voteId else .duplicate vote.proposal.voteId
    (some outcome, { m with activeVote := some vote' })

/-- A ballot from the wire, for the vote it names. -/
def castVoteFor (m : MusicState) (voteId : String) (peerId : PeerId) (approve : Bool) :
    Bool × MusicState :=
  match m.activeVote with
  | none => (false, m)
  | some vote =>
    if vote.proposal.voteId ≠ voteId then (false, m)
    else
      let (accepted, vote') := vote.vote peerId approve
      (accepted, { m with activeVote := some vote' })

/-- A vote that has been decided. -/
inductive VoteResolution where
  | passed (proposal : VoteProposal)
  | rejected (proposal : VoteProposal)
  deriving DecidableEq, Repr

/-- The proposal of a queue vote that has its majority but is about a newer queue. -/
def readyVoteWaitingForQueue (m : MusicState) (threshold : Nat) : Option VoteProposal :=
  match m.activeVote with
  | none => none
  | some vote =>
    if vote.approvalCount < threshold then none
    else if vote.proposal.action.isQueueAction && vote.proposal.queueVersion > m.queueVersion then
      some vote.proposal
    else none

/-- Takes the vote out once it is decided. -/
def resolveVote (m : MusicState) (threshold eligiblePeers : Nat) :
    Option VoteResolution × MusicState :=
  match m.activeVote with
  | none => (none, m)
  | some vote =>
    match vote.terminalOutcome threshold eligiblePeers with
    | .pending => (none, m)
    | .passed =>
      if (m.readyVoteWaitingForQueue threshold).isSome then (none, m)
      else (some (.passed vote.proposal), { m with activeVote := none })
    | .rejected => (some (.rejected vote.proposal), { m with activeVote := none })

/-- Drops a vote that has lapsed. -/
def takeTimedOutVote (m : MusicState) (now : Instant) : MusicState :=
  match m.activeVote with
  | none => m
  | some vote => if now ≥ vote.deadline then { m with activeVote := none } else m

/-- A vote that is not stale may be executed here. -/
def shouldExecuteVoteLocally (m : MusicState) (proposal : VoteProposal)
    (_localPeerId : PeerId) : Bool :=
  (m.staleVoteReason proposal).isNone

/-! ## Queue and playback -/

/-- Takes over a queue snapshot that is newer than the local queue; says whether it was. -/
def applyRemoteQueueState (m : MusicState) (state : QueueState) : Bool × MusicState :=
  if shouldApplyQueueState m.queueVersion m.queueUpdatedAt state then
    (true, MusicState.invalidateStaleQueueVote { m with
      queue := state.items
      queueVersion := state.version
      queueUpdatedAt := state.updatedAtMicros })
  else (false, m)

/-- Loads a state: with a track it plays, without one the room is idle. -/
def setPlaybackState (m : MusicState) (state : PlaybackState) : MusicState :=
  { m.invalidatePlaybackVoteIfTrackChanges state with
    playbackPhase := if state.track.isSome then .active state else .idle (some state) }

/-- Loads a state that another peer prepares. -/
def setRemotePlaybackPrepare (m : MusicState) (state : PlaybackState) (now : Instant) :
    MusicState :=
  { m.invalidatePlaybackVoteIfTrackChanges state with
    playbackPhase := .preparing (.follower state now) }

/-- Forgets the playback of a session. -/
def cancelPlayback (m : MusicState) (sessionId : String) : MusicState :=
  if m.playbackState.any (·.sessionId == sessionId) then
    { m.invalidatePlaybackVote with playbackPhase := .idle none }
  else m

/-- Counts a peer as ready for a playback the local peer prepares; says whether it was new. -/
def markPlaybackReady (m : MusicState) (sessionId : String) (peerId localPeerId : PeerId) :
    Bool × MusicState :=
  match m.playbackPhase with
  | .preparing preparing =>
    if preparing.state.sessionId ≠ sessionId ∨ preparing.isLeader localPeerId = false then
      (false, m)
    else if peerId ∈ preparing.expectedPeers ∧ peerId ∉ preparing.readyPeers then
      let marked := { preparing with readyPeers := insert peerId preparing.readyPeers }
      (true, { m with playbackPhase := .preparing marked })
    else (false, m)
  | .idle _ | .active _ => (false, m)

/-- Stops waiting for a peer. -/
def removePendingPeer (m : MusicState) (peerId : PeerId) : MusicState :=
  match m.playbackPhase with
  | .preparing preparing =>
    let removed := { preparing with
      expectedPeers := preparing.expectedPeers.erase peerId
      readyPeers := preparing.readyPeers.erase peerId }
    { m with playbackPhase := .preparing removed }
  | .idle _ | .active _ => m

/-- Starts a prepared playback when everybody is ready or waiting is over. -/
def maybeStartPendingPlayback (m : MusicState) (localPeerId : PeerId) (now : Instant)
    (nowMicros startDelayMicros : Int) : Option PlaybackState × MusicState :=
  match m.playbackPhase with
  | .preparing preparing =>
    if preparing.isLeader localPeerId = false then (none, m)
    else if preparing.isReady = false ∧ now < preparing.deadline then (none, m)
    else
      let version := satAdd m.playbackVersion 1
      let state := { preparing.state with
        stateVersion := version
        issuedAtMicros := nowMicros
        playing := true
        positionMs := 0
        anchorTimeMicros := nowMicros + startDelayMicros }
      (some state, { m with playbackVersion := version, playbackPhase := .active state })
  | .idle _ | .active _ => (none, m)

/-- Takes back a playback the local peer prepares; gives its session. -/
def takeLocalPendingCancel (m : MusicState) (localPeerId : PeerId) :
    Option String × MusicState :=
  match m.playbackPhase with
  | .preparing preparing =>
    if preparing.isLeader localPeerId then
      (some preparing.state.sessionId, { m with playbackPhase := .idle none })
    else (none, m)
  | .idle _ | .active _ => (none, m)

/-- The state of an idle room. -/
def idleState (peerId : PeerId) (version : Nat) (micros : Int) : PlaybackState where
  sessionId := peerId ++ ":" ++ toString micros ++ ":idle"
  leaderPeerId := peerId
  track := none
  trackRequestedBy := none
  stateVersion := version
  issuedAtMicros := micros
  playing := false
  positionMs := 0
  anchorTimeMicros := micros
  rate := 1

/-- Stops the playback under the next local version. -/
def stopCurrentPlayback (m : MusicState) (localPeerId : PeerId) (nowMicros : Int) :
    PlaybackState × MusicState :=
  let version := satAdd m.playbackVersion 1
  let state := idleState localPeerId version nowMicros
  (state, { m with playbackVersion := version, playbackPhase := .idle (some state) })

/-- The version of a state that a vote makes: the time of the proposal. -/
def votePlaybackVersion (m : MusicState) (voteMicros : Int) : Nat × MusicState :=
  let version := microsToVersion voteMicros
  (version, { m with playbackVersion := max m.playbackVersion version })

/-- Stops the playback on behalf of a vote. -/
def stopCurrentPlaybackForVote (m : MusicState) (actorPeerId : PeerId) (voteMicros : Int) :
    PlaybackState × MusicState :=
  let (version, m') := m.votePlaybackVersion voteMicros
  let state := idleState actorPeerId version voteMicros
  (state, { m' with playbackPhase := .idle (some state) })

/-- The state a passed vote leaves behind: at rest where the proposal found it. -/
def pausedForVote (actorPeerId : PeerId) (voteMicros : Int) (version : Nat)
    (state : PlaybackState) : PlaybackState :=
  { state with
    stateVersion := version
    issuedAtMicros := voteMicros
    playing := false
    positionMs := playbackPositionMs state voteMicros
    anchorTimeMicros := voteMicros
    leaderPeerId := actorPeerId }

/-- Pauses the playback on behalf of a vote. -/
def pausePlaybackForVote (m : MusicState) (actorPeerId : PeerId) (voteMicros : Int) :
    Option PlaybackState × MusicState :=
  let (version, m') := m.votePlaybackVersion voteMicros
  let m'' := m'.mapPlaybackState (pausedForVote actorPeerId voteMicros version)
  (m''.playbackState, m'')

/-- The leader's refresh: a running state is moved to its present position, every state of the
leader gets a new stamp. -/
def refreshedState (now : Int) (state : PlaybackState) : PlaybackState :=
  let moved :=
    if !state.playing || now ≥ state.anchorTimeMicros then
      { state with positionMs := playbackPositionMs state now, anchorTimeMicros := now }
    else state
  { moved with issuedAtMicros := now }

/-- The leader's refresh of the loaded state, and the state to publish. -/
def refreshPlaybackState (m : MusicState) (localPeerId : PeerId) (now : Int) :
    Option PlaybackState × MusicState :=
  if m.hasPendingPlayback then (none, m)
  else
    match m.playbackState with
    | none => (none, m)
    | some state =>
      if state.leaderPeerId = localPeerId ∧ state.track.isSome then
        let m' := m.mapPlaybackState (refreshedState now)
        (m'.playbackState, m')
      else (none, m)

/-- A refresh changes position, anchor and stamp only. -/
theorem refreshedState_eq (now : Int) (state : PlaybackState) :
    ∃ positionMs anchor, refreshedState now state =
      { state with positionMs, anchorTimeMicros := anchor, issuedAtMicros := now } := by
  unfold refreshedState
  dsimp only
  split
  · exact ⟨_, _, rfl⟩
  · exact ⟨_, _, rfl⟩

/-! ## The current state after a change -/

@[simp] theorem setPlaybackState_playbackState (m : MusicState) (state : PlaybackState) :
    (m.setPlaybackState state).playbackState = some state := by
  unfold setPlaybackState playbackState
  cases state.track <;> rfl

/-- Two music states with the same items under the same key. -/
structure SameQueue (m m' : MusicState) : Prop where
  /-- The items are the same. -/
  items : m.queue = m'.queue
  /-- The version is the same. -/
  version : m.queueVersion = m'.queueVersion
  /-- The stamp is the same. -/
  updatedAt : m.queueUpdatedAt = m'.queueUpdatedAt

theorem SameQueue.refl (m : MusicState) : m.SameQueue m := ⟨rfl, rfl, rfl⟩

theorem SameQueue.symm {m m' : MusicState} (h : m.SameQueue m') : m'.SameQueue m :=
  ⟨h.items.symm, h.version.symm, h.updatedAt.symm⟩

theorem SameQueue.trans {m m' m'' : MusicState} (h : m.SameQueue m') (h' : m'.SameQueue m'') :
    m.SameQueue m'' :=
  ⟨h.items.trans h'.items, h.version.trans h'.version, h.updatedAt.trans h'.updatedAt⟩

/-- Loading a state leaves the queue alone. -/
theorem setPlaybackState_sameQueue (m : MusicState) (state : PlaybackState) :
    (m.setPlaybackState state).SameQueue m := by
  unfold setPlaybackState invalidatePlaybackVoteIfTrackChanges
  dsimp only
  split
  · exact ⟨rfl, rfl, rfl⟩
  · split
    · exact ⟨rfl, rfl, rfl⟩
    · exact ⟨rfl, rfl, rfl⟩

@[simp] theorem mapPlaybackState_playbackState (m : MusicState)
    (f : PlaybackState → PlaybackState) :
    (m.mapPlaybackState f).playbackState = m.playbackState.map f := by
  unfold mapPlaybackState playbackState
  cases m.playbackPhase <;> rfl

@[simp] theorem mapPlaybackState_activeVote (m : MusicState)
    (f : PlaybackState → PlaybackState) : (m.mapPlaybackState f).activeVote = m.activeVote := by
  unfold mapPlaybackState
  cases m.playbackPhase <;> rfl

/-- Pausing for a vote rewrites the state of whatever phase the playback is in. -/
theorem pausePlaybackForVote_playbackState (m : MusicState) (actor : PeerId) (micros : Int) :
    (m.pausePlaybackForVote actor micros).2.playbackState =
      m.playbackState.map (pausedForVote actor micros (microsToVersion micros)) :=
  mapPlaybackState_playbackState _ _

/-- A refresh rewrites what plays or leaves it alone. -/
theorem refreshPlaybackState_playbackState (m : MusicState) (localPeerId : PeerId)
    (now : Int) :
    (m.refreshPlaybackState localPeerId now).2.playbackState =
        m.playbackState.map (refreshedState now) ∨
      (m.refreshPlaybackState localPeerId now).2.playbackState = m.playbackState := by
  unfold refreshPlaybackState
  split
  · exact .inr rfl
  · split
    · exact .inr rfl
    · split
      · exact .inl (mapPlaybackState_playbackState _ _)
      · exact .inr rfl

theorem stopCurrentPlaybackForVote_playbackState (m : MusicState) (actor : PeerId)
    (micros : Int) :
    (m.stopCurrentPlaybackForVote actor micros).2.playbackState =
      some (idleState actor (microsToVersion micros) micros) := rfl

/-! ## Decided votes -/

/-- A vote with enough approvals waits exactly when it is about a newer queue. -/
theorem readyVoteWaitingForQueue_of_majority {m : MusicState} {threshold : Nat} {vote : ActiveVote}
    (hvote : m.activeVote = some vote) (h : threshold ≤ vote.approvals.card) :
    m.readyVoteWaitingForQueue threshold =
      if vote.proposal.action.isQueueAction && vote.proposal.queueVersion > m.queueVersion then
        some vote.proposal
      else none := by
  have hcount : ¬ vote.approvalCount < threshold := not_lt.2 h
  unfold readyVoteWaitingForQueue
  rw [hvote]
  dsimp only
  rw [if_neg hcount]

/-- A vote that passes does not wait for a queue, and is taken out. -/
theorem resolveVote_eq_passed {m : MusicState} {threshold eligiblePeers : Nat}
    {proposal : VoteProposal}
    (h : (m.resolveVote threshold eligiblePeers).1 = some (.passed proposal)) :
    m.readyVoteWaitingForQueue threshold = none ∧
      (m.resolveVote threshold eligiblePeers).2 = { m with activeVote := none } := by
  unfold resolveVote at h ⊢
  cases hvote : m.activeVote with
  | none => simp [hvote] at h
  | some vote =>
    cases houtcome : vote.terminalOutcome threshold eligiblePeers with
    | pending => simp [hvote, houtcome] at h
    | rejected => simp [hvote, houtcome] at h
    | passed =>
      cases hwaiting : m.readyVoteWaitingForQueue threshold with
      | none => exact ⟨rfl, by simp [houtcome]⟩
      | some _ => simp [hvote, houtcome, hwaiting] at h

/-- A vote that passes is the one in the box, with enough approvals. -/
theorem resolveVote_passed_box {m : MusicState} {threshold eligiblePeers : Nat}
    {proposal : VoteProposal}
    (h : (m.resolveVote threshold eligiblePeers).1 = some (.passed proposal)) :
    ∃ vote, m.activeVote = some vote ∧ vote.proposal = proposal ∧
      threshold ≤ vote.approvals.card := by
  unfold resolveVote at h
  cases hvote : m.activeVote with
  | none => simp [hvote] at h
  | some vote =>
    rw [hvote] at h
    dsimp only at h
    split at h
    · cases h
    · rename_i houtcome
      split at h
      · cases h
      · cases h
        refine ⟨vote, rfl, rfl, ?_⟩
        unfold ActiveVote.terminalOutcome at houtcome
        split_ifs at houtcome with hpassed
        exact hpassed
    · cases h

/-- A vote that waits for a queue is not resolved. -/
theorem resolveVote_of_waiting {m : MusicState} {threshold : Nat} {proposal : VoteProposal}
    (h : m.readyVoteWaitingForQueue threshold = some proposal) (eligiblePeers : Nat) :
    m.resolveVote threshold eligiblePeers = (none, m) := by
  unfold resolveVote
  cases hvote : m.activeVote with
  | none => rfl
  | some vote =>
    have hmajority : threshold ≤ vote.approvals.card := by
      unfold readyVoteWaitingForQueue at h
      rw [hvote] at h
      dsimp only at h
      split_ifs at h with hfew
      exact not_lt.1 hfew
    have houtcome : vote.terminalOutcome threshold eligiblePeers = .passed := if_pos hmajority
    dsimp only
    rw [houtcome, h]
    rfl

/-- Looking at a vote takes it out if it is decided, and changes nothing if it is not. -/
theorem resolveVote_snd (m : MusicState) (threshold eligiblePeers : Nat) :
    (m.resolveVote threshold eligiblePeers).2 =
      match (m.resolveVote threshold eligiblePeers).1 with
      | some _ => { m with activeVote := none }
      | none => m := by
  unfold resolveVote
  cases m.activeVote with
  | none => rfl
  | some vote =>
    dsimp only
    cases vote.terminalOutcome threshold eligiblePeers with
    | pending => rfl
    | rejected => rfl
    | passed => cases m.readyVoteWaitingForQueue threshold <;> rfl

end MusicState

end LightEar
