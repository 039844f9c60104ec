import LightEar.Backend.Step

/-!
# Reactions as chains of moves

A reaction changes the backend in few ways: it changes the music state or the coordinator by one
of their listed operations, hands a message to the network, notes a commit or the execution of a
vote, or touches something that neither of these depends on.  An `Action` names such a change,
and `Move P` is a step by an action that the policy `P` permits.

One lemma for each function of the backend says under which policy it is a chain of moves.  The
functions that only look after the operation in progress never open one; the others open an
operation only in the way that `Sound` describes.  An invariant of the backend is then shown for
the actions alone.
-/

namespace LightEar

open Foundation

/-! ## Actions -/

/-- The elementary changes of a backend. -/
inductive Action where
  | music (op : MusicOp)
  | coordinate (op : CoordinatorOp)
  | publish (message : WireMessage) (outcome : RoomPublishOutcome)
  | settle (operation : BufferOperation) (state : PlaybackState)
  | execute (proposal : VoteProposal) (actor : PeerId) (op : MusicOp)
  | aside

/-- A change that concerns neither the music, nor the operation, nor what has been noted. -/
structure Aside (b b' : Backend) : Prop where
  /-- The peer stays who it is. -/
  localPeerId : b'.localPeerId = b.localPeerId
  /-- The music state stays. -/
  music : b'.music = b.music
  /-- The coordinator stays. -/
  buffer : b'.buffer = b.buffer
  /-- The noted changes of the coordinator stay. -/
  bufferLog : b'.bufferLog = b.bufferLog
  /-- The noted messages stay. -/
  published : b'.published = b.published
  /-- The noted commits stay. -/
  commits : b'.commits = b.commits
  /-- The noted executions stay. -/
  executions : b'.executions = b.executions

/-- The backend with a commit noted and the committed operation dropped. -/
def Backend.settled (b : Backend) (operation : BufferOperation) (state : PlaybackState) :
    Backend :=
  (b.recordCommit operation state).changeBuffer (.cancel operation.operationId)

/-- The effect of an action. -/
def Action.Does : Action → Backend → Backend → Prop
  | music op, b, b' => b' = b.changeMusic op
  | coordinate op, b, b' => b' = b.changeBuffer op
  | publish message outcome, b, b' => b' = b.recordPublished message outcome
  | settle operation state, b, b' => b' = b.settled operation state
  | execute proposal actor op, b, b' => b' = b.recordExecution proposal actor op
  | aside, b, b' => Aside b b'

/-- Which actions are permitted in which state. -/
abbrev Policy := Backend → Action → Prop

/-- A step by a permitted action. -/
def Move (P : Policy) (b b' : Backend) : Prop :=
  ∃ action : Action, P b action ∧ action.Does b b'

/-- A program all of whose runs are chains of permitted actions. -/
abbrev Moves (P : Policy) {α : Type} (m : Handler α) : Prop := Evolves (Move P) m

/-- A program whose run from `b` is a chain of permitted actions. -/
abbrev MovesAt (P : Policy) {α : Type} (m : Handler α) (b : Backend) : Prop :=
  EvolvesAt (Move P) m b

/-! ## Policies -/

/-- The policy permits every change of the music state. -/
class AllowsMusic (P : Policy) : Prop where
  music : ∀ b op, P b (.music op)

/-- The changes of a music state that start no playback and open no vote. -/
def MusicOp.isCalm : MusicOp → Bool
  | setPlaybackState .. | setRemotePlaybackPrepare .. | maybeStartPendingPlayback ..
  | startVote .. | receiveVoteProposal .. => false
  | _ => true

/-- The policy permits the changes of the music state that start no playback and open no vote. -/
class AllowsCalm (P : Policy) : Prop where
  calm : ∀ b op, op.isCalm = true → P b (.music op)

/-- The changes of a music state that bring no queue item, no proposal and no ballot: a backend
makes no others without being told to. -/
def MusicOp.isOrdinary : MusicOp → Bool
  | appendQueueItem .. | applyRemoteQueueState .. | startVote .. | receiveVoteProposal ..
  | castVote .. | castVoteFor .. => false
  | _ => true

/-- The policy permits the changes of the music state that bring nothing from outside. -/
class AllowsOrdinary (P : Policy) : Prop where
  ordinary : ∀ b op, op.isOrdinary = true → P b (.music op)

/-- The policy permits those of them that start no playback. -/
class AllowsQuiet (P : Policy) : Prop where
  quiet : ∀ b op, op.isCalm = true → op.isOrdinary = true → P b (.music op)

/-- The changes of a music state by which the local peer ends a playback that it leads. -/
def MusicOp.isHalt : MusicOp → Bool
  | takeLocalPendingCancel .. | stopCurrentPlayback .. => true
  | _ => false

/-- The policy permits to end a playback. -/
class AllowsHalt (P : Policy) : Prop where
  halt : ∀ b op, op.isHalt = true → P b (.music op)

/-- Ending a playback starts none. -/
theorem MusicOp.isCalm_of_isHalt {op : MusicOp} (h : op.isHalt = true) : op.isCalm = true := by
  cases op with
  | takeLocalPendingCancel => rfl
  | stopCurrentPlayback => rfl
  | _ => cases h

/-- It brings nothing from outside. -/
theorem MusicOp.isOrdinary_of_isHalt {op : MusicOp} (h : op.isHalt = true) :
    op.isOrdinary = true := by
  cases op with
  | takeLocalPendingCancel => rfl
  | stopCurrentPlayback => rfl
  | _ => cases h

/-- The policy permits to publish. -/
class AllowsPublish (P : Policy) : Prop where
  publish : ∀ b message outcome, P b (.publish message outcome)

/-- The messages by which operations are opened and dropped in the room. -/
def WireMessage.isOperationMessage : WireMessage → Bool
  | playbackBufferPrepare .. | playbackBufferCancel .. => true
  | _ => false

/-- The policy permits to publish messages that open and drop no operation. -/
class AllowsReports (P : Policy) : Prop where
  publish : ∀ b message outcome, message.isOperationMessage = false →
    P b (.publish message outcome)

/-- The policy permits changes that do not matter. -/
class AllowsAside (P : Policy) : Prop where
  aside : ∀ b, P b .aside

/-- The changes of a coordinator that open no operation. -/
def CoordinatorOp.isUpkeep : CoordinatorOp → Bool
  | startLeader .. | receiveRemote .. => false
  | _ => true

/-- The changes of a coordinator that keep the operation in progress. -/
def CoordinatorOp.isSteady : CoordinatorOp → Bool
  | extendDeadline .. | markPreparePublished .. | prepareRepublishDue .. | markStatus .. => true
  | _ => false

/-- The policy permits what keeps the operation in progress. -/
class AllowsSteady (P : Policy) : Prop where
  coordinate : ∀ b op, op.isSteady = true → P b (.coordinate op)

/-- The policy permits to look after the operation in progress. -/
class AllowsUpkeep (P : Policy) : Prop where
  coordinate : ∀ b op, op.isUpkeep = true → P b (.coordinate op)

/-- What keeps the operation in progress opens none. -/
theorem CoordinatorOp.isUpkeep_of_isSteady {op : CoordinatorOp} (h : op.isSteady = true) :
    op.isUpkeep = true := by
  cases op with
  | startLeader => cases h
  | receiveRemote => cases h
  | _ => rfl

/-- What is known when an operation is settled: the local peer leads it, a majority and the
local audio are ready, and its running state has been stored and handed to the network. -/
structure Decided (b : Backend) (operation : BufferOperation) (state : PlaybackState) : Prop where
  /-- The operation is the one in progress. -/
  active : b.buffer.active = some operation
  /-- The local peer leads it. -/
  leads : operation.state.leaderPeerId = b.localPeerId
  /-- A majority has reported that it is ready. -/
  quorum : majorityThreshold operation.expectedPeers.card ≤ operation.count .ready
  /-- With an audio output, the local peer is among those ready. -/
  audible : b.audioPlayer = true → operation.reports b.localPeerId .ready = true
  /-- The state is the operation's, running from an anchor shortly ahead. -/
  committed : ∃ version now,
    state = MusicState.committedState operation.state version now musicStartDelay
  /-- The state is stored. -/
  stored : b.music.playbackState = some state
  /-- The state has been handed to the network. -/
  published : ∃ outcome, (.playbackState state, outcome) ∈ b.published

/-- The policy permits to settle a decided operation. -/
class AllowsSettle (P : Policy) : Prop where
  settle : ∀ b operation state, Decided b operation state → P b (.settle operation state)

/-- The policy permits to open an operation of the local peer; a start is for the front of the
queue. -/
class AllowsOwn (P : Policy) : Prop where
  own : ∀ b item kind positionMs now deadline,
    (kind = .start → b.music.queue.head? = some item) →
      P b (.coordinate (.startLeader (newOperationId kind b.localPeerId now)
        (newOperationState b item kind positionMs now) kind
        (if kind = .start then some item.itemId else none) b.roomPeerIds deadline))

/-- The policy permits to adopt an operation of another peer. -/
class AllowsAdopt (P : Policy) : Prop where
  adopt : ∀ b env operationId sessionId track positionMs leaderPeerId kind expectedPeers timeout
    now, leaderPeerId ≠ b.localPeerId →
      P b (.coordinate (.receiveRemote operationId
        (remoteOperationState env b sessionId track positionMs leaderPeerId) kind expectedPeers
        timeout now))

/-- Only the music state changes, and messages are published. -/
def CommitOnly : Policy
  | _, .music _ | _, .publish _ _ => True
  | _, _ => False

/-- No operation is opened and no vote executed. -/
def Upkeep : Policy
  | _, .coordinate op => op.isUpkeep = true
  | b, .settle operation state => Decided b operation state
  | _, .execute _ _ _ => False
  | _, .music _ | _, .publish _ _ | _, .aside => True

/-- Who may open an operation: the local peer its own, and any peer for the others. -/
def CoordinatorOp.Opens (localPeerId : PeerId) : CoordinatorOp → Prop
  | startLeader _ state .. => state.leaderPeerId = localPeerId
  | receiveRemote _ state .. => state.leaderPeerId ≠ localPeerId
  | _ => True

/-- The change that the execution of a playback vote makes. -/
def MusicOp.Executes (proposal : VoteProposal) (actor : PeerId) (op : MusicOp) : Prop :=
  op = .pausePlaybackForVote actor proposal.createdAtMicros ∨
    op = .stopCurrentPlaybackForVote actor proposal.createdAtMicros

/-- The policy permits to note the execution of a playback vote. -/
class AllowsExecute (P : Policy) : Prop where
  execute : ∀ b proposal actor op, op.Executes proposal actor → P b (.execute proposal actor op)

/-- The policy permits what a backend does by itself, on a timer or on a report of its player. -/
class AllowsTick (P : Policy) : Prop extends AllowsUpkeep P, AllowsOrdinary P, AllowsPublish P,
  AllowsSettle P, AllowsAside P, AllowsOwn P, AllowsExecute P

/-- The changes of a music state that bring queue items. -/
def MusicOp.isFeed : MusicOp → Bool
  | appendQueueItem .. | applyRemoteQueueState .. => true
  | _ => false

/-- The policy permits the changes of the music state that bring queue items. -/
class AllowsFeed (P : Policy) : Prop where
  feed : ∀ b op, op.isFeed = true → P b (.music op)

/-- The policy permits everything that a backend does without a proposal or a ballot. -/
class AllowsDeeds (P : Policy) : Prop extends AllowsTick P, AllowsFeed P, AllowsAdopt P

/-- The policy permits everything that a backend does. -/
class AllowsReactions (P : Policy) : Prop extends AllowsTick P, AllowsMusic P, AllowsAdopt P

/-- What the backend as a whole keeps to. -/
def Sound : Policy
  | b, .coordinate op => op.Opens b.localPeerId
  | b, .settle operation state => Decided b operation state
  | _, .execute proposal actor op => op.Executes proposal actor
  | _, .music _ | _, .publish _ _ | _, .aside => True

instance {P : Policy} [AllowsMusic P] : AllowsCalm P := ⟨fun b op _ => AllowsMusic.music b op⟩
instance {P : Policy} [AllowsMusic P] : AllowsOrdinary P := ⟨fun b op _ => AllowsMusic.music b op⟩
instance {P : Policy} [AllowsMusic P] : AllowsFeed P := ⟨fun b op _ => AllowsMusic.music b op⟩
instance {P : Policy} [AllowsReactions P] : AllowsDeeds P where
instance {P : Policy} [AllowsCalm P] : AllowsQuiet P := ⟨fun b op h _ => AllowsCalm.calm b op h⟩
instance {P : Policy} [AllowsOrdinary P] : AllowsQuiet P :=
  ⟨fun b op _ h => AllowsOrdinary.ordinary b op h⟩
instance {P : Policy} [AllowsQuiet P] : AllowsHalt P :=
  ⟨fun b op h =>
    AllowsQuiet.quiet b op (MusicOp.isCalm_of_isHalt h) (MusicOp.isOrdinary_of_isHalt h)⟩
instance {P : Policy} [AllowsPublish P] : AllowsReports P :=
  ⟨fun b message outcome _ => AllowsPublish.publish b message outcome⟩
instance {P : Policy} [AllowsUpkeep P] : AllowsSteady P :=
  ⟨fun b op h => AllowsUpkeep.coordinate b op (CoordinatorOp.isUpkeep_of_isSteady h)⟩
instance : AllowsMusic CommitOnly := ⟨fun _ _ => trivial⟩
instance : AllowsPublish CommitOnly := ⟨fun _ _ _ => trivial⟩
instance : AllowsMusic Upkeep := ⟨fun _ _ => trivial⟩
instance : AllowsPublish Upkeep := ⟨fun _ _ _ => trivial⟩
instance : AllowsAside Upkeep := ⟨fun _ => trivial⟩
instance : AllowsUpkeep Upkeep := ⟨fun _ _ h => h⟩
instance : AllowsSettle Upkeep := ⟨fun _ _ _ h => h⟩
instance : AllowsMusic Sound := ⟨fun _ _ => trivial⟩
instance : AllowsPublish Sound := ⟨fun _ _ _ => trivial⟩
instance : AllowsAside Sound := ⟨fun _ => trivial⟩
instance : AllowsSettle Sound := ⟨fun _ _ _ h => h⟩

/-- A change that opens no operation is anybody's to make. -/
theorem CoordinatorOp.opens_of_isUpkeep {op : CoordinatorOp} (h : op.isUpkeep = true)
    (localPeerId : PeerId) : op.Opens localPeerId := by
  cases op with
  | startLeader => cases h
  | receiveRemote => cases h
  | _ => trivial

instance : AllowsUpkeep Sound := ⟨fun b _ h => CoordinatorOp.opens_of_isUpkeep h b.localPeerId⟩
instance : AllowsOwn Sound := ⟨fun _ _ _ _ _ _ _ => rfl⟩
instance : AllowsAdopt Sound := ⟨fun _ _ _ _ _ _ _ _ _ _ _ h => h⟩
instance : AllowsExecute Sound := ⟨fun _ _ _ _ h => h⟩
instance : AllowsTick Sound where
instance : AllowsReactions Sound where

/-! ## Elementary programs -/

section Elementary

variable {P : Policy} {α : Type}

theorem music_moves [AllowsMusic P] (op : MusicOp) : Moves P (music op) :=
  .modify fun b => ⟨.music op, AllowsMusic.music b op, rfl⟩

theorem calm_moves [AllowsCalm P] {op : MusicOp} (h : op.isCalm = true) : Moves P (music op) :=
  .modify fun b => ⟨.music op, AllowsCalm.calm b op h, rfl⟩

theorem ordinary_moves [AllowsOrdinary P] {op : MusicOp} (h : op.isOrdinary = true) :
    Moves P (music op) :=
  .modify fun b => ⟨.music op, AllowsOrdinary.ordinary b op h, rfl⟩

theorem quiet_moves [AllowsQuiet P] {op : MusicOp} (hcalm : op.isCalm = true)
    (hordinary : op.isOrdinary = true) : Moves P (music op) :=
  .modify fun b => ⟨.music op, AllowsQuiet.quiet b op hcalm hordinary, rfl⟩

theorem halt_moves [AllowsHalt P] {op : MusicOp} (h : op.isHalt = true) : Moves P (music op) :=
  .modify fun b => ⟨.music op, AllowsHalt.halt b op h, rfl⟩

theorem feed_moves [AllowsFeed P] {op : MusicOp} (h : op.isFeed = true) : Moves P (music op) :=
  .modify fun b => ⟨.music op, AllowsFeed.feed b op h, rfl⟩

theorem coordinate_movesAt {b : Backend} {op : CoordinatorOp} (h : P b (.coordinate op)) :
    MovesAt P (coordinate op) b :=
  .single ⟨.coordinate op, h, rfl⟩

theorem steady_moves [AllowsSteady P] {op : CoordinatorOp} (h : op.isSteady = true) :
    Moves P (coordinate op) :=
  fun b => coordinate_movesAt (AllowsSteady.coordinate b op h)

theorem coordinate_moves [AllowsUpkeep P] {op : CoordinatorOp} (h : op.isUpkeep = true) :
    Moves P (coordinate op) :=
  fun b => coordinate_movesAt (AllowsUpkeep.coordinate b op h)

theorem aside_moves [AllowsAside P] {f : Backend → Backend} (h : ∀ b, Aside b (f b)) :
    Moves P (modify f : Handler Unit) :=
  .modify fun b => ⟨.aside, AllowsAside.aside b, h b⟩

theorem modifyHealth_moves [AllowsAside P] (f : PlaybackHealth → PlaybackHealth) :
    Moves P (modifyHealth f) :=
  aside_moves fun _ => ⟨rfl, rfl, rfl, rfl, rfl, rfl, rfl⟩

theorem insertFailedAudioSession_moves [AllowsAside P] (sessionId : String) :
    Moves P (insertFailedAudioSession sessionId) :=
  aside_moves fun _ => ⟨rfl, rfl, rfl, rfl, rfl, rfl, rfl⟩

theorem setAudioPlayer_moves [AllowsAside P] (audioPlayer : Bool) :
    Moves P (setAudioPlayer audioPlayer) :=
  aside_moves fun _ => ⟨rfl, rfl, rfl, rfl, rfl, rfl, rfl⟩

theorem liftExcept_moves (e : Except BackendError α) : Moves P (liftExcept e) := by
  cases e with
  | ok a => exact .pure a
  | error e => exact .throw e

/-- What comes after a change of the music state starts from the changed state. -/
theorem finalState_music_bind (op : MusicOp) (f : Unit → Handler α) (b : Backend) :
    finalState (music op >>= f) b = finalState (f ()) (b.changeMusic op) := rfl

/-- A change that leaves the music state leaves the backend. -/
theorem changeMusic_eq_self {b : Backend} {op : MusicOp} (h : op.apply b.music = b.music) :
    b.changeMusic op = b := by
  unfold Backend.changeMusic
  rw [h]

/-- What comes after a change of the coordinator starts from the changed state. -/
theorem finalState_coordinate_bind (op : CoordinatorOp) (f : Unit → Handler α) (b : Backend) :
    finalState (coordinate op >>= f) b = finalState (f ()) (b.changeBuffer op) := rfl

/-- What comes after a change of the health record starts from the changed state. -/
theorem finalState_modifyHealth_bind (g : PlaybackHealth → PlaybackHealth) (f : Unit → Handler α)
    (b : Backend) : finalState (modifyHealth g >>= f) b =
      finalState (f ()) { b with playbackHealth := g b.playbackHealth } := rfl

/-- Going on after an error makes no further change. -/
theorem finalState_attempt (m : Handler Unit) (b : Backend) :
    finalState (attempt m) b = finalState m b := by
  simp only [finalState, attempt]
  cases m b <;> rfl

/-- A part whose error is forgotten is followed by the next one. -/
theorem finalState_attempt_bind {α : Type} (m : Handler Unit) (f : Unit → Handler α)
    (b : Backend) : finalState (attempt m >>= f) b = finalState (f ()) (finalState m b) := by
  have hattempt : attempt m b = .ok () (finalState m b) := by
    simp only [attempt, finalState]
    cases m b <;> rfl
  exact finalState_bind_of_ok hattempt

theorem attempt_moves {m : Handler Unit} (h : Moves P m) : Moves P (attempt m) := by
  intro b
  unfold EvolvesAt
  rw [finalState_attempt]
  exact h b

/-- Handing a message to the network needs the permission for that message only. -/
theorem publishRoomWireWithOutcome_moves_of {message : WireMessage}
    (h : ∀ b outcome, P b (.publish message outcome)) (env : Env) :
    Moves P (publishRoomWireWithOutcome env message) := by
  unfold publishRoomWireWithOutcome
  split
  · exact .bind (.modify fun b => ⟨.publish _ _, h b _, rfl⟩) fun _ => .pure _
  · exact .pure _

theorem publishRoomWireWithOutcome_moves [AllowsPublish P] (env : Env) (message : WireMessage) :
    Moves P (publishRoomWireWithOutcome env message) :=
  publishRoomWireWithOutcome_moves_of (fun b => AllowsPublish.publish b message) env

theorem publishRoomWire_moves [AllowsPublish P] (env : Env) (message : WireMessage) :
    Moves P (publishRoomWire env message) :=
  .bind (publishRoomWireWithOutcome_moves env message) fun _ =>
    .bind (liftExcept_moves _) fun _ => .pure _

theorem tryPublish_moves [AllowsPublish P] (env : Env) (message : WireMessage) :
    Moves P (tryPublish env message) :=
  .bind (publishRoomWireWithOutcome_moves env message) fun _ => .pure _

theorem tryReport_moves [AllowsReports P] (env : Env) {message : WireMessage}
    (h : message.isOperationMessage = false) : Moves P (tryPublish env message) :=
  .bind (publishRoomWireWithOutcome_moves_of
    (fun b outcome => AllowsReports.publish b message outcome h) env) fun _ => .pure _

end Elementary

/-! ## Buffer operations -/

section Buffer

variable {P : Policy}

theorem publishQueueSnapshot_moves [AllowsPublish P] (env : Env) :
    Moves P (publishQueueSnapshot env) :=
  .get_bind fun _ => .ite (publishRoomWire_moves env _) (.pure _)

theorem publishQueueState_moves [AllowsQuiet P] [AllowsPublish P] (env : Env) :
    Moves P (publishQueueState env) :=
  .bind (quiet_moves rfl rfl) fun _ => publishQueueSnapshot_moves env

theorem publishPlaybackState_moves [AllowsPublish P] (env : Env) (state : PlaybackState) :
    Moves P (publishPlaybackState env state) :=
  publishRoomWire_moves env _

theorem publishPlaybackStateIfLocalSource_moves [AllowsPublish P] (env : Env)
    (state : PlaybackState) : Moves P (publishPlaybackStateIfLocalSource env state) :=
  .get_bind fun _ => .ite (publishPlaybackState_moves env state) (.pure _)

theorem publishBufferStatus_moves [AllowsReports P] (env : Env) (operationId sessionId : String)
    (status : BufferPeerStatus) : Moves P (publishBufferStatus env operationId sessionId status) :=
  .get_bind fun _ => tryReport_moves env rfl

theorem markLocalStatus_moves [AllowsSteady P] (env : Env) (operationId sessionId : String)
    (status : BufferPeerStatus) : Moves P (markLocalStatus env operationId sessionId status) :=
  .get_bind fun _ => steady_moves rfl

/-- What comes after a local status was recorded starts from the changed state. -/
theorem finalState_markLocalStatus_bind {α : Type} (env : Env) (operationId sessionId : String)
    (status : BufferPeerStatus) (f : Unit → Handler α) (b : Backend) :
    finalState (markLocalStatus env operationId sessionId status >>= f) b =
      finalState (f ()) (b.changeBuffer
        (.markStatus operationId sessionId b.localPeerId status env.now)) := rfl

theorem publishLocalBufferHealth_moves [AllowsPublish P] [AllowsAside P] (env : Env)
    (sessionId : String) (status : PlaybackBufferStatusKind) (bufferedUntilMs : Option Nat) :
    Moves P (publishLocalBufferHealth env sessionId status bufferedUntilMs) :=
  .get_bind fun _ => .bind (modifyHealth_moves _) fun _ =>
    .ite (tryPublish_moves env _) (.pure _)

theorem startCommittedStream_moves (env : Env) (operation : BufferOperation) :
    Moves P (startCommittedStream env operation) := by
  refine .get_bind fun b => ?_
  split
  · exact .pure _
  · refine .ite (.pure _) (.bind (liftExcept_moves _) fun started => .ite (.pure _) ?_)
    exact .bind (liftExcept_moves _) fun _ => .bind (liftExcept_moves _) fun _ => .pure _

theorem consumeStartItem_moves [AllowsQuiet P] [AllowsPublish P] (env : Env)
    (operation : BufferOperation) : Moves P (consumeStartItem env operation) :=
  .ite (.bind (quiet_moves rfl rfl) fun _ => publishQueueState_moves env) (.pure _)

theorem commitBufferOperation_moves [AllowsOrdinary P] [AllowsPublish P] (env : Env)
    (operation : BufferOperation) : Moves P (commitBufferOperation env operation) := by
  refine .bind (startCommittedStream_moves env operation) fun started => .ite ?_ (.pure _)
  refine .bind (ordinary_moves rfl) fun _ => .get_bind fun b => ?_
  refine .bind (consumeStartItem_moves env operation) fun _ => ?_
  refine .bind (ordinary_moves rfl) fun _ => ?_
  exact .bind (publishPlaybackState_moves env _) fun _ => .pure _

theorem extendDeadline_moves [AllowsUpkeep P] (env : Env) : Moves P (extendDeadline env) :=
  coordinate_moves rfl

theorem waitForLocalAudio_moves [AllowsUpkeep P] [AllowsPublish P] (env : Env)
    (operation : BufferOperation) (alreadyBuffering : Bool) :
    Moves P (waitForLocalAudio env operation alreadyBuffering) := by
  refine .ite (extendDeadline_moves env) ?_
  refine .bind (markLocalStatus_moves env _ _ _) fun _ => ?_
  exact .bind (publishBufferStatus_moves env _ _ _) fun _ => extendDeadline_moves env

theorem waitForReload_moves [AllowsUpkeep P] [AllowsPublish P] (env : Env)
    (operation : BufferOperation) (alreadyBuffering : Bool) :
    Moves P (waitForReload env operation alreadyBuffering) := by
  refine .bind (markLocalStatus_moves env _ _ _) fun _ => .ite (extendDeadline_moves env) ?_
  exact .bind (publishBufferStatus_moves env _ _ _) fun _ => extendDeadline_moves env

theorem cancelOperation_moves [AllowsUpkeep P] [AllowsPublish P] (env : Env)
    (operation : BufferOperation) (reason : String) :
    Moves P (cancelOperation env operation reason) :=
  .bind (coordinate_moves rfl) fun _ => .get_bind fun _ => publishRoomWire_moves env _

theorem resolveImpossible_moves [AllowsUpkeep P] [AllowsQuiet P] [AllowsPublish P]
    [AllowsAside P] (env : Env) (operation : BufferOperation) :
    Moves P (resolveImpossible env operation) := by
  refine .bind (cancelOperation_moves env operation _) fun _ => .get_bind fun b => .ite ?_ ?_
  · exact .bind (insertFailedAudioSession_moves _) fun _ => consumeStartItem_moves env operation
  · exact consumeStartItem_moves env operation

theorem resolveTimedOut_moves [AllowsUpkeep P] [AllowsQuiet P] [AllowsPublish P] (env : Env)
    (operation : BufferOperation) : Moves P (resolveTimedOut env operation) := by
  refine .get_bind fun b => ?_
  split
  · refine .bind (extendDeadline_moves env) fun _ => .bind (tryPublish_moves env _) fun _ => ?_
    exact .bind (coordinate_moves rfl) fun _ => publishBufferStatus_moves env _ _ _
  · exact .bind (cancelOperation_moves env operation _) fun _ =>
      consumeStartItem_moves env operation

theorem resolveWaiting_moves [AllowsUpkeep P] [AllowsPublish P] (env : Env) :
    Moves P (resolveWaiting env) := by
  refine .get_bind fun b => ?_
  split
  · exact .pure _
  · exact .bind (coordinate_moves rfl) fun _ => tryPublish_moves env _

/-- Everything but a change of the music state. -/
def OffMusic : Policy
  | _, .music _ => False
  | _, _ => True

instance : AllowsPublish OffMusic := ⟨fun _ _ _ => trivial⟩
instance : AllowsAside OffMusic := ⟨fun _ => trivial⟩
instance : AllowsUpkeep OffMusic := ⟨fun _ _ _ => trivial⟩

/-- A program that does not change the music state leaves it. -/
theorem Moves.music_of_offMusic {α : Type} {m : Handler α} (hm : Moves OffMusic m)
    (b : Backend) : (finalState m b).music = b.music := by
  refine hm.preserves (I := fun t => t.music = b.music) ?_ rfl
  rintro s t ⟨action, hP, hdoes⟩ hs
  cases action with
  | music op => exact hP.elim
  | coordinate op => cases hdoes; exact hs
  | publish message outcome => cases hdoes; exact hs
  | settle operation state => cases hdoes; exact hs
  | execute proposal actor op => cases hdoes; exact hs
  | aside => exact hdoes.music.trans hs

/-- A program that only changes the music state and publishes leaves the operation and the
commits alone. -/
theorem Moves.commitOnly_frame {α : Type} {m : Handler α} (hm : Moves CommitOnly m)
    {b b' : Backend} (h : finalState m b = b') :
    b'.localPeerId = b.localPeerId ∧ b'.buffer = b.buffer ∧ b'.bufferLog = b.bufferLog ∧
      b'.commits = b.commits ∧ b'.audioPlayer = b.audioPlayer := by
  subst h
  refine hm.preserves
    (I := fun t => t.localPeerId = b.localPeerId ∧ t.buffer = b.buffer ∧
      t.bufferLog = b.bufferLog ∧ t.commits = b.commits ∧ t.audioPlayer = b.audioPlayer)
    ?_ ⟨rfl, rfl, rfl, rfl, rfl⟩
  rintro s t ⟨action, hP, hdoes⟩ hs
  cases action with
  | music op => cases hdoes; exact hs
  | publish message outcome => cases hdoes; exact hs
  | coordinate op => exact hP.elim
  | settle operation state => exact hP.elim
  | execute proposal actor op => exact hP.elim
  | aside => exact hP.elim

/-- Publishing that returns has noted the message. -/
theorem publishRoomWire_eq_ok {env : Env} {message : WireMessage} {b b' : Backend}
    (h : publishRoomWire env message b = .ok () b') :
    ∃ outcome, b' = b.recordPublished message outcome := by
  obtain ⟨result, u, hresult, h⟩ := bind_eq_ok.1 h
  obtain ⟨_, v, hlift, h⟩ := bind_eq_ok.1 h
  unfold publishRoomWireWithOutcome at hresult
  cases hclass : classifyRoomPublish (env.gossipsub message) with
  | ok outcome =>
    rw [hclass] at hresult
    cases hresult
    cases hlift
    cases h
    exact ⟨_, rfl⟩
  | error error =>
    rw [hclass] at hresult
    cases hresult
    cases hlift

/-- Publishing a message that the network takes returns, with the message noted. -/
theorem publishRoomWire_of_ok {env : Env} {message : WireMessage} {outcome : RoomPublishOutcome}
    (h : classifyRoomPublish (env.gossipsub message) = .ok outcome) (b : Backend) :
    publishRoomWire env message b = .ok () (b.recordPublished message outcome) := by
  have houtcome : publishRoomWireWithOutcome env message b =
      .ok (.ok outcome) (b.recordPublished message outcome) := by
    unfold publishRoomWireWithOutcome
    rw [h]
    rfl
  exact bind_eq_ok.2 ⟨_, _, houtcome, bind_eq_ok.2 ⟨_, _, rfl, rfl⟩⟩

/-- Publishing a message that the network refuses stops, with nothing noted. -/
theorem publishRoomWire_of_error {env : Env} {message : WireMessage} {error : BackendError}
    (h : classifyRoomPublish (env.gossipsub message) = .error error) (b : Backend) :
    publishRoomWire env message b = .error error b := by
  have houtcome : publishRoomWireWithOutcome env message b = .ok (.error error) b := by
    unfold publishRoomWireWithOutcome
    rw [h]
    rfl
  exact bind_eq_error.2 (.inr ⟨_, _, houtcome, bind_eq_error.2 (.inl rfl)⟩)

theorem tryPublish_returns (env : Env) (message : WireMessage) :
    Returns (tryPublish env message) := by
  refine .bind ?_ fun _ => .pure _
  unfold publishRoomWireWithOutcome
  split
  · exact .bind (.modify _) fun _ => .pure _
  · exact .pure _

theorem publishPlaybackState_eq_ok {env : Env} {state : PlaybackState} {b b' : Backend}
    (h : publishPlaybackState env state b = .ok () b') :
    ∃ outcome, b' = b.recordPublished (.playbackState state) outcome :=
  publishRoomWire_eq_ok h

/-- A commit that gives a state has stored and published it. -/
theorem commitBufferOperation_eq_ok {env : Env} {operation : BufferOperation} {b b' : Backend}
    {state : PlaybackState} (h : commitBufferOperation env operation b = .ok (some state) b') :
    (∃ version now, state =
        MusicState.committedState operation.state version now musicStartDelay) ∧
      b'.music.playbackState = some state ∧
      ∃ outcome, (.playbackState state, outcome) ∈ b'.published := by
  obtain ⟨started, u, -, h⟩ := bind_eq_ok.1 h
  cases started with
  | false => cases h
  | true =>
    obtain ⟨_, _, -, h⟩ := bind_eq_ok.1 h
    obtain ⟨_, _, -, h⟩ := bind_eq_ok.1 h
    obtain ⟨_, _, -, h⟩ := bind_eq_ok.1 h
    obtain ⟨_, _, hmusic, h⟩ := bind_eq_ok.1 h
    obtain ⟨_, _, hpublish, h⟩ := bind_eq_ok.1 h
    obtain ⟨outcome, rfl⟩ := publishPlaybackState_eq_ok hpublish
    cases h
    cases hmusic
    refine ⟨⟨_, _, rfl⟩, MusicState.setPlaybackState_playbackState _ _, outcome, ?_⟩
    simp [Backend.recordPublished]

/-- Looking at a ready quorum opens nothing and settles only what is decided. -/
theorem resolveReady_movesAt [AllowsUpkeep P] [AllowsOrdinary P] [AllowsPublish P] [AllowsSettle P]
    (env : Env) {operation : BufferOperation} {b : Backend}
    (hactive : b.buffer.active = some operation)
    (hleads : operation.state.leaderPeerId = b.localPeerId)
    (hquorum : majorityThreshold operation.expectedPeers.card ≤ operation.count .ready) :
    MovesAt P (resolveReady env operation) b := by
  refine .get_bind ?_
  dsimp only
  split
  · exact waitForLocalAudio_moves env operation _ b
  · rename_i haudio
    refine .bind (commitBufferOperation_moves env operation b) fun result t hcommit => ?_
    cases result with
    | none => exact waitForReload_moves env operation _ t
    | some state =>
      obtain ⟨hpeer, hbuffer, -, -, hplayer⟩ :=
        (commitBufferOperation_moves env operation).commitOnly_frame (finalState_of_ok hcommit)
      obtain ⟨hcommitted, hstored, hpublished⟩ := commitBufferOperation_eq_ok hcommit
      refine .single ⟨.settle operation state, AllowsSettle.settle t operation state ?_, rfl⟩
      refine ⟨by rw [hbuffer, hactive], by rw [hpeer, hleads], hquorum, fun hout => ?_,
        hcommitted, hstored, hpublished⟩
      rw [hplayer] at hout
      rw [hpeer]
      exact Bool.not_eq_false _ ▸ not_and.1 haudio hout

/-- The quorum says ready only when a majority is. -/
theorem BufferOperation.quorum_eq_ready {operation : BufferOperation} {now : Instant}
    {ready threshold : Nat} (h : operation.quorum now = .ready ready threshold) :
    majorityThreshold operation.expectedPeers.card ≤ operation.count .ready := by
  unfold BufferOperation.quorum at h
  dsimp only at h
  split_ifs at h with hready
  exact hready

/-- And it says so when a majority is. -/
theorem BufferOperation.quorum_of_majority {operation : BufferOperation}
    (h : majorityThreshold operation.expectedPeers.card ≤ operation.count .ready)
    (now : Instant) : operation.quorum now =
      .ready (operation.count .ready) (majorityThreshold operation.expectedPeers.card) :=
  if_pos h

theorem resolveBufferOperation_moves [AllowsUpkeep P] [AllowsOrdinary P] [AllowsPublish P]
    [AllowsSettle P] [AllowsAside P] (env : Env) : Moves P (resolveBufferOperation env) := by
  intro b
  refine .get_bind ?_
  cases hactive : b.buffer.active with
  | none => exact .refl
  | some operation =>
    dsimp only
    split
    · rename_i hleads
      cases hquorum : operation.quorum env.now with
      | ready ready threshold =>
        exact resolveReady_movesAt env hactive hleads (BufferOperation.quorum_eq_ready hquorum)
      | impossible ready failed threshold => exact resolveImpossible_moves env operation b
      | timedOut ready threshold => exact resolveTimedOut_moves env operation b
      | waiting ready buffering failed threshold => exact resolveWaiting_moves env b
    · exact .refl

theorem haltPlayer_moves (env : Env) (now : Int) : Moves P (haltPlayer env now) :=
  .get_bind fun _ => .ite (liftExcept_moves _) (.pure _)

theorem announceOperation_moves [AllowsUpkeep P] [AllowsPublish P] (env : Env)
    (operationId : String) (state : PlaybackState) (item : QueueItem)
    (kind : PlaybackBufferOperationKind) (expectedPeers : Finset PeerId) :
    Moves P (announceOperation env operationId state item kind expectedPeers) := by
  refine .get_bind fun b => .bind (tryPublish_moves env _) fun _ => ?_
  refine .bind (coordinate_moves rfl) fun _ => .bind (markLocalStatus_moves env _ _ _) fun _ => ?_
  exact publishBufferStatus_moves env _ _ _

theorem loadOwnOperation_moves [AllowsUpkeep P] [AllowsOrdinary P] [AllowsPublish P]
    [AllowsSettle P] [AllowsAside P] (env : Env) (operationId : String) (state : PlaybackState)
    (item : QueueItem) : Moves P (loadOwnOperation env operationId state item) := by
  refine .get_bind fun b => .ite ?_ ?_
  · exact .bind (liftExcept_moves _) fun _ => liftExcept_moves _
  · exact .bind (markLocalStatus_moves env _ _ _) fun _ => resolveBufferOperation_moves env

/-- An operation of the local peer is opened for an item; a start for the front of the queue. -/
theorem beginBufferOperation_movesAt [AllowsTick P] (env : Env) {item : QueueItem}
    {kind : PlaybackBufferOperationKind} {b : Backend}
    (h : kind = .start → b.music.queue.head? = some item) (positionMs : Nat) :
    MovesAt P (beginBufferOperation env item kind positionMs) b := by
  refine .get_bind (.bind (coordinate_movesAt (AllowsOwn.own _ _ _ _ _ _ h)) fun _ t _ => ?_)
  refine Evolves.bind (haltPlayer_moves env _) (fun _ => ?_) t
  exact .bind (announceOperation_moves env _ _ _ _ _) fun _ => loadOwnOperation_moves env _ _ _

/-- A resume or seek may be opened at any time. -/
theorem beginBufferOperation_moves [AllowsTick P] (env : Env) (item : QueueItem)
    {kind : PlaybackBufferOperationKind} (h : kind ≠ .start) (positionMs : Nat) :
    Moves P (beginBufferOperation env item kind positionMs) :=
  fun _ => beginBufferOperation_movesAt env (fun hstart => absurd hstart h) positionMs

theorem startNextIfIdle_moves [AllowsTick P] (env : Env) : Moves P (startNextIfIdle env) := by
  intro b
  refine .get_bind ?_
  split
  · cases hhead : b.music.queue.head? with
    | none => exact .refl
    | some item => exact beginBufferOperation_movesAt env (fun _ => hhead) 0
  · exact .refl

theorem abandonLocalBufferOperation_moves [AllowsUpkeep P] [AllowsPublish P] (env : Env)
    (reason : String) : Moves P (abandonLocalBufferOperation env reason) := by
  refine .get_bind fun b => ?_
  split
  · exact .pure _
  · exact .bind (coordinate_moves rfl) fun _ => tryPublish_moves env _

theorem handleBufferPrepareFailure_moves [AllowsUpkeep P] [AllowsQuiet P] [AllowsPublish P]
    [AllowsAside P] (env : Env) (state : PlaybackState) (reason : String) :
    Moves P (handleBufferPrepareFailure env state reason) := by
  refine .bind (insertFailedAudioSession_moves _) fun _ => .get_bind fun b => ?_
  split
  · exact insertFailedAudioSession_moves _
  · refine .ite ?_ ?_
    · exact .bind (cancelOperation_moves env _ _) fun _ => consumeStartItem_moves env _
    · refine .bind (markLocalStatus_moves env _ _ _) fun _ => ?_
      refine .bind (publishBufferStatus_moves env _ _ _) fun _ => ?_
      exact .bind (insertFailedAudioSession_moves _) fun _ => coordinate_moves rfl

end Buffer

/-! ## Votes -/

section Vote

variable {P : Policy}

theorem requestQueue_moves [AllowsPublish P] [AllowsAside P] (env : Env) (target : PeerId) :
    Moves P (requestQueue env target) := by
  refine .get_bind fun b => .bind (publishRoomWireWithOutcome_moves env _) fun outcome => ?_
  exact .ite (aside_moves fun _ => ⟨rfl, rfl, rfl, rfl, rfl, rfl, rfl⟩) (.pure _)

theorem requestQueueForVoteContext_moves [AllowsPublish P] [AllowsAside P] (env : Env)
    (proposal : VoteProposal) : Moves P (requestQueueForVoteContext env proposal) :=
  .get_bind fun _ => .ite (requestQueue_moves env _) (.pure _)

theorem executeOnPlayback_moves [AllowsTick P] {proposal : VoteProposal} {actor : PeerId}
    {op : MusicOp} (h : op.Executes proposal actor) :
    Moves P (executeOnPlayback proposal actor op) := by
  have hordinary : op.isOrdinary = true := by rcases h with rfl | rfl <;> rfl
  refine .bind (.modify fun b => ?_) fun _ => ordinary_moves hordinary
  exact ⟨.execute proposal actor op, AllowsExecute.execute b proposal actor op h, rfl⟩

theorem pauseForVote_moves [AllowsTick P] (env : Env) (proposal : VoteProposal) :
    Moves P (pauseForVote env proposal) := by
  refine .get_bind fun b => .bind (executeOnPlayback_moves (.inl rfl)) fun _ => ?_
  split
  · exact .pure _
  · exact .bind (haltPlayer_moves env _) fun _ => publishPlaybackStateIfLocalSource_moves env _

theorem prepareForVote_moves [AllowsTick P] (env : Env) (proposal : VoteProposal)
    {kind : PlaybackBufferOperationKind} (h : kind ≠ .start)
    (positionOf : PlaybackState → QueueItem → Nat) :
    Moves P (prepareForVote env proposal kind positionOf) := by
  refine .get_bind fun b => .ite ?_ (.pure _)
  split
  · exact .pure _
  · split
    · exact .pure _
    · exact .bind (pauseForVote_moves env proposal) fun _ => beginBufferOperation_moves env _ h _

theorem executeSkip_moves [AllowsTick P] (env : Env) (proposal : VoteProposal) :
    Moves P (executeSkip env proposal) := by
  refine .get_bind fun b => .bind (executeOnPlayback_moves (.inr rfl)) fun _ => ?_
  refine .bind (publishPlaybackStateIfLocalSource_moves env _) fun _ => ?_
  exact .ite (startNextIfIdle_moves env) (.pure _)

theorem executeOnQueue_moves [AllowsOrdinary P] [AllowsPublish P] (env : Env) (itemId : String)
    {op : MusicOp} (h : op.isOrdinary = true) : Moves P (executeOnQueue env itemId op) :=
  .get_bind fun _ => .ite
    (.bind (ordinary_moves h) fun _ => publishQueueSnapshot_moves env) (.pure _)

theorem executeVoteAction_moves [AllowsTick P] (env : Env) (proposal : VoteProposal) :
    Moves P (executeVoteAction env proposal) := by
  unfold executeVoteAction
  split
  · exact pauseForVote_moves env proposal
  · exact prepareForVote_moves env proposal (by decide) _
  · exact executeSkip_moves env proposal
  · exact prepareForVote_moves env proposal (by decide) _
  · exact executeOnQueue_moves env _ rfl
  · exact executeOnQueue_moves env _ rfl

theorem resolveActiveVote_moves [AllowsTick P] (env : Env) : Moves P (resolveActiveVote env) := by
  refine .get_bind fun b => ?_
  dsimp only
  split
  · exact requestQueueForVoteContext_moves env _
  · refine .bind (ordinary_moves rfl) fun _ => ?_
    split
    · exact .get_bind fun _ => .ite (executeVoteAction_moves env _) (.pure _)
    · exact .pure _
    · exact .pure _

/-- While no vote is open there is nothing to resolve. -/
theorem resolveActiveVote_of_noVote {b : Backend} (h : b.music.activeVote = none) (env : Env) :
    finalState (resolveActiveVote env) b = b := by
  have hnone : ∀ threshold eligiblePeers,
      b.music.resolveVote threshold eligiblePeers = (none, b.music) := by
    intro threshold eligiblePeers
    unfold MusicState.resolveVote
    rw [h]
  unfold resolveActiveVote MusicState.readyVoteWaitingForQueue
  rw [finalState_get_bind, h]
  dsimp only
  rw [finalState_music_bind, hnone]
  exact changeMusic_eq_self (congrArg Prod.snd (hnone _ _))

theorem proposeOrExecuteVote_moves [AllowsReactions P] (env : Env) (action : VoteAction) :
    Moves P (proposeOrExecuteVote env action) := by
  refine .get_bind fun b => .ite (.pure _) (.bind (music_moves _) fun _ => ?_)
  refine .bind (publishRoomWire_moves env _) fun _ => ?_
  exact .bind (publishRoomWire_moves env _) fun _ => resolveActiveVote_moves env

theorem castVote_moves [AllowsReactions P] (env : Env) (approve : Bool) :
    Moves P (castVote env approve) := by
  refine .get_bind fun b => .bind (music_moves _) fun _ => ?_
  split
  · exact .bind (publishRoomWire_moves env _) fun _ => resolveActiveVote_moves env
  · exact .pure _
  · exact .pure _

end Vote

/-! ## Playback -/

section Playback

variable {P : Policy}

theorem ensureAudioOutput_moves [AllowsAside P] (env : Env) : Moves P (ensureAudioOutput env) :=
  .get_bind fun _ => .ite (setAudioPlayer_moves _) (.pure _)

theorem handleLocalAudioOutputError_moves [AllowsAside P] (error : BackendError) :
    Moves P (handleLocalAudioOutputError error) :=
  .ite (.bind (setAudioPlayer_moves _) fun _ => .pure _) (.pure _)

theorem applyRemotePlaybackState_moves [AllowsOrdinary P] (env : Env) (state : PlaybackState) :
    Moves P (applyRemotePlaybackState env state) := by
  refine .bind (ordinary_moves rfl) fun _ => ?_
  split
  · exact .pure _
  · exact .bind (ordinary_moves rfl) fun _ => .get_bind fun b => .ite (.pure _) (.pure _)

theorem applyPlaybackPrepare_moves [AllowsOrdinary P] [AllowsAside P] (env : Env)
    (state : PlaybackState) : Moves P (applyPlaybackPrepare env state) := by
  refine .bind (ordinary_moves rfl) fun _ => .bind (haltPlayer_moves env _) fun _ => ?_
  split
  · exact .pure _
  · refine .bind (ensureAudioOutput_moves env) fun _ => .get_bind fun b => .ite ?_ (.pure _)
    exact .bind (liftExcept_moves _) fun _ => .bind (liftExcept_moves _) fun _ => .pure _

theorem cancelLocalPendingPlayback_moves [AllowsQuiet P] [AllowsPublish P] (env : Env)
    (reason : String) : Moves P (cancelLocalPendingPlayback env reason) := by
  refine .get_bind fun b => ?_
  split
  · exact .pure _
  · exact .bind (quiet_moves rfl rfl) fun _ => tryPublish_moves env _

theorem maybeStartPendingPlayback_moves [AllowsOrdinary P] [AllowsPublish P] (env : Env) :
    Moves P (maybeStartPendingPlayback env) := by
  refine .get_bind fun b => .bind (ordinary_moves rfl) fun _ => ?_
  split
  · exact .pure _
  · exact publishPlaybackState_moves env _

theorem publishStop_moves [AllowsHalt P] [AllowsPublish P] (env : Env) :
    Moves P (publishStop env) :=
  .get_bind fun _ => .bind (halt_moves rfl) fun _ => publishPlaybackState_moves env _

theorem stopCurrentPlayback_moves [AllowsHalt P] [AllowsPublish P] (env : Env)
    (reason : String) : Moves P (stopCurrentPlayback env reason) := by
  refine .get_bind fun b => ?_
  split
  · exact publishStop_moves env
  · exact .bind (halt_moves rfl) fun _ => .bind (publishRoomWire_moves env _) fun _ =>
      publishStop_moves env

theorem handleLocalLeaderAudioFailure_moves [AllowsHalt P] [AllowsPublish P] [AllowsAside P]
    (env : Env) (state : PlaybackState) (reason : String) :
    Moves P (handleLocalLeaderAudioFailure env state reason) := by
  refine .bind (insertFailedAudioSession_moves _) fun _ => .get_bind fun b => ?_
  split
  · exact .bind (halt_moves rfl) fun _ => publishRoomWire_moves env _
  · exact .ite (publishStop_moves env) (.pure _)

theorem handlePreparedForOperation_moves [AllowsTick P] (env : Env)
    (operationId sessionId trackId : String) (bufferedUntilMs : Nat) :
    Moves P (handlePreparedForOperation env operationId sessionId trackId bufferedUntilMs) := by
  refine .get_bind fun b => .ite ?_ (.pure _)
  refine .bind (publishLocalBufferHealth_moves env _ _ _) fun _ => ?_
  refine .bind (markLocalStatus_moves env _ _ _) fun _ => ?_
  exact .bind (publishBufferStatus_moves env _ _ _) fun _ => resolveBufferOperation_moves env

theorem handlePreparedForPlayback_moves [AllowsOrdinary P] [AllowsPublish P] [AllowsAside P]
    (env : Env) (sessionId trackId : String) (bufferedUntilMs : Nat) :
    Moves P (handlePreparedForPlayback env sessionId trackId bufferedUntilMs) := by
  refine .get_bind fun b => .ite (.pure _) (.ite ?_ ?_)
  · refine .bind (ordinary_moves rfl) fun _ => .ite ?_ (.pure _)
    refine .bind (publishLocalBufferHealth_moves env _ _ _) fun _ => ?_
    exact .bind (maybeStartPendingPlayback_moves env) fun _ => publishRoomWire_moves env _
  · refine .bind (publishLocalBufferHealth_moves env _ _ _) fun _ => ?_
    split
    · exact .pure _
    · exact liftExcept_moves _

theorem handleFailed_moves [AllowsTick P] (env : Env) (operationId : Option String)
    (sessionId trackId : String) (error : String) :
    Moves P (handleFailed env operationId sessionId trackId error) := by
  refine .get_bind fun b => .ite ?_ (.pure _)
  refine .bind (publishLocalBufferHealth_moves env _ _ _) fun _ => ?_
  split
  · split
    · exact .pure _
    · exact handleBufferPrepareFailure_moves env _ _
  · split
    · exact .pure _
    · refine .ite ?_ (insertFailedAudioSession_moves _)
      exact .bind (handleLocalLeaderAudioFailure_moves env _ _) fun _ => startNextIfIdle_moves env

theorem handleAudioPlayerEvent_moves [AllowsTick P] (env : Env) (event : AudioPlayerEvent) :
    Moves P (handleAudioPlayerEvent env event) := by
  unfold handleAudioPlayerEvent
  split
  · exact handlePreparedForOperation_moves env _ _ _ _
  · exact handlePreparedForPlayback_moves env _ _ _
  · exact .get_bind fun _ => .ite (publishLocalBufferHealth_moves env _ _ _) (.pure _)
  · exact .get_bind fun _ => .ite (publishLocalBufferHealth_moves env _ _ _) (.pure _)
  · exact handleFailed_moves env _ _ _ _
  · exact .ite (setAudioPlayer_moves _) (.pure _)
  · exact .ite (setAudioPlayer_moves _) (.pure _)
  · exact .pure _
  · exact .pure _

theorem handleAudioPlayerEvents_moves [AllowsTick P] (events : List (Env × AudioPlayerEvent)) :
    Moves P (handleAudioPlayerEvents events) := by
  induction events with
  | nil => exact .pure _
  | cons event events ih => exact .bind (handleAudioPlayerEvent_moves event.1 event.2) fun _ => ih

theorem maybePauseForBufferHealthLoss_moves [AllowsTick P] (env : Env) :
    Moves P (maybePauseForBufferHealthLoss env) := by
  refine .get_bind fun b => .ite (.pure _) ?_
  split
  · exact modifyHealth_moves _
  · refine .ite (.bind (modifyHealth_moves _) fun _ => ?_) (.pure _)
    split
    · refine .bind (ordinary_moves rfl) fun _ => ?_
      split
      · exact .pure _
      · refine .bind (haltPlayer_moves env _) fun _ => ?_
        exact .bind (publishPlaybackState_moves env _) fun _ =>
          beginBufferOperation_moves env _ (by decide) _
    · exact .pure _

end Playback

/-! ## Messages -/

section Wire

variable {P : Policy}

/-- A peer stays who it is. -/
theorem Move.localPeerId {b b' : Backend} (h : Move P b b') : b'.localPeerId = b.localPeerId := by
  obtain ⟨action, -, hdoes⟩ := h
  cases action with
  | aside => exact hdoes.localPeerId
  | _ => cases hdoes; rfl

theorem Moves.localPeerId {α : Type} {m : Handler α} (h : Moves P m) (b : Backend) :
    (finalState m b).localPeerId = b.localPeerId :=
  h.preserves (I := fun t => t.localPeerId = b.localPeerId)
    (fun _ _ hmove hs => hmove.localPeerId.trans hs) rfl

/-- The playback of another peer takes the place of what the local peer is about to play. -/
theorem applyRemotePlaybackState_superseding_moves [AllowsDeeds P] (env : Env)
    (state : PlaybackState) : Moves P (do
      abandonLocalBufferOperation env "superseded by remote playback"
      cancelLocalPendingPlayback env "superseded by remote playback"
      match ← applyRemotePlaybackState env state with
      | .ok () => coordinate (.clearMatching state)
      | .error error =>
        let outputGone ← handleLocalAudioOutputError error
        unless outputGone do
          markLocalAudioSessionFailed state) := by
  refine .bind (abandonLocalBufferOperation_moves env _) fun _ => ?_
  refine .bind (cancelLocalPendingPlayback_moves env _) fun _ => ?_
  refine .bind (applyRemotePlaybackState_moves env _) fun result => ?_
  cases result with
  | ok _ => exact coordinate_moves rfl
  | error error =>
    exact .bind (handleLocalAudioOutputError_moves error) fun _ =>
      .ite (.pure _) (insertFailedAudioSession_moves _)

theorem handlePlaybackState_moves [AllowsDeeds P] (env : Env) (received : PlaybackState) :
    Moves P (handlePlaybackState env received) := by
  have happly := fun state => applyRemotePlaybackState_superseding_moves (P := P) env state
  refine .ite ?_ ?_
  · refine .bind (aside_moves fun _ => ⟨rfl, rfl, rfl, rfl, rfl, rfl, rfl⟩) fun _ => ?_
    exact .get_bind fun b => .ite (.pure _) (.ite (happly _) (.pure _))
  · exact .get_bind fun b => .ite (.pure _) (.ite (happly _) (.pure _))

theorem handlePlaybackPrepare_moves [AllowsDeeds P] (env : Env) (received : PlaybackState)
    (expectedPeers : List PeerId) :
    Moves P (handlePlaybackPrepare env received expectedPeers) := by
  refine .get_bind fun b => .ite (.pure _) (.ite ?_ (.pure _))
  refine .bind (abandonLocalBufferOperation_moves env _) fun _ => ?_
  refine .bind (cancelLocalPendingPlayback_moves env _) fun _ => attempt_moves ?_
  exact .bind (applyPlaybackPrepare_moves env _) fun _ => .ite (tryPublish_moves env _) (.pure _)

theorem handlePlaybackReady_moves [AllowsOrdinary P] [AllowsPublish P] (env : Env)
    (sessionId : String) (peerId : PeerId) : Moves P (handlePlaybackReady env sessionId peerId) :=
  .get_bind fun _ => .bind (ordinary_moves rfl) fun _ =>
    attempt_moves (maybeStartPendingPlayback_moves env)

theorem handlePlaybackCancel_moves [AllowsQuiet P] (sessionId : String) (leaderPeerId : PeerId) :
    Moves P (handlePlaybackCancel sessionId leaderPeerId) :=
  .get_bind fun _ => .ite (quiet_moves rfl rfl) (.pure _)

theorem loadAdoptedOperation_moves [AllowsSteady P] [AllowsReports P] [AllowsAside P] (env : Env)
    (operationId sessionId : String) (track : PlaybackTrack) (positionMs : Nat) :
    Moves P (loadAdoptedOperation env operationId sessionId track positionMs) := by
  have hreport : ∀ status, Moves P (do
      markLocalStatus env operationId sessionId status
      publishBufferStatus env operationId sessionId status) := fun status =>
    .bind (markLocalStatus_moves env _ _ _) fun _ => publishBufferStatus_moves env _ _ _
  refine .bind (ensureAudioOutput_moves env) fun _ => .get_bind fun b => .ite ?_ (hreport _)
  split
  · exact .pure _
  · exact hreport _

/-- An operation is adopted only from another peer. -/
theorem adoptOperation_movesAt [AllowsDeeds P] (env : Env) (operationId sessionId : String)
    (track : PlaybackTrack) (positionMs : Nat) (kind : PlaybackBufferOperationKind)
    (expectedPeers : Finset PeerId) {leaderPeerId : PeerId} {b : Backend}
    (h : leaderPeerId ≠ b.localPeerId) :
    MovesAt P (adoptOperation env operationId sessionId track positionMs kind expectedPeers
      leaderPeerId) b := by
  have habandon := abandonLocalBufferOperation_moves (P := P) env
    "superseded by remote buffer prepare"
  refine .bind (habandon b) fun _ t ht => .get_bind
    (.bind (coordinate_movesAt (AllowsAdopt.adopt _ _ _ _ _ _ _ _ _ _ _ ?_)) fun _ u _ => ?_)
  · have hpeer := habandon.localPeerId b
    rw [finalState_of_ok ht] at hpeer
    rwa [hpeer]
  · refine Evolves.bind (publishBufferStatus_moves env _ _ _) (fun _ => ?_) u
    exact .bind (markLocalStatus_moves env _ _ _) fun _ => loadAdoptedOperation_moves env _ _ _ _

theorem handlePlaybackBufferPrepare_moves [AllowsDeeds P] (env : Env)
    (operationId sessionId trackId : String) (positionMs : Nat)
    (kind : PlaybackBufferOperationKind) (expectedPeers : Finset PeerId) (leaderPeerId : PeerId) :
    Moves P (handlePlaybackBufferPrepare env operationId sessionId trackId positionMs kind
      expectedPeers leaderPeerId) := by
  intro b
  refine .get_bind ?_
  split
  · exact .refl
  · rename_i hignores
    have hleader : leaderPeerId ≠ b.localPeerId := fun heq => hignores (by
      simp [ignoresBufferPrepare, heq])
    split
    · exact publishBufferStatus_moves env _ _ _ b
    · split
      · exact .refl
      · split
        · exact publishBufferStatus_moves env _ _ _ b
        · split
          · exact publishBufferStatus_moves env _ _ _ b
          · exact adoptOperation_movesAt env _ _ _ _ _ _ hleader

theorem handlePlaybackBufferStatus_moves [AllowsUpkeep P] [AllowsOrdinary P] [AllowsPublish P]
    [AllowsSettle P] [AllowsAside P] (env : Env) (operationId sessionId : String)
    (peerId : PeerId) (status : BufferPeerStatus) :
    Moves P (handlePlaybackBufferStatus env operationId sessionId peerId status) :=
  .bind (coordinate_moves rfl) fun _ => .get_bind fun _ =>
    .ite (attempt_moves (resolveBufferOperation_moves env)) (.pure _)

theorem handleQueueState_moves [AllowsDeeds P] (env : Env) (state : QueueState) :
    Moves P (handleQueueState env state) :=
  .get_bind fun _ => .bind (feed_moves rfl) fun _ =>
    .ite (attempt_moves (resolveActiveVote_moves env)) (.pure _)

theorem handleQueueSummary_moves [AllowsPublish P] [AllowsAside P] (env : Env) (peerId : PeerId)
    (version : Nat) (updatedAtMicros : Int) :
    Moves P (handleQueueSummary env peerId version updatedAtMicros) :=
  .get_bind fun _ => .ite (requestQueue_moves env _) (.pure _)

theorem handleQueueRequest_moves [AllowsPublish P] (env : Env) (requester target : PeerId)
    (knownVersion : Nat) (knownUpdatedAtMicros : Int) :
    Moves P (handleQueueRequest env requester target knownVersion knownUpdatedAtMicros) :=
  .get_bind fun _ => .ite (tryPublish_moves env _) (.pure _)

theorem handleVoteProposal_moves [AllowsMusic P] [AllowsPublish P] [AllowsAside P] (env : Env)
    (proposal : VoteProposal) : Moves P (handleVoteProposal env proposal) := by
  refine .get_bind fun b => .ite (.pure _) ?_
  split
  · exact .pure _
  · exact .bind (music_moves _) fun _ => requestQueueForVoteContext_moves env _

theorem handleVoteBallot_moves [AllowsReactions P] (env : Env) (voteId : String)
    (peerId : PeerId) (approve : Bool) : Moves P (handleVoteBallot env voteId peerId approve) :=
  .bind (music_moves _) fun _ => attempt_moves (resolveActiveVote_moves env)

/-- The messages that bring a proposal or a ballot. -/
def WireMessage.isVoteMessage : WireMessage → Bool
  | voteProposal .. | voteBallot .. => true
  | _ => false

theorem handleWireMessage_deeds [AllowsDeeds P] (env : Env) {message : WireMessage}
    (h : message.isVoteMessage = false) : Moves P (handleWireMessage env message) := by
  cases message with
  | playbackState state => exact handlePlaybackState_moves env state
  | playbackPrepare state expectedPeers => exact handlePlaybackPrepare_moves env state _
  | playbackReady sessionId peerId => exact handlePlaybackReady_moves env _ _
  | playbackCancel sessionId leaderPeerId reason => exact handlePlaybackCancel_moves _ _
  | playbackBufferPrepare => exact handlePlaybackBufferPrepare_moves env _ _ _ _ _ _ _
  | playbackBufferStatus => exact handlePlaybackBufferStatus_moves env _ _ _ _
  | playbackBufferHealth =>
    unfold handleWireMessage
    exact modifyHealth_moves _
  | playbackBufferCancel => exact coordinate_moves rfl
  | queueState state => exact handleQueueState_moves env state
  | queueSummary => exact handleQueueSummary_moves env _ _ _
  | queueRequest => exact handleQueueRequest_moves env _ _ _ _
  | queueResponse target state =>
    exact .get_bind fun _ => .ite (handleQueueState_moves env state) (.pure _)
  | voteProposal => cases h
  | voteBallot => cases h

theorem handleWireMessage_moves [AllowsReactions P] (env : Env) (message : WireMessage) :
    Moves P (handleWireMessage env message) := by
  cases message with
  | voteProposal proposal => exact handleVoteProposal_moves env proposal
  | voteBallot => exact handleVoteBallot_moves env _ _ _
  | _ => exact handleWireMessage_deeds env rfl

theorem applyWireMessage_moves [AllowsReactions P] (env : Env) (source : PeerId)
    (message : WireMessage) : Moves P (applyWireMessage env source message) := by
  unfold applyWireMessage
  split
  · exact .pure _
  · exact handleWireMessage_moves env message

end Wire

/-! ## Events -/

section Step

variable {P : Policy}

theorem enqueueBilibili_moves [AllowsDeeds P] (env : Env) (bvid : String) (part : Nat) :
    Moves P (enqueueBilibili env bvid part) := by
  refine .get_bind fun b => ?_
  split
  · exact .pure _
  · exact .bind (feed_moves rfl) fun _ => .bind (publishQueueState_moves env) fun _ =>
      startNextIfIdle_moves env

theorem seekOwn_moves [AllowsTick P] (env : Env) (current : PlaybackState) (positionMs : Nat) :
    Moves P (seekOwn env current positionMs) := by
  refine .get_bind fun b => ?_
  split
  · exact .pure _
  · refine .bind (ordinary_moves rfl) fun _ => ?_
    split
    · exact beginBufferOperation_moves env _ (by decide) _
    · refine .bind (haltPlayer_moves env _) fun _ => ?_
      exact .bind (publishPlaybackState_moves env _) fun _ =>
        beginBufferOperation_moves env _ (by decide) _

theorem votePlayback_moves [AllowsReactions P] (env : Env) (action : VoteAction) :
    Moves P (votePlayback env action) :=
  .get_bind fun _ => .ite (proposeOrExecuteVote_moves env action) (.pure _)

theorem handleCommand_moves [AllowsReactions P] (env : Env) (command : NetworkCommand) :
    Moves P (handleCommand env command) := by
  cases command with
  | enqueueBilibili bvid part => exact enqueueBilibili_moves env bvid part
  | pause => exact votePlayback_moves env _
  | resume => exact votePlayback_moves env _
  | skip => exact votePlayback_moves env _
  | seek positionMs =>
    refine .get_bind fun b => ?_
    split
    · exact .pure _
    · exact .ite (.pure _) (.ite (seekOwn_moves env _ _) (proposeOrExecuteVote_moves env _))
  | removeQueueItem index =>
    refine .get_bind fun b => ?_
    split
    · exact .pure _
    · refine .ite ?_ (proposeOrExecuteVote_moves env _)
      exact .bind (ordinary_moves rfl) fun _ => publishQueueState_moves env
  | moveQueueItem source target =>
    refine .get_bind fun b => ?_
    split
    · exact .pure _
    · exact proposeOrExecuteVote_moves env _
  | vote approve => exact castVote_moves env approve

theorem restoreAudioOutput_moves [AllowsOrdinary P] [AllowsAside P] (env : Env) :
    Moves P (restoreAudioOutput env) := by
  refine .get_bind fun b => .ite ?_ (.pure _)
  refine .bind (aside_moves fun _ => ⟨rfl, rfl, rfl, rfl, rfl, rfl, rfl⟩) fun _ => ?_
  split
  · refine .ite (.bind (applyRemotePlaybackState_moves env _) fun result => ?_) (.pure _)
    cases result with
    | ok _ => exact .pure _
    | error error => exact .bind (handleLocalAudioOutputError_moves error) fun _ => .pure _
  · exact .pure _

theorem finishPlayback_moves [AllowsTick P] (env : Env) (state : PlaybackState) :
    Moves P (finishPlayback env state) := by
  refine .get_bind fun b => ?_
  dsimp only
  split
  · exact .pure _
  · exact .bind (stopCurrentPlayback_moves env _) fun _ => startNextIfIdle_moves env
  · exact ordinary_moves rfl

theorem handleSyncFailure_moves [AllowsTick P] (env : Env) (state : PlaybackState)
    (error : BackendError) : Moves P (handleSyncFailure env state error) := by
  refine .get_bind fun b => .bind (handleLocalAudioOutputError_moves error) fun _ => ?_
  refine .ite (.pure _) (.bind (insertFailedAudioSession_moves _) fun _ => ?_)
  refine .ite ?_ (insertFailedAudioSession_moves _)
  exact .bind (stopCurrentPlayback_moves env _) fun _ => startNextIfIdle_moves env

theorem followPlayback_moves [AllowsTick P] (env : Env) : Moves P (followPlayback env) := by
  refine .get_bind fun b => ?_
  split
  · exact .pure _
  · refine .ite ?_ (.pure _)
    split
    · exact handleSyncFailure_moves env _ _
    · exact finishPlayback_moves env _

theorem drainPlayerEvents_moves [AllowsTick P] (events : List (Env × AudioPlayerEvent)) :
    Moves P (drainPlayerEvents events) :=
  .get_bind fun _ => .ite (attempt_moves (handleAudioPlayerEvents_moves events)) (.pure _)

/-- What a local tick attempts after its look at the vote, and what it then goes on with. -/
theorem tickAttempts_moves [AllowsTick P] {α : Type} (env : TickPhase → Env) {rest : Handler α}
    (hrest : Moves P rest) : Moves P (do
      attempt (maybeStartPendingPlayback (env .pending))
      attempt (resolveBufferOperation (env .buffer))
      attempt (startNextIfIdle (env .startNext))
      attempt (maybePauseForBufferHealthLoss (env .health))
      rest) := by
  refine .bind (attempt_moves (maybeStartPendingPlayback_moves _)) fun _ => ?_
  refine .bind (attempt_moves (resolveBufferOperation_moves _)) fun _ => ?_
  refine .bind (attempt_moves (startNextIfIdle_moves _)) fun _ => ?_
  exact .bind (attempt_moves (maybePauseForBufferHealthLoss_moves _)) fun _ => hrest

theorem musicLocalTick_moves [AllowsTick P] (env : TickPhase → Env)
    (events : List (Env × AudioPlayerEvent)) : Moves P (musicLocalTick env events) := by
  refine .bind (restoreAudioOutput_moves _) fun goesOn => .ite ?_ (.pure _)
  refine .bind (drainPlayerEvents_moves events) fun _ => .bind (ordinary_moves rfl) fun _ => ?_
  refine .bind (attempt_moves (resolveActiveVote_moves _)) fun _ => ?_
  exact tickAttempts_moves env (followPlayback_moves _)

theorem musicSyncTick_moves [AllowsQuiet P] [AllowsPublish P] (env : Env) :
    Moves P (musicSyncTick env) := by
  refine .get_bind fun b => .bind (quiet_moves rfl rfl) fun _ => ?_
  split
  · exact .pure _
  · exact publishPlaybackState_moves env _

theorem handleConnectionEstablished_moves [AllowsPublish P] [AllowsAside P] (env : Env)
    (peerId : PeerId) : Moves P (handleConnectionEstablished env peerId) := by
  refine .bind (aside_moves fun _ => ⟨rfl, rfl, rfl, rfl, rfl, rfl, rfl⟩) fun _ => ?_
  refine attempt_moves (.get_bind fun b => .ite (.bind ?_ fun _ => ?_) (.pure _))
  · refine .bind (publishQueueSnapshot_moves env) fun _ => .get_bind fun b => ?_
    split
    · exact .pure _
    · exact publishPlaybackStateIfLocalSource_moves env _
  · exact aside_moves fun _ => ⟨rfl, rfl, rfl, rfl, rfl, rfl, rfl⟩

theorem removeFromBufferQuorum_moves [AllowsUpkeep P] [AllowsOrdinary P] [AllowsPublish P]
    [AllowsSettle P] [AllowsAside P] (env : Env) (peerId : PeerId) :
    Moves P (removeFromBufferQuorum env peerId) :=
  .get_bind fun _ => .bind (coordinate_moves rfl) fun _ =>
    .ite (attempt_moves (resolveBufferOperation_moves env)) (.pure _)

theorem handleConnectionClosed_moves [AllowsUpkeep P] [AllowsOrdinary P] [AllowsPublish P]
    [AllowsSettle P] [AllowsAside P] (env : Env) (peerId : PeerId) (numEstablished : Nat) :
    Moves P (handleConnectionClosed env peerId numEstablished) := by
  refine .ite ?_ (.pure _)
  refine .bind (aside_moves fun _ => ⟨rfl, rfl, rfl, rfl, rfl, rfl, rfl⟩) fun _ => ?_
  refine .bind (ordinary_moves rfl) fun _ => ?_
  refine .bind (removeFromBufferQuorum_moves env peerId) fun _ => ?_
  exact attempt_moves (maybeStartPendingPlayback_moves env)

theorem react_moves [AllowsReactions P] (event : Event) : Moves P (react event) := by
  cases event with
  | command env command => exact handleCommand_moves env command
  | musicLocal env events => exact musicLocalTick_moves env events
  | musicSync env => exact musicSyncTick_moves env
  | wire env source message => exact applyWireMessage_moves env source message
  | connectionEstablished env peerId => exact handleConnectionEstablished_moves env peerId
  | connectionClosed env peerId num => exact handleConnectionClosed_moves env peerId num
  | slowPeer env peerId => exact removeFromBufferQuorum_moves env peerId

end Step

/-! ## Invariants of runs -/

/-- What every permitted action preserves holds throughout every run. -/
theorem Backend.run_preserves {P : Policy} [AllowsReactions P] {I : Backend → Prop}
    (hI : ∀ b b', Move P b b' → I b → I b') {b : Backend} (hb : I b) (events : List Event) :
    I (b.run events) := by
  induction events generalizing b with
  | nil => exact hb
  | cons event events ih => exact ih ((react_moves event).preserves hI hb)

/-- A peer stays who it is throughout every run. -/
theorem Backend.run_localPeerId (b : Backend) (events : List Event) :
    (b.run events).localPeerId = b.localPeerId :=
  b.run_preserves (P := Sound) (I := fun t => t.localPeerId = b.localPeerId)
    (fun _ _ hmove hs => hmove.localPeerId.trans hs) rfl events

/-- What holds of a fresh backend and is preserved by every permitted action holds of every
reachable state. -/
theorem Backend.Reachable.invariant {P : Policy} [AllowsReactions P] {I : Backend → Prop}
    (hnew : ∀ localPeerId rendezvousNodes audioPlayer retry,
      I (Backend.new localPeerId rendezvousNodes audioPlayer retry))
    (hI : ∀ b b', Move P b b' → I b → I b') {b : Backend} (hb : b.Reachable) : I b := by
  obtain ⟨localPeerId, rendezvousNodes, audioPlayer, retry, events, rfl⟩ := hb
  exact Backend.run_preserves hI (hnew _ _ _ _) events

end LightEar
