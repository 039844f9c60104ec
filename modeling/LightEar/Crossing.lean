import LightEar.Backend.Moves
import LightEar.BufferHistory
import Mathlib.Logic.Basic

/-!
# Crossing prepares

Two peers that begin an operation at the same time each ask the other to prepare.  A peer that
agrees gives up its own operation, adopts the other's, and cancels its own in the room; the cancel
then reaches a peer that has just adopted what is being cancelled.  Hence the two settle on one
operation exactly when one of them refuses the other's request: if neither does, both end up
with nothing, and if both do, each keeps its own.

The two backends run as they are, joined by two queues of the operation messages that each has
published.  The invariant says, for each side, whether the request and the cancel of the other
have reached it, and reads off these four facts what the side holds and what is under way.
-/

namespace LightEar

open Foundation

/-! ## What is observed of a peer -/

/-- The messages that open and drop operations, as far as they have left the peer. -/
def Backend.operationMessages (b : Backend) : List WireMessage :=
  b.published.filterMap fun entry =>
    if entry.1.isOperationMessage ∧ entry.2 = .published then some entry.1 else none

/-- The operation messages that leave the peer in a reaction. -/
def sent (before after : Backend) : List WireMessage :=
  after.operationMessages.drop before.operationMessages.length

/-- The name and the leader of the operation in progress. -/
def Backend.held (b : Backend) : Option (String × PeerId) :=
  b.buffer.active.map fun operation => (operation.operationId, operation.state.leaderPeerId)

theorem sent_of_append {before after : Backend} {messages : List WireMessage}
    (h : after.operationMessages = before.operationMessages ++ messages) :
    sent before after = messages := by
  unfold sent
  rw [h, List.drop_left]

theorem Backend.operationMessages_recordPublished (b : Backend) (message : WireMessage)
    (outcome : RoomPublishOutcome) :
    (b.recordPublished message outcome).operationMessages = b.operationMessages ++
      if message.isOperationMessage ∧ outcome = .published then [message] else [] := by
  unfold Backend.operationMessages Backend.recordPublished
  rw [List.filterMap_append]
  congr 1
  by_cases h : message.isOperationMessage ∧ outcome = .published
  · simp [h]
  · simp [h]

/-- The operation in progress stays, and no operation message is published. -/
def Steady : Policy
  | _, .coordinate op => op.isSteady = true
  | _, .publish message _ => message.isOperationMessage = false
  | _, .aside => True
  | _, .music _ | _, .settle _ _ | _, .execute _ _ _ => False

instance : AllowsSteady Steady := ⟨fun _ _ h => h⟩
instance : AllowsReports Steady := ⟨fun _ _ _ h => h⟩
instance : AllowsAside Steady := ⟨fun _ => trivial⟩

/-- Two states of a peer between which nothing is observed. -/
structure Backend.Unmoved (b t : Backend) : Prop where
  /-- The peer is the same. -/
  localPeerId : t.localPeerId = b.localPeerId
  /-- The operation in progress is the same. -/
  held : t.held = b.held
  /-- No operation message has left. -/
  operationMessages : t.operationMessages = b.operationMessages

theorem Backend.Unmoved.refl (b : Backend) : b.Unmoved b := ⟨rfl, rfl, rfl⟩

theorem Backend.Unmoved.trans {b t u : Backend} (h : b.Unmoved t) (h' : t.Unmoved u) :
    b.Unmoved u :=
  ⟨h'.localPeerId.trans h.localPeerId, h'.held.trans h.held,
    h'.operationMessages.trans h.operationMessages⟩

/-- What keeps the operation in progress keeps its name and leader. -/
theorem CoordinatorOp.held_of_isSteady {op : CoordinatorOp} (hop : op.isSteady = true)
    (b : Backend) : (b.changeBuffer op).held = b.held := by
  unfold Backend.held
  change (op.apply b.buffer).active.map _ = _
  cases op with
  | startLeader => cases hop
  | receiveRemote => cases hop
  | removeExpectedPeer => cases hop
  | cancel => cases hop
  | clear => cases hop
  | clearIfLocalLeader => cases hop
  | clearMatching => cases hop
  | extendDeadline deadline =>
    simp only [apply, BufferCoordinator.extendActiveDeadline, Option.map_map]
    rfl
  | markPreparePublished operationId now =>
    simp only [apply, BufferCoordinator.markPreparePublished, Option.map_map]
    congr 1
    funext operation
    simp only [Function.comp]
    split <;> rfl
  | prepareRepublishDue now interval =>
    simp only [apply, BufferCoordinator.prepareRepublishDue]
    split
    · rfl
    · rename_i operation hactive
      split
      · rw [hactive]
        rfl
      · rfl
  | markStatus operationId sessionId peerId status now =>
    simp only [apply, BufferCoordinator.markStatus]
    split
    · rfl
    · rename_i operation hactive
      split
      · rw [hactive]
        rfl
      · rfl

/-- A steady program leaves nothing to observe. -/
theorem Moves.unmoved {α : Type} {m : Handler α} (hm : Moves Steady m) (b : Backend) :
    b.Unmoved (finalState m b) := by
  refine hm.preserves (I := fun t => b.Unmoved t) (fun s t hmove hs => hs.trans ?_) (.refl b)
  refine ⟨hmove.localPeerId, ?_, ?_⟩
  · obtain ⟨action, hP, hdoes⟩ := hmove
    cases action with
    | coordinate op => cases hdoes; exact CoordinatorOp.held_of_isSteady hP s
    | publish message outcome => cases hdoes; rfl
    | music op => exact hP.elim
    | settle operation state => exact hP.elim
    | execute proposal actor op => exact hP.elim
    | aside => unfold Backend.held; rw [hdoes.buffer]
  · obtain ⟨action, hP, hdoes⟩ := hmove
    cases action with
    | coordinate op => cases hdoes; rfl
    | publish message outcome =>
      cases hdoes
      have hreport : ¬ (message.isOperationMessage = true ∧ outcome = .published) := by
        rintro ⟨hmessage, -⟩
        rw [show message.isOperationMessage = false from hP] at hmessage
        cases hmessage
      rw [Backend.operationMessages_recordPublished, if_neg hreport, List.append_nil]
    | music op => exact hP.elim
    | settle operation state => exact hP.elim
    | execute proposal actor op => exact hP.elim
    | aside => unfold Backend.operationMessages; rw [hdoes.published]

/-! ## Requests -/

/-- A request to prepare an operation. -/
structure Prepare where
  /-- The name of the operation. -/
  operationId : String
  /-- The session it prepares. -/
  sessionId : String
  /-- The track it prepares. -/
  trackId : String
  /-- From where the track is to play. -/
  positionMs : Nat
  /-- What the operation is for. -/
  kind : PlaybackBufferOperationKind
  /-- The peers that are asked. -/
  expectedPeers : Finset PeerId
  /-- The peer that asks. -/
  leaderPeerId : PeerId

/-- The message that carries a request. -/
def Prepare.message (m : Prepare) : WireMessage :=
  .playbackBufferPrepare m.operationId m.sessionId m.trackId m.positionMs m.kind m.expectedPeers
    m.leaderPeerId

/-- A peer keeps to what it does: the session of the request has failed here, or its start is
already playing. -/
def Backend.Refuses (b : Backend) (m : Prepare) : Prop :=
  m.sessionId ∈ b.failedAudioSessions ∨
    m.kind = .start ∧ MusicState.playbackStateResolvesBufferPrepare b.music.playbackState
      m.sessionId m.trackId m.leaderPeerId = true

instance (b : Backend) (m : Prepare) : Decidable (b.Refuses m) :=
  inferInstanceAs (Decidable (_ ∨ _))

/-- The room as an environment shows it: both peers have names, and every message is
delivered. -/
structure Env.Connects (env : Env) (left right : PeerId) : Prop where
  /-- The one peer is known by its name. -/
  left : env.parsePeerId left = some left
  /-- So is the other. -/
  right : env.parsePeerId right = some right
  /-- Messages are published. -/
  published : ∀ message, env.gossipsub message = .ok ()

/-- In a connected room a message is published. -/
theorem tryPublish_of_published {env : Env} {message : WireMessage}
    (h : env.gossipsub message = .ok ()) (b : Backend) :
    tryPublish env message b = .ok () (b.recordPublished message .published) := by
  refine bind_eq_ok.2 ⟨.ok .published, _, ?_, rfl⟩
  unfold publishRoomWireWithOutcome
  rw [h]
  rfl

/-- A message that names its source is handled. -/
theorem Backend.step_wire {env : Env} {source : PeerId} {message : WireMessage}
    (h : env.parsePeerId message.sourceField.1 = some source) (b : Backend) :
    b.step (.wire env source message) = finalState (handleWireMessage env message) b := by
  have hvalid : validateWireSource env message source = .ok () := by
    unfold validateWireSource peerFieldMatchesSource
    rw [h, beq_self_eq_true, if_pos rfl]
  change finalState (applyWireMessage env source message) b = _
  unfold applyWireMessage
  rw [hvalid]

/-! ## Receiving a request -/

section Receive

variable {env : Env} {b : Backend} {m : Prepare}

/-- A request that is refused leaves nothing to observe. -/
theorem Backend.step_prepare_of_refuses
    (hsource : env.parsePeerId m.leaderPeerId = some m.leaderPeerId) (hrefuses : b.Refuses m) :
    b.Unmoved (b.step (.wire env m.leaderPeerId m.message)) := by
  rw [Backend.step_wire hsource]
  change b.Unmoved (finalState (handlePlaybackBufferPrepare env m.operationId m.sessionId
    m.trackId m.positionMs m.kind m.expectedPeers m.leaderPeerId) b)
  unfold handlePlaybackBufferPrepare
  rw [finalState_get_bind]
  split
  · exact .refl b
  · split
    · exact (publishBufferStatus_moves env _ _ _).unmoved b
    · rename_i hsession
      rw [if_pos (hrefuses.resolve_left hsession)]
      exact .refl b

/-- Giving up an operation of one's own drops and cancels it. -/
theorem abandonLocalBufferOperation_eq_ok {operation : BufferOperation}
    (hactive : b.buffer.active = some operation)
    (hleads : operation.state.leaderPeerId = b.localPeerId)
    (hpublished : ∀ message, env.gossipsub message = .ok ()) (reason : String) :
    abandonLocalBufferOperation env reason b =
      .ok () ((b.changeBuffer (.clearIfLocalLeader b.localPeerId)).recordPublished
        (.playbackBufferCancel operation.operationId operation.state.sessionId b.localPeerId
          reason) .published) := by
  have htaken : (b.buffer.clearIfLocalLeader b.localPeerId).1 = some operation := by
    simp [BufferCoordinator.clearIfLocalLeader, BufferCoordinator.takeIf, hactive, hleads]
  refine bind_eq_ok.2 ⟨b, b, rfl, ?_⟩
  rw [htaken]
  refine bind_eq_ok.2 ⟨(), _, rfl, ?_⟩
  exact tryPublish_of_published (hpublished _) _

/-- The cancel of an operation. -/
def IsCancel (operationId : String) (leaderPeerId : PeerId) (message : WireMessage) : Prop :=
  ∃ sessionId reason, message = .playbackBufferCancel operationId sessionId leaderPeerId reason

/-- A request for a known track that is not refused is adopted. -/
theorem Backend.step_prepare_eq_adopt
    (hsource : env.parsePeerId m.leaderPeerId = some m.leaderPeerId)
    (hother : m.leaderPeerId ≠ b.localPeerId) (hexpected : b.localPeerId ∈ m.expectedPeers)
    (hagrees : ¬ b.Refuses m) {operation : BufferOperation}
    (hactive : b.buffer.active = some operation) (hname : operation.operationId ≠ m.operationId)
    {track : PlaybackTrack} (htrack : b.music.findBufferTrack m.trackId = some track) :
    b.step (.wire env m.leaderPeerId m.message) = finalState (adoptOperation env m.operationId
      m.sessionId track m.positionMs m.kind m.expectedPeers m.leaderPeerId) b := by
  obtain ⟨hsession, hresolved⟩ := not_or.1 hagrees
  have hignores : ignoresBufferPrepare b m.expectedPeers m.leaderPeerId = false := by
    simp [ignoresBufferPrepare, hother, hexpected]
  have hnew : b.buffer.statusFor m.operationId m.sessionId b.localPeerId = none := by
    simp [BufferCoordinator.statusFor, hactive, BufferOperation.isNamed, hname]
  rw [Backend.step_wire hsource]
  change finalState (handlePlaybackBufferPrepare env m.operationId m.sessionId m.trackId
    m.positionMs m.kind m.expectedPeers m.leaderPeerId) b = _
  unfold handlePlaybackBufferPrepare
  rw [finalState_get_bind, hignores, if_neg Bool.false_ne_true, if_neg hsession,
    if_neg hresolved, hnew]
  dsimp only
  rw [htrack]

/-- A peer that leads an operation of its own and adopts another peer's gives its own up: it
holds the other's afterwards, and has cancelled its own. -/
theorem adoptOperation_held (hpublished : ∀ message, env.gossipsub message = .ok ())
    {operation : BufferOperation} (hactive : b.buffer.active = some operation)
    (hleads : operation.state.leaderPeerId = b.localPeerId) (track : PlaybackTrack) :
    let t := finalState (adoptOperation env m.operationId m.sessionId track m.positionMs m.kind
      m.expectedPeers m.leaderPeerId) b
    t.localPeerId = b.localPeerId ∧ t.held = some (m.operationId, m.leaderPeerId) ∧
      ∃ cancel, IsCancel operation.operationId b.localPeerId cancel ∧
        t.operationMessages = b.operationMessages ++ [cancel] := by
  intro t
  let cancel : WireMessage := .playbackBufferCancel operation.operationId
    operation.state.sessionId b.localPeerId "superseded by remote buffer prepare"
  let abandoned := (b.changeBuffer (.clearIfLocalLeader b.localPeerId)).recordPublished cancel
    .published
  let state := remoteOperationState env abandoned m.sessionId track m.positionMs m.leaderPeerId
  let adopted := abandoned.changeBuffer (.receiveRemote m.operationId state m.kind
    m.expectedPeers bufferOperationTimeout env.now)
  have hgone : abandoned.buffer.active = none := by
    change ((b.buffer.clearIfLocalLeader b.localPeerId).2).active = none
    simp [BufferCoordinator.clearIfLocalLeader, BufferCoordinator.takeIf, hactive, hleads]
  have hadopted : adopted.held = some (m.operationId, m.leaderPeerId) := by
    change ((abandoned.buffer.receiveRemoteOperation m.operationId state m.kind m.expectedPeers
      bufferOperationTimeout env.now).active.map _) = _
    simp [BufferCoordinator.receiveRemoteOperation, hgone, state, remoteOperationState]
  -- Reporting and loading leave the adopted operation in place.
  have hunmoved : adopted.Unmoved t := by
    change adopted.Unmoved (finalState (adoptOperation env m.operationId m.sessionId track
      m.positionMs m.kind m.expectedPeers m.leaderPeerId) b)
    unfold adoptOperation
    rw [finalState_bind_of_ok (abandonLocalBufferOperation_eq_ok hactive hleads hpublished _),
      finalState_get_bind, finalState_coordinate_bind]
    refine Moves.unmoved (m := do
      publishBufferStatus env m.operationId m.sessionId (bufferingStatus m.positionMs)
      markLocalStatus env m.operationId m.sessionId (bufferingStatus m.positionMs)
      loadAdoptedOperation env m.operationId m.sessionId track m.positionMs) ?_ adopted
    refine .bind (publishBufferStatus_moves env _ _ _) fun _ => ?_
    exact .bind (markLocalStatus_moves env _ _ _) fun _ => loadAdoptedOperation_moves env _ _ _ _
  refine ⟨hunmoved.localPeerId, hunmoved.held.trans hadopted, cancel, ⟨_, _, rfl⟩, ?_⟩
  exact hunmoved.operationMessages.trans (Backend.operationMessages_recordPublished _ _ _)

/-- A peer that leads an operation of its own and agrees to a request holds the other's
operation afterwards, and has cancelled its own. -/
theorem Backend.step_prepare_of_agrees
    (hsource : env.parsePeerId m.leaderPeerId = some m.leaderPeerId)
    (hpublished : ∀ message, env.gossipsub message = .ok ())
    (hother : m.leaderPeerId ≠ b.localPeerId) (hexpected : b.localPeerId ∈ m.expectedPeers)
    (hagrees : ¬ b.Refuses m) {operation : BufferOperation}
    (hactive : b.buffer.active = some operation)
    (hleads : operation.state.leaderPeerId = b.localPeerId)
    (hname : operation.operationId ≠ m.operationId)
    (hknown : (b.music.findBufferTrack m.trackId).isSome) :
    let t := b.step (.wire env m.leaderPeerId m.message)
    t.localPeerId = b.localPeerId ∧ t.held = some (m.operationId, m.leaderPeerId) ∧
      ∃ cancel, IsCancel operation.operationId b.localPeerId cancel ∧
        t.operationMessages = b.operationMessages ++ [cancel] := by
  obtain ⟨track, htrack⟩ := Option.isSome_iff_exists.1 hknown
  rw [Backend.step_prepare_eq_adopt hsource hother hexpected hagrees hactive hname htrack]
  exact adoptOperation_held hpublished hactive hleads track

/-- A cancel drops the operation it names, and no other. -/
theorem Backend.step_cancel {operationId : String} {leaderPeerId : PeerId}
    {message : WireMessage} (hcancel : IsCancel operationId leaderPeerId message)
    (hsource : env.parsePeerId leaderPeerId = some leaderPeerId) :
    let t := b.step (.wire env leaderPeerId message)
    t.localPeerId = b.localPeerId ∧ t.operationMessages = b.operationMessages ∧
      t.held = b.held.filter fun held => held.1 != operationId := by
  obtain ⟨sessionId, reason, rfl⟩ := hcancel
  intro t
  have ht : t = b.changeBuffer (.cancel operationId) := Backend.step_wire hsource b
  rw [ht]
  refine ⟨rfl, rfl, ?_⟩
  change (b.buffer.cancel operationId).2.active.map _ = _
  unfold Backend.held BufferCoordinator.cancel BufferCoordinator.takeIf
  cases hactive : b.buffer.active with
  | none => simp [hactive]
  | some operation =>
    by_cases hname : operation.operationId = operationId
    · simp [Option.filter, hname]
    · simp [Option.filter, hactive, hname]

end Receive

/-! ## Beginning an operation -/

/-- The request that an operation of the local peer goes out with. -/
def newPrepare (env : Env) (b : Backend) (item : QueueItem) (kind : PlaybackBufferOperationKind)
    (positionMs : Nat) : Prepare where
  operationId := newOperationId kind b.localPeerId (env.clock .begin)
  sessionId := (newOperationState b item kind positionMs (env.clock .begin)).sessionId
  trackId := item.track.trackId
  positionMs := positionMs
  kind := kind
  expectedPeers := b.roomPeerIds
  leaderPeerId := b.localPeerId

/-- A peer begins an operation in a room with another one: it can halt its player, and what it
publishes is delivered. -/
structure Begins (env : Env) (b : Backend) (other : PeerId) : Prop where
  /-- The other peer is in the room. -/
  connected : other ∈ b.roomPeerIds
  /-- It is another one. -/
  distinct : other ≠ b.localPeerId
  /-- The player, if there is one, can be halted. -/
  halts : b.audioPlayer = true → env.audio.setPlaying false (env.clock .begin) = .ok ()
  /-- Messages are published. -/
  published : ∀ message, env.gossipsub message = .ok ()

section Begin

variable {env : Env} {b : Backend} {other : PeerId}

/-- The player of a peer that begins is halted. -/
theorem Begins.haltPlayer_eq_ok (h : Begins env b other) (t : Backend)
    (haudio : t.audioPlayer = b.audioPlayer) :
    haltPlayer env (env.clock .begin) t = .ok () t := by
  refine bind_eq_ok.2 ⟨t, t, rfl, ?_⟩
  split
  · rename_i hplayer
    rw [h.halts (haudio ▸ hplayer)]
    rfl
  · rfl

/-- With a report of one peer only there is no majority of two. -/
theorem BufferOperation.quorum_of_single {operation : BufferOperation} {peerId : PeerId}
    {status : BufferPeerStatus} (hstatuses : operation.statuses.entries = [⟨peerId, status⟩])
    (hready : status.status = .ready) {now : Instant} (hdeadline : now < operation.deadline)
    (hcard : 2 ≤ operation.expectedPeers.card) :
    ∃ ready buffering failed threshold,
      operation.quorum now = .waiting ready buffering failed threshold := by
  have hcount : operation.count .ready = 1 := by
    simp [BufferOperation.count, hstatuses, hready]
  have hfailed : operation.count .failed = 0 := by
    simp [BufferOperation.count, hstatuses, hready]
  unfold BufferOperation.quorum
  dsimp only
  rw [hcount, hfailed, if_neg (by unfold majorityThreshold; omega), if_neg hdeadline.not_ge,
    if_neg (by unfold majorityThreshold; omega)]
  exact ⟨_, _, _, _, rfl⟩

/-- An operation of the local peer that the room has been asked to prepare, and that the local
peer itself is loading. -/
def announced (env : Env) (b : Backend) (item : QueueItem) (kind : PlaybackBufferOperationKind)
    (positionMs : Nat) : BufferOperation where
  operationId := newOperationId kind b.localPeerId (env.clock .begin)
  state := newOperationState b item kind positionMs (env.clock .begin)
  kind := kind
  queueItemId := if kind = .start then some item.itemId else none
  expectedPeers := b.roomPeerIds
  statuses := (∅ : AList fun _ : PeerId => BufferPeerStatus).insert b.localPeerId
    (bufferingStatus positionMs)
  deadline := env.now + bufferOperationTimeout
  preparePublishedAt := some env.now

/-- A peer that begins has asked the room to prepare, whatever its own loading comes to. -/
theorem Begins.announceOperation (h : Begins env b other) (item : QueueItem)
    (kind : PlaybackBufferOperationKind) (positionMs : Nat) :
    ∃ t : Backend, finalState (beginBufferOperation env item kind positionMs) b =
        finalState (loadOwnOperation env (newOperationId kind b.localPeerId (env.clock .begin))
          (newOperationState b item kind positionMs (env.clock .begin)) item) t ∧
      t.localPeerId = b.localPeerId ∧
      t.buffer.active = some (announced env b item kind positionMs) ∧
      t.operationMessages = b.operationMessages ++
        [(newPrepare env b item kind positionMs).message] := by
  let operationId := newOperationId kind b.localPeerId (env.clock .begin)
  let state := newOperationState b item kind positionMs (env.clock .begin)
  let opened := b.changeBuffer (.startLeader operationId state kind
    (if kind = .start then some item.itemId else none) b.roomPeerIds
    (env.now + bufferOperationTimeout))
  let asked := opened.recordPublished (newPrepare env b item kind positionMs).message .published
  let marked := (asked.changeBuffer (.markPreparePublished operationId env.now)).changeBuffer
    (.markStatus operationId state.sessionId b.localPeerId (bufferingStatus positionMs) env.now)
  let reported := marked.recordPublished (.playbackBufferStatus operationId state.sessionId
    b.localPeerId (bufferingStatus positionMs)) .published
  have hann : LightEar.announceOperation env operationId state item kind b.roomPeerIds opened =
      .ok () reported := by
    refine bind_eq_ok.2 ⟨opened, opened, rfl, ?_⟩
    refine bind_eq_ok.2 ⟨(), asked, tryPublish_of_published (h.published _) opened, ?_⟩
    refine bind_eq_ok.2 ⟨(), _, rfl, bind_eq_ok.2 ⟨(), marked, rfl, ?_⟩⟩
    exact bind_eq_ok.2 ⟨marked, marked, rfl, tryPublish_of_published (h.published _) marked⟩
  refine ⟨reported, ?_, rfl, ?_, ?_⟩
  · unfold beginBufferOperation
    rw [finalState_get_bind]
    dsimp only
    rw [finalState_coordinate_bind, finalState_bind_of_ok (h.haltPlayer_eq_ok opened rfl),
      finalState_bind_of_ok hann]
  · have hmember : b.localPeerId ∈ b.roomPeerIds := Finset.mem_insert_self _ _
    simp [reported, marked, asked, opened, Backend.recordPublished, Backend.changeBuffer,
      CoordinatorOp.apply,
      BufferCoordinator.markPreparePublished, BufferCoordinator.markStatus,
      BufferOperation.isNamed, BufferOperation.setStatus, hmember, announced, operationId, state]
  · rw [Backend.operationMessages_recordPublished]
    change asked.operationMessages ++ _ = _
    rw [Backend.operationMessages_recordPublished]
    simp [WireMessage.isOperationMessage, Prepare.message]
    rfl

/-- As long as there is no decision and no request due once more, nothing changes. -/
theorem resolveBufferOperation_of_waiting {operation : BufferOperation}
    {ready buffering failed threshold : Nat} (hactive : b.buffer.active = some operation)
    (hleads : operation.state.leaderPeerId = b.localPeerId)
    (hquorum : operation.quorum env.now = .waiting ready buffering failed threshold)
    (hdue : (b.buffer.prepareRepublishDue env.now bufferPrepareRepublishInterval).1 = none) :
    finalState (resolveBufferOperation env) b = b := by
  unfold resolveBufferOperation
  rw [finalState_get_bind, hactive]
  dsimp only
  rw [if_pos hleads, hquorum]
  dsimp only
  unfold resolveWaiting
  rw [finalState_get_bind, hdue]
  rfl

/-- Without audio output a peer that begins reports ready at once, which is no majority. -/
theorem Begins.resolve_silent (h : Begins env b other) {item : QueueItem}
    {kind : PlaybackBufferOperationKind} {positionMs : Nat} {t : Backend}
    (hlocal : t.localPeerId = b.localPeerId)
    (hactive : t.buffer.active = some (announced env b item kind positionMs)) :
    let reported := t.changeBuffer (.markStatus (newOperationId kind b.localPeerId
      (env.clock .begin)) (newOperationState b item kind positionMs (env.clock .begin)).sessionId
      b.localPeerId (silentReadyStatus positionMs item.track) env.now)
    finalState (resolveBufferOperation env) reported = reported := by
  intro reported
  let operation := (announced env b item kind positionMs).setStatus b.localPeerId
    (silentReadyStatus positionMs item.track)
  have hreported : reported.buffer.active = some operation := by
    have hmember : b.localPeerId ∈ b.roomPeerIds := Finset.mem_insert_self _ _
    simp [reported, Backend.changeBuffer, CoordinatorOp.apply, BufferCoordinator.markStatus,
      hactive, BufferOperation.isNamed, announced, hmember, operation]
  have hstatuses : operation.statuses.entries =
      [⟨b.localPeerId, silentReadyStatus positionMs item.track⟩] := by
    simp [operation, BufferOperation.setStatus, announced]
  have hcard : 2 ≤ operation.expectedPeers.card := by
    refine Finset.one_lt_card.2 ⟨b.localPeerId, Finset.mem_insert_self _ _, other,
      h.connected, h.distinct.symm⟩
  have hdeadline : env.now < operation.deadline := Nat.lt_add_of_pos_right (by decide)
  obtain ⟨ready, buffering, failed, threshold, hquorum⟩ :=
    BufferOperation.quorum_of_single hstatuses rfl hdeadline hcard
  refine resolveBufferOperation_of_waiting hreported hlocal.symm hquorum ?_
  simp [BufferCoordinator.prepareRepublishDue, hreported, BufferOperation.republishDue,
    operation, BufferOperation.setStatus, announced, bufferPrepareRepublishInterval, millis]

/-- Whatever loading its own operation comes to, a peer that begins keeps it. -/
theorem Begins.load_unmoved (h : Begins env b other) {item : QueueItem}
    {kind : PlaybackBufferOperationKind} {positionMs : Nat} {t : Backend}
    (hlocal : t.localPeerId = b.localPeerId)
    (hactive : t.buffer.active = some (announced env b item kind positionMs)) :
    t.Unmoved (finalState (loadOwnOperation env (newOperationId kind b.localPeerId
      (env.clock .begin)) (newOperationState b item kind positionMs (env.clock .begin)) item)
      t) := by
  unfold loadOwnOperation
  rw [finalState_get_bind]
  split
  · exact Moves.unmoved (.bind (liftExcept_moves _) fun _ => liftExcept_moves _) t
  · rw [finalState_markLocalStatus_bind, hlocal]
    have hresolve := h.resolve_silent hlocal hactive
    dsimp only at hresolve
    change t.Unmoved (finalState (resolveBufferOperation env) (t.changeBuffer (.markStatus _ _ _
      (silentReadyStatus positionMs item.track) _)))
    rw [hresolve]
    exact ⟨rfl, CoordinatorOp.held_of_isSteady rfl t, rfl⟩

/-- A peer that begins holds its operation, and its request is on the way. -/
theorem Begins.step (h : Begins env b other) (item : QueueItem)
    (kind : PlaybackBufferOperationKind) (positionMs : Nat) :
    let t := finalState (beginBufferOperation env item kind positionMs) b
    t.localPeerId = b.localPeerId ∧
      t.held = some (newOperationId kind b.localPeerId (env.clock .begin), b.localPeerId) ∧
      t.operationMessages = b.operationMessages ++
        [(newPrepare env b item kind positionMs).message] := by
  intro u
  obtain ⟨t, ht, hlocal, hactive, hmessages⟩ := h.announceOperation item kind positionMs
  have hheld : t.held =
      some (newOperationId kind b.localPeerId (env.clock .begin), b.localPeerId) := by
    unfold Backend.held
    rw [hactive]
    rfl
  have hu : t.Unmoved u := by
    change t.Unmoved (finalState (beginBufferOperation env item kind positionMs) b)
    rw [ht]
    exact h.load_unmoved hlocal hactive
  exact ⟨hu.localPeerId.trans hlocal, hu.held.trans hheld, hu.operationMessages.trans hmessages⟩

end Begin

/-! ## Two peers -/

/-- Two peers, and the operation messages on the way between them, in order. -/
structure Pair where
  /-- The one peer. -/
  left : Backend
  /-- The other peer. -/
  right : Backend
  /-- What is on the way to the one. -/
  toLeft : List WireMessage
  /-- What is on the way to the other. -/
  toRight : List WireMessage

namespace Pair

/-- The same two peers seen from the other side. -/
def swap (p : Pair) : Pair := ⟨p.right, p.left, p.toRight, p.toLeft⟩

/-- The right peer receives the next message that is on the way to it. -/
def deliverRight (env : Env) (p : Pair) : Pair :=
  match p.toRight with
  | [] => p
  | message :: rest =>
    let right := p.right.step (.wire env p.left.localPeerId message)
    ⟨p.left, right, p.toLeft ++ sent p.right right, rest⟩

/-- The side that receives. -/
inductive Side where
  | left
  | right
  deriving DecidableEq, Repr

/-- A peer receives the next message that is on the way to it. -/
def deliver (p : Pair) : Side × Env → Pair
  | (.right, env) => p.deliverRight env
  | (.left, env) => (p.swap.deliverRight env).swap

/-- The peers after a list of deliveries. -/
def run (p : Pair) (deliveries : List (Side × Env)) : Pair := deliveries.foldl deliver p

/-- Nothing is on the way. -/
def Quiet (p : Pair) : Prop := p.toLeft = [] ∧ p.toRight = []

/-- Both peers have the same operation in progress. -/
def Settled (p : Pair) : Prop := ∃ held, p.left.held = some held ∧ p.right.held = some held

end Pair

/-- A peer that leads its operation and has not heard of the other's. -/
structure Poised (own other : Prepare) (b : Backend) : Prop where
  /-- The peer leads its operation. -/
  leads : b.localPeerId = own.leaderPeerId
  /-- The operation is in progress. -/
  held : b.held = some (own.operationId, own.leaderPeerId)
  /-- The other peer is another one. -/
  distinct : other.leaderPeerId ≠ own.leaderPeerId
  /-- The operations have different names. -/
  names : own.operationId ≠ other.operationId
  /-- The other peer asks this one. -/
  expected : own.leaderPeerId ∈ other.expectedPeers
  /-- The track of the other peer is known here. -/
  known : (b.music.findBufferTrack other.trackId).isSome

/-- Where a peer stands that began as `start`: `asked` says whether the other's request has
reached it, and `cancelled` whether the cancel of the other's operation has. -/
structure Stands (own other : Prepare) (start : Backend) (asked cancelled : Bool) (b : Backend) :
    Prop where
  /-- The peer is the same. -/
  localPeerId : b.localPeerId = own.leaderPeerId
  /-- Nothing has happened before the request. -/
  before : asked = false → b = start
  /-- Afterwards the peer holds its own operation if it has refused, and the other's otherwise,
  until that is cancelled. -/
  after : asked = true → b.held =
    if start.Refuses other then some (own.operationId, own.leaderPeerId)
    else if cancelled then none else some (other.operationId, other.leaderPeerId)

/-- What is on the way from a peer: its request, until it has arrived, and behind it the cancel
of its operation, from when it has agreed to the other's request until that has arrived. -/
structure UnderWay (own : Prepare) (asked agreed cancelled : Bool) (channel : List WireMessage) :
    Prop where
  /-- The messages. -/
  messages : ∃ cancels, channel = (if asked then [] else [own.message]) ++ cancels ∧
    if agreed && !cancelled then
      ∃ cancel, IsCancel own.operationId own.leaderPeerId cancel ∧ cancels = [cancel]
    else cancels = []
  /-- A cancel that has arrived was sent. -/
  agreed_of_cancelled : cancelled = true → agreed = true
  /-- It has arrived after the request. -/
  asked_of_cancelled : cancelled = true → asked = true

/-- The invariant of two peers whose prepares cross. -/
def Crosses (left right : Prepare) (startLeft startRight : Backend) (p : Pair) : Prop :=
  ∃ askedLeft cancelledLeft askedRight cancelledRight : Bool,
    Stands left right startLeft askedLeft cancelledLeft p.left ∧
    Stands right left startRight askedRight cancelledRight p.right ∧
    UnderWay right askedLeft (askedRight && !decide (startRight.Refuses left)) cancelledLeft
      p.toLeft ∧
    UnderWay left askedRight (askedLeft && !decide (startLeft.Refuses right)) cancelledRight
      p.toRight

section Crosses

variable {left right : Prepare} {startLeft startRight : Backend} {p : Pair} {env : Env}

theorem Crosses.swap (h : Crosses left right startLeft startRight p) :
    Crosses right left startRight startLeft p.swap := by
  obtain ⟨askedLeft, cancelledLeft, askedRight, cancelledRight, hleft, hright, htoLeft, htoRight⟩ :=
    h
  exact ⟨askedRight, cancelledRight, askedLeft, cancelledLeft, hright, hleft, htoRight, htoLeft⟩

/-- In the beginning both requests are on the way. -/
theorem Crosses.start (hleft : Poised left right startLeft)
    (hright : Poised right left startRight) :
    Crosses left right startLeft startRight
      ⟨startLeft, startRight, [right.message], [left.message]⟩ :=
  ⟨false, false, false, false, ⟨hleft.leads, fun _ => rfl, nofun⟩,
    ⟨hright.leads, fun _ => rfl, nofun⟩, ⟨⟨[], rfl, rfl⟩, nofun, nofun⟩,
    ⟨⟨[], rfl, rfl⟩, nofun, nofun⟩⟩

/-- A poised peer has its own operation in progress. -/
theorem Poised.exists_active {own other : Prepare} {b : Backend} (h : Poised own other b) :
    ∃ operation, b.buffer.active = some operation ∧ operation.operationId = own.operationId ∧
      operation.state.leaderPeerId = own.leaderPeerId := by
  obtain ⟨operation, hactive, heq⟩ := Option.map_eq_some_iff.1 h.held
  rw [Prod.mk.injEq] at heq
  exact ⟨operation, hactive, heq.1, heq.2⟩

/-- The arrival of the request at the right peer keeps the invariant. -/
theorem Crosses.deliver_request (hright : Poised right left startRight)
    (henv : env.Connects left.leaderPeerId right.leaderPeerId)
    {askedLeft cancelledLeft : Bool}
    (hL : Stands left right startLeft askedLeft cancelledLeft p.left)
    (htoLeft : UnderWay right askedLeft false cancelledLeft p.toLeft)
    {rest : List WireMessage}
    (htoRight : UnderWay left true (askedLeft && !decide (startLeft.Refuses right)) false rest) :
    Crosses left right startLeft startRight
      ⟨p.left, startRight.step (.wire env left.leaderPeerId left.message),
        p.toLeft ++ sent startRight (startRight.step (.wire env left.leaderPeerId left.message)),
        rest⟩ := by
  by_cases hrefuses : startRight.Refuses left
  · have hunmoved := Backend.step_prepare_of_refuses henv.left hrefuses
    have hsent : sent startRight (startRight.step (.wire env left.leaderPeerId left.message)) =
        [] := by
      refine sent_of_append ?_
      rw [hunmoved.operationMessages, List.append_nil]
    refine ⟨askedLeft, cancelledLeft, true, false, hL, ?_, ?_, htoRight⟩
    · refine ⟨hunmoved.localPeerId.trans hright.leads, nofun, fun _ => ?_⟩
      rw [if_pos hrefuses]
      exact hunmoved.held.trans hright.held
    · dsimp only
      rw [hsent, List.append_nil, decide_eq_true hrefuses]
      exact htoLeft
  · obtain ⟨operation, hactive, hname, hleads⟩ := hright.exists_active
    obtain ⟨hlocal, hheld, cancel, hcancel, hmessages⟩ :=
      Backend.step_prepare_of_agrees henv.left henv.published
        (by rw [hright.leads]; exact hright.distinct) (by rw [hright.leads]; exact hright.expected)
        hrefuses hactive (hleads.trans hright.leads.symm) (hname ▸ hright.names) hright.known
    rw [hname, hright.leads] at hcancel
    have hcancelled : cancelledLeft = false := by
      cases cancelledLeft with
      | false => rfl
      | true => exact absurd (htoLeft.agreed_of_cancelled rfl) Bool.false_ne_true
    subst hcancelled
    obtain ⟨cancels, hchannel, hcancels⟩ := htoLeft.messages
    have hnone : cancels = [] := hcancels
    refine ⟨askedLeft, false, true, false, hL, ?_, ?_, htoRight⟩
    · refine ⟨hlocal.trans hright.leads, nofun, fun _ => ?_⟩
      rw [if_neg hrefuses]
      exact hheld
    · dsimp only
      rw [sent_of_append hmessages, hchannel, hnone, List.append_nil, decide_eq_false hrefuses]
      exact ⟨⟨[cancel], rfl, cancel, hcancel, rfl⟩, nofun, nofun⟩

/-- The arrival of the cancel at the right peer keeps the invariant. -/
theorem Crosses.deliver_cancel (hright : Poised right left startRight)
    (henv : env.Connects left.leaderPeerId right.leaderPeerId)
    {askedLeft cancelledLeft : Bool}
    (hL : Stands left right startLeft askedLeft cancelledLeft p.left)
    (hR : Stands right left startRight true false p.right)
    (htoLeft : UnderWay right askedLeft (!decide (startRight.Refuses left)) cancelledLeft p.toLeft)
    (hagreed : (askedLeft && !decide (startLeft.Refuses right)) = true) {message : WireMessage}
    (hcancel : IsCancel left.operationId left.leaderPeerId message) :
    Crosses left right startLeft startRight
      ⟨p.left, p.right.step (.wire env left.leaderPeerId message),
        p.toLeft ++ sent p.right (p.right.step (.wire env left.leaderPeerId message)), []⟩ := by
  obtain ⟨hlocal, hmessages, hheld⟩ := Backend.step_cancel (b := p.right) hcancel henv.left
  have hsent : sent p.right (p.right.step (.wire env left.leaderPeerId message)) = [] := by
    refine sent_of_append ?_
    rw [hmessages, List.append_nil]
  refine ⟨askedLeft, cancelledLeft, true, true, hL, ?_, ?_, ?_⟩
  · refine ⟨hlocal.trans hR.localPeerId, nofun, fun _ => hheld.trans ?_⟩
    rw [hR.after rfl]
    by_cases hrefuses : startRight.Refuses left
    · rw [if_pos hrefuses, if_pos hrefuses]
      simp [Option.filter, hright.names]
    · rw [if_neg hrefuses, if_neg hrefuses]
      simp [Option.filter]
  · dsimp only
    rw [hsent, List.append_nil]
    exact htoLeft
  · refine ⟨⟨[], rfl, ?_⟩, fun _ => hagreed, fun _ => rfl⟩
    rw [hagreed]
    rfl

/-- The arrival of a message at the right peer keeps the invariant. -/
theorem Crosses.deliverRight (hright : Poised right left startRight)
    (henv : env.Connects left.leaderPeerId right.leaderPeerId)
    (h : Crosses left right startLeft startRight p) :
    Crosses left right startLeft startRight (p.deliverRight env) := by
  have hinv := h
  obtain ⟨askedLeft, cancelledLeft, askedRight, cancelledRight, hL, hR, htoLeft, htoRight⟩ := h
  obtain ⟨cancels, hchannel, hcancels⟩ := htoRight.messages
  unfold Pair.deliverRight
  cases askedRight with
  | false =>
    have hcancelled : cancelledRight = false := by
      cases cancelledRight with
      | false => rfl
      | true => exact absurd (htoRight.asked_of_cancelled rfl) Bool.false_ne_true
    subst hcancelled
    rw [show p.toRight = left.message :: cancels from hchannel]
    dsimp only
    rw [hL.localPeerId, hR.before rfl]
    exact Crosses.deliver_request hright henv hL htoLeft ⟨⟨cancels, rfl, hcancels⟩, nofun, nofun⟩
  | true =>
    rw [show p.toRight = cancels from hchannel]
    cases hagreed : (askedLeft && !decide (startLeft.Refuses right)) && !cancelledRight with
    | false =>
      rw [hagreed] at hcancels
      rw [show cancels = [] from hcancels]
      exact hinv
    | true =>
      rw [hagreed] at hcancels
      obtain ⟨message, hmessage, rfl⟩ := hcancels
      rw [Bool.and_eq_true, Bool.not_eq_true'] at hagreed
      obtain ⟨hagreed, rfl⟩ := hagreed
      dsimp only
      rw [hL.localPeerId]
      exact Crosses.deliver_cancel hright henv hL hR htoLeft hagreed hmessage

/-- Every delivery keeps the invariant. -/
theorem Crosses.deliver (hleft : Poised left right startLeft)
    (hright : Poised right left startRight) {delivery : Pair.Side × Env}
    (henv : delivery.2.Connects left.leaderPeerId right.leaderPeerId)
    (h : Crosses left right startLeft startRight p) :
    Crosses left right startLeft startRight (p.deliver delivery) := by
  obtain ⟨side, env⟩ := delivery
  cases side with
  | right => exact h.deliverRight hright henv
  | left => exact (h.swap.deliverRight hleft ⟨henv.right, henv.left, henv.published⟩).swap

/-- Every run keeps the invariant. -/
theorem Crosses.run (hleft : Poised left right startLeft)
    (hright : Poised right left startRight) {deliveries : List (Pair.Side × Env)}
    (henvs : ∀ delivery ∈ deliveries,
      delivery.2.Connects left.leaderPeerId right.leaderPeerId)
    (h : Crosses left right startLeft startRight p) :
    Crosses left right startLeft startRight (p.run deliveries) := by
  induction deliveries generalizing p with
  | nil => exact h
  | cons delivery deliveries ih =>
    have hstep := h.deliver hleft hright (henvs delivery List.mem_cons_self)
    exact ih (fun d hd => henvs d (List.mem_cons_of_mem _ hd)) hstep

/-- When nothing is on the way, the request has arrived, and the cancel if there is one. -/
theorem UnderWay.of_nil {own : Prepare} {asked agreed cancelled : Bool}
    (h : UnderWay own asked agreed cancelled []) : asked = true ∧ cancelled = agreed := by
  obtain ⟨cancels, hchannel, hcancels⟩ := h.messages
  cases asked with
  | false => cases hchannel
  | true =>
    refine ⟨rfl, ?_⟩
    have hnone : cancels = [] := hchannel.symm
    subst hnone
    cases agreed with
    | false =>
      cases cancelled with
      | false => rfl
      | true => exact (h.agreed_of_cancelled rfl).symm
    | true =>
      cases cancelled with
      | true => rfl
      | false =>
        obtain ⟨_, _, hcancel⟩ := hcancels
        cases hcancel

/-- When nothing is on the way, the peers are settled exactly when one of them has refused. -/
theorem Crosses.settled_iff (hright : Poised right left startRight)
    (h : Crosses left right startLeft startRight p) (hquiet : p.Quiet) :
    p.Settled ↔ Xor (startLeft.Refuses right) (startRight.Refuses left) := by
  obtain ⟨askedLeft, cancelledLeft, askedRight, cancelledRight, hL, hR, htoLeft, htoRight⟩ := h
  rw [hquiet.1] at htoLeft
  rw [hquiet.2] at htoRight
  obtain ⟨rfl, rfl⟩ := htoLeft.of_nil
  obtain ⟨rfl, rfl⟩ := htoRight.of_nil
  have hleft := hL.after rfl
  have hright' := hR.after rfl
  unfold Pair.Settled
  rw [hleft, hright']
  by_cases hl : startLeft.Refuses right
  · by_cases hr : startRight.Refuses left
    · -- Both keep their own.
      simp [hl, hr, hright.names, Xor]
    · simp [hl, hr, Xor]
  · by_cases hr : startRight.Refuses left
    · simp [hl, hr, Xor]
    · -- Both have lost the operation they agreed to.
      simp [hl, hr, Xor]

end Crosses

/-! ## Main result -/

/-- The two peers when each has begun an operation: what each has published is on the way. -/
def beginBoth (envLeft envRight : Env) (left right : Backend) (itemLeft itemRight : QueueItem)
    (kindLeft kindRight : PlaybackBufferOperationKind) (positionLeft positionRight : Nat) : Pair :=
  let begunLeft := finalState (beginBufferOperation envLeft itemLeft kindLeft positionLeft) left
  let begunRight :=
    finalState (beginBufferOperation envRight itemRight kindRight positionRight) right
  ⟨begunLeft, begunRight, sent right begunRight, sent left begunLeft⟩

/-- A peer that has begun is poised. -/
theorem Begins.poised {env : Env} {b : Backend} {other : Prepare}
    (h : Begins env b other.leaderPeerId) (item : QueueItem)
    (kind : PlaybackBufferOperationKind) (positionMs : Nat)
    (hnames : (newPrepare env b item kind positionMs).operationId ≠ other.operationId)
    (hexpected : b.localPeerId ∈ other.expectedPeers)
    (hknown : ((finalState (beginBufferOperation env item kind positionMs)
      b).music.findBufferTrack other.trackId).isSome) :
    Poised (newPrepare env b item kind positionMs) other
      (finalState (beginBufferOperation env item kind positionMs) b) := by
  obtain ⟨hlocal, hheld, -⟩ := h.step item kind positionMs
  exact ⟨hlocal, hheld, h.distinct, hnames, hexpected, hknown⟩

/-- Two connected peers begin an operation each, under different names and for tracks that both
know, before either has heard of the other's.  Whenever nothing is on the way between them any
more, in whatever order the prepares and cancels have arrived, both have the same operation in
progress exactly when one of them, and not the other, has refused the other's prepare. -/
theorem crossing_settles_iff_one_refuses {envLeft envRight : Env} {left right : Backend}
    {itemLeft itemRight : QueueItem} {kindLeft kindRight : PlaybackBufferOperationKind}
    {positionLeft positionRight : Nat} (hleft : Begins envLeft left right.localPeerId)
    (hright : Begins envRight right left.localPeerId)
    (hnames : newOperationId kindLeft left.localPeerId (envLeft.clock .begin) ≠
      newOperationId kindRight right.localPeerId (envRight.clock .begin)) :
    let start := beginBoth envLeft envRight left right itemLeft itemRight kindLeft kindRight
      positionLeft positionRight
    (start.left.music.findBufferTrack itemRight.track.trackId).isSome →
    (start.right.music.findBufferTrack itemLeft.track.trackId).isSome →
    ∀ deliveries : List (Pair.Side × Env),
      (∀ delivery ∈ deliveries, delivery.2.Connects left.localPeerId right.localPeerId) →
      (start.run deliveries).Quiet →
      ((start.run deliveries).Settled ↔
        Xor (start.left.Refuses (newPrepare envRight right itemRight kindRight positionRight))
          (start.right.Refuses (newPrepare envLeft left itemLeft kindLeft positionLeft))) := by
  intro start hknownLeft hknownRight deliveries henvs hquiet
  let prepareLeft := newPrepare envLeft left itemLeft kindLeft positionLeft
  let prepareRight := newPrepare envRight right itemRight kindRight positionRight
  have hposedLeft : Poised prepareLeft prepareRight start.left :=
    hleft.poised itemLeft kindLeft positionLeft hnames hright.connected hknownLeft
  have hposedRight : Poised prepareRight prepareLeft start.right :=
    hright.poised itemRight kindRight positionRight hnames.symm hleft.connected hknownRight
  have hstart : start =
      ⟨start.left, start.right, [prepareRight.message], [prepareLeft.message]⟩ := by
    have htoLeft := sent_of_append (hright.step itemRight kindRight positionRight).2.2
    have htoRight := sent_of_append (hleft.step itemLeft kindLeft positionLeft).2.2
    change (⟨start.left, start.right, sent right start.right, sent left start.left⟩ : Pair) = _
    rw [show sent right start.right = [prepareRight.message] from htoLeft,
      show sent left start.left = [prepareLeft.message] from htoRight]
  have hcrosses : Crosses prepareLeft prepareRight start.left start.right start := by
    rw [hstart]
    exact Crosses.start hposedLeft hposedRight
  exact (hcrosses.run hposedLeft hposedRight henvs).settled_iff hposedRight hquiet

/-- A peer that has met another one and has learnt its queue of one item. -/
def queueOfOne (localPeerId other : PeerId) : Backend :=
  (Backend.new localPeerId ∅ false 0).run [
    .connectionEstablished (.plain 1000000) other,
    .wire (.plain 2000000) other (.queueState {
      version := 2
      items := [⟨"q", ⟨"x:0", "bilibili", "x", 0, 240000⟩, "a", 1500000⟩]
      updatedBy := other
      updatedAtMicros := 2000000 })]

/-- The item that both peers start at their next tick. -/
def firstItem : QueueItem := ⟨"q", ⟨"x:0", "bilibili", "x", 0, 240000⟩, "a", 1500000⟩

/-- The two prepares arrive, and then the two cancels. -/
def prepareAndCancel : List (Pair.Side × Env) :=
  [(.right, .plain 4000000), (.left, .plain 4000000), (.right, .plain 5000000),
    (.left, .plain 5000000)]

theorem Env.plain_connects (micros : Int) : (Env.plain micros).Connects "a" "b" :=
  ⟨rfl, rfl, fun _ => rfl⟩

theorem queueOfOne_begins_left : Begins (.plain 3000000) (queueOfOne "a" "b") "b" :=
  ⟨by decide, by decide, fun _ => rfl, fun _ => rfl⟩

theorem queueOfOne_begins_right : Begins (.plain 3000000) (queueOfOne "b" "a") "a" :=
  ⟨by decide, by decide, fun _ => rfl, fun _ => rfl⟩

theorem prepareAndCancel_connects :
    ∀ delivery ∈ prepareAndCancel, delivery.2.Connects "a" "b" := by
  intro delivery hdelivery
  simp only [prepareAndCancel, List.mem_cons, List.not_mem_nil, or_false] at hdelivery
  rcases hdelivery with rfl | rfl | rfl | rfl <;> exact Env.plain_connects _

/-- The main result at two peers that start the same item at the same time. -/
theorem crossing_settles_iff_one_refuses_start :
    let start := beginBoth (.plain 3000000) (.plain 3000000) (queueOfOne "a" "b")
      (queueOfOne "b" "a") firstItem firstItem .start .start 0 0
    (start.run prepareAndCancel).Settled ↔
      Xor (start.left.Refuses (newPrepare (.plain 3000000) (queueOfOne "b" "a") firstItem .start 0))
        (start.right.Refuses
          (newPrepare (.plain 3000000) (queueOfOne "a" "b") firstItem .start 0)) :=
  crossing_settles_iff_one_refuses queueOfOne_begins_left queueOfOne_begins_right (by decide)
    (by decide) (by decide) prepareAndCancel prepareAndCancel_connects ⟨by decide, by decide⟩

/-- Two peers that start the same item at the same time may both end up with nothing. -/
theorem crossing_prepares_end_idle :
    ¬ ∀ (envLeft envRight : Env) (left right : Backend) (itemLeft itemRight : QueueItem)
        (kindLeft kindRight : PlaybackBufferOperationKind) (positionLeft positionRight : Nat),
      left.Reachable → right.Reachable →
      Begins envLeft left right.localPeerId → Begins envRight right left.localPeerId →
      newOperationId kindLeft left.localPeerId (envLeft.clock .begin) ≠
        newOperationId kindRight right.localPeerId (envRight.clock .begin) →
      let start := beginBoth envLeft envRight left right itemLeft itemRight kindLeft kindRight
        positionLeft positionRight
      (start.left.music.findBufferTrack itemRight.track.trackId).isSome →
      (start.right.music.findBufferTrack itemLeft.track.trackId).isSome →
      ∀ deliveries : List (Pair.Side × Env),
        (∀ delivery ∈ deliveries, delivery.2.Connects left.localPeerId right.localPeerId) →
        (start.run deliveries).Quiet → (start.run deliveries).Settled := by
  intro h
  obtain ⟨held, hheld, -⟩ := h (.plain 3000000) (.plain 3000000) (queueOfOne "a" "b")
    (queueOfOne "b" "a") firstItem firstItem .start .start 0 0 ⟨"a", ∅, false, 0, _, rfl⟩
    ⟨"b", ∅, false, 0, _, rfl⟩ queueOfOne_begins_left queueOfOne_begins_right (by decide)
    (by decide) (by decide) prepareAndCancel prepareAndCancel_connects ⟨by decide, by decide⟩
  have hidle : ((beginBoth (.plain 3000000) (.plain 3000000) (queueOfOne "a" "b")
      (queueOfOne "b" "a") firstItem firstItem .start .start 0 0).run
        prepareAndCancel).left.held = none := by
    decide
  rw [hidle] at hheld
  cases hheld

end LightEar
