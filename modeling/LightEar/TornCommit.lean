import LightEar.SessionRest

/-!
# What a refused message leaves of a commit

A commit changes the queue and the playback state around two messages to the room, and the
network may refuse either of them.  The commit then stops where it is, and the operation, which
is dropped only after the commit, is still in progress.  So a look at a ready quorum that stops
with an error has either changed nothing that the room sees, or the commit is torn: the item of
the start is gone or the state is stored, and the operation is still there to be committed once
more.

`commit_not_torn_iff` says when that happens, in terms of the state before the look and of the
two messages; `stuck_of_refused` follows an operation whose queue message is refused at every
look.
-/

namespace LightEar

open Foundation

variable {env : Env} {operation : BufferOperation} {b b' : Backend} {error : BackendError}

/-! ## The two messages -/

/-- The network refuses a message. -/
def Env.refuses (env : Env) (message : WireMessage) : Bool :=
  match classifyRoomPublish (env.gossipsub message) with
  | .ok _ => false
  | .error _ => true

theorem Env.refuses_eq_true_iff {message : WireMessage} :
    env.refuses message = true ↔
      ∃ error, classifyRoomPublish (env.gossipsub message) = .error error := by
  unfold refuses
  cases classifyRoomPublish (env.gossipsub message) <;> simp

theorem Env.refuses_eq_false_iff {message : WireMessage} :
    env.refuses message = false ↔
      ∃ outcome, classifyRoomPublish (env.gossipsub message) = .ok outcome := by
  unfold refuses
  cases classifyRoomPublish (env.gossipsub message) <;> simp

/-- The queue that the commit of a start announces: without the item, under a new key. -/
def Backend.startedQueue (env : Env) (operation : BufferOperation) (b : Backend) : MusicState :=
  (b.music.removeBufferQueueItem operation.queueItemId (env.clock .queueRemoved)).markQueueChanged
    (env.clock .queuePublished)

/-- The state that a commit stores and announces. -/
def Backend.stateToCommit (env : Env) (operation : BufferOperation) (b : Backend) :
    PlaybackState :=
  MusicState.committedState operation.state (satAdd b.music.playbackVersion 1)
    (env.clock .commit) musicStartDelay

/-- The operation is a start, and the network refuses the queue that its commit announces. -/
def QueueRefused (env : Env) (operation : BufferOperation) (b : Backend) : Prop :=
  operation.kind = .start ∧
    env.refuses (.queueState ((b.startedQueue env operation).queueState b.localPeerId)) = true

/-- The network refuses the state that the commit announces. -/
def StateRefused (env : Env) (operation : BufferOperation) (b : Backend) : Prop :=
  env.refuses (.playbackState (b.stateToCommit env operation)) = true

/-- A commit finds nothing to change about the queue: it is of no start, or the item is not there
and the key is already the last one with the stamp it would get. -/
def QueueStays (env : Env) (operation : BufferOperation) (b : Backend) : Prop :=
  operation.kind = .start →
    (∀ item ∈ b.music.queue, operation.queueItemId ≠ some item.itemId) ∧
      b.music.queueVersion = u64Max ∧ b.music.queueUpdatedAt = env.clock .queuePublished

/-! ## What is torn -/

/-- Queue and playback state are as they were. -/
def Untouched (b b' : Backend) : Prop :=
  b'.music.SameQueue b.music ∧ b'.music.playbackState = b.music.playbackState

/-- The commit is complete: its state is stored, and the operation is over. -/
def Completed (env : Env) (operation : BufferOperation) (b b' : Backend) : Prop :=
  b'.music.playbackState = some (b.stateToCommit env operation) ∧
    ∀ o ∈ b'.buffer.active, o.operationId ≠ operation.operationId

/-- A look at the operation that stops with an error has touched nothing, or has completed the
commit. -/
def NotTorn (env : Env) (operation : BufferOperation) (b : Backend) : Prop :=
  ∀ error b', resolveBufferOperation env b = .error error b' →
    Untouched b b' ∨ Completed env operation b b'

/-- The queue is refused after it has been changed, or the state is refused after it has been
stored or the queue changed. -/
def RefusedAfterChange (env : Env) (operation : BufferOperation) (b : Backend) : Prop :=
  (QueueRefused env operation b ∧ ¬ QueueStays env operation b) ∨
    (¬ QueueRefused env operation b ∧ StateRefused env operation b ∧
      ¬ (QueueStays env operation b ∧
        b.music.playbackState = some (b.stateToCommit env operation)))

/-- The commit is reached, and a message is refused after a change. -/
structure Tears (env : Env) (operation : BufferOperation) (b : Backend) : Prop where
  /-- The local peer leads the operation. -/
  leads : operation.state.leaderPeerId = b.localPeerId
  /-- With an audio output, the local peer has reported that it is ready. -/
  audible : b.audioPlayer = true → operation.reports b.localPeerId .ready = true
  /-- The prepared stream can be started. -/
  starts : streamStarts env b.audioPlayer operation = true
  /-- A message is refused after a change. -/
  refused : RefusedAfterChange env operation b

/-! ## The queue of a start -/

namespace MusicState

/-- A new key is the old one only at the last version. -/
theorem markQueueChanged_sameQueue_iff {m : MusicState} {updatedAtMicros : Int} :
    (m.markQueueChanged updatedAtMicros).SameQueue m ↔
      m.queueVersion = u64Max ∧ m.queueUpdatedAt = updatedAtMicros := by
  constructor
  · intro h
    exact ⟨satAdd_one_eq_self_iff.1 h.version, h.updatedAt.symm⟩
  · rintro ⟨hversion, hstamp⟩
    exact ⟨rfl, satAdd_one_eq_self_iff.2 hversion, hstamp.symm⟩

/-- Consuming an item that is not there changes nothing. -/
theorem removeBufferQueueItem_of_absent {m : MusicState} {queueItemId : Option String}
    (h : ∀ item ∈ m.queue, queueItemId ≠ some item.itemId) (nowMicros : Int) :
    m.removeBufferQueueItem queueItemId nowMicros = m := by
  unfold removeBufferQueueItem
  cases queueItemId with
  | none => rfl
  | some itemId =>
    refine if_neg fun hany => ?_
    obtain ⟨item, hitem, hid⟩ := List.any_eq_true.1 hany
    exact h item hitem (congrArg some (eq_of_beq hid).symm)

/-- Consuming an item that is there makes the queue shorter. -/
theorem removeBufferQueueItem_length {m : MusicState} {item : QueueItem} (hitem : item ∈ m.queue)
    (nowMicros : Int) :
    (m.removeBufferQueueItem (some item.itemId) nowMicros).queue.length + 1 = m.queue.length := by
  have hany : m.queue.any (isItem item.itemId) = true :=
    List.any_eq_true.2 ⟨item, hitem, beq_self_eq_true _⟩
  have hpos : 0 < m.queue.length := List.length_pos_of_mem hitem
  unfold removeBufferQueueItem
  dsimp only
  rw [if_pos hany]
  change (m.queue.eraseP (isItem item.itemId)).length + 1 = _
  rw [List.length_eraseP, if_pos hany]
  omega

/-- Raising the playback version is nothing to the queue. -/
theorem removeBufferQueueItem_nextPlaybackVersion (m : MusicState) (queueItemId : Option String)
    (nowMicros : Int) :
    (MusicOp.nextPlaybackVersion.apply m).removeBufferQueueItem queueItemId nowMicros =
      MusicOp.nextPlaybackVersion.apply (m.removeBufferQueueItem queueItemId nowMicros) := by
  unfold removeBufferQueueItem
  cases queueItemId with
  | none => rfl
  | some itemId =>
    by_cases hany : m.queue.any (isItem itemId) = true
    · dsimp only
      rw [if_pos hany]
      exact if_pos hany
    · dsimp only
      rw [if_neg hany]
      exact if_neg hany

/-- Consuming an item does not touch the playback. -/
theorem removeBufferQueueItem_playbackState (m : MusicState) (queueItemId : Option String)
    (nowMicros : Int) :
    (m.removeBufferQueueItem queueItemId nowMicros).playbackState = m.playbackState :=
  MusicOp.samePlayback (.removeBufferQueueItem queueItemId nowMicros) rfl m

theorem removeBufferQueueItem_sublist (m : MusicState) (queueItemId : Option String)
    (nowMicros : Int) :
    (m.removeBufferQueueItem queueItemId nowMicros).queue.Sublist m.queue := by
  unfold removeBufferQueueItem
  cases queueItemId with
  | none => exact .refl _
  | some itemId =>
    dsimp only
    split
    · exact List.eraseP_sublist
    · exact .refl _

/-- With distinct names, the item is gone after it has been consumed. -/
theorem absent_removeBufferQueueItem {m : MusicState} (hids : (m.queue.map QueueItem.itemId).Nodup)
    {queueItemId : Option String} {nowMicros : Int} {item : QueueItem}
    (hitem : item ∈ (m.removeBufferQueueItem queueItemId nowMicros).queue) :
    queueItemId ≠ some item.itemId := by
  rintro rfl
  have hpresent : m.queue.any (isItem item.itemId) = true :=
    List.any_eq_true.2 ⟨item, (removeBufferQueueItem_sublist m _ nowMicros).mem hitem,
      beq_self_eq_true _⟩
  unfold removeBufferQueueItem at hitem
  dsimp only at hitem
  rw [if_pos hpresent] at hitem
  have hnames : (m.queue.eraseP (isItem item.itemId)).map QueueItem.itemId =
      (m.queue.map QueueItem.itemId).erase item.itemId := by
    rw [List.erase_eq_eraseP', List.eraseP_map]
    rfl
  exact hids.not_mem_erase (hnames ▸ List.mem_map_of_mem hitem)

end MusicState

/-- Consuming the item of a start and giving a new key leaves the queue as it is only when there
is nothing to change. -/
theorem startedQueue_sameQueue_iff :
    (b.startedQueue env operation).SameQueue b.music ↔
      (∀ item ∈ b.music.queue, operation.queueItemId ≠ some item.itemId) ∧
        b.music.queueVersion = u64Max ∧ b.music.queueUpdatedAt = env.clock .queuePublished := by
  unfold Backend.startedQueue
  by_cases habsent : ∀ item ∈ b.music.queue, operation.queueItemId ≠ some item.itemId
  · rw [MusicState.removeBufferQueueItem_of_absent habsent,
      MusicState.markQueueChanged_sameQueue_iff]
    exact (and_iff_right habsent).symm
  · refine iff_of_false (fun hsame => habsent fun item hitem hid => ?_) fun h => habsent h.1
    have hlength := MusicState.removeBufferQueueItem_length hitem (env.clock .queueRemoved)
    rw [← hid] at hlength
    have hitems := congrArg List.length hsame.items
    change (b.music.removeBufferQueueItem operation.queueItemId _).queue.length = _ at hitems
    omega

/-! ## The halves of a commit -/

/-- The backend when the commit of a start announces the queue. -/
def Backend.itemConsumed (env : Env) (operation : BufferOperation) (b : Backend) : Backend :=
  { b with music := MusicOp.nextPlaybackVersion.apply (b.startedQueue env operation) }

/-- What the first half of a commit, up to the queue message, has made of a backend. -/
structure QueueHalf (env : Env) (operation : BufferOperation) (b t : Backend) : Prop where
  /-- The playback is untouched. -/
  playbackState : t.music.playbackState = b.music.playbackState
  /-- The queue is as it was only where there is nothing to change. -/
  sameQueue : t.music.SameQueue b.music ↔ QueueStays env operation b

theorem QueueHalf.of_start (hkind : operation.kind = .start) :
    QueueHalf env operation b (b.itemConsumed env operation) := by
  refine ⟨MusicState.removeBufferQueueItem_playbackState _ _ _, ?_⟩
  have hsame : (b.itemConsumed env operation).music.SameQueue b.music ↔
      (b.startedQueue env operation).SameQueue b.music :=
    ⟨fun h => ⟨h.items, h.version, h.updatedAt⟩, fun h => ⟨h.items, h.version, h.updatedAt⟩⟩
  rw [hsame, startedQueue_sameQueue_iff]
  exact ⟨fun h _ => h, fun h => h hkind⟩

theorem QueueHalf.of_not_start (hkind : operation.kind ≠ .start) :
    QueueHalf env operation b (b.changeMusic .nextPlaybackVersion) :=
  ⟨rfl, iff_of_true ⟨rfl, rfl, rfl⟩ fun h => absurd h hkind⟩

/-- Noting a message changes nothing about the music. -/
theorem QueueHalf.recordPublished {t : Backend} (h : QueueHalf env operation b t)
    (message : WireMessage) (outcome : RoomPublishOutcome) :
    QueueHalf env operation b (t.recordPublished message outcome) :=
  ⟨h.playbackState, h.sameQueue⟩

/-- Storing a state after the first half leaves things untouched only where neither half has
anything to change. -/
theorem QueueHalf.untouched_iff {t : Backend} (h : QueueHalf env operation b t)
    (state : PlaybackState) :
    Untouched b (t.changeMusic (.setPlaybackState state)) ↔
      QueueStays env operation b ∧ b.music.playbackState = some state := by
  have hstored : (t.changeMusic (.setPlaybackState state)).music.playbackState = some state :=
    MusicState.setPlaybackState_playbackState _ _
  have hqueue : (t.changeMusic (.setPlaybackState state)).music.SameQueue t.music :=
    MusicState.setPlaybackState_sameQueue _ _
  have hsame : (t.changeMusic (.setPlaybackState state)).music.SameQueue b.music ↔
      t.music.SameQueue b.music :=
    ⟨hqueue.symm.trans, hqueue.trans⟩
  unfold Untouched
  rw [hstored, hsame, h.sameQueue, eq_comm]

/-- A start consumes its item and announces the queue, which is always worth it. -/
theorem consumeStartItem_of_start (hkind : operation.kind = .start) :
    consumeStartItem env operation (b.changeMusic .nextPlaybackVersion) =
      publishRoomWire env
        (.queueState ((b.startedQueue env operation).queueState b.localPeerId))
        (b.itemConsumed env operation) := by
  have hmusic : ((b.changeMusic .nextPlaybackVersion).changeMusic
      (.removeBufferQueueItem operation.queueItemId (env.clock .queueRemoved))).changeMusic
        (.markQueueChanged (env.clock .queuePublished)) = b.itemConsumed env operation := by
    have hremove := MusicState.removeBufferQueueItem_nextPlaybackVersion b.music
      operation.queueItemId (env.clock .queueRemoved)
    exact congrArg (fun m : MusicState =>
      { b with music := m.markQueueChanged (env.clock .queuePublished) }) hremove
  have hnews : (b.itemConsumed env operation).music.hasQueueNews = true :=
    MusicState.hasQueueNews_markQueueChanged _ (env.clock .queuePublished)
  unfold consumeStartItem
  rw [if_pos hkind]
  change publishQueueSnapshot env (((b.changeMusic .nextPlaybackVersion).changeMusic
    (.removeBufferQueueItem operation.queueItemId (env.clock .queueRemoved))).changeMusic
      (.markQueueChanged (env.clock .queuePublished))) = _
  rw [hmusic]
  change (if (b.itemConsumed env operation).music.hasQueueNews = true then _ else _ :
    Handler Unit) (b.itemConsumed env operation) = _
  rw [if_pos hnews]
  rfl

/-- A start whose queue message is refused has consumed its item. -/
theorem consumeStartItem_of_refused (h : QueueRefused env operation b) :
    ∃ error, consumeStartItem env operation (b.changeMusic .nextPlaybackVersion) =
      .error error (b.itemConsumed env operation) := by
  obtain ⟨error, herror⟩ := Env.refuses_eq_true_iff.1 h.2
  exact ⟨error, (consumeStartItem_of_start h.1).trans (publishRoomWire_of_error herror _)⟩

/-- A queue message that is not refused leaves the first half done. -/
theorem consumeStartItem_of_not_refused (h : ¬ QueueRefused env operation b) :
    ∃ t, consumeStartItem env operation (b.changeMusic .nextPlaybackVersion) = .ok () t ∧
      QueueHalf env operation b t := by
  by_cases hkind : operation.kind = .start
  · have htaken := Bool.eq_false_of_not_eq_true fun hrefused => h ⟨hkind, hrefused⟩
    obtain ⟨outcome, houtcome⟩ := Env.refuses_eq_false_iff.1 htaken
    exact ⟨_, (consumeStartItem_of_start hkind).trans (publishRoomWire_of_ok houtcome _),
      (QueueHalf.of_start hkind).recordPublished _ _⟩
  · refine ⟨b.changeMusic .nextPlaybackVersion, ?_, .of_not_start hkind⟩
    unfold consumeStartItem
    rw [if_neg hkind]
    rfl

/-! ## The commit -/

/-- A commit whose stream starts is its two halves. -/
theorem commitBufferOperation_eq (hstarts : streamStarts env b.audioPlayer operation = true) :
    commitBufferOperation env operation b =
      (consumeStartItem env operation >>= fun _ =>
        music (.setPlaybackState (b.stateToCommit env operation)) >>= fun _ =>
          publishPlaybackState env (b.stateToCommit env operation) >>= fun _ =>
            pure (some (b.stateToCommit env operation))) (b.changeMusic .nextPlaybackVersion) := by
  simp only [commitBufferOperation, bind, EStateM.bind, startCommittedStream_eq_ok hstarts]
  rfl

/-- With the queue message refused, the commit stops with the item consumed. -/
theorem commitBufferOperation_of_queueRefused
    (hstarts : streamStarts env b.audioPlayer operation = true)
    (hqueue : QueueRefused env operation b) :
    ∃ error, commitBufferOperation env operation b =
      .error error (b.itemConsumed env operation) := by
  obtain ⟨error, herror⟩ := consumeStartItem_of_refused hqueue
  exact ⟨error, (commitBufferOperation_eq hstarts).trans (bind_eq_error.2 (.inl herror))⟩

/-- With only the state refused, the commit stops with the state stored. -/
theorem commitBufferOperation_of_stateRefused
    (hstarts : streamStarts env b.audioPlayer operation = true)
    (hqueue : ¬ QueueRefused env operation b) (hstate : StateRefused env operation b) :
    ∃ error t, QueueHalf env operation b t ∧ commitBufferOperation env operation b =
      .error error (t.changeMusic (.setPlaybackState (b.stateToCommit env operation))) := by
  obtain ⟨t, hconsume, hhalf⟩ := consumeStartItem_of_not_refused hqueue
  obtain ⟨error, herror⟩ := Env.refuses_eq_true_iff.1 hstate
  refine ⟨error, t, hhalf, (commitBufferOperation_eq hstarts).trans ?_⟩
  refine bind_eq_error.2 (.inr ⟨_, _, hconsume, bind_eq_error.2 (.inr ⟨_, _, rfl, ?_⟩)⟩)
  exact bind_eq_error.2 (.inl (publishRoomWire_of_error herror _))

/-- With neither message refused, the commit returns. -/
theorem commitBufferOperation_of_taken
    (hstarts : streamStarts env b.audioPlayer operation = true)
    (hqueue : ¬ QueueRefused env operation b) (hstate : ¬ StateRefused env operation b) :
    ∃ t, commitBufferOperation env operation b =
      .ok (some (b.stateToCommit env operation)) t := by
  obtain ⟨t, hconsume, -⟩ := consumeStartItem_of_not_refused hqueue
  have htaken := Bool.eq_false_of_not_eq_true hstate
  obtain ⟨outcome, houtcome⟩ := Env.refuses_eq_false_iff.1 htaken
  have hpublish := publishRoomWire_of_ok houtcome
    (t.changeMusic (.setPlaybackState (b.stateToCommit env operation)))
  exact ⟨_, (commitBufferOperation_eq hstarts).trans (bind_eq_ok.2 ⟨_, _, hconsume,
    bind_eq_ok.2 ⟨_, _, rfl, bind_eq_ok.2 ⟨_, _, hpublish, rfl⟩⟩⟩)⟩

/-- A commit whose stream starts stops with things touched exactly when a message is refused after
a change. -/
theorem commitBufferOperation_untouched_iff
    (hstarts : streamStarts env b.audioPlayer operation = true) :
    (∀ error b', commitBufferOperation env operation b = .error error b' → Untouched b b') ↔
      ¬ RefusedAfterChange env operation b := by
  unfold RefusedAfterChange
  by_cases hqueue : QueueRefused env operation b
  · obtain ⟨_, hcommit⟩ := commitBufferOperation_of_queueRefused hstarts hqueue
    have hhalf : QueueHalf env operation b (b.itemConsumed env operation) := .of_start hqueue.1
    have huntouched : Untouched b (b.itemConsumed env operation) ↔ QueueStays env operation b :=
      (and_iff_left hhalf.playbackState).trans hhalf.sameQueue
    rw [forall_error_iff hcommit, huntouched]
    simp only [hqueue, true_and, not_true, false_and, or_false, not_not]
  · by_cases hstate : StateRefused env operation b
    · obtain ⟨_, t, hhalf, hcommit⟩ := commitBufferOperation_of_stateRefused hstarts hqueue hstate
      rw [forall_error_iff hcommit, hhalf.untouched_iff]
      simp only [hqueue, hstate, false_and, not_false_iff, true_and, false_or, not_not]
    · obtain ⟨t, hcommit⟩ := commitBufferOperation_of_taken hstarts hqueue hstate
      refine iff_of_true (fun error b' herror => ?_) ?_
      · rw [hcommit] at herror
        cases herror
      · rintro (⟨h, -⟩ | ⟨-, h, -⟩)
        · exact hqueue h
        · exact hstate h

/-! ## The look at the operation -/

theorem publishBufferStatus_returns (env : Env) (operationId sessionId : String)
    (status : BufferPeerStatus) : Returns (publishBufferStatus env operationId sessionId status) :=
  .get_bind fun _ => tryPublish_returns env _

theorem markLocalStatus_returns (env : Env) (operationId sessionId : String)
    (status : BufferPeerStatus) : Returns (markLocalStatus env operationId sessionId status) :=
  .get_bind fun _ => .modify _

/-- Waiting for the local audio does not stop with an error. -/
theorem waitForLocalAudio_returns (env : Env) (operation : BufferOperation)
    (alreadyBuffering : Bool) : Returns (waitForLocalAudio env operation alreadyBuffering) := by
  refine .ite (.modify _) ?_
  refine .bind (markLocalStatus_returns env _ _ _) fun _ => ?_
  exact .bind (publishBufferStatus_returns env _ _ _) fun _ => .modify _

/-- Waiting for the stream to be loaded again does not stop with an error. -/
theorem waitForReload_returns (env : Env) (operation : BufferOperation)
    (alreadyBuffering : Bool) : Returns (waitForReload env operation alreadyBuffering) := by
  refine .bind (markLocalStatus_returns env _ _ _) fun _ => .ite (.modify _) ?_
  exact .bind (publishBufferStatus_returns env _ _ _) fun _ => .modify _

/-- The look at a ready quorum waits for the local audio or commits. -/
theorem resolveReady_apply (env : Env) (operation : BufferOperation) (b : Backend) :
    resolveReady env operation b = (if b.audioPlayer ∧
      operation.reports b.localPeerId .ready = false then
        waitForLocalAudio env operation (operation.reports b.localPeerId .buffering)
      else commitBufferOperation env operation >>= fun
        | none => waitForReload env operation (operation.reports b.localPeerId .buffering)
        | some state => settle operation state) b := rfl

/-- The look at a ready quorum stops with an error exactly when the commit does, and then there. -/
theorem resolveReady_eq_error_iff :
    resolveReady env operation b = .error error b' ↔
      (b.audioPlayer = true → operation.reports b.localPeerId .ready = true) ∧
        commitBufferOperation env operation b = .error error b' := by
  rw [resolveReady_apply]
  by_cases hwait : b.audioPlayer ∧ operation.reports b.localPeerId .ready = false
  · rw [if_pos hwait]
    refine iff_of_false (waitForLocalAudio_returns env operation _).ne_error fun h => ?_
    have hready := h.1 hwait.1
    rw [hwait.2] at hready
    cases hready
  · rw [if_neg hwait, bind_eq_error]
    have haudible : b.audioPlayer = true → operation.reports b.localPeerId .ready = true := by
      simpa only [not_and, Bool.not_eq_false] using hwait
    constructor
    · rintro (h | ⟨result, t, -, h⟩)
      · exact ⟨haudible, h⟩
      · cases result with
        | none => exact absurd h (waitForReload_returns env operation _).ne_error
        | some state => cases h
    · rintro ⟨-, h⟩
      exact .inl h

/-- The look at an operation with a ready quorum stops with an error exactly when the local peer
leads it and the commit is reached and stops. -/
theorem resolveBufferOperation_eq_error_iff {ready threshold : Nat}
    (hactive : b.buffer.active = some operation)
    (hquorum : operation.quorum env.now = .ready ready threshold) :
    resolveBufferOperation env b = .error error b' ↔
      operation.state.leaderPeerId = b.localPeerId ∧
        (b.audioPlayer = true → operation.reports b.localPeerId .ready = true) ∧
          commitBufferOperation env operation b = .error error b' := by
  have hlook : resolveBufferOperation env b =
      (if operation.state.leaderPeerId = b.localPeerId then resolveReady env operation
        else pure ()) b := by
    unfold resolveBufferOperation
    rw [get_bind_apply, hactive]
    dsimp only
    rw [hquorum]
  rw [hlook]
  by_cases hleads : operation.state.leaderPeerId = b.localPeerId
  · rw [if_pos hleads, resolveReady_eq_error_iff]
    exact (and_iff_right hleads).symm
  · rw [if_neg hleads]
    exact iff_of_false (Returns.pure _).ne_error fun h => hleads h.1

/-- A commit leaves the operation in progress. -/
theorem commitBufferOperation_active (hcommit : commitBufferOperation env operation b =
    .error error b') : b'.buffer.active = b.buffer.active := by
  obtain ⟨-, hbuffer, -⟩ := (commitBufferOperation_moves env operation).commitOnly_frame
    (finalState_of_error hcommit)
  rw [hbuffer]

/-! ## A network that goes on refusing -/

/-- The operation is at the point of its commit: with a ready quorum, led here and audible. -/
structure Due (operation : BufferOperation) (b : Backend) : Prop where
  /-- The operation is in progress. -/
  active : b.buffer.active = some operation
  /-- A majority is ready. -/
  majority : majorityThreshold operation.expectedPeers.card ≤ operation.count .ready
  /-- The local peer leads it. -/
  leads : operation.state.leaderPeerId = b.localPeerId
  /-- With an audio output, the local peer has reported that it is ready. -/
  audible : b.audioPlayer = true → operation.reports b.localPeerId .ready = true

/-- Consuming the item leaves the operation due. -/
theorem Due.itemConsumed (h : Due operation b) (env : Env) :
    Due operation (b.itemConsumed env operation) :=
  ⟨h.active, h.majority, h.leads, h.audible⟩

/-- The stream of the operation starts, and every queue message is refused. -/
structure Env.RefusesQueue (env : Env) (operation : BufferOperation) (audioPlayer : Bool) :
    Prop where
  /-- The stream starts. -/
  starts : streamStarts env audioPlayer operation = true
  /-- Queue messages are refused. -/
  refused : ∀ state, env.refuses (.queueState state) = true

/-- The backend after one look for each environment. -/
def Backend.looks (b : Backend) (envs : List Env) : Backend :=
  envs.foldl (fun t env => finalState (resolveBufferOperation env) t) b

/-- One look at a start that is due, with its queue message refused, consumes the item and does
nothing else. -/
theorem Due.look (h : Due operation b) (hkind : operation.kind = .start)
    (henv : env.RefusesQueue operation b.audioPlayer) :
    finalState (resolveBufferOperation env) b = b.itemConsumed env operation := by
  have hquorum := BufferOperation.quorum_of_majority h.majority env.now
  obtain ⟨error, hcommit⟩ := commitBufferOperation_of_queueRefused henv.starts
    ⟨hkind, henv.refused ((b.startedQueue env operation).queueState b.localPeerId)⟩
  exact finalState_of_error ((resolveBufferOperation_eq_error_iff h.active hquorum).2
    ⟨h.leads, h.audible, hcommit⟩)

/-- What refused looks have made of a backend: the operation is still due, nothing plays that did
not, and no item has come back. -/
structure Stuck (operation : BufferOperation) (b t : Backend) : Prop where
  /-- The operation is due. -/
  due : Due operation t
  /-- The audio output is the same. -/
  audioPlayer : t.audioPlayer = b.audioPlayer
  /-- The playback is untouched. -/
  playbackState : t.music.playbackState = b.music.playbackState
  /-- The queue has at most lost items. -/
  queue : t.music.queue.Sublist b.music.queue

/-- A refused look leaves the backend stuck. -/
theorem Stuck.look {t : Backend} (h : Stuck operation b t) (hkind : operation.kind = .start)
    (henv : env.RefusesQueue operation b.audioPlayer) :
    Stuck operation b (finalState (resolveBufferOperation env) t) := by
  rw [h.due.look hkind (h.audioPlayer ▸ henv)]
  refine ⟨h.due.itemConsumed env, h.audioPlayer, ?_, ?_⟩
  · exact (QueueHalf.of_start hkind).playbackState.trans h.playbackState
  · exact (MusicState.removeBufferQueueItem_sublist _ _ _).trans h.queue

/-- So does any number of refused looks. -/
theorem Stuck.looks {envs : List Env} {t : Backend} (h : Stuck operation b t)
    (hkind : operation.kind = .start)
    (henvs : ∀ env ∈ envs, env.RefusesQueue operation b.audioPlayer) :
    Stuck operation b (t.looks envs) := by
  induction envs generalizing t with
  | nil => exact h
  | cons env envs ih =>
    exact ih (h.look hkind (henvs env List.mem_cons_self))
      fun env' henv' => henvs env' (List.mem_cons_of_mem _ henv')

/-- While every look at a start is refused its queue message, the operation stays due with its
item gone and the playback as it was before. -/
theorem stuck_of_refused {envs : List Env} (h : Due operation b) (hkind : operation.kind = .start)
    (hids : (b.music.queue.map QueueItem.itemId).Nodup)
    (henv : env.RefusesQueue operation b.audioPlayer)
    (henvs : ∀ env ∈ envs, env.RefusesQueue operation b.audioPlayer) :
    Stuck operation b (b.looks (env :: envs)) ∧
      ∀ item ∈ (b.looks (env :: envs)).music.queue, operation.queueItemId ≠ some item.itemId := by
  have hstart : Stuck operation b b := ⟨h, rfl, rfl, .refl _⟩
  have hlook : b.looks (env :: envs) = (b.itemConsumed env operation).looks envs :=
    congrArg (Backend.looks · envs) (h.look hkind henv)
  refine ⟨(hstart.look hkind henv).looks hkind henvs, ?_⟩
  rw [hlook]
  intro item hitem
  have hrest := Stuck.looks ⟨h.itemConsumed env, rfl, rfl, .refl _⟩ hkind henvs
  exact MusicState.absent_removeBufferQueueItem hids (hrest.queue.mem hitem)

/-! ## A start in a room of two -/

/-- An environment in which a playback state with its track is too large for a message, and
everything else is small enough. -/
def stateTooLarge (micros : Int) : Env where
  __ := Env.plain micros
  gossipsub
    | .playbackState _ => .error (.other "MessageTooLarge")
    | _ => .ok ()

/-- A peer in a room of two, with a start in progress, when the other peer has just reported that
it is ready. -/
def readyStart : Backend :=
  ((Backend.new "leader" ∅ false 0).run [
    .connectionEstablished (.plain 500000) "peer",
    .command (stateTooLarge 1000000) (.enqueueBilibili "x" 1)]).changeBuffer
      (.markStatus "leader:1000000:buffer:Start" "leader:1000000:x:0" "peer"
        ⟨.ready, some 12000, none⟩ 2000000000)

/-- The start is in progress. -/
theorem readyStart_isActive : readyStart.buffer.active.isSome = true := by decide

/-- Both peers are ready. -/
theorem readyStart_quorum : (readyStart.buffer.active.get readyStart_isActive).quorum
    (stateTooLarge 2000000).now = .ready 2 2 := by decide

/-- The look does not return. -/
theorem readyStart_not_ok : (match resolveBufferOperation (stateTooLarge 2000000) readyStart with
    | .ok _ _ => true
    | .error _ _ => false) = false := by decide

/-- The look stops with an error: the item of the start is gone, the state plays here and nowhere
else, and the operation is still in progress. -/
theorem readyStart_stops : ∃ error t,
    resolveBufferOperation (stateTooLarge 2000000) readyStart = .error error t ∧
      t.music.queue = readyStart.music.queue.tail ∧
        t.music.playbackState.any PlaybackState.playing = true ∧
          t.buffer.active = readyStart.buffer.active := by
  cases hlook : resolveBufferOperation (stateTooLarge 2000000) readyStart with
  | ok _ t =>
    have hstops := readyStart_not_ok
    rw [hlook] at hstops
    cases hstops
  | error error t =>
    have hstate : finalState (resolveBufferOperation (stateTooLarge 2000000)) readyStart = t :=
      finalState_of_error hlook
    have hcommit := ((resolveBufferOperation_eq_error_iff
      (Option.some_get readyStart_isActive).symm readyStart_quorum).1 hlook).2.2
    have hactive := commitBufferOperation_active hcommit
    subst hstate
    exact ⟨error, _, rfl, by decide, by decide, hactive⟩

/-! ## Main result -/

/-- With a quorum ready, a look at the operation that stops with an error has touched nothing or
completed the commit, exactly unless the commit is reached and a message is refused after a
change. -/
theorem commit_not_torn_iff {ready threshold : Nat}
    (hactive : b.buffer.active = some operation)
    (hquorum : operation.quorum env.now = .ready ready threshold) :
    NotTorn env operation b ↔ ¬ Tears env operation b := by
  have hcompleted {error : BackendError} {b' : Backend}
      (hcommit : commitBufferOperation env operation b = .error error b') :
      ¬ Completed env operation b b' := by
    rintro ⟨-, hover⟩
    rw [commitBufferOperation_active hcommit, hactive] at hover
    exact hover operation rfl rfl
  constructor
  · intro hwhole htears
    refine (commitBufferOperation_untouched_iff htears.starts).1 (fun error b' hcommit => ?_)
      htears.refused
    have hstops := (resolveBufferOperation_eq_error_iff hactive hquorum).2
      ⟨htears.leads, htears.audible, hcommit⟩
    exact (hwhole error b' hstops).resolve_right (hcompleted hcommit)
  · intro htears error b' hstops
    obtain ⟨hleads, haudible, hcommit⟩ :=
      (resolveBufferOperation_eq_error_iff hactive hquorum).1 hstops
    refine .inl ?_
    cases hstarts : streamStarts env b.audioPlayer operation with
    | true =>
      exact (commitBufferOperation_untouched_iff hstarts).2
        (fun hrefused => htears ⟨hleads, haudible, hstarts, hrefused⟩) error b' hcommit
    | false =>
      -- The stream has not started, so the commit has stopped before its first change.
      have hframe := commitBufferOperation_of_not_streamStarts hstarts
      rw [finalState_of_error hcommit] at hframe
      subst hframe
      exact ⟨⟨rfl, rfl, rfl⟩, rfl⟩

/-- The main result at the start that is ready. -/
theorem commit_not_torn_iff_readyStart : ∃ operation,
    readyStart.buffer.active = some operation ∧
      operation.quorum (stateTooLarge 2000000).now = .ready 2 2 ∧
        (NotTorn (stateTooLarge 2000000) operation readyStart ↔
          ¬ Tears (stateTooLarge 2000000) operation readyStart) :=
  ⟨_, (Option.some_get readyStart_isActive).symm, readyStart_quorum,
    commit_not_torn_iff (Option.some_get readyStart_isActive).symm readyStart_quorum⟩

/-- A refused playback state tears the commit of the start. -/
theorem refused_state_tears_commit :
    ¬ ∀ (env : Env) (operation : BufferOperation) (b : Backend) (ready threshold : Nat),
      b.buffer.active = some operation →
        operation.quorum env.now = .ready ready threshold → NotTorn env operation b := by
  intro h
  obtain ⟨error, t, hstops, -, hplays, hactive⟩ := readyStart_stops
  have hwhole := h (stateTooLarge 2000000) _ readyStart 2 2
    (Option.some_get readyStart_isActive).symm readyStart_quorum
  rcases hwhole error t hstops with ⟨-, hsame⟩ | ⟨-, hover⟩
  · have hbefore : readyStart.music.playbackState = none := by decide
    rw [hsame, hbefore] at hplays
    cases hplays
  · rw [hactive] at hover
    exact hover _ (Option.get_mem readyStart_isActive) rfl

end LightEar
