import LightEar.BufferState

/-!
# What the backend does to the music state

The backend changes the queue in four ways besides taking over a snapshot: it appends, it
removes by place, it removes the item that a started operation has consumed, and it executes
queue votes.  A follower that hears of a started playback removes the item it takes to be the
started one, without a new key for the queue.

`MusicOp` lists every way in which the backend changes a music state.  What a change does not
concern it leaves alone: the queue (`MusicOp.sameQueue`), the playback (`MusicOp.samePlayback`),
or the open vote (`MusicOp.sameVote`).
-/

namespace LightEar

namespace MusicState

/-! ## Removing and moving items -/

/-- Whether an item is the one that a message names. -/
def isItem (itemId : String) (item : QueueItem) : Bool := item.itemId == itemId

/-- Consumes the item of a start operation, with a new key. -/
def removeBufferQueueItem (m : MusicState) (queueItemId : Option String) (nowMicros : Int) :
    MusicState :=
  match queueItemId with
  | none => m
  | some itemId =>
    if m.queue.any (isItem itemId) then
      { m with queue := m.queue.eraseP (isItem itemId) }.markQueueChanged nowMicros
    else m

/-- Whether an item may be the one that a playback has started. -/
def queueItemMatchesStartedPlayback (item : QueueItem) (state : PlaybackState)
    (trackId : String) : Bool :=
  if item.track.trackId ≠ trackId then false
  else if state.trackRequestedBy.any fun requester => item.requestedBy != requester then false
  else item.addedAtMicros ≤ state.issuedAtMicros

/-- Removes the first item that a playback may have started, and keeps the key. -/
def removeStartedPlaybackQueueItem (m : MusicState) (state : PlaybackState) : MusicState :=
  match state.track with
  | none => m
  | some track =>
    { m with queue :=
        m.queue.eraseP fun item => queueItemMatchesStartedPlayback item state track.trackId }

/-- Executes a vote to remove an item, with the proposal's time as the stamp. -/
def executeRemove (m : MusicState) (itemId : String) (createdAtMicros : Int) : MusicState :=
  if m.queue.any (isItem itemId) then
    { m with queue := m.queue.eraseP (isItem itemId) }.markQueueChanged createdAtMicros
  else m

/-- Executes a vote to move an item, with the proposal's time as the stamp. -/
def executeMove (m : MusicState) (itemId : String) (toIndex : Nat) (createdAtMicros : Int) :
    MusicState :=
  match m.queue.find? (isItem itemId) with
  | none => m
  | some item =>
    let rest := m.queue.eraseP (isItem itemId)
    { m with queue := rest.insertIdx (min toIndex rest.length) item }.markQueueChanged
      createdAtMicros

/-- Whether the queue is worth announcing: it has items or has been changed. -/
def hasQueueNews (m : MusicState) : Bool := !(m.queueVersion == 0 && m.queue.isEmpty)

/-- A queue under a new key is worth announcing. -/
theorem hasQueueNews_markQueueChanged (m : MusicState) (updatedAtMicros : Int) :
    (m.markQueueChanged updatedAtMicros).hasQueueNews = true := by
  have hversion : (m.markQueueChanged updatedAtMicros).queueVersion ≠ 0 :=
    satAdd_one_ne_zero m.queueVersion
  simp [hasQueueNews, hversion]

/-- The item behind a playback state, with which a seek or resume operation is begun. -/
def queueItemFromPlaybackState (state : PlaybackState) : Option QueueItem :=
  state.track.map fun track => {
    itemId := "playback-" ++ state.sessionId
    track := track
    requestedBy := state.trackRequestedBy.getD state.leaderPeerId
    addedAtMicros := state.issuedAtMicros }

/-- A track known by its name: the loaded one or a queued one. -/
def findBufferTrack (m : MusicState) (trackId : String) : Option PlaybackTrack :=
  match (m.playbackState.bind PlaybackState.track).filter (·.trackId == trackId) with
  | some track => some track
  | none => (m.queue.find? (·.track.trackId == trackId)).map QueueItem.track

/-- Whether the current playback is what a start operation prepares. -/
def playbackStateResolvesBufferPrepare (current : Option PlaybackState) (sessionId trackId : String)
    (leaderPeerId : PeerId) : Bool :=
  match current with
  | none => false
  | some current =>
    current.sessionId == sessionId && current.leaderPeerId == leaderPeerId &&
      current.track.any (·.trackId == trackId)

/-- Whether a state plays a track in a session. -/
def playbackStateMatchesTrack (state : PlaybackState) (sessionId trackId : String) : Bool :=
  state.sessionId == sessionId && state.track.any (·.trackId == trackId)

/-- The state a committed operation starts: running from an anchor shortly ahead. -/
def committedState (state : PlaybackState) (version : Nat) (now startDelay : Int) :
    PlaybackState :=
  { state with
    stateVersion := version
    issuedAtMicros := now
    playing := true
    anchorTimeMicros := now + startDelay }

end MusicState

/-! ## Changes of a music state -/

/-- The ways in which the backend changes a music state. -/
inductive MusicOp where
  | appendQueueItem (item : QueueItem)
  | removeQueueIndex (index : Nat)
  | markQueueChanged (micros : Int)
  | applyRemoteQueueState (state : QueueState)
  | removeBufferQueueItem (queueItemId : Option String) (micros : Int)
  | removeStartedPlaybackQueueItem (state : PlaybackState)
  | executeRemove (itemId : String) (micros : Int)
  | executeMove (itemId : String) (toIndex : Nat) (micros : Int)
  | setPlaybackState (state : PlaybackState)
  | setRemotePlaybackPrepare (state : PlaybackState) (now : Instant)
  | cancelPlayback (sessionId : String)
  | markPlaybackReady (sessionId : String) (peerId localPeerId : PeerId)
  | removePendingPeer (peerId : PeerId)
  | maybeStartPendingPlayback (localPeerId : PeerId) (now : Instant) (micros delay : Int)
  | takeLocalPendingCancel (localPeerId : PeerId)
  | stopCurrentPlayback (localPeerId : PeerId) (micros : Int)
  | stopCurrentPlaybackForVote (actor : PeerId) (micros : Int)
  | pausePlaybackForVote (actor : PeerId) (micros : Int)
  | refreshPlaybackState (localPeerId : PeerId) (micros : Int)
  | nextPlaybackVersion
  | startVote (proposal : VoteProposal) (deadline : Instant)
  | receiveVoteProposal (proposal : VoteProposal) (deadline : Instant)
  | castVote (peerId : PeerId) (approve : Bool)
  | castVoteFor (voteId : String) (peerId : PeerId) (approve : Bool)
  | resolveVote (threshold eligiblePeers : Nat)
  | takeTimedOutVote (now : Instant)

namespace MusicOp

/-- The music state after a change. -/
def apply : MusicOp → MusicState → MusicState
  | appendQueueItem item, m => m.appendQueueItem item
  | removeQueueIndex index, m => m.removeQueueIndex index
  | markQueueChanged micros, m => m.markQueueChanged micros
  | applyRemoteQueueState state, m => (m.applyRemoteQueueState state).2
  | removeBufferQueueItem queueItemId micros, m => m.removeBufferQueueItem queueItemId micros
  | removeStartedPlaybackQueueItem state, m => m.removeStartedPlaybackQueueItem state
  | executeRemove itemId micros, m => m.executeRemove itemId micros
  | executeMove itemId toIndex micros, m => m.executeMove itemId toIndex micros
  | setPlaybackState state, m => m.setPlaybackState state
  | setRemotePlaybackPrepare state now, m => m.setRemotePlaybackPrepare state now
  | cancelPlayback sessionId, m => m.cancelPlayback sessionId
  | markPlaybackReady sessionId peerId localPeerId, m =>
    (m.markPlaybackReady sessionId peerId localPeerId).2
  | removePendingPeer peerId, m => m.removePendingPeer peerId
  | maybeStartPendingPlayback localPeerId now micros delay, m =>
    (m.maybeStartPendingPlayback localPeerId now micros delay).2
  | takeLocalPendingCancel localPeerId, m => (m.takeLocalPendingCancel localPeerId).2
  | stopCurrentPlayback localPeerId micros, m => (m.stopCurrentPlayback localPeerId micros).2
  | stopCurrentPlaybackForVote actor micros, m => (m.stopCurrentPlaybackForVote actor micros).2
  | pausePlaybackForVote actor micros, m => (m.pausePlaybackForVote actor micros).2
  | refreshPlaybackState localPeerId micros, m => (m.refreshPlaybackState localPeerId micros).2
  | nextPlaybackVersion, m => { m with playbackVersion := satAdd m.playbackVersion 1 }
  | startVote proposal deadline, m => m.startVote proposal deadline
  | receiveVoteProposal proposal deadline, m =>
    match m.receiveVoteProposal proposal deadline with
    | .ok m' => m'
    | .error _ => m
  | castVote peerId approve, m => (m.castVote peerId approve).2
  | castVoteFor voteId peerId approve, m => (m.castVoteFor voteId peerId approve).2
  | resolveVote threshold eligiblePeers, m => (m.resolveVote threshold eligiblePeers).2
  | takeTimedOutVote now, m => m.takeTimedOutVote now

/-! ## Changes of the box only -/

/-- Whether a change concerns nothing but the vote. -/
def isBoxOnly : MusicOp → Bool
  | startVote .. | receiveVoteProposal .. | castVote .. | castVoteFor .. | resolveVote ..
  | takeTimedOutVote .. => true
  | _ => false

/-- Such a change puts something else into the box, or what was there. -/
theorem exists_apply_eq_of_isBoxOnly {op : MusicOp} (hop : op.isBoxOnly = true) (m : MusicState) :
    ∃ vote, op.apply m = { m with activeVote := vote } := by
  cases op with
  | startVote proposal deadline => exact ⟨_, rfl⟩
  | receiveVoteProposal proposal deadline =>
    simp only [apply, MusicState.receiveVoteProposal]
    by_cases hopen : m.activeVote.isSome
    · rw [if_pos hopen]
      exact ⟨_, rfl⟩
    · rw [if_neg hopen]
      cases m.staleVoteReason proposal with
      | none => exact ⟨_, rfl⟩
      | some reason => exact ⟨_, rfl⟩
  | castVote peerId approve =>
    simp only [apply, MusicState.castVote]
    split <;> exact ⟨_, rfl⟩
  | castVoteFor voteId peerId approve =>
    simp only [apply, MusicState.castVoteFor]
    split
    · exact ⟨_, rfl⟩
    · split <;> exact ⟨_, rfl⟩
  | resolveVote threshold eligiblePeers =>
    simp only [apply, MusicState.resolveVote]
    split
    · exact ⟨_, rfl⟩
    · split
      · exact ⟨_, rfl⟩
      · split <;> exact ⟨_, rfl⟩
      · exact ⟨_, rfl⟩
  | takeTimedOutVote now =>
    simp only [apply, MusicState.takeTimedOutVote]
    split
    · exact ⟨_, rfl⟩
    · split <;> exact ⟨_, rfl⟩
  | _ => cases hop

/-! ## Changes that leave the queue alone -/

/-- Whether a change is one of the queue or of its key. -/
def isQueueChange : MusicOp → Bool
  | appendQueueItem _ | removeQueueIndex _ | markQueueChanged _ | applyRemoteQueueState _
  | removeBufferQueueItem _ _ | removeStartedPlaybackQueueItem _ | executeRemove _ _
  | executeMove _ _ _ => true
  | _ => false

/-- Any other change keeps items and key. -/
theorem sameQueue (op : MusicOp) (hop : op.isQueueChange = false) (m : MusicState) :
    (op.apply m).SameQueue m := by
  have hbox (hvote : op.isBoxOnly = true) : (op.apply m).SameQueue m := by
    obtain ⟨vote, hvote⟩ := exists_apply_eq_of_isBoxOnly hvote m
    rw [hvote]
    exact ⟨rfl, rfl, rfl⟩
  cases op with
  | appendQueueItem item => cases hop
  | removeQueueIndex index => cases hop
  | markQueueChanged micros => cases hop
  | applyRemoteQueueState state => cases hop
  | removeBufferQueueItem queueItemId micros => cases hop
  | removeStartedPlaybackQueueItem state => cases hop
  | executeRemove itemId micros => cases hop
  | executeMove itemId toIndex micros => cases hop
  | setPlaybackState state => exact m.setPlaybackState_sameQueue state
  | setRemotePlaybackPrepare state now =>
    simp only [apply, MusicState.setRemotePlaybackPrepare,
      MusicState.invalidatePlaybackVoteIfTrackChanges]
    split
    · exact ⟨rfl, rfl, rfl⟩
    · split <;> exact ⟨rfl, rfl, rfl⟩
  | cancelPlayback sessionId =>
    simp only [apply, MusicState.cancelPlayback, MusicState.invalidatePlaybackVote]
    split
    · split
      · exact ⟨rfl, rfl, rfl⟩
      · split <;> exact ⟨rfl, rfl, rfl⟩
    · exact .refl m
  | markPlaybackReady sessionId peerId localPeerId =>
    simp only [apply, MusicState.markPlaybackReady]
    split
    · split
      · exact .refl m
      · split <;> exact ⟨rfl, rfl, rfl⟩
    · exact .refl m
    · exact .refl m
  | removePendingPeer peerId =>
    simp only [apply, MusicState.removePendingPeer]
    split <;> exact ⟨rfl, rfl, rfl⟩
  | maybeStartPendingPlayback localPeerId now micros delay =>
    simp only [apply, MusicState.maybeStartPendingPlayback]
    split
    · split
      · exact .refl m
      · split <;> exact ⟨rfl, rfl, rfl⟩
    · exact .refl m
    · exact .refl m
  | takeLocalPendingCancel localPeerId =>
    simp only [apply, MusicState.takeLocalPendingCancel]
    split
    · split <;> exact ⟨rfl, rfl, rfl⟩
    · exact .refl m
    · exact .refl m
  | stopCurrentPlayback localPeerId micros => exact ⟨rfl, rfl, rfl⟩
  | stopCurrentPlaybackForVote actor micros => exact ⟨rfl, rfl, rfl⟩
  | pausePlaybackForVote actor micros =>
    simp only [apply, MusicState.pausePlaybackForVote, MusicState.votePlaybackVersion,
      MusicState.mapPlaybackState]
    split <;> exact ⟨rfl, rfl, rfl⟩
  | refreshPlaybackState localPeerId micros =>
    simp only [apply, MusicState.refreshPlaybackState, MusicState.mapPlaybackState]
    split
    · exact .refl m
    · split
      · exact .refl m
      · split
        · split <;> exact ⟨rfl, rfl, rfl⟩
        · exact .refl m
  | nextPlaybackVersion => exact ⟨rfl, rfl, rfl⟩
  | startVote proposal deadline => exact hbox rfl
  | receiveVoteProposal proposal deadline => exact hbox rfl
  | castVote peerId approve => exact hbox rfl
  | castVoteFor voteId peerId approve => exact hbox rfl
  | resolveVote threshold eligiblePeers => exact hbox rfl
  | takeTimedOutVote now => exact hbox rfl

/-! ## Changes that leave the playback alone -/

/-- Whether a change may put a vote into the box or take it out. -/
def isVoteChange : MusicOp → Bool
  | applyRemoteQueueState .. | setPlaybackState .. | setRemotePlaybackPrepare ..
  | cancelPlayback .. | startVote .. | receiveVoteProposal .. | castVote .. | castVoteFor ..
  | resolveVote .. | takeTimedOutVote .. => true
  | _ => false

/-- A change of the queue, other than a snapshot, keeps the vote and the playback. -/
theorem queueChange_frame {op : MusicOp} (hop : op.isQueueChange = true)
    (hvote : op.isVoteChange = false) (m : MusicState) :
    (op.apply m).activeVote = m.activeVote ∧ (op.apply m).playbackPhase = m.playbackPhase := by
  cases op with
  | applyRemoteQueueState state => cases hvote
  | appendQueueItem item => exact ⟨rfl, rfl⟩
  | markQueueChanged micros => exact ⟨rfl, rfl⟩
  | removeQueueIndex index =>
    simp only [apply, MusicState.removeQueueIndex]
    split <;> exact ⟨rfl, rfl⟩
  | removeBufferQueueItem queueItemId micros =>
    simp only [apply, MusicState.removeBufferQueueItem]
    split
    · exact ⟨rfl, rfl⟩
    · split <;> exact ⟨rfl, rfl⟩
  | removeStartedPlaybackQueueItem state =>
    simp only [apply, MusicState.removeStartedPlaybackQueueItem]
    split <;> exact ⟨rfl, rfl⟩
  | executeRemove itemId micros =>
    simp only [apply, MusicState.executeRemove]
    split <;> exact ⟨rfl, rfl⟩
  | executeMove itemId toIndex micros =>
    simp only [apply, MusicState.executeMove]
    split <;> exact ⟨rfl, rfl⟩
  | _ => cases hop

/-- Whether a change may load, rewrite or drop the state of the playback. -/
def isPlaybackChange : MusicOp → Bool
  | setPlaybackState .. | setRemotePlaybackPrepare .. | cancelPlayback ..
  | maybeStartPendingPlayback .. | takeLocalPendingCancel .. | stopCurrentPlayback ..
  | stopCurrentPlaybackForVote .. | pausePlaybackForVote .. | refreshPlaybackState .. => true
  | _ => false

/-- Any other change keeps it. -/
theorem samePlayback (op : MusicOp) (hop : op.isPlaybackChange = false) (m : MusicState) :
    (op.apply m).playbackState = m.playbackState := by
  have hphase (hqueue : op.isQueueChange = true) (hvote : op.isVoteChange = false) :
      (op.apply m).playbackState = m.playbackState := by
    unfold MusicState.playbackState
    rw [(queueChange_frame hqueue hvote m).2]
  have hbox (hvote : op.isBoxOnly = true) :
      (op.apply m).playbackState = m.playbackState := by
    obtain ⟨vote, hvote⟩ := exists_apply_eq_of_isBoxOnly hvote m
    rw [hvote]
    rfl
  cases op with
  | appendQueueItem item => exact hphase rfl rfl
  | removeQueueIndex index => exact hphase rfl rfl
  | markQueueChanged micros => exact hphase rfl rfl
  | removeBufferQueueItem queueItemId micros => exact hphase rfl rfl
  | removeStartedPlaybackQueueItem state => exact hphase rfl rfl
  | executeRemove itemId micros => exact hphase rfl rfl
  | executeMove itemId toIndex micros => exact hphase rfl rfl
  | applyRemoteQueueState state =>
    simp only [apply, MusicState.applyRemoteQueueState, MusicState.invalidateStaleQueueVote]
    split
    · split
      · rfl
      · split <;> rfl
    · rfl
  | markPlaybackReady sessionId peerId localPeerId =>
    simp only [apply, MusicState.markPlaybackReady]
    split
    · rename_i preparing hphase
      split_ifs
      · rfl
      · simp only [MusicState.playbackState, hphase]
      · rfl
    · rfl
    · rfl
  | removePendingPeer peerId =>
    simp only [apply, MusicState.removePendingPeer]
    split
    · rename_i preparing hphase
      simp only [MusicState.playbackState, hphase]
    · rfl
    · rfl
  | nextPlaybackVersion => rfl
  | startVote proposal deadline => exact hbox rfl
  | receiveVoteProposal proposal deadline => exact hbox rfl
  | castVote peerId approve => exact hbox rfl
  | castVoteFor voteId peerId approve => exact hbox rfl
  | resolveVote threshold eligiblePeers => exact hbox rfl
  | takeTimedOutVote now => exact hbox rfl
  | _ => cases hop

end MusicOp

/-! ## The ballot box -/

/-- The box is kept or dropped. -/
def KeptOrDropped (box box' : Option ActiveVote) : Prop := box' = box ∨ box' = none

theorem KeptOrDropped.trans {box box' box'' : Option ActiveVote} (h : KeptOrDropped box box')
    (h' : KeptOrDropped box' box'') : KeptOrDropped box box'' := by
  rcases h' with rfl | rfl
  · exact h
  · exact .inr rfl

namespace MusicState

/-- The box is kept, or a playback vote is dropped from it. -/
def KeepsOrDropsPlayback (box box' : Option ActiveVote) : Prop :=
  box' = box ∨ box' = none ∧
    ∃ vote, box = some vote ∧ vote.proposal.action.isPlaybackAction = true

/-- In either case it is kept or dropped. -/
theorem KeepsOrDropsPlayback.keptOrDropped {box box' : Option ActiveVote}
    (h : KeepsOrDropsPlayback box box') : KeptOrDropped box box' :=
  h.imp_right And.left

/-- A stale queue vote is dropped. -/
theorem invalidateStaleQueueVote_box (m : MusicState) :
    KeptOrDropped m.activeVote m.invalidateStaleQueueVote.activeVote := by
  unfold invalidateStaleQueueVote
  split
  · exact .inl rfl
  · split
    · exact .inr rfl
    · exact .inl rfl

/-- A playback vote is dropped when the playback ends, -/
theorem invalidatePlaybackVote_drops (m : MusicState) :
    KeepsOrDropsPlayback m.activeVote m.invalidatePlaybackVote.activeVote := by
  unfold invalidatePlaybackVote
  cases hvote : m.activeVote with
  | none => exact .inl hvote
  | some vote =>
    dsimp only
    split
    · rename_i hplayback
      exact .inr ⟨rfl, vote, rfl, hplayback⟩
    · exact .inl hvote

/-- and when another session or track takes over. -/
theorem invalidatePlaybackVoteIfTrackChanges_drops (m : MusicState) (next : PlaybackState) :
    KeepsOrDropsPlayback m.activeVote (m.invalidatePlaybackVoteIfTrackChanges next).activeVote := by
  unfold invalidatePlaybackVoteIfTrackChanges
  cases hvote : m.activeVote with
  | none => exact .inl hvote
  | some vote =>
    dsimp only
    split
    · rename_i hdropped
      rw [Bool.and_eq_true] at hdropped
      exact .inr ⟨rfl, vote, rfl, hdropped.1⟩
    · exact .inl hvote

end MusicState

namespace MusicOp

/-- The changes of a music state that open a ballot box or put a ballot into it. -/
def isBallot : MusicOp → Bool
  | startVote .. | receiveVoteProposal .. | castVote .. | castVoteFor .. => true
  | _ => false

/-- A change that is none of the vote keeps the box. -/
theorem sameVote (op : MusicOp) (hop : op.isVoteChange = false) (m : MusicState) :
    (op.apply m).activeVote = m.activeVote := by
  cases op with
  | appendQueueItem item => rfl
  | removeQueueIndex index => exact (queueChange_frame rfl rfl m).1
  | markQueueChanged micros => rfl
  | removeBufferQueueItem queueItemId micros => exact (queueChange_frame rfl rfl m).1
  | removeStartedPlaybackQueueItem state => exact (queueChange_frame rfl rfl m).1
  | executeRemove itemId micros => exact (queueChange_frame rfl rfl m).1
  | executeMove itemId toIndex micros => exact (queueChange_frame rfl rfl m).1
  | stopCurrentPlayback localPeerId micros => rfl
  | stopCurrentPlaybackForVote actor micros => rfl
  | nextPlaybackVersion => rfl
  | pausePlaybackForVote actor micros => exact MusicState.mapPlaybackState_activeVote _ _
  | markPlaybackReady sessionId peerId localPeerId =>
    simp only [apply, MusicState.markPlaybackReady]
    split
    · split_ifs <;> rfl
    · rfl
    · rfl
  | removePendingPeer peerId =>
    simp only [apply, MusicState.removePendingPeer]
    split <;> rfl
  | maybeStartPendingPlayback localPeerId now micros delay =>
    simp only [apply, MusicState.maybeStartPendingPlayback]
    split
    · split_ifs <;> rfl
    · rfl
    · rfl
  | takeLocalPendingCancel localPeerId =>
    simp only [apply, MusicState.takeLocalPendingCancel]
    split
    · split_ifs <;> rfl
    · rfl
    · rfl
  | refreshPlaybackState localPeerId micros =>
    simp only [apply, MusicState.refreshPlaybackState]
    split
    · rfl
    · split
      · rfl
      · split
        · exact MusicState.mapPlaybackState_activeVote _ _
        · rfl
  | _ => cases hop

/-- A change that is no proposal and no ballot keeps the box or drops it. -/
theorem box_of_not_isBallot {op : MusicOp} (h : op.isBallot = false) (m : MusicState) :
    KeptOrDropped m.activeVote (op.apply m).activeVote := by
  cases hvote : op.isVoteChange with
  | false => exact .inl (op.sameVote hvote m)
  | true =>
    cases op with
    | setPlaybackState state =>
      exact (m.invalidatePlaybackVoteIfTrackChanges_drops state).keptOrDropped
    | setRemotePlaybackPrepare state now =>
      exact (m.invalidatePlaybackVoteIfTrackChanges_drops state).keptOrDropped
    | applyRemoteQueueState state =>
      simp only [apply, MusicState.applyRemoteQueueState]
      split
      · exact MusicState.invalidateStaleQueueVote_box _
      · exact .inl rfl
    | cancelPlayback sessionId =>
      simp only [apply, MusicState.cancelPlayback]
      split
      · exact m.invalidatePlaybackVote_drops.keptOrDropped
      · exact .inl rfl
    | resolveVote threshold eligiblePeers =>
      simp only [apply, MusicState.resolveVote]
      split
      · exact .inl rfl
      · split
        · exact .inl rfl
        · split
          · exact .inl rfl
          · exact .inr rfl
        · exact .inr rfl
    | takeTimedOutVote now =>
      simp only [apply, MusicState.takeTimedOutVote]
      split
      · exact .inl rfl
      · split
        · exact .inr rfl
        · exact .inl rfl
    | startVote => cases h
    | receiveVoteProposal => cases h
    | castVote => cases h
    | castVoteFor => cases h
    | _ => cases hvote

end MusicOp

end LightEar
