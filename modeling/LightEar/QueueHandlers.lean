import LightEar.Backend.Moves
import LightEar.StartedItem

/-!
# The queue in the backend and in the room

The room of queues takes the functions of the music state; here it is tied to the reactions of the
backend that call them.  Where a peer of the room has the music state of a backend, an action of
the room leaves it with the music state that the reaction leaves behind, wherever the reaction may
stop.
-/

namespace LightEar

open Foundation

/-- A peer of the room has the music state of a backend. -/
def QueueRoom.Mirrors (room : QueueRoom) (b : Backend) : Prop :=
  room.replica b.localPeerId = b.music

/-! ## Publishing -/

/-- Announcing the queue does not change it. -/
theorem publishQueueSnapshot_music (env : Env) (b : Backend) :
    (finalState (publishQueueSnapshot env) b).music = b.music :=
  (publishQueueSnapshot_moves (P := OffMusic) env).music_of_offMusic b

/-- Publishing the queue gives it a new key. -/
theorem publishQueueState_music (env : Env) (b : Backend) :
    (finalState (publishQueueState env) b).music =
      b.music.markQueueChanged (env.clock .queuePublished) := by
  unfold publishQueueState
  rw [finalState_music_bind]
  exact publishQueueSnapshot_music env _

/-! ## Executing a vote -/

theorem executeOnQueue_music (env : Env) (itemId : String) (op : MusicOp) (b : Backend) :
    (finalState (executeOnQueue env itemId op) b).music =
      if b.music.queue.any (MusicState.isItem itemId) then op.apply b.music else b.music := by
  unfold executeOnQueue
  rw [finalState_get_bind]
  split
  · rw [finalState_music_bind]
    exact publishQueueSnapshot_music env _
  · rfl

/-- A vote about the queue is executed where its item is there. -/
theorem executeVoteAction_music {env : Env} {proposal : VoteProposal}
    (haction : proposal.action.isQueueAction = true) (b : Backend) :
    (finalState (executeVoteAction env proposal) b).music =
      if proposal.action.itemId?.any fun itemId => b.music.queue.any (MusicState.isItem itemId)
      then b.music.executeQueueVote proposal else b.music := by
  unfold executeVoteAction MusicState.executeQueueVote
  cases hkind : proposal.action with
  | pause => rw [hkind] at haction; cases haction
  | resume => rw [hkind] at haction; cases haction
  | skip => rw [hkind] at haction; cases haction
  | seek positionMs => rw [hkind] at haction; cases haction
  | remove itemId => exact executeOnQueue_music env itemId _ b
  | move itemId toIndex => exact executeOnQueue_music env itemId _ b

/-! ## The changes of a queue -/

namespace QueueRoom.Mirrors

variable {room : QueueRoom} {b : Backend} {env : Env}

/-- Enqueueing, where the next item is not started at once. -/
theorem enqueue (h : room.Mirrors b) {bvid : String} {part : Nat} {track : PlaybackTrack}
    (htrack : env.resolveTrack bvid (part - 1) = .ok track)
    (hbusy : (b.music.canStartNext && !b.buffer.isActive) = false) :
    (room.act (.enqueue b.localPeerId (env.newQueueItemId b.localPeerId track.trackId) track
      (env.clock .enqueue) (env.clock .queuePublished))).replica b.localPeerId =
        (finalState (enqueueBilibili env bvid part) b).music := by
  let item : QueueItem := ⟨env.newQueueItemId b.localPeerId track.trackId, track, b.localPeerId,
    env.clock .enqueue⟩
  have hmusic : room.replica b.localPeerId = b.music := h
  change (room.change b.localPeerId none (env.clock .queuePublished)
    (((room.replica b.localPeerId).appendQueueItem item).markQueueChanged _)).replica _ = _
  rw [change_replica_self, hmusic]
  unfold enqueueBilibili
  rw [finalState_get_bind, htrack]
  dsimp only
  rw [finalState_music_bind]
  -- publishing keeps the phase and the operation, so that nothing is started afterwards
  let marked := (b.music.appendQueueItem item).markQueueChanged (env.clock .queuePublished)
  refine (finalState_bind_of
    (I := fun t : Backend => t.music = marked ∧ t.buffer = b.buffer)
    (J := fun t : Backend => t.music = marked)
    ⟨publishQueueState_music env _, ?_⟩ ?_ fun t ht => ht.1).symm
  · exact ((publishQueueState_moves (P := CommitOnly) env).commitOnly_frame rfl).2.1
  · rintro - t ⟨hmarked, hbuffer⟩
    have hidle : startNextIfIdle env t = .ok () t := by
      refine startNextIfIdle_of_busy ?_ env
      rw [hmarked, hbuffer]
      exact hbusy
    rw [finalState_of_ok hidle, hmarked]

/-- Removing an item of one's own. -/
theorem removeOwn (h : room.Mirrors b) {index : Nat} {item : QueueItem}
    (hitem : queueItemAt b.music.queue index = some item)
    (hown : item.requestedBy = b.localPeerId) :
    (room.act (.removeOwn b.localPeerId index (env.clock .queuePublished))).replica b.localPeerId =
      (finalState (removeQueueItem env index) b).music := by
  have hmusic : room.replica b.localPeerId = b.music := h
  change (room.removeOwn b.localPeerId index (env.clock .queuePublished)).replica _ = _
  unfold QueueRoom.removeOwn
  dsimp only
  rw [hmusic, hitem]
  dsimp only
  rw [if_pos hown, change_replica_self]
  unfold removeQueueItem
  rw [finalState_get_bind, hitem]
  dsimp only
  rw [if_pos hown, finalState_music_bind, publishQueueState_music]
  rfl

/-- Consuming the item of a start that is committed. -/
theorem commitStart (h : room.Mirrors b) {operation : BufferOperation}
    (hkind : operation.kind = .start) :
    (room.act (.commitStart b.localPeerId operation.queueItemId (env.clock .queueRemoved)
      (env.clock .queuePublished))).replica b.localPeerId =
        (finalState (consumeStartItem env operation) b).music := by
  have hmusic : room.replica b.localPeerId = b.music := h
  change (room.change b.localPeerId none (env.clock .queuePublished)
    (((room.replica b.localPeerId).removeBufferQueueItem _ _).markQueueChanged _)).replica _ = _
  rw [change_replica_self, hmusic]
  unfold consumeStartItem
  rw [if_pos hkind, finalState_music_bind, publishQueueState_music]
  rfl

/-- Executing a passed vote about the queue. -/
theorem execute (h : room.Mirrors b) {proposal : VoteProposal}
    (hproposal : proposal ∈ room.proposals) (haction : proposal.action.isQueueAction = true) :
    (room.act (.execute b.localPeerId proposal)).replica b.localPeerId =
      (finalState (executePassedVote env proposal) b).music := by
  have hmusic : room.replica b.localPeerId = b.music := h
  change (room.execute b.localPeerId proposal).replica _ = _
  unfold executePassedVote MusicState.shouldExecuteVoteLocally
  rw [finalState_get_bind]
  by_cases hstale : (b.music.staleVoteReason proposal).isNone = true
  · rw [if_pos ⟨hstale, hstale⟩, executeVoteAction_music haction]
    by_cases hpresent : proposal.action.itemId?.any fun itemId =>
        b.music.queue.any (MusicState.isItem itemId)
    · rw [if_pos hpresent, room.execute_of ⟨hproposal, hmusic ▸ hstale, hmusic ▸ hpresent⟩,
        change_replica_self, hmusic]
    · rw [if_neg hpresent, room.execute_of_not fun hguard => hpresent (hmusic ▸ hguard.2.2)]
      exact hmusic
  · rw [if_neg fun hguard => hstale hguard.1,
      room.execute_of_not fun hguard => hstale (hmusic ▸ hguard.2.1)]
    exact hmusic

/-- Hearing of a snapshot while no vote is open. -/
theorem deliver (h : room.Mirrors b) {state : QueueState} (hsent : state ∈ room.published)
    (hvote : b.music.activeVote = none) :
    (room.act (.deliver b.localPeerId state)).replica b.localPeerId =
      (finalState (handleQueueState env state) b).music := by
  have hmusic : room.replica b.localPeerId = b.music := h
  change (room.deliver b.localPeerId state).replica _ = _
  rw [deliver_replica_self hsent, hmusic]
  unfold handleQueueState
  rw [finalState_get_bind, finalState_music_bind]
  have hvote' : (b.music.applyRemoteQueueState state).2.activeVote = none := by
    unfold MusicState.applyRemoteQueueState MusicState.invalidateStaleQueueVote
    rw [hvote]
    split
    · rfl
    · exact hvote
  split
  · rw [finalState_attempt, resolveActiveVote_of_noVote]
    · rfl
    · exact hvote'
  · rfl

end QueueRoom.Mirrors

/-! ## Following a playback -/

theorem abandonLocalBufferOperation_returns (env : Env) (reason : String) :
    Returns (abandonLocalBufferOperation env reason) := by
  refine .get_bind fun b => ?_
  split
  · exact .pure _
  · exact .bind (.modify _) fun _ => tryPublish_returns env _

theorem cancelLocalPendingPlayback_returns (env : Env) (reason : String) :
    Returns (cancelLocalPendingPlayback env reason) := by
  refine .get_bind fun b => ?_
  split
  · exact .pure _
  · exact .bind (.modify _) fun _ => tryPublish_returns env _

theorem applyRemotePlaybackState_returns (env : Env) (state : PlaybackState) :
    Returns (applyRemotePlaybackState env state) := by
  refine .bind (.modify _) fun _ => ?_
  split
  · exact .pure _
  · refine .bind (.modify _) fun _ => .get_bind fun b => ?_
    split
    · exact .pure _
    · exact .pure _

/-- Taking back a pending playback leaves the queue. -/
theorem cancelLocalPendingPlayback_sameQueue (env : Env) (reason : String) (b : Backend) :
    (finalState (cancelLocalPendingPlayback env reason) b).music.SameQueue b.music := by
  unfold cancelLocalPendingPlayback
  rw [finalState_get_bind]
  split
  · exact ⟨rfl, rfl, rfl⟩
  · rw [finalState_music_bind]
    rw [(tryPublish_moves (P := OffMusic) env _).music_of_offMusic]
    exact MusicOp.sameQueue (.takeLocalPendingCancel b.localPeerId) rfl b.music

/-- Loading a state removes the item that it has started, as far as the queue tells. -/
theorem applyRemotePlaybackState_music (env : Env) (state : PlaybackState) (b : Backend) :
    (finalState (applyRemotePlaybackState env state) b).music =
      (b.music.setPlaybackState state).removeStartedPlaybackQueueItem state := by
  unfold applyRemotePlaybackState
  rw [finalState_music_bind]
  cases htrack : state.track with
  | none =>
    unfold MusicState.removeStartedPlaybackQueueItem
    rw [htrack]
    rfl
  | some track =>
    dsimp only
    rw [finalState_music_bind, finalState_get_bind]
    split
    · rfl
    · rfl

/-- Loading a state over the same queue leaves the same queue. -/
theorem removeStarted_sameQueue {m m' : MusicState} (h : m.SameQueue m') (state : PlaybackState) :
    ((m.setPlaybackState state).removeStartedPlaybackQueueItem state).SameQueue
      ((m'.setPlaybackState state).removeStartedPlaybackQueueItem state) := by
  have hm := m.setPlaybackState_sameQueue state
  have hm' := m'.setPlaybackState_sameQueue state
  have hsame := (hm.trans h).trans hm'.symm
  unfold MusicState.removeStartedPlaybackQueueItem
  split
  · exact hsame
  · exact ⟨congrArg (List.eraseP _) hsame.items, hsame.version, hsame.updatedAt⟩

theorem removeStarted_playbackState (m : MusicState) (state : PlaybackState) :
    ((m.setPlaybackState state).removeStartedPlaybackQueueItem state).playbackState =
      some state :=
  (MusicOp.samePlayback (.removeStartedPlaybackQueueItem state) rfl _).trans
    (m.setPlaybackState_playbackState state)

/-- The same queue and the same playback. -/
def MusicState.Agrees (m m' : MusicState) : Prop :=
  m.SameQueue m' ∧ m.playbackState = m'.playbackState

theorem Moves.agrees_of_offMusic {m : Handler Unit} (hm : Moves OffMusic m) {b : Backend}
    {followed : MusicState} (h : b.music.Agrees followed) :
    (finalState m b).music.Agrees followed := by
  rw [hm.music_of_offMusic b]
  exact h

/-- A state of another peer and of a session that can be heard changes the queue and the playback
of a backend as it does those of a follower. -/
theorem handlePlaybackState_follow {env : Env} {b : Backend} {received : PlaybackState}
    (hleader : received.leaderPeerId ≠ b.localPeerId) (htrack : received.track.isSome = true)
    (hsession : received.sessionId ∉ b.failedAudioSessions) :
    (finalState (handlePlaybackState env received) b).music.Agrees
      (b.music.followPlaybackState received (env.clock .received)) := by
  have hloaded : ¬ (normalizeRemotePlaybackState received (env.clock .received)).track.isNone := by
    rw [normalizeRemotePlaybackState_track, Option.isNone_iff_eq_none]
    exact Option.isSome_iff_ne_none.1 htrack
  have hheard : ¬ playbackStateUsesFailedAudioSession b.failedAudioSessions
      (normalizeRemotePlaybackState received (env.clock .received)) = true := by
    unfold playbackStateUsesFailedAudioSession
    simp [hsession]
  unfold handlePlaybackState MusicState.followPlaybackState
  dsimp only
  rw [if_neg hloaded, finalState_get_bind, if_neg hheard]
  generalize hstate : normalizeRemotePlaybackState received (env.clock .received) = state
  have hother : state.leaderPeerId ≠ b.localPeerId := by
    rw [← hstate]
    exact hleader
  by_cases happly : shouldApplyPlaybackState b.music.playbackState state = true
  · rw [if_pos ⟨hother, happly⟩, if_pos happly]
    -- what the local peer gives up concerns its operation and its phase, not its queue
    refine (abandonLocalBufferOperation_returns env _).finalState_bind_of
      (I := fun t : Backend => t.music = b.music) (J := fun t : Backend => t.music.Agrees _)
      ?_ fun _ t ht => ?_
    · exact (abandonLocalBufferOperation_moves (P := OffMusic) env _).music_of_offMusic b
    refine (cancelLocalPendingPlayback_returns env _).finalState_bind_of
      (I := fun u : Backend => u.music.SameQueue b.music)
      (J := fun t : Backend => t.music.Agrees _) ?_ fun _ u hu => ?_
    · have hcancel := cancelLocalPendingPlayback_sameQueue env "superseded by remote playback" t
      rw [ht] at hcancel
      exact hcancel
    refine (applyRemotePlaybackState_returns env state).finalState_bind_of
      (I := fun v : Backend => v.music =
        (u.music.setPlaybackState state).removeStartedPlaybackQueueItem state)
      (J := fun t : Backend => t.music.Agrees _) ?_ fun result v hv => ?_
    · exact applyRemotePlaybackState_music env state u
    refine Moves.agrees_of_offMusic ?_ ?_
    · cases result with
      | ok _ => exact coordinate_moves rfl
      | error error =>
        exact .bind (handleLocalAudioOutputError_moves error) fun _ =>
          .ite (.pure _) (insertFailedAudioSession_moves _)
    · rw [hv]
      refine ⟨removeStarted_sameQueue hu state, ?_⟩
      rw [removeStarted_playbackState, removeStarted_playbackState]
  · rw [if_neg fun hguard => happly hguard.2, if_neg happly]
    exact ⟨⟨rfl, rfl, rfl⟩, rfl⟩

end LightEar
