import LightEar.Backend.Moves
import LightEar.BufferHistory

/-!
# Sessions at rest

A session is at rest while no state of it plays and no vote is open.  Nearly everything the
backend does by itself keeps a session at rest: this file shows it function by function, for the
functions that run on a timer or on a report.  What may start a session again is the decision on
an operation of that session (`Decides`), the start of a prepared playback of it
(`StartsPending`), and the start of the front item of the queue in a session that takes its name
once more (`OpensNext`).
-/

namespace LightEar

open Foundation

/-! ## Sessions at rest -/

/-- No state of a session plays, and no vote is open that could change this. -/
structure MusicState.Rests (session : String) (m : MusicState) : Prop where
  /-- A current state of the session is paused. -/
  stopped : ∀ state ∈ m.playbackState, state.sessionId = session → state.playing = false
  /-- No vote is open. -/
  noVote : m.activeVote = none

namespace MusicState.Rests

variable {session : String} {m : MusicState}

/-- Loading a state keeps a session at rest unless the state plays in that session. -/
theorem setPlaybackState (h : m.Rests session) {state : PlaybackState}
    (hstate : state.sessionId = session → state.playing = false) :
    (m.setPlaybackState state).Rests session := by
  refine ⟨?_, ?_⟩
  · intro loaded hloaded
    rw [MusicState.setPlaybackState_playbackState] at hloaded
    cases hloaded
    exact hstate
  · simp [MusicState.setPlaybackState, invalidatePlaybackVoteIfTrackChanges, h.noVote]

end MusicState.Rests

/-- Without an open vote there is nothing to count, to decide or to drop. -/
theorem MusicOp.noVote_of_isCalm {op : MusicOp} (hop : op.isCalm = true) {m : MusicState}
    (h : m.activeVote = none) : (op.apply m).activeVote = none := by
  cases hballot : op.isBallot with
  | false =>
    rcases box_of_not_isBallot hballot m with hkept | hdropped
    · exact hkept.trans h
    · exact hdropped
  | true =>
    cases op with
    | castVote peerId approve =>
      simp only [apply, MusicState.castVote, h]
    | castVoteFor voteId peerId approve =>
      simp only [apply, MusicState.castVoteFor, h]
    | startVote => cases hop
    | receiveVoteProposal => cases hop
    | _ => cases hballot

/-- A change that starts no playback leaves a paused state of a session paused. -/
theorem MusicOp.stopped_of_isCalm {session : String} {op : MusicOp} (hop : op.isCalm = true)
    {m : MusicState}
    (h : ∀ state ∈ m.playbackState, state.sessionId = session → state.playing = false) :
    ∀ state ∈ (op.apply m).playbackState, state.sessionId = session → state.playing = false := by
  cases hplayback : op.isPlaybackChange with
  | false =>
    rw [op.samePlayback hplayback]
    exact h
  | true =>
    cases op with
    | cancelPlayback sessionId =>
      simp only [apply, MusicState.cancelPlayback]
      split
      · intro state hstate
        cases hstate
      · exact h
    | takeLocalPendingCancel localPeerId =>
      simp only [apply, MusicState.takeLocalPendingCancel]
      split
      · split
        · intro state hstate
          cases hstate
        · exact h
      · exact h
      · exact h
    | stopCurrentPlayback localPeerId micros =>
      intro state hstate _
      cases hstate
      rfl
    | stopCurrentPlaybackForVote actor micros =>
      intro state hstate _
      cases hstate
      rfl
    | pausePlaybackForVote actor micros =>
      intro state hstate _
      have hpaused := (m.pausePlaybackForVote_playbackState actor micros).symm.trans hstate
      obtain ⟨before, -, rfl⟩ := Option.map_eq_some_iff.1 hpaused
      rfl
    | refreshPlaybackState localPeerId micros =>
      intro state hstate hof
      rcases m.refreshPlaybackState_playbackState localPeerId micros with hmap | hsame
      · obtain ⟨before, hbefore, rfl⟩ := Option.map_eq_some_iff.1 (hmap.symm.trans hstate)
        obtain ⟨positionMs, anchor, hrefreshed⟩ := MusicState.refreshedState_eq micros before
        rw [hrefreshed] at hof ⊢
        exact h before hbefore hof
      · exact h state (hsame.symm.trans hstate) hof
    | setPlaybackState => cases hop
    | setRemotePlaybackPrepare => cases hop
    | maybeStartPendingPlayback => cases hop
    | _ => cases hplayback

/-- A change that starts no playback and opens no vote keeps a session at rest. -/
theorem MusicOp.rests_of_isCalm {session : String} {op : MusicOp} (hop : op.isCalm = true)
    {m : MusicState} (h : m.Rests session) : (op.apply m).Rests session :=
  ⟨stopped_of_isCalm hop h.stopped, noVote_of_isCalm hop h.noVote⟩

/-- On a given peer, a session is at rest. -/
structure Backend.Rested (session : String) (localPeerId : PeerId) (b : Backend) : Prop where
  /-- Its music state keeps the session at rest. -/
  rests : b.music.Rests session
  /-- It is that peer. -/
  isLocal : b.localPeerId = localPeerId

/-- No playback is started, no operation opened, settled or put to the vote. -/
def Calm : Policy
  | _, .music op => op.isCalm = true
  | _, .coordinate op => op.isUpkeep = true
  | _, .publish _ _ | _, .aside => True
  | _, .settle _ _ | _, .execute _ _ _ => False

instance : AllowsCalm Calm := ⟨fun _ _ h => h⟩
instance : AllowsPublish Calm := ⟨fun _ _ _ => trivial⟩
instance : AllowsAside Calm := ⟨fun _ => trivial⟩
instance : AllowsUpkeep Calm := ⟨fun _ _ h => h⟩

section Rested

variable {session : String} {localPeerId : PeerId}

theorem Move.rested {b b' : Backend} (hmove : Move Calm b b')
    (h : b.Rested session localPeerId) : b'.Rested session localPeerId := by
  have hlocal := hmove.localPeerId.trans h.isLocal
  obtain ⟨action, hP, hdoes⟩ := hmove
  refine ⟨?_, hlocal⟩
  cases action with
  | music op => cases hdoes; exact MusicOp.rests_of_isCalm hP h.rests
  | coordinate op => cases hdoes; exact h.rests
  | publish message outcome => cases hdoes; exact h.rests
  | settle operation state => exact hP.elim
  | execute proposal actor op => exact hP.elim
  | aside => rw [hdoes.music]; exact h.rests

/-- A calm program keeps a session at rest. -/
theorem Moves.rested {α : Type} {m : Handler α} (hm : Moves Calm m) :
    Keeps (Backend.Rested session localPeerId) m :=
  .of_evolves hm fun _ _ hmove h => hmove.rested h

/-! ## Decisions on an operation -/

/-- Loading a state that does not play in the session keeps it at rest. -/
theorem setPlaybackState_rested {state : PlaybackState}
    (hstate : state.sessionId = session → state.playing = false) :
    Keeps (Backend.Rested session localPeerId) (music (.setPlaybackState state)) :=
  .modify fun _ h => ⟨h.rests.setPlaybackState hstate, h.isLocal⟩

/-- The commit of an operation of another session keeps a session at rest. -/
theorem commitBufferOperation_rested (env : Env) {operation : BufferOperation}
    (hother : operation.state.sessionId ≠ session) :
    Keeps (Backend.Rested session localPeerId) (commitBufferOperation env operation) := by
  refine .bind (startCommittedStream_moves env operation).rested fun _ => .ite ?_ (.pure _)
  refine .bind (calm_moves rfl).rested fun _ => .get_bind fun b => ?_
  refine .bind (consumeStartItem_moves env operation).rested fun _ => .bind ?_ fun _ => ?_
  · exact setPlaybackState_rested fun hof => absurd hof hother
  · exact .bind (publishPlaybackState_moves env _).rested fun _ => .pure _

/-- Whether the local stream of an operation can be started; without audio output there is
nothing to start. -/
def streamStarts (env : Env) (audioPlayer : Bool) (operation : BufferOperation) : Bool :=
  match operation.state.track with
  | none => true
  | some track => !audioPlayer ||
    match env.audio.startPreparedStream operation.state.sessionId track.trackId
      operation.state.positionMs false with
    | .ok started => started
    | .error _ => false

/-- Starting the stream changes nothing in the backend. -/
theorem startCommittedStream_frame (env : Env) (operation : BufferOperation) (b : Backend) :
    finalState (startCommittedStream env operation) b = b :=
  (startCommittedStream_moves (P := fun _ _ => False) env operation).preserves
    (I := fun t => t = b) (fun _ _ hmove _ => by obtain ⟨_, hP, _⟩ := hmove; exact hP.elim) rfl

/-- A stream that has been started could be started. -/
theorem streamStarts_of_eq_ok {env : Env} {operation : BufferOperation} {b b' : Backend}
    (h : startCommittedStream env operation b = .ok true b') :
    streamStarts env b.audioPlayer operation = true := by
  obtain ⟨_, _, hget, h⟩ := bind_eq_ok.1 h
  cases hget
  unfold streamStarts
  cases htrack : operation.state.track with
  | none => rfl
  | some track =>
    rw [htrack] at h
    dsimp only at h ⊢
    by_cases haudio : b.audioPlayer = false
    · rw [haudio]
      rfl
    · rw [if_neg haudio] at h
      obtain ⟨started, _, hstart, h⟩ := bind_eq_ok.1 h
      cases hreply : env.audio.startPreparedStream operation.state.sessionId track.trackId
        operation.state.positionMs false with
      | error error =>
        rw [hreply] at hstart
        cases hstart
      | ok reply =>
        rw [hreply] at hstart
        cases hstart
        cases started with
        | true => simp
        | false =>
          obtain ⟨_, _, _, h⟩ := bind_eq_ok.1 h
          obtain ⟨_, _, _, h⟩ := bind_eq_ok.1 h
          cases h

/-- A stream that can be started is started. -/
theorem startCommittedStream_eq_ok {env : Env} {operation : BufferOperation} {b : Backend}
    (h : streamStarts env b.audioPlayer operation = true) :
    startCommittedStream env operation b = .ok true b := by
  refine bind_eq_ok.2 ⟨b, b, rfl, ?_⟩
  unfold streamStarts at h
  cases htrack : operation.state.track with
  | none => rfl
  | some track =>
    rw [htrack] at h
    dsimp only at h ⊢
    by_cases haudio : b.audioPlayer = false
    · rw [if_pos haudio]
      rfl
    · rw [if_neg haudio]
      rw [Bool.not_eq_false] at haudio
      rw [haudio, Bool.not_true, Bool.false_or] at h
      cases hreply : env.audio.startPreparedStream operation.state.sessionId track.trackId
        operation.state.positionMs false with
      | error error =>
        rw [hreply] at h
        cases h
      | ok started =>
        rw [hreply] at h
        cases h
        rfl

/-- Looking at the operation in progress decides it, and it is of a given session. -/
def Decides (session : String) (env : Env) (b : Backend) : Prop :=
  ∃ operation ∈ b.buffer.active, operation.state.leaderPeerId = b.localPeerId ∧
    operation.state.sessionId = session ∧
    majorityThreshold operation.expectedPeers.card ≤ operation.count .ready ∧
    (b.audioPlayer = true → operation.reports b.localPeerId .ready = true) ∧
    streamStarts env b.audioPlayer operation = true

/-- A commit whose stream does not start changes nothing. -/
theorem commitBufferOperation_of_not_streamStarts {env : Env} {operation : BufferOperation}
    {b : Backend} (h : streamStarts env b.audioPlayer operation = false) :
    finalState (commitBufferOperation env operation) b = b := by
  have hframe := startCommittedStream_frame env operation b
  unfold commitBufferOperation
  rw [finalState_bind]
  cases hstart : startCommittedStream env operation b with
  | error error t =>
    rw [finalState_of_error hstart] at hframe
    exact hframe
  | ok started t =>
    rw [finalState_of_ok hstart] at hframe
    cases started with
    | false => exact hframe
    | true =>
      rw [streamStarts_of_eq_ok hstart] at h
      cases h

/-- Looking at a ready quorum keeps a session at rest unless it decides an operation of the
session. -/
theorem resolveReady_rested (env : Env) {operation : BufferOperation} {b : Backend}
    (hother : operation.state.sessionId = session →
      (b.audioPlayer = true → operation.reports b.localPeerId .ready = true) →
        streamStarts env b.audioPlayer operation = false)
    (h : b.Rested session localPeerId) :
    (finalState (resolveReady env operation) b).Rested session localPeerId := by
  unfold resolveReady
  rw [finalState_get_bind]
  dsimp only
  split
  · exact (waitForLocalAudio_moves env operation _).rested b h
  · rename_i hwait
    have hlocal : b.audioPlayer = true → operation.reports b.localPeerId .ready = true := by
      simpa only [not_and, Bool.not_eq_false] using hwait
    have hafter : ∀ result t, t.Rested session localPeerId →
        (finalState (match result with
          | none => waitForReload env operation (operation.reports b.localPeerId .buffering)
          | some state => settle operation state : Handler Unit) t).Rested session
            localPeerId := by
      intro result t ht
      cases result with
      | none => exact (waitForReload_moves env operation _).rested t ht
      | some state => exact ⟨ht.rests, ht.isLocal⟩
    by_cases hsession : operation.state.sessionId = session
    · have hframe := commitBufferOperation_of_not_streamStarts (hother hsession hlocal)
      rw [finalState_bind]
      cases hcommit : commitBufferOperation env operation b with
      | ok result t =>
        rw [finalState_of_ok hcommit] at hframe
        subst hframe
        exact hafter result t h
      | error error t =>
        rw [finalState_of_error hcommit] at hframe
        subst hframe
        exact h
    · exact Keeps.bind (commitBufferOperation_rested env hsession) hafter b h

/-- Looking at the operation in progress keeps a session at rest unless it decides an operation
of the session. -/
theorem resolveBufferOperation_rested {env : Env} {b : Backend} (hdecides : ¬ Decides session env b)
    (h : b.Rested session localPeerId) :
    (finalState (resolveBufferOperation env) b).Rested session localPeerId := by
  unfold resolveBufferOperation
  rw [finalState_get_bind]
  cases hactive : b.buffer.active with
  | none => exact h
  | some operation =>
    dsimp only
    split
    · rename_i hleads
      cases hquorum : operation.quorum env.now with
      | ready ready threshold =>
        refine resolveReady_rested env (fun hsession hlocal => ?_) h
        by_contra hstarts
        rw [Bool.not_eq_false] at hstarts
        exact hdecides ⟨operation, hactive, hleads, hsession,
          BufferOperation.quorum_eq_ready hquorum, hlocal, hstarts⟩
      | impossible ready failed threshold =>
        exact (resolveImpossible_moves env operation).rested b h
      | timedOut ready threshold => exact (resolveTimedOut_moves env operation).rested b h
      | waiting ready buffering failed threshold => exact (resolveWaiting_moves env).rested b h
    · exact h

/-- Only messages are published. -/
def PublishOnly : Policy
  | _, .publish _ _ => True
  | _, _ => False

instance : AllowsPublish PublishOnly := ⟨fun _ _ _ => trivial⟩

/-- What is done where only messages are published is to note one. -/
theorem Move.eq_recordPublished {b b' : Backend} (h : Move PublishOnly b b') :
    ∃ message outcome, b' = b.recordPublished message outcome := by
  obtain ⟨action, hP, hdoes⟩ := h
  cases action with
  | publish message outcome => exact ⟨message, outcome, hdoes⟩
  | music op => exact hP.elim
  | coordinate op => exact hP.elim
  | settle operation state => exact hP.elim
  | execute proposal actor op => exact hP.elim
  | aside => exact hP.elim

/-- A program that only publishes leaves the music state. -/
theorem Moves.music_of_publishOnly {α : Type} {m : Handler α} (hm : Moves PublishOnly m)
    (b : Backend) : (finalState m b).music = b.music := by
  refine hm.preserves (I := fun t => t.music = b.music) (fun s t hmove hs => ?_) rfl
  obtain ⟨message, outcome, rfl⟩ := hmove.eq_recordPublished
  exact hs

/-- The decision on a seek or resume operation starts its session. -/
theorem Decides.starts {env : Env} {b : Backend} (h : Decides session env b)
    (hkind : ∀ operation ∈ b.buffer.active, operation.kind ≠ .start) :
    ∃ state ∈ (finalState (resolveBufferOperation env) b).music.playbackState,
      state.sessionId = session ∧ state.playing = true := by
  obtain ⟨operation, hactive, hleads, hsession, hquorum, hlocal, hstarts⟩ := h
  have hwait : ¬ (b.audioPlayer = true ∧ operation.reports b.localPeerId .ready = false) := by
    rintro ⟨haudio, hready⟩
    rw [hlocal haudio] at hready
    cases hready
  have hready := BufferOperation.quorum_of_majority hquorum env.now
  let version := satAdd b.music.playbackVersion 1
  let state := MusicState.committedState operation.state version (env.clock .commit)
    musicStartDelay
  let loaded := (b.changeMusic .nextPlaybackVersion).changeMusic (.setPlaybackState state)
  have hcommit : commitBufferOperation env operation b =
      (publishPlaybackState env state >>= fun _ => pure (some state)) loaded := by
    simp only [commitBufferOperation, consumeStartItem, if_neg (hkind operation hactive), bind,
      EStateM.bind, startCommittedStream_eq_ok hstarts]
    rfl
  have hloaded : loaded.music.playbackState = some state :=
    MusicState.setPlaybackState_playbackState _ _
  have hframe := (publishPlaybackState_moves (P := PublishOnly) env state).music_of_publishOnly
    loaded
  refine ⟨state, ?_, hsession, rfl⟩
  unfold resolveBufferOperation
  rw [finalState_get_bind, Option.mem_def.1 hactive]
  dsimp only
  rw [if_pos hleads, hready]
  dsimp only
  unfold resolveReady
  rw [finalState_get_bind]
  dsimp only
  rw [if_neg hwait, finalState_bind, hcommit]
  simp only [bind, EStateM.bind]
  cases hpublish : publishPlaybackState env state loaded with
  | ok _ t =>
    rw [finalState_of_ok hpublish] at hframe
    change t.music.playbackState = some state
    rw [hframe, hloaded]
  | error error t =>
    rw [finalState_of_error hpublish] at hframe
    change t.music.playbackState = some state
    rw [hframe, hloaded]

/-! ## New operations -/

/-- The front item of the queue would be started in a session of a given name: no operation is in
progress, and the new session gets that name. -/
def OpensNext (session : String) (env : Env) (b : Backend) : Prop :=
  b.buffer.isActive = false ∧ ∃ item ∈ b.music.queue.head?,
    operationSession .start b.music.playbackState b.localPeerId (env.clock .begin) item.track =
      session

/-- A session is at rest, and the operation in progress is of another one. -/
structure Backend.RestedApart (session : String) (localPeerId : PeerId) (b : Backend) : Prop where
  /-- The session is at rest. -/
  rested : b.Rested session localPeerId
  /-- The operation is of another one. -/
  apart : ∀ operation ∈ b.buffer.active, operation.state.sessionId ≠ session

/-- The operation after a change that opens none has the state of the one before. -/
theorem CoordinatorOp.exists_state_of_isUpkeep {c : BufferCoordinator} {op : CoordinatorOp}
    (hop : op.isUpkeep = true) {operation : BufferOperation}
    (h : (op.apply c).active = some operation) :
    ∃ before, c.active = some before ∧ operation.state = before.state := by
  cases becomes_of_active h with
  | started => cases hop
  | received => cases hop
  | @kept _ before _ hbefore hsame => exact ⟨before, hbefore, hsame.state⟩
  | @removed before hbefore => exact ⟨before, hbefore, rfl⟩
  | @reported before hbefore => exact ⟨before, hbefore, rfl⟩

/-- Looking after the operation in progress does not bring up one of a given session. -/
theorem Move.apart {b b' : Backend} (hmove : Move Upkeep b b')
    (h : ∀ operation ∈ b.buffer.active, operation.state.sessionId ≠ session) :
    ∀ operation ∈ b'.buffer.active, operation.state.sessionId ≠ session := by
  obtain ⟨action, hP, hdoes⟩ := hmove
  cases action with
  | coordinate op =>
    cases hdoes
    intro operation hactive
    obtain ⟨before, hbefore, hstate⟩ := CoordinatorOp.exists_state_of_isUpkeep hP hactive
    rw [hstate]
    exact h before hbefore
  | settle operation state =>
    cases hdoes
    intro other hactive
    exact h other (BufferCoordinator.active_of_takeIf hactive).1
  | execute proposal actor op => exact hP.elim
  | music op => cases hdoes; exact h
  | publish message outcome => cases hdoes; exact h
  | aside => rw [hdoes.buffer]; exact h

/-- A program that keeps the session at rest and opens no operation keeps them apart. -/
theorem Moves.restedApart {α : Type} {m : Handler α}
    (hupkeep : Moves Upkeep m) (hrested : ∀ b, b.RestedApart session localPeerId →
      (finalState m b).Rested session localPeerId) :
    Keeps (Backend.RestedApart session localPeerId) m := by
  intro b h
  refine ⟨hrested b h, ?_⟩
  exact hupkeep.preserves (I := fun t => ∀ operation ∈ t.buffer.active,
    operation.state.sessionId ≠ session) (fun _ _ hmove ht => hmove.apart ht) h.apart

/-- Loading an operation of another session keeps a session at rest. -/
theorem loadOwnOperation_rested (env : Env) (operationId : String) (state : PlaybackState)
    (item : QueueItem) : Keeps (Backend.RestedApart session localPeerId)
      (loadOwnOperation env operationId state item) := by
  refine .get_bind fun b => .ite ?_ ?_
  · have hload : ∀ P : Policy, Moves P (do
        let playableTrack ← liftExcept (env.audio.playableTrack item.track)
        liftExcept (env.audio.prepareStream (some operationId) state.sessionId playableTrack
          state.positionMs)) := fun _ =>
      .bind (liftExcept_moves _) fun _ => liftExcept_moves _
    exact Moves.restedApart (hload _) fun t h => (hload Calm).rested t h.rested
  · refine .bind ?_ fun _ => ?_
    · exact Moves.restedApart (markLocalStatus_moves env _ _ _) fun t h =>
        (markLocalStatus_moves env _ _ _).rested t h.rested
    · refine Moves.restedApart (resolveBufferOperation_moves env) fun t h => ?_
      refine resolveBufferOperation_rested ?_ h.rested
      rintro ⟨operation, hactive, _, hsession, _⟩
      exact h.apart operation hactive hsession

/-- Opening an operation of another session keeps a session at rest. -/
theorem beginBufferOperation_rested (env : Env) (item : QueueItem)
    (kind : PlaybackBufferOperationKind) (positionMs : Nat) {b : Backend}
    (hother : operationSession kind b.music.playbackState b.localPeerId (env.clock .begin)
      item.track ≠ session) (h : b.Rested session localPeerId) :
    (finalState (beginBufferOperation env item kind positionMs) b).Rested session
      localPeerId := by
  unfold beginBufferOperation
  rw [finalState_get_bind]
  dsimp only
  rw [finalState_coordinate_bind]
  have hopened : (b.changeBuffer (.startLeader (newOperationId kind b.localPeerId
      (env.clock .begin)) (newOperationState b item kind positionMs (env.clock .begin)) kind
      (if kind = .start then some item.itemId else none) b.roomPeerIds
      (env.now + bufferOperationTimeout))).RestedApart session localPeerId := by
    refine ⟨⟨h.rests, h.isLocal⟩, fun operation hactive => ?_⟩
    cases hactive
    exact hother
  refine (Keeps.bind ?_ (fun _ => .bind ?_ fun _ => ?_) _ hopened :
    Backend.RestedApart session localPeerId _).rested
  · exact Moves.restedApart (haltPlayer_moves env _) fun t h =>
      (haltPlayer_moves env _).rested t h.rested
  · exact Moves.restedApart (announceOperation_moves env _ _ _ _ _) fun t h =>
      (announceOperation_moves env _ _ _ _ _).rested t h.rested
  · exact loadOwnOperation_rested env _ _ _

/-- Starting the next item keeps a session at rest unless it opens one of that name. -/
theorem startNextIfIdle_rested {env : Env} {b : Backend}
    (hnext : ¬ (b.music.canStartNext = true ∧ OpensNext session env b))
    (h : b.Rested session localPeerId) :
    (finalState (startNextIfIdle env) b).Rested session localPeerId := by
  unfold startNextIfIdle
  rw [finalState_get_bind]
  split
  · rename_i hidle
    rw [Bool.and_eq_true, Bool.not_eq_true'] at hidle
    split
    · exact h
    · rename_i item hitem
      refine beginBufferOperation_rested env item .start 0 (fun hsame => hnext ?_) h
      exact ⟨hidle.1, hidle.2, item, hitem, hsame⟩
  · exact h

/-- A session is at rest, and the front item of the queue would not be started in one of that
name. -/
structure Backend.RestedAhead (session : String) (localPeerId : PeerId) (env : Env) (b : Backend) :
    Prop where
  /-- The session is at rest. -/
  rested : b.Rested session localPeerId
  /-- The front item would be started in another one. -/
  ahead : ¬ OpensNext session env b

/-- A playback is ended, and messages are published. -/
def Halting : Policy
  | _, .music op => op.isHalt = true
  | _, .publish _ _ | _, .aside => True
  | _, _ => False

instance : AllowsHalt Halting := ⟨fun _ _ h => h⟩
instance : AllowsPublish Halting := ⟨fun _ _ _ => trivial⟩
instance : AllowsAside Halting := ⟨fun _ => trivial⟩

/-- What decides on the next operation stays as it is. -/
theorem OpensNext.congr {env : Env} {b b' : Backend} (hqueue : b'.music.queue = b.music.queue)
    (hbuffer : b'.buffer = b.buffer) (hlocal : b'.localPeerId = b.localPeerId)
    (h : OpensNext session env b') : OpensNext session env b := by
  obtain ⟨hidle, item, hitem, hname⟩ := h
  rw [hbuffer] at hidle
  rw [hqueue] at hitem
  rw [hlocal] at hname
  exact ⟨hidle, item, hitem, hname⟩

/-- Ending a playback changes neither the queue nor the operation in progress. -/
theorem Move.restedAhead {env : Env} {b b' : Backend} (hmove : Move Halting b b')
    (h : b.RestedAhead session localPeerId env) : b'.RestedAhead session localPeerId env := by
  obtain ⟨action, hP, hdoes⟩ := hmove
  cases action with
  | music op =>
    have hcalm : Move Calm b b' := ⟨.music op, MusicOp.isCalm_of_isHalt hP, hdoes⟩
    have hqueue : op.isQueueChange = false := by
      cases op with
      | takeLocalPendingCancel => rfl
      | stopCurrentPlayback => rfl
      | _ => cases hP
    cases hdoes
    refine ⟨hcalm.rested h.rested, fun hnext => h.ahead ?_⟩
    have hitems : (b.changeMusic op).music.queue = b.music.queue :=
      (op.sameQueue hqueue b.music).items
    have hbuffer : (b.changeMusic op).buffer = b.buffer := rfl
    exact hnext.congr hitems hbuffer rfl
  | publish message outcome =>
    have hcalm : Move Calm b b' := ⟨.publish message outcome, trivial, hdoes⟩
    cases hdoes
    exact ⟨hcalm.rested h.rested, fun hnext => h.ahead (hnext.congr rfl rfl rfl)⟩
  | aside =>
    have hcalm : Move Calm b b' := ⟨.aside, trivial, hdoes⟩
    have hqueue : b'.music.queue = b.music.queue := by rw [hdoes.music]
    exact ⟨hcalm.rested h.rested,
      fun hnext => h.ahead (hnext.congr hqueue hdoes.buffer hdoes.localPeerId)⟩
  | coordinate op => exact hP.elim
  | settle operation state => exact hP.elim
  | execute proposal actor op => exact hP.elim

/-- So does a program that does no more. -/
theorem Moves.restedAhead {env : Env} {α : Type} {m : Handler α} (hm : Moves Halting m) :
    Keeps (Backend.RestedAhead session localPeerId env) m :=
  .of_evolves hm fun _ _ hmove h => hmove.restedAhead h

/-- Ending a playback, and starting the next item in another session, keeps a session at rest. -/
theorem haltAndStartNext_rested {env : Env} {α : Type} {m : Handler α} (hm : Moves Halting m)
    {b : Backend} (h : b.RestedAhead session localPeerId env) :
    (finalState (m >>= fun _ => startNextIfIdle env) b).Rested session localPeerId := by
  refine finalState_bind_of (hm.restedAhead b h) (fun _ t ht => ?_) fun _ ht => ht.rested
  exact startNextIfIdle_rested (fun hnext => ht.ahead hnext.2) ht.rested

/-! ## Timers -/

/-- A prepared playback of a session that the local peer leads is due. -/
def StartsPending (session : String) (env : Env) (b : Backend) : Prop :=
  ∃ state ∈ (b.music.maybeStartPendingPlayback b.localPeerId env.now (env.clock .pendingStart)
    musicStartDelay).1, state.sessionId = session

/-- Starting a prepared playback loads the state it gives. -/
theorem MusicState.maybeStartPendingPlayback_cases (m : MusicState) (localPeerId : PeerId)
    (now : Instant) (nowMicros startDelayMicros : Int) :
    m.maybeStartPendingPlayback localPeerId now nowMicros startDelayMicros = (none, m) ∨
      ∃ version state, m.maybeStartPendingPlayback localPeerId now nowMicros startDelayMicros =
        (some state, { m with playbackVersion := version, playbackPhase := .active state }) := by
  unfold MusicState.maybeStartPendingPlayback
  split
  · split
    · exact .inl rfl
    · split
      · exact .inl rfl
      · exact .inr ⟨_, _, rfl⟩
  · exact .inl rfl
  · exact .inl rfl

/-- Starting a prepared playback of another session keeps a session at rest. -/
theorem maybeStartPendingPlayback_rested {env : Env} {b : Backend}
    (hstarts : ¬ StartsPending session env b) (h : b.Rested session localPeerId) :
    (finalState (maybeStartPendingPlayback env) b).Rested session localPeerId := by
  unfold maybeStartPendingPlayback
  rw [finalState_get_bind, finalState_music_bind]
  have hchanged : (b.changeMusic (.maybeStartPendingPlayback b.localPeerId env.now
      (env.clock .pendingStart) musicStartDelay)).Rested session localPeerId := by
    refine ⟨?_, h.isLocal⟩
    change (b.music.maybeStartPendingPlayback b.localPeerId env.now (env.clock .pendingStart)
      musicStartDelay).2.Rests session
    rcases b.music.maybeStartPendingPlayback_cases b.localPeerId env.now
      (env.clock .pendingStart) musicStartDelay with hnone | ⟨version, state, hsome⟩
    · rw [hnone]
      exact h.rests
    · rw [hsome]
      refine ⟨fun loaded hloaded hof => ?_, h.rests.noVote⟩
      cases hloaded
      refine absurd ⟨state, ?_, hof⟩ hstarts
      rw [hsome]
      rfl
  split
  · exact hchanged
  · exact (publishPlaybackState_moves env _).rested _ hchanged

/-- Without an open vote there is nothing to execute. -/
theorem resolveActiveVote_rested (env : Env) :
    Keeps (Backend.Rested session localPeerId) (resolveActiveVote env) := by
  intro b h
  have hvote := h.rests.noVote
  unfold resolveActiveVote
  rw [finalState_get_bind]
  simp only [MusicState.readyVoteWaitingForQueue, MusicState.resolveVote, hvote]
  exact (calm_moves (P := Calm) rfl).rested b h

/-- Loading once more what is current keeps a session at rest. -/
theorem applyRemotePlaybackState_rested (env : Env) {state : PlaybackState}
    (hstate : state.sessionId = session → state.playing = false) :
    Keeps (Backend.Rested session localPeerId) (applyRemotePlaybackState env state) := by
  refine .bind (setPlaybackState_rested hstate) fun _ => ?_
  split
  · exact .pure _
  · exact .bind (calm_moves rfl).rested fun _ => .get_bind fun b => .ite (.pure _) (.pure _)

/-- So does getting an audio output back. -/
theorem restoreAudioOutput_rested (env : Env) :
    Keeps (Backend.Rested session localPeerId) (restoreAudioOutput env) := by
  intro b h
  unfold restoreAudioOutput
  rw [finalState_get_bind]
  split
  · refine Keeps.bind (.modify fun t ht => ⟨ht.rests, ht.isLocal⟩) (fun _ => ?_) b h
    split
    · rename_i state hstate
      have hcurrent := h.rests.stopped state (Option.filter_eq_some_iff.1 hstate).1
      refine .ite (.bind (applyRemotePlaybackState_rested env hcurrent) fun result => ?_)
        (.pure _)
      cases result with
      | ok _ => exact .pure _
      | error error =>
        exact .bind (handleLocalAudioOutputError_moves error).rested fun _ => .pure _
    · exact .pure _
  · exact h

/-- A session is at rest, and a state of another one is current. -/
structure Backend.RestedBeside (session other : String) (localPeerId : PeerId) (b : Backend) :
    Prop where
  /-- The session is at rest. -/
  rested : b.Rested session localPeerId
  /-- The current state is of the other one. -/
  beside : ∃ state ∈ b.music.playbackState, state.sessionId = other

theorem Moves.restedBeside {other : String} {α : Type} {m : Handler α}
    (hm : Moves PublishOnly m) :
    Keeps (Backend.RestedBeside session other localPeerId) m := by
  intro b h
  have hmusic := hm.music_of_publishOnly b
  refine ⟨⟨?_, ?_⟩, ?_⟩
  · rw [hmusic]
    exact h.rested.rests
  · rw [hm.localPeerId b, h.rested.isLocal]
  · rw [hmusic]
    exact h.beside

/-- A resume operation is of the session that is current. -/
theorem beginResume_rested (env : Env) (item : QueueItem) (positionMs : Nat) {other : String}
    (hother : other ≠ session) {b : Backend} (h : b.RestedBeside session other localPeerId) :
    (finalState (beginBufferOperation env item .resume positionMs) b).Rested session
      localPeerId := by
  obtain ⟨state, hstate, rfl⟩ := h.beside
  refine beginBufferOperation_rested env item .resume positionMs ?_ h.rested
  rw [Option.mem_def.1 hstate]
  exact hother

/-- A lost majority pauses what plays, which is another session, and prepares that again. -/
theorem maybePauseForBufferHealthLoss_rested (env : Env) :
    Keeps (Backend.Rested session localPeerId) (maybePauseForBufferHealthLoss env) := by
  intro b h
  unfold maybePauseForBufferHealthLoss
  rw [finalState_get_bind]
  split
  · exact h
  · split
    · exact (modifyHealth_moves (P := Calm) _).rested b h
    · rename_i current hcurrent
      split
      · rename_i hplays
        have hother : current.sessionId ≠ session := by
          intro hof
          have hstopped := h.rests.stopped current hcurrent hof
          rw [hplays.2] at hstopped
          cases hstopped
        dsimp only
        rw [finalState_modifyHealth_bind]
        split
        · rename_i item _ _
          rw [finalState_music_bind]
          have hpaused : ∀ health, (Backend.changeMusic { b with playbackHealth := health }
              (.pausePlaybackForVote b.localPeerId (env.clock .healthPause))).RestedBeside session
                current.sessionId localPeerId := by
            intro health
            refine ⟨(calm_moves (P := Calm) rfl).rested _ ⟨h.rests, h.isLocal⟩, ?_⟩
            change ∃ state ∈ (b.music.pausePlaybackForVote b.localPeerId
              (env.clock .healthPause)).2.playbackState, _
            rw [MusicState.pausePlaybackForVote_playbackState, hcurrent]
            exact ⟨_, rfl, rfl⟩
          split
          · exact (hpaused _).rested
          · refine finalState_bind_of ((haltPlayer_moves env _).restedBeside _ (hpaused _)) ?_
              fun t ht => ht.rested
            intro _ t ht
            refine finalState_bind_of ((publishPlaybackState_moves env _).restedBeside _ ht) ?_
              fun u hu => hu.rested
            intro _ u hu
            exact beginResume_rested env item _ hother hu
        · exact ⟨h.rests, h.isLocal⟩
      · exact h

/-- Following the current playback ends it: the local peer leads it, and its track is over or the
player cannot follow. -/
def EndsPlayback (env : Env) (b : Backend) : Prop :=
  ∃ state ∈ b.music.playbackState, state.leaderPeerId = b.localPeerId ∧
    shouldSyncPlayerToPlaybackState b.buffer state = true ∧
    match syncLoadedPlayerToState env b.audioPlayer state (env.clock .tick) with
    | .error error => isAudioOutputError error = false
    | .ok () => finishedPlaybackRole state b.localPeerId (env.clock .tick)
        (b.audioPlayer && env.audio.isFinished (env.clock .tick)) = some .leader

/-- Following the current playback keeps a session at rest unless it ends the playback and the next
one gets that name. -/
theorem followPlayback_rested {env : Env} {b : Backend}
    (hnext : ¬ (EndsPlayback env b ∧ OpensNext session env b))
    (h : b.Rested session localPeerId) :
    (finalState (followPlayback env) b).Rested session localPeerId := by
  unfold followPlayback
  rw [finalState_get_bind]
  split
  · exact h
  · rename_i state hstate
    split
    · rename_i hfollows
      have hahead (hleads : state.leaderPeerId = b.localPeerId)
          (hends : match syncLoadedPlayerToState env b.audioPlayer state (env.clock .tick) with
            | .error error => isAudioOutputError error = false
            | .ok () => finishedPlaybackRole state b.localPeerId (env.clock .tick)
                (b.audioPlayer && env.audio.isFinished (env.clock .tick)) = some .leader) :
          b.RestedAhead session localPeerId env :=
        ⟨h, fun hopens => hnext ⟨⟨state, hstate, hleads, hfollows, hends⟩, hopens⟩⟩
      cases hsync : syncLoadedPlayerToState env b.audioPlayer state (env.clock .tick) with
      | error error =>
        rw [hsync] at hahead
        dsimp only
        unfold handleSyncFailure
        rw [finalState_get_bind]
        cases hgone : isAudioOutputError error with
        | true =>
          have hset : handleLocalAudioOutputError error b =
              .ok true { b with audioPlayer := false } := by
            unfold handleLocalAudioOutputError
            rw [if_pos hgone]
            rfl
          rw [finalState_bind_of_ok hset]
          exact ⟨h.rests, h.isLocal⟩
        | false =>
          have hset : handleLocalAudioOutputError error b = .ok false b := by
            unfold handleLocalAudioOutputError
            rw [if_neg (Bool.eq_false_iff.1 hgone)]
            rfl
          rw [finalState_bind_of_ok hset]
          by_cases hleads : state.leaderPeerId = b.localPeerId
          · have hinserted : Keeps (Backend.RestedAhead session localPeerId env)
                (insertFailedAudioSession state.sessionId) :=
              (insertFailedAudioSession_moves _).restedAhead
            refine finalState_bind_of (hinserted b (hahead hleads hgone)) (fun _ t ht => ?_)
              fun _ ht => ht.rested
            rw [if_pos hleads]
            exact haltAndStartNext_rested (stopCurrentPlayback_moves env _) ht
          · refine Keeps.bind (insertFailedAudioSession_moves _).rested (fun _ => ?_) b h
            rw [if_neg hleads]
            exact (insertFailedAudioSession_moves _).rested
      | ok _ =>
        rw [hsync] at hahead
        dsimp only
        unfold finishPlayback
        rw [finalState_get_bind]
        dsimp only
        split
        · exact h
        · rename_i hrole
          have hleads : state.leaderPeerId = b.localPeerId := by
            unfold finishedPlaybackRole at hrole
            split_ifs at hrole with _ _ hlocal
            · exact hlocal
            · cases hrole
          exact haltAndStartNext_rested (stopCurrentPlayback_moves env _) (hahead hleads hrole)
        · exact (calm_moves (P := Calm) rfl).rested b h
    · exact h

/-! ## Reports -/

/-- Two backends that differ at most in what no decision depends on. -/
structure Backend.Agrees (b t : Backend) : Prop where
  /-- The music state is the same. -/
  music : t.music = b.music
  /-- The operation is the same. -/
  buffer : t.buffer = b.buffer
  /-- The peer is the same. -/
  localPeerId : t.localPeerId = b.localPeerId
  /-- The audio output is the same. -/
  audioPlayer : t.audioPlayer = b.audioPlayer

namespace Backend.Agrees

theorem refl (b : Backend) : b.Agrees b := ⟨rfl, rfl, rfl, rfl⟩

variable {b t : Backend}

theorem rested (h : b.Agrees t) (hb : b.Rested session localPeerId) :
    t.Rested session localPeerId :=
  ⟨by rw [h.music]; exact hb.rests, h.localPeerId.trans hb.isLocal⟩

theorem not_decides (h : b.Agrees t) {env : Env} (hb : ¬ Decides session env b) :
    ¬ Decides session env t := by
  unfold Decides at hb ⊢
  rwa [h.buffer, h.localPeerId, h.audioPlayer]

theorem not_startsPending (h : b.Agrees t) {env : Env} (hb : ¬ StartsPending session env b) :
    ¬ StartsPending session env t := by
  unfold StartsPending at hb ⊢
  rwa [h.music, h.localPeerId]

end Backend.Agrees

/-- Publishing decides nothing. -/
theorem Moves.agrees {α : Type} {m : Handler α} (hm : Moves PublishOnly m) (b : Backend) :
    Keeps b.Agrees m := by
  refine .of_evolves hm fun s t hmove hs => ?_
  obtain ⟨message, outcome, rfl⟩ := hmove.eq_recordPublished
  exact ⟨hs.music, hs.buffer, hs.localPeerId, hs.audioPlayer⟩

/-- Nor does a local health report. -/
theorem publishLocalBufferHealth_agrees (env : Env) (sessionId : String)
    (status : PlaybackBufferStatusKind) (bufferedUntilMs : Option Nat) (b : Backend) :
    Keeps b.Agrees (publishLocalBufferHealth env sessionId status bufferedUntilMs) := by
  refine .get_bind fun t => .bind (.modify fun u hu => ?_) fun _ => .ite ?_ (.pure _)
  · exact ⟨hu.music, hu.buffer, hu.localPeerId, hu.audioPlayer⟩
  · exact (tryPublish_moves env _).agrees b

/-- A report that the stream of an operation is ready keeps a session at rest unless it decides
an operation of the session. -/
theorem handlePreparedForOperation_rested {env : Env} {operationId sessionId trackId : String}
    {bufferedUntilMs : Nat} {b : Backend}
    (hdecides : ¬ Decides session env (b.changeBuffer (.markStatus operationId sessionId
      b.localPeerId ⟨.ready, some bufferedUntilMs, none⟩ env.now)))
    (h : b.Rested session localPeerId) :
    (finalState (handlePreparedForOperation env operationId sessionId trackId bufferedUntilMs)
      b).Rested session localPeerId := by
  unfold handlePreparedForOperation
  rw [finalState_get_bind]
  split
  · refine finalState_bind_of (publishLocalBufferHealth_agrees env sessionId .ready
      (some bufferedUntilMs) b b (.refl b)) ?_ fun t ht => ht.rested h
    intro _ t ht
    rw [finalState_markLocalStatus_bind]
    have hmarked : (b.changeBuffer (.markStatus operationId sessionId b.localPeerId
        ⟨.ready, some bufferedUntilMs, none⟩ env.now)).Agrees
        (t.changeBuffer (.markStatus operationId sessionId t.localPeerId
          ⟨.ready, some bufferedUntilMs, none⟩ env.now)) := by
      refine ⟨ht.music, ?_, ht.localPeerId, ht.audioPlayer⟩
      simp only [Backend.changeBuffer, ht.localPeerId, ht.buffer]
    have hrested : (b.changeBuffer (.markStatus operationId sessionId b.localPeerId
        ⟨.ready, some bufferedUntilMs, none⟩ env.now)).Rested session localPeerId :=
      ⟨h.rests, h.isLocal⟩
    refine finalState_bind_of ((publishBufferStatus_moves env operationId sessionId _).agrees _ _
      hmarked) ?_ fun u hu => hu.rested hrested
    intro _ u hu
    exact resolveBufferOperation_rested (hu.not_decides hdecides) (hu.rested hrested)
  · exact h

/-- A report that a stream is ready keeps a session at rest unless it lets a prepared playback
of the session start. -/
theorem handlePreparedForPlayback_rested {env : Env} {sessionId trackId : String}
    {bufferedUntilMs : Nat} {b : Backend}
    (hstarts : ¬ StartsPending session env
      (b.changeMusic (.markPlaybackReady sessionId b.localPeerId b.localPeerId)))
    (h : b.Rested session localPeerId) :
    (finalState (handlePreparedForPlayback env sessionId trackId bufferedUntilMs) b).Rested
      session localPeerId := by
  have hhealth : Keeps (Backend.Rested session localPeerId)
      (publishLocalBufferHealth env sessionId .ready (some bufferedUntilMs)) :=
    (publishLocalBufferHealth_moves env sessionId .ready _).rested
  unfold handlePreparedForPlayback
  rw [finalState_get_bind]
  dsimp only
  split
  · exact h
  · split
    · rw [finalState_music_bind]
      have hmarked : (b.changeMusic (.markPlaybackReady sessionId b.localPeerId
          b.localPeerId)).Rested session localPeerId :=
        (calm_moves (P := Calm) rfl).rested b h
      split
      · refine finalState_bind_of (publishLocalBufferHealth_agrees env sessionId .ready
          (some bufferedUntilMs) _ _ (.refl _)) ?_ fun t ht => ht.rested hmarked
        intro _ t ht
        refine finalState_bind_of (maybeStartPendingPlayback_rested (ht.not_startsPending hstarts)
          (ht.rested hmarked)) ?_ fun _ hu => hu
        intro _ u hu
        exact (publishRoomWire_moves env _).rested u hu
      · exact hmarked
    · refine finalState_bind_of (hhealth b h) (fun _ t ht => ?_) fun _ ht => ht
      split
      · exact ht
      · exact (liftExcept_moves _).rested t ht

/-- A failed stream is that of the current playback, which the local peer leads. -/
def FailsPlayback (sessionId trackId : String) (b : Backend) : Prop :=
  ∃ state ∈ b.music.playbackState, MusicState.playbackStateMatchesTrack state sessionId trackId =
    true ∧ state.leaderPeerId = b.localPeerId

/-- A failed stream stops what it was for, and keeps a session at rest unless that was the current
playback and the next one gets the name. -/
theorem handleFailed_rested {env : Env} {operationId : Option String} {sessionId trackId : String}
    {b : Backend} (hnext : operationId = none → ¬ (FailsPlayback sessionId trackId b ∧
      OpensNext session env b)) (error : String) (h : b.Rested session localPeerId) :
    (finalState (handleFailed env operationId sessionId trackId error) b).Rested session
      localPeerId := by
  unfold handleFailed
  rw [finalState_get_bind]
  split
  · have hhealth : Moves Calm (publishLocalBufferHealth env sessionId .failed none) :=
      publishLocalBufferHealth_moves env _ _ _
    split
    · refine Keeps.bind hhealth.rested (fun _ => ?_) b h
      split
      · exact .pure _
      · exact (handleBufferPrepareFailure_moves env _ _).rested
    · split
      · exact Keeps.bind hhealth.rested (fun _ => .pure _) b h
      · rename_i state hstate
        obtain ⟨hcurrent, hmatches⟩ := Option.filter_eq_some_iff.1 hstate
        split
        · rename_i hleads
          have hahead : b.RestedAhead session localPeerId env :=
            ⟨h, fun hopens => hnext rfl ⟨⟨state, hcurrent, hmatches, hleads⟩, hopens⟩⟩
          have hfailed : b.RestedAhead session localPeerId env → _ :=
            (publishLocalBufferHealth_moves (P := Halting) env sessionId .failed none).restedAhead b
          refine finalState_bind_of (hfailed hahead) (fun _ t ht => ?_) fun _ ht => ht.rested
          exact haltAndStartNext_rested (handleLocalLeaderAudioFailure_moves env _ _) ht
        · exact Keeps.bind hhealth.rested (fun _ => (insertFailedAudioSession_moves _).rested) b h
  · exact h

end Rested

end LightEar
