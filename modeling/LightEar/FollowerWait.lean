import LightEar.BufferHistory
import LightEar.QueueHandlers

/-!
# A follower at the end of a track

When a track is over the leader goes on to the next item of the queue, and a follower is to wait
for the leader.  The follower stops its playback, which leaves an idle phase, and an idle phase
does not stand in the way of the next item: unless its queue is empty, a follower that hears
nothing more can start the next item by itself (`follower_waits_iff`).

What a backend does on its timer is a chain of moves under the policy `Unstarted`, which permits a
start only over a queue that is not empty.  That every operation in progress has a track is shown
for all runs by another policy, `Loaded`.
-/

namespace LightEar

open Foundation

/-! ## Starts -/

/-- A change that opens a start operation of the local peer. -/
def CoordinatorOp.isStart : CoordinatorOp → Bool
  | startLeader _ _ .start _ _ _ => true
  | _ => false

/-- How many start operations of the local peer have been opened. -/
def Backend.startsBegun (b : Backend) : Nat := b.bufferLog.countP CoordinatorOp.isStart

/-- A change of the coordinator adds one start, or none. -/
theorem Backend.startsBegun_changeBuffer (b : Backend) (op : CoordinatorOp) :
    (b.changeBuffer op).startsBegun = b.startsBegun + if op.isStart then 1 else 0 := by
  simp [Backend.startsBegun, Backend.changeBuffer, List.countP_append, List.countP_cons]

/-- Other actions leave the number of starts. -/
theorem Action.Does.startsBegun {action : Action} {b b' : Backend} (h : action.Does b b') :
    b'.startsBegun = b.startsBegun +
      match action with
      | .coordinate op => if op.isStart then 1 else 0
      | _ => 0 := by
  cases action with
  | coordinate op => cases h; exact b.startsBegun_changeBuffer op
  | settle operation state =>
    cases h
    exact (b.recordCommit operation state).startsBegun_changeBuffer _
  | music op => cases h; rfl
  | publish message outcome => cases h; rfl
  | execute proposal actor op => cases h; rfl
  | aside => simp [Backend.startsBegun, h.bufferLog]

/-- Starts are never taken back. -/
theorem Moves.startsBegun_le {P : Policy} {α : Type} {m : Handler α} (hm : Moves P m)
    (b : Backend) : b.startsBegun ≤ (finalState m b).startsBegun := by
  refine hm.preserves (I := fun t => b.startsBegun ≤ t.startsBegun) ?_ le_rfl
  rintro s t ⟨action, -, hdoes⟩ hs
  rw [hdoes.startsBegun]
  exact Nat.le_add_right_of_le hs

/-! ## Hearing nothing -/

/-- What a peer does that hears nothing: a local tick, or a try to start the next item. -/
inductive QuietStep where
  | musicLocal (env : TickPhase → Env) (events : List (Env × AudioPlayerEvent))
  | startNextIfIdle (env : Env)

/-- The backend after such a step. -/
def Backend.quietStep (b : Backend) : QuietStep → Backend
  | .musicLocal env events => finalState (musicLocalTick env events) b
  | .startNextIfIdle env => finalState (startNextIfIdle env) b

/-- The backend after a list of them. -/
def Backend.quietRun (b : Backend) (steps : List QuietStep) : Backend :=
  steps.foldl Backend.quietStep b

/-- No start is opened for as long as the peer hears nothing. -/
def Backend.Waits (b : Backend) : Prop :=
  ∀ steps, (b.quietRun steps).startsBegun = b.startsBegun

/-! ## An empty queue -/

/-- Nothing comes from outside, and a start needs a queued item. -/
def Unstarted : Policy
  | _, .music op => op.isOrdinary = true
  | b, .coordinate op => op.isStart = true → b.music.queue ≠ []
  | b, .settle operation state => Decided b operation state
  | _, .execute proposal actor op => op.Executes proposal actor
  | _, .publish _ _ | _, .aside => True

instance : AllowsOrdinary Unstarted := ⟨fun _ _ h => h⟩
instance : AllowsPublish Unstarted := ⟨fun _ _ _ => trivial⟩
instance : AllowsAside Unstarted := ⟨fun _ => trivial⟩
instance : AllowsSettle Unstarted := ⟨fun _ _ _ h => h⟩
instance : AllowsExecute Unstarted := ⟨fun _ _ _ _ h => h⟩

instance : AllowsUpkeep Unstarted where
  coordinate b op hupkeep hstart := by
    cases op with
    | startLeader => cases hupkeep
    | _ => cases hstart

instance : AllowsOwn Unstarted where
  own b item kind positionMs now deadline hhead hstart := by
    cases kind with
    | start =>
      intro hempty
      have hfront := hhead rfl
      rw [hempty] at hfront
      cases hfront
    | seek => cases hstart
    | resume => cases hstart

instance : AllowsTick Unstarted where

/-- Nothing but a message or a command puts an item into an empty queue. -/
theorem MusicOp.queue_eq_nil {op : MusicOp} (hop : op.isOrdinary = true) {m : MusicState}
    (h : m.queue = []) : (op.apply m).queue = [] := by
  cases hqueue : op.isQueueChange with
  | false => exact (op.sameQueue hqueue m).items.trans h
  | true =>
    cases op with
    | appendQueueItem item => cases hop
    | applyRemoteQueueState state => cases hop
    | markQueueChanged micros => exact h
    | removeQueueIndex index =>
      simp only [apply, MusicState.removeQueueIndex]
      split <;> simp [h]
    | removeBufferQueueItem queueItemId micros =>
      simp only [apply, MusicState.removeBufferQueueItem, h]
      split <;> simp [h]
    | removeStartedPlaybackQueueItem state =>
      simp only [apply, MusicState.removeStartedPlaybackQueueItem]
      split <;> simp [h]
    | executeRemove itemId micros => simp [apply, MusicState.executeRemove, h]
    | executeMove itemId toIndex micros => simp [apply, MusicState.executeMove, h]
    | _ => cases hqueue

/-- A program under the policy keeps an empty queue empty and opens no start over it. -/
theorem Moves.unstarted {α : Type} {m : Handler α} (hm : Moves Unstarted m) {b : Backend}
    (h : b.music.queue = []) : (finalState m b).music.queue = [] ∧
      (finalState m b).startsBegun = b.startsBegun := by
  refine hm.preserves (I := fun t => t.music.queue = [] ∧ t.startsBegun = b.startsBegun) ?_
    ⟨h, rfl⟩
  rintro s t ⟨action, hP, hdoes⟩ ⟨hempty, hsame⟩
  have hstarts := hdoes.startsBegun
  cases action with
  | music op =>
    cases hdoes
    exact ⟨MusicOp.queue_eq_nil hP hempty, hstarts.trans hsame⟩
  | coordinate op =>
    have hnot : op.isStart = false := Bool.eq_false_iff.2 fun hstart => hP hstart hempty
    dsimp only at hstarts
    rw [hnot] at hstarts
    cases hdoes
    exact ⟨hempty, hstarts.trans hsame⟩
  | settle operation state => cases hdoes; exact ⟨hempty, hstarts.trans hsame⟩
  | publish message outcome => cases hdoes; exact ⟨hempty, hstarts.trans hsame⟩
  | execute proposal actor op => cases hdoes; exact ⟨hempty, hstarts.trans hsame⟩
  | aside => exact ⟨hdoes.music ▸ hempty, hstarts.trans hsame⟩

/-- With an empty queue a peer waits. -/
theorem Backend.waits_of_queue_eq_nil {b : Backend} (h : b.music.queue = []) : b.Waits := by
  intro steps
  induction steps generalizing b with
  | nil => rfl
  | cons step steps ih =>
    have hstep : (b.quietStep step).music.queue = [] ∧
        (b.quietStep step).startsBegun = b.startsBegun := by
      cases step with
      | musicLocal env events => exact (musicLocalTick_moves env events).unstarted h
      | startNextIfIdle env => exact (startNextIfIdle_moves env).unstarted h
    exact (ih hstep.1).trans hstep.2

/-! ## Operations have a track -/

/-- An operation is opened with a track. -/
def CoordinatorOp.Loads : CoordinatorOp → Prop
  | startLeader _ state _ _ _ _ => state.track.isSome = true
  | receiveRemote _ state _ _ _ _ => state.track.isSome = true
  | _ => True

/-- Operations are opened with a track. -/
def Loaded : Policy
  | _, .coordinate op => op.Loads
  | b, .settle operation state => Decided b operation state
  | _, .execute proposal actor op => op.Executes proposal actor
  | _, .music _ | _, .publish _ _ | _, .aside => True

instance : AllowsMusic Loaded := ⟨fun _ _ => trivial⟩
instance : AllowsPublish Loaded := ⟨fun _ _ _ => trivial⟩
instance : AllowsAside Loaded := ⟨fun _ => trivial⟩
instance : AllowsSettle Loaded := ⟨fun _ _ _ h => h⟩
instance : AllowsExecute Loaded := ⟨fun _ _ _ _ h => h⟩
instance : AllowsOwn Loaded := ⟨fun _ _ _ _ _ _ _ => rfl⟩
instance : AllowsAdopt Loaded := ⟨fun _ _ _ _ _ _ _ _ _ _ _ _ => rfl⟩

instance : AllowsUpkeep Loaded where
  coordinate b op hupkeep := by
    cases op with
    | startLeader => cases hupkeep
    | receiveRemote => cases hupkeep
    | _ => trivial

instance : AllowsTick Loaded where
instance : AllowsReactions Loaded where

/-- The operation in progress has a track. -/
def Backend.OperationLoaded (b : Backend) : Prop :=
  ∀ operation ∈ b.buffer.active, operation.state.track.isSome = true

theorem Backend.OperationLoaded.changeBuffer {b : Backend} (h : b.OperationLoaded)
    {op : CoordinatorOp} (hop : op.Loads) : (b.changeBuffer op).OperationLoaded := by
  intro operation hactive
  cases CoordinatorOp.becomes_of_active hactive with
  | started => exact hop
  | received => exact hop
  | @kept _ o _ hbefore hsame =>
    rw [hsame.state]
    exact h o hbefore
  | @removed o hbefore => exact h o hbefore
  | @reported o hbefore => exact h o hbefore

theorem Move.operationLoaded {b b' : Backend} (hmove : Move Loaded b b')
    (h : b.OperationLoaded) : b'.OperationLoaded := by
  obtain ⟨action, hP, hdoes⟩ := hmove
  cases action with
  | coordinate op => cases hdoes; exact h.changeBuffer hP
  | settle operation state =>
    cases hdoes
    have hrecorded : (b.recordCommit operation state).OperationLoaded := h
    exact hrecorded.changeBuffer trivial
  | music op => cases hdoes; exact h
  | publish message outcome => cases hdoes; exact h
  | execute proposal actor op => cases hdoes; exact h
  | aside =>
    unfold Backend.OperationLoaded
    rwa [hdoes.buffer]

/-- In every run the operation in progress has a track. -/
theorem Backend.Reachable.operationLoaded {b : Backend} (hb : b.Reachable) :
    b.OperationLoaded :=
  hb.invariant (P := Loaded) (fun _ _ _ _ operation hactive => by cases hactive)
    fun _ _ => Move.operationLoaded

/-! ## A queue with items -/

/-- Nothing stands in the way of the next queue item. -/
structure Backend.Ready (b : Backend) : Prop where
  /-- There is one. -/
  queue : b.music.queue ≠ []
  /-- The phase is idle. -/
  phase : ∃ state, b.music.playbackPhase = .idle state ∧ state.bind PlaybackState.track = none
  /-- No operation is in progress. -/
  inactive : b.buffer.active = none

namespace Backend.Ready

variable {b : Backend}

theorem canStartNext (h : b.Ready) : b.music.canStartNext = true := by
  obtain ⟨state, hphase, htrack⟩ := h.phase
  simp [MusicState.canStartNext, MusicState.hasPendingPlayback, MusicState.hasTrack,
    MusicState.playbackState, hphase, htrack]

/-- Then the next item is started. -/
theorem startNextIfIdle (h : b.Ready) (env : Env) :
    b.startsBegun < (finalState (startNextIfIdle env) b).startsBegun := by
  have hguard : (b.music.canStartNext && !b.buffer.isActive) = true := by
    rw [h.canStartNext, BufferCoordinator.isActive, h.inactive]
    rfl
  obtain ⟨item, rest, hqueue⟩ := List.exists_cons_of_ne_nil h.queue
  unfold LightEar.startNextIfIdle
  rw [finalState_get_bind, if_pos hguard, hqueue, List.head?_cons]
  dsimp only
  unfold beginBufferOperation
  rw [finalState_get_bind]
  dsimp only
  rw [finalState_coordinate_bind]
  refine Nat.lt_of_lt_of_le ?_ (Moves.startsBegun_le (P := Sound) ?_ _)
  · rw [Backend.startsBegun_changeBuffer]
    exact Nat.lt_succ_self _
  · refine .bind (haltPlayer_moves env _) fun _ => ?_
    exact .bind (announceOperation_moves env _ _ _ _ _) fun _ => loadOwnOperation_moves env _ _ _

/-- No prepared playback is there to be started. -/
theorem maybeStartPendingPlayback (h : b.Ready) (env : Env) :
    finalState (maybeStartPendingPlayback env) b = b := by
  obtain ⟨state, hphase, -⟩ := h.phase
  have hnone : ∀ now micros delay, b.music.maybeStartPendingPlayback b.localPeerId now micros
      delay = (none, b.music) := by
    intro now micros delay
    unfold MusicState.maybeStartPendingPlayback
    rw [hphase]
  unfold LightEar.maybeStartPendingPlayback
  rw [finalState_get_bind, finalState_music_bind, hnone]
  exact changeMusic_eq_self (congrArg Prod.snd (hnone _ _ _))

/-- No operation is there to be decided on. -/
theorem resolveBufferOperation (h : b.Ready) (env : Env) :
    finalState (resolveBufferOperation env) b = b := by
  unfold LightEar.resolveBufferOperation
  rw [finalState_get_bind, h.inactive]
  rfl

end Backend.Ready

/-! ## Dropping an operation -/

/-- An environment in which no message gets through and an audio output can be opened. -/
def Env.cutOff (now : Instant) : Env :=
  { Env.plain 0 with
    now := now
    gossipsub := fun _ => .error (.other "")
    audio := { AudioReplies.silent with opens := true } }

/-- Recording a health report and trying to publish it changes the health record alone. -/
theorem publishLocalBufferHealth_cutOff (now : Instant) (sessionId : String)
    (status : PlaybackBufferStatusKind) (bufferedUntilMs : Option Nat) (b : Backend) :
    ∃ health, publishLocalBufferHealth (.cutOff now) sessionId status bufferedUntilMs b =
      .ok () { b with playbackHealth := health } := by
  refine ⟨(b.playbackHealth.markLocalStatusForPublish sessionId b.localPeerId status
    bufferedUntilMs now bufferHealthPublishMinInterval).2, ?_⟩
  change (if (b.playbackHealth.markLocalStatusForPublish sessionId b.localPeerId status
      bufferedUntilMs now bufferHealthPublishMinInterval).1 = true then
    tryPublish (.cutOff now) _ else pure () : Handler Unit) _ = _
  by_cases hpublish : (b.playbackHealth.markLocalStatusForPublish sessionId b.localPeerId status
      bufferedUntilMs now bufferHealthPublishMinInterval).1 = true
  · rw [if_pos hpublish]
    rfl
  · rw [if_neg hpublish]
    rfl

/-- The failure of its stream ends the operation in progress, whoever leads it; nothing is
consumed where the cancellation is not published. -/
theorem handleBufferPrepareFailure_cutOff (now : Instant) {b : Backend}
    {operation : BufferOperation} (hactive : b.buffer.active = some operation) (reason : String) :
    (finalState (handleBufferPrepareFailure (.cutOff now) operation.state reason) b).music =
        b.music ∧
      (finalState (handleBufferPrepareFailure (.cutOff now) operation.state reason)
        b).buffer.active = none := by
  have hmine : b.buffer.active.filter (·.state.sessionId == operation.state.sessionId) =
      some operation := by
    rw [hactive]
    simp [Option.filter]
  unfold handleBufferPrepareFailure insertFailedAudioSession
  rw [finalState_modify_bind, finalState_get_bind]
  dsimp only
  rw [hmine]
  dsimp only
  split
  · exact ⟨rfl, rfl⟩
  · exact ⟨rfl, rfl⟩

/-- A peer without an output opens one for the operation in progress, and changes nothing else. -/
theorem restoreAudioOutput_cutOff {now : Instant} {b : Backend}
    (hretry : b.nextAudioOutputRetry ≤ now) (hactive : b.buffer.isActive = true)
    (htrack : b.music.playbackState.bind PlaybackState.track = none) :
    ∃ b', restoreAudioOutput (.cutOff now) b = .ok true b' ∧ b'.music = b.music ∧
      b'.buffer = b.buffer ∧ b'.bufferLog = b.bufferLog ∧ b'.audioPlayer = true := by
  have hloaded : b.music.playbackState.filter (·.track.isSome) = none := by
    cases hstate : b.music.playbackState with
    | none => rfl
    | some state =>
      rw [hstate, Option.bind_some] at htrack
      simp [htrack]
  cases haudio : b.audioPlayer with
  | true =>
    refine ⟨b, ?_, rfl, rfl, rfl, haudio⟩
    change (if b.audioPlayer = false ∧ _ then _ else Pure.pure true : Handler Bool) b = _
    rw [if_neg (by simp [haudio])]
    rfl
  | false =>
    have hdue : b.audioPlayer = false ∧ (b.music.hasTrack = true ∨ b.buffer.isActive = true) ∧
        b.nextAudioOutputRetry ≤ (Env.cutOff now).now := ⟨haudio, .inr hactive, hretry⟩
    refine ⟨{ b with
      nextAudioOutputRetry := now + audioOutputRetryInterval
      audioPlayer := true }, ?_, rfl, rfl, rfl, rfl⟩
    change (if b.audioPlayer = false ∧ _ then _ else Pure.pure true : Handler Bool) b = _
    rw [if_pos hdue, hloaded]
    rfl

theorem attempt_eq (m : Handler Unit) (b : Backend) : attempt m b = .ok () (finalState m b) := by
  simp only [attempt, finalState]
  cases m b <;> rfl

/-- The report that the stream of the operation in progress has failed. -/
def BufferOperation.failedEvent (operation : BufferOperation) (trackId : String) :
    AudioPlayerEvent :=
  .failed (some operation.operationId) operation.state.sessionId trackId ""

/-- Such a report ends the operation and leaves the music alone. -/
theorem handleFailed_cutOff (now : Instant) {b : Backend} {operation : BufferOperation}
    (hactive : b.buffer.active = some operation) {track : PlaybackTrack}
    (htrack : operation.state.track = some track) :
    (finalState (handleAudioPlayerEvent (.cutOff now) (operation.failedEvent track.trackId))
        b).music = b.music ∧
      (finalState (handleAudioPlayerEvent (.cutOff now) (operation.failedEvent track.trackId))
        b).buffer.active = none := by
  have hmatches : failureMatches b (some operation.operationId) operation.state.sessionId
      track.trackId = true := by
    simp [failureMatches, activeBufferOperationMatches, hactive, BufferOperation.isFor, htrack]
  have hmine : b.buffer.active.filter
      (·.isNamed operation.operationId operation.state.sessionId) = some operation := by
    rw [hactive]
    simp [Option.filter, BufferOperation.isNamed]
  obtain ⟨health, hhealth⟩ :=
    publishLocalBufferHealth_cutOff now operation.state.sessionId .failed none b
  change (finalState (handleFailed _ _ _ _ _) b).music = _ ∧
    (finalState (handleFailed _ _ _ _ _) b).buffer.active = none
  unfold handleFailed
  rw [finalState_get_bind, if_pos hmatches, finalState_bind_of_ok hhealth]
  dsimp only
  rw [hmine]
  exact handleBufferPrepareFailure_cutOff now
    (b := { b with playbackHealth := health }) hactive _

/-! ## Over a queue with items -/

/-- A tick in which the peer hears that its operation has failed. -/
def QuietStep.drop (now : Instant) (operation : BufferOperation) (trackId : String) : QuietStep :=
  .musicLocal (fun _ => .cutOff now) [(.cutOff now, operation.failedEvent trackId)]

/-- A vote that has lapsed is dropped, and nothing else changes. -/
theorem MusicState.takeTimedOutVote_of_le {m : MusicState} {now : Instant}
    (h : ∀ vote ∈ m.activeVote, vote.deadline ≤ now) :
    m.takeTimedOutVote now = { m with activeVote := none } := by
  unfold MusicState.takeTimedOutVote
  cases hvote : m.activeVote with
  | none =>
    cases m
    cases hvote
    rfl
  | some vote => exact if_pos (h vote hvote)

/-- Over a queue with items the operation in progress may fail within a tick, and the same tick
starts the next item. -/
theorem Backend.startsBegun_drop {b : Backend} (hqueue : b.music.queue ≠ [])
    {state : Option PlaybackState} (hphase : b.music.playbackPhase = .idle state)
    (hidle : state.bind PlaybackState.track = none) {operation : BufferOperation}
    (hactive : b.buffer.active = some operation) {track : PlaybackTrack}
    (htrack : operation.state.track = some track) {now : Instant}
    (hretry : b.nextAudioOutputRetry ≤ now)
    (hdeadline : ∀ vote ∈ b.music.activeVote, vote.deadline ≤ now) :
    b.startsBegun < (b.quietStep (.drop now operation track.trackId)).startsBegun := by
  have hbusy : b.buffer.isActive = true := by simp [BufferCoordinator.isActive, hactive]
  have hnoTrack : b.music.playbackState.bind PlaybackState.track = none := by
    simpa [MusicState.playbackState, hphase] using hidle
  obtain ⟨b₁, hrestore, hmusic₁, hbuffer₁, hlog₁, haudio₁⟩ :=
    restoreAudioOutput_cutOff hretry hbusy hnoTrack
  let report := handleAudioPlayerEvents [(.cutOff now, operation.failedEvent track.trackId)]
  have hreport : drainPlayerEvents [(.cutOff now, operation.failedEvent track.trackId)] b₁ =
      .ok () (finalState report b₁) := by
    change (if b₁.audioPlayer = true then attempt report else pure () : Handler Unit) b₁ = _
    rw [if_pos haudio₁, attempt_eq]
  have hdropped : (finalState report b₁).music = b.music ∧
      (finalState report b₁).buffer.active = none := by
    have hone := handleFailed_cutOff now (b := b₁) (hbuffer₁ ▸ hactive) htrack
    rw [hmusic₁] at hone
    have hsame : finalState report b₁ = finalState (handleAudioPlayerEvent (.cutOff now)
        (operation.failedEvent track.trackId)) b₁ := by
      simp only [report, handleAudioPlayerEvents, finalState_bind]
      cases h : handleAudioPlayerEvent (.cutOff now) (operation.failedEvent track.trackId) b₁ with
      | ok value t => rw [finalState_of_ok h]; rfl
      | error error t => rw [finalState_of_error h]
    rwa [hsame]
  -- the vote has lapsed by then, so that nothing but the next item is left to do
  let b₂ := (finalState report b₁).changeMusic (.takeTimedOutVote now)
  have hmusic₂ : b₂.music = { b.music with activeVote := none } := by
    change (finalState report b₁).music.takeTimedOutVote now = _
    rw [hdropped.1]
    exact MusicState.takeTimedOutVote_of_le hdeadline
  have hready : b₂.Ready := by
    refine ⟨?_, ⟨state, ?_, hidle⟩, hdropped.2⟩
    · rw [hmusic₂]
      exact hqueue
    · rw [hmusic₂]
      exact hphase
  have hstarts : b.startsBegun ≤ b₂.startsBegun := by
    have hlog : b.startsBegun = b₁.startsBegun := by
      unfold Backend.startsBegun
      rw [hlog₁]
    rw [hlog]
    exact Moves.startsBegun_le (P := Sound)
      (handleAudioPlayerEvents_moves [(.cutOff now, operation.failedEvent track.trackId)]) b₁
  refine lt_of_le_of_lt hstarts ?_
  unfold QuietStep.drop Backend.quietStep
  dsimp only
  unfold musicLocalTick
  rw [finalState_bind_of_ok hrestore, if_pos rfl, finalState_bind_of_ok hreport,
    finalState_music_bind]
  change b₂.startsBegun < (finalState (attempt _ >>= fun _ => _) b₂).startsBegun
  rw [finalState_bind_of_ok (attempt_eq _ _),
    resolveActiveVote_of_noVote (congrArg MusicState.activeVote hmusic₂),
    finalState_bind_of_ok (attempt_eq _ _), hready.maybeStartPendingPlayback,
    finalState_bind_of_ok (attempt_eq _ _), hready.resolveBufferOperation,
    finalState_bind_of_ok (attempt_eq _ _)]
  refine Nat.lt_of_lt_of_le (hready.startNextIfIdle _) (Moves.startsBegun_le (P := Sound) ?_ _)
  exact .bind (attempt_moves (maybePauseForBufferHealthLoss_moves _)) fun _ =>
    followPlayback_moves _

/-! ## The end of a track -/

/-- A local tick up to its last part, in which the end of a track is seen; says whether that part
is reached. -/
def tickToFollow (env : TickPhase → Env) (events : List (Env × AudioPlayerEvent)) :
    Handler Bool := do
  let goesOn ← restoreAudioOutput (env .restore)
  if goesOn then
    drainPlayerEvents events
    music (.takeTimedOutVote (env .vote).now)
    attempt (resolveActiveVote (env .vote))
    attempt (maybeStartPendingPlayback (env .pending))
    attempt (resolveBufferOperation (env .buffer))
    attempt (startNextIfIdle (env .startNext))
    attempt (maybePauseForBufferHealthLoss (env .health))
    return true
  else
    return false

/-- The last part of a tick runs where the others have led. -/
theorem finalState_musicLocalTick {env : TickPhase → Env}
    {events : List (Env × AudioPlayerEvent)} {b b₁ : Backend}
    (h : tickToFollow env events b = .ok true b₁) :
    finalState (musicLocalTick env events) b = finalState (followPlayback (env .follow)) b₁ := by
  unfold tickToFollow at h
  obtain ⟨goesOn, b₂, hrestore, h⟩ := bind_eq_ok.1 h
  unfold musicLocalTick
  rw [finalState_bind_of_ok hrestore]
  cases goesOn with
  | false => cases h
  | true =>
    rw [if_pos rfl] at h ⊢
    obtain ⟨_, b₃, hevents, h⟩ := bind_eq_ok.1 h
    obtain ⟨_, b₄, hvote, h⟩ := bind_eq_ok.1 h
    obtain ⟨_, b₅, hresolve, h⟩ := bind_eq_ok.1 h
    obtain ⟨_, b₆, hpending, h⟩ := bind_eq_ok.1 h
    obtain ⟨_, b₇, hbuffer, h⟩ := bind_eq_ok.1 h
    obtain ⟨_, b₈, hnext, h⟩ := bind_eq_ok.1 h
    obtain ⟨_, b₉, hhealth, h⟩ := bind_eq_ok.1 h
    rw [finalState_bind_of_ok hevents, finalState_bind_of_ok hvote,
      finalState_bind_of_ok hresolve, finalState_bind_of_ok hpending,
      finalState_bind_of_ok hbuffer, finalState_bind_of_ok hnext, finalState_bind_of_ok hhealth]
    cases h
    rfl

theorem tickToFollow_moves {P : Policy} [AllowsTick P] (env : TickPhase → Env)
    (events : List (Env × AudioPlayerEvent)) : Moves P (tickToFollow env events) := by
  refine .bind (restoreAudioOutput_moves _) fun goesOn => .ite ?_ (.pure _)
  refine .bind (drainPlayerEvents_moves events) fun _ => .bind (ordinary_moves rfl) fun _ => ?_
  refine .bind (attempt_moves (resolveActiveVote_moves _)) fun _ => ?_
  exact tickAttempts_moves env (.pure _)

/-- The peer sees the end of the loaded track, which another peer leads. -/
structure Backend.EndsAsFollower (b : Backend) (env : Env) (state : PlaybackState) : Prop where
  /-- The state is loaded. -/
  loaded : b.music.playbackState = some state
  /-- No operation prepares its track. -/
  follows : shouldSyncPlayerToPlaybackState b.buffer state = true
  /-- The player is in step with it. -/
  syncs : syncLoadedPlayerToState env b.audioPlayer state (env.clock .tick) = .ok ()
  /-- It has come to its end, for a follower. -/
  role : finishedPlaybackRole state b.localPeerId (env.clock .tick)
    (b.audioPlayer && env.audio.isFinished (env.clock .tick)) = some .follower

/-- Then the playback is stopped. -/
theorem Backend.EndsAsFollower.followPlayback {b : Backend} {env : Env} {state : PlaybackState}
    (h : b.EndsAsFollower env state) : finalState (followPlayback env) b =
      b.changeMusic (.stopCurrentPlayback b.localPeerId (env.clock .stop)) := by
  unfold LightEar.followPlayback
  rw [finalState_get_bind, h.loaded]
  dsimp only
  rw [if_pos h.follows, h.syncs]
  dsimp only
  unfold finishPlayback
  rw [finalState_get_bind]
  dsimp only
  rw [h.role]
  rfl

/-- A follower at the end of a track waits for its leader exactly when its queue is empty. -/
theorem follower_waits_iff {b b₁ : Backend} (hb : b.Reachable) {env : TickPhase → Env}
    {events : List (Env × AudioPlayerEvent)} (htick : tickToFollow env events b = .ok true b₁)
    {state : PlaybackState} (hend : b₁.EndsAsFollower (env .follow) state) :
    (b.step (.musicLocal env events)).Waits ↔ b₁.music.queue = [] := by
  let b₂ := b₁.changeMusic (.stopCurrentPlayback b₁.localPeerId ((env .follow).clock .stop))
  have hstep : b.step (.musicLocal env events) = b₂ :=
    (finalState_musicLocalTick htick).trans hend.followPlayback
  have hloaded : b₂.OperationLoaded := by
    have htrack := (tickToFollow_moves (P := Loaded) env events).preserves
      (fun _ _ => Move.operationLoaded) hb.operationLoaded
    rw [finalState_of_ok htick] at htrack
    exact htrack
  rw [hstep]
  refine ⟨fun hwaits => ?_, fun hempty => Backend.waits_of_queue_eq_nil hempty⟩
  by_contra hqueue
  cases hactive : b₂.buffer.active with
  | none =>
    have hready : b₂.Ready := ⟨hqueue, ⟨_, rfl, rfl⟩, hactive⟩
    exact absurd (hwaits [.startNextIfIdle (.cutOff 0)]) (hready.startNextIfIdle _).ne'
  | some operation =>
    obtain ⟨track, htrack⟩ := Option.isSome_iff_exists.1 (hloaded operation hactive)
    let now := max b₂.nextAudioOutputRetry
      ((b₂.music.activeVote.map ActiveVote.deadline).getD 0)
    have hdeadline : ∀ vote ∈ b₂.music.activeVote, vote.deadline ≤ now := by
      intro vote hvote
      have heq : b₂.music.activeVote = some vote := hvote
      simp only [now, heq]
      exact le_max_right _ _
    have hdrop := Backend.startsBegun_drop (b := b₂) hqueue rfl rfl hactive htrack (le_max_left _ _)
      hdeadline
    exact absurd (hwaits [.drop now operation track.trackId]) hdrop.ne'

/-! ## A leader that has gone silent -/

/-- The leader's track of four minutes, started at ten seconds. -/
def leadersTrack : PlaybackState where
  sessionId := "a:1"
  leaderPeerId := "a"
  track := some {
    trackId := "BV1:0"
    sourceKind := "bilibili"
    bvid := "BV1"
    part := 0
    durationMs := 240000 }
  trackRequestedBy := some "a"
  stateVersion := 1
  issuedAtMicros := 10000000
  playing := true
  positionMs := 0
  anchorTimeMicros := 10000000
  rate := 1

/-- A peer that has taken over the leader's queue and follows its track. -/
def following (items : List QueueItem) : Backend :=
  (Backend.new "b" ∅ false 0).run [
    .connectionEstablished (.plain 1000000) "a",
    .wire (.plain 2000000) "a" (.queueState ⟨1, 2000000, "a", items⟩),
    .wire (.plain 10000000) "a" (.playbackState leadersTrack)]

/-- The environment of a tick after the end of the track. -/
def afterTheEnd : TickPhase → Env := fun _ => .plain 260000000

/-- The peer at the last part of that tick. -/
def followerAtEnd (items : List QueueItem) : Backend :=
  finalState (tickToFollow afterTheEnd []) (following items)

/-- With nothing queued the follower waits. -/
theorem follower_waits_iff_emptyQueue :
    ((following []).step (.musicLocal afterTheEnd [])).Waits := by
  have htick : tickToFollow afterTheEnd [] (following []) = .ok true (followerAtEnd []) := rfl
  have hend : (followerAtEnd []).EndsAsFollower (afterTheEnd .follow) leadersTrack :=
    ⟨rfl, rfl, rfl, by decide +kernel⟩
  exact (follower_waits_iff ⟨"b", ∅, false, 0, _, rfl⟩ htick hend).2 (by decide)

/-- The item that the leader would start next. -/
def nextItem : QueueItem where
  itemId := "q"
  track := {
    trackId := "BV2:0"
    sourceKind := "bilibili"
    bvid := "BV2"
    part := 0
    durationMs := 240000 }
  requestedBy := "a"
  addedAtMicros := 1500000

/-- With an item queued the next tick starts it, though the leader is connected and silent. -/
theorem follower_starts_next :
    ¬ ∀ (b b₁ : Backend) (env : TickPhase → Env) (events : List (Env × AudioPlayerEvent))
        (state : PlaybackState),
      b.Reachable → tickToFollow env events b = .ok true b₁ →
      b₁.EndsAsFollower (env .follow) state → state.leaderPeerId ∈ b.connectedPeers →
      ∀ steps, ((b.step (.musicLocal env events)).quietRun steps).startsBegun =
        (b.step (.musicLocal env events)).startsBegun := by
  intro h
  have hsame := h (following [nextItem]) (followerAtEnd [nextItem]) afterTheEnd [] leadersTrack
    ⟨"b", ∅, false, 0, _, rfl⟩ rfl ⟨rfl, rfl, rfl, by decide +kernel⟩ (by decide)
    [.musicLocal (fun _ => .plain 260100000) []]
  revert hsame
  decide +kernel

end LightEar
