import LightEar.SessionRest

/-!
# Operations that outlive a vote

The execution of a pause or skip vote changes the music state only; a seek or resume operation
of the voted session stays in progress.  `LaterStep` lists what happens by itself afterwards:
reports on the operation, and the timers with the parts of a tick one by one; every run of such
events is a run of these steps.  `Restarts` says before each step whether it brings the session
back, and a run without restarts keeps the session at rest.  The restart that matters is the
decision on the operation that was left over: it does bring the session back.
-/

namespace LightEar

open Foundation

/-! ## Later steps -/

/-- What happens by itself after a vote. -/
inductive LaterStep where
  | status (env : Env) (operationId sessionId : String) (peerId : PeerId)
      (status : BufferPeerStatus)
  | removed (env : Env) (peerId : PeerId)
  | player (env : Env) (event : AudioPlayerEvent)
  | phase (part : TickPhase) (env : Env)
  | sync (env : Env)

/-- The part of a tick. -/
def TickPhase.program (env : Env) : TickPhase → Handler Unit
  | restore => do let _ ← restoreAudioOutput env
  | vote => do
    music (.takeTimedOutVote env.now)
    resolveActiveVote env
  | pending => maybeStartPendingPlayback env
  | buffer => resolveBufferOperation env
  | startNext => startNextIfIdle env
  | health => maybePauseForBufferHealthLoss env
  | follow => followPlayback env

namespace LaterStep

/-- The reaction that a step consists of. -/
def program : LaterStep → Handler Unit
  | status env operationId sessionId peerId report =>
    handlePlaybackBufferStatus env operationId sessionId peerId report
  | removed env peerId => removeFromBufferQuorum env peerId
  | player env event => handleAudioPlayerEvent env event
  | phase part env => part.program env
  | sync env => musicSyncTick env

/-- The state after a step. -/
def after (b : Backend) (step : LaterStep) : Backend := finalState step.program b

end LaterStep

/-- The state after a list of steps. -/
def runLater (b : Backend) (steps : List LaterStep) : Backend := steps.foldl LaterStep.after b

theorem runLater_append (b : Backend) (steps steps' : List LaterStep) :
    runLater b (steps ++ steps') = runLater (runLater b steps) steps' :=
  List.foldl_append

/-! ## Events as steps -/

/-- The reports of the player are steps; an error leaves out the rest of them. -/
theorem handleAudioPlayerEvents_steps (events : List (Env × AudioPlayerEvent)) (b : Backend) :
    ∃ steps, finalState (handleAudioPlayerEvents events) b = runLater b steps := by
  induction events generalizing b with
  | nil => exact ⟨[], rfl⟩
  | cons event events ih =>
    obtain ⟨env, event⟩ := event
    have hstep : finalState (handleAudioPlayerEvent env event) b =
        LaterStep.after b (.player env event) := rfl
    unfold handleAudioPlayerEvents
    rw [finalState_bind]
    cases hevent : handleAudioPlayerEvent env event b with
    | error error t =>
      rw [finalState_of_error hevent] at hstep
      exact ⟨[.player env event], hstep⟩
    | ok _ t =>
      rw [finalState_of_ok hevent] at hstep
      obtain ⟨steps, hsteps⟩ := ih t
      refine ⟨.player env event :: steps, hsteps.trans ?_⟩
      rw [hstep]
      rfl

/-- So are the reports of the player, if they are read at all. -/
theorem drainPlayerEvents_steps (events : List (Env × AudioPlayerEvent)) (f : Unit → Handler Unit)
    (b : Backend) : ∃ steps, finalState (drainPlayerEvents events >>= f) b =
      finalState (f ()) (runLater b steps) := by
  cases haudio : b.audioPlayer with
  | false =>
    have hdrain : drainPlayerEvents events b = .ok () b := by
      refine bind_eq_ok.2 ⟨b, b, rfl, ?_⟩
      rw [haudio]
      rfl
    exact ⟨[], finalState_bind_of_ok hdrain⟩
  | true =>
    obtain ⟨steps, hsteps⟩ := handleAudioPlayerEvents_steps events b
    have hdrain : drainPlayerEvents events b = attempt (handleAudioPlayerEvents events) b := by
      change (if b.audioPlayer = true then attempt (handleAudioPlayerEvents events)
        else pure () : Handler Unit) b = _
      rw [if_pos haudio]
    have hattempt := finalState_attempt_bind (handleAudioPlayerEvents events) f b
    rw [finalState_bind] at hattempt
    refine ⟨steps, ?_⟩
    rw [finalState_bind, hdrain, hattempt, hsteps]

/-- A local tick is a run of its parts. -/
theorem musicLocalTick_steps (env : TickPhase → Env) (events : List (Env × AudioPlayerEvent))
    (b : Backend) : ∃ steps, finalState (musicLocalTick env events) b = runLater b steps := by
  have hrestore : finalState (restoreAudioOutput (env .restore)) b =
      runLater b [.phase .restore (env .restore)] := by
    change _ = finalState (restoreAudioOutput (env .restore) >>= fun _ => pure ()) b
    rw [finalState_bind]
    unfold finalState
    cases restoreAudioOutput (env .restore) b <;> rfl
  unfold musicLocalTick
  rw [finalState_bind]
  cases hgoesOn : restoreAudioOutput (env .restore) b with
  | error error t =>
    rw [finalState_of_error hgoesOn] at hrestore
    exact ⟨_, hrestore⟩
  | ok goesOn t =>
    rw [finalState_of_ok hgoesOn] at hrestore
    cases goesOn with
    | false => exact ⟨_, hrestore⟩
    | true =>
      dsimp only
      rw [if_pos rfl]
      obtain ⟨steps, hsteps⟩ := drainPlayerEvents_steps events _ t
      refine ⟨[.phase .restore (env .restore)] ++ steps ++
        [.phase .vote (env .vote), .phase .pending (env .pending), .phase .buffer (env .buffer),
          .phase .startNext (env .startNext), .phase .health (env .health),
          .phase .follow (env .follow)], hsteps.trans ?_⟩
      rw [runLater_append, runLater_append, ← hrestore, finalState_music_bind]
      simp only [finalState_attempt_bind]
      rfl

/-- The events that are runs of later steps: reports on operations, timers and slow peers. -/
def Event.IsLater : Event → Prop
  | .wire _ _ (.playbackBufferStatus ..) | .musicLocal _ _ | .musicSync _ | .slowPeer _ _ => True
  | _ => False

/-- Such an event is a run of steps. -/
theorem Event.IsLater.steps {event : Event} (h : event.IsLater) (b : Backend) :
    ∃ steps, b.step event = runLater b steps := by
  cases event with
  | musicLocal env events => exact musicLocalTick_steps env events b
  | musicSync env => exact ⟨[.sync env], rfl⟩
  | slowPeer env peerId => exact ⟨[.removed env peerId], rfl⟩
  | wire env source message =>
    cases message with
    | playbackBufferStatus operationId sessionId peerId status =>
      change ∃ steps, finalState (applyWireMessage env source _) b = _
      unfold applyWireMessage
      split
      · exact ⟨[], rfl⟩
      · exact ⟨[.status env operationId sessionId peerId status], rfl⟩
    | _ => exact h.elim
  | command env command => exact h.elim
  | connectionEstablished env peerId => exact h.elim
  | connectionClosed env peerId num => exact h.elim

/-- A run of such events is a run of steps. -/
theorem run_steps {events : List Event} (h : ∀ event ∈ events, event.IsLater) (b : Backend) :
    ∃ steps, b.run events = runLater b steps := by
  induction events generalizing b with
  | nil => exact ⟨[], rfl⟩
  | cons event events ih =>
    obtain ⟨steps, hsteps⟩ := (h event List.mem_cons_self).steps b
    obtain ⟨steps', hsteps'⟩ := ih (fun e he => h e (List.mem_cons_of_mem _ he)) (b.step event)
    refine ⟨steps ++ steps', ?_⟩
    rw [runLater_append, ← hsteps]
    exact hsteps'

/-! ## Restarts -/

/-- Before a step: it brings a session back.  It decides an operation of the session, or starts a
prepared playback of it, or opens an operation for the front item of the queue in a new session
under the same name. -/
def Restarts (session : String) (b : Backend) : LaterStep → Prop
  | .status env operationId sessionId peerId status =>
    Decides session env
      (b.changeBuffer (.markStatus operationId sessionId peerId status env.now))
  | .removed env peerId =>
    Decides session env (b.changeBuffer (.removeExpectedPeer peerId env.now))
  | .player env (.prepared (some operationId) sessionId _ bufferedUntilMs) =>
    Decides session env (b.changeBuffer (.markStatus operationId sessionId b.localPeerId
      ⟨.ready, some bufferedUntilMs, none⟩ env.now))
  | .player env (.prepared none sessionId _ _) =>
    StartsPending session env
      (b.changeMusic (.markPlaybackReady sessionId b.localPeerId b.localPeerId))
  | .player env (.failed none sessionId trackId _) =>
    FailsPlayback sessionId trackId b ∧ OpensNext session env b
  | .phase .pending env => StartsPending session env b
  | .phase .buffer env => Decides session env b
  | .phase .startNext env => b.music.canStartNext = true ∧ OpensNext session env b
  | .phase .follow env => EndsPlayback env b ∧ OpensNext session env b
  | .player _ _ | .phase _ _ | .sync _ => False

section Steps

variable {session : String} {localPeerId : PeerId} {b : Backend}

/-- A report of the player that does not restart a session keeps it at rest. -/
theorem handleAudioPlayerEvent_rested {env : Env} {event : AudioPlayerEvent}
    (hstep : ¬ Restarts session b (.player env event)) (h : b.Rested session localPeerId) :
    (finalState (handleAudioPlayerEvent env event) b).Rested session localPeerId := by
  cases event with
  | prepared operationId sessionId trackId bufferedUntilMs =>
    cases operationId with
    | some operationId => exact handlePreparedForOperation_rested hstep h
    | none => exact handlePreparedForPlayback_rested hstep h
  | cache operationId sessionId trackId status bufferedUntilMs =>
    exact (Keeps.get_bind fun _ => .ite (publishLocalBufferHealth_moves env _ _ _).rested
      (.pure _) : Keeps _ _) b h
  | buffering operationId sessionId trackId bufferedUntilMs =>
    exact (Keeps.get_bind fun _ => .ite (publishLocalBufferHealth_moves env _ _ _).rested
      (.pure _) : Keeps _ _) b h
  | failed operationId sessionId trackId error =>
    refine handleFailed_rested (fun hnone => ?_) error h
    subst hnone
    exact hstep
  | outputDeviceError =>
    exact (Keeps.ite (setAudioPlayer_moves _).rested (.pure _) : Keeps _ _) b h
  | outputDeviceChanged =>
    exact (Keeps.ite (setAudioPlayer_moves _).rested (.pure _) : Keeps _ _) b h
  | downloadStatus operationId sessionId trackId => exact h
  | ended sessionId trackId => exact h

/-- A step that does not restart a session keeps it at rest. -/
theorem LaterStep.after_rested {step : LaterStep} (hstep : ¬ Restarts session b step)
    (h : b.Rested session localPeerId) : (step.after b).Rested session localPeerId := by
  cases step with
  | status env operationId sessionId peerId report =>
    change (finalState (handlePlaybackBufferStatus env operationId sessionId peerId report)
      b).Rested session localPeerId
    unfold handlePlaybackBufferStatus
    rw [finalState_coordinate_bind, finalState_get_bind]
    have hmarked : (b.changeBuffer (.markStatus operationId sessionId peerId report
        env.now)).Rested session localPeerId := ⟨h.rests, h.isLocal⟩
    split
    · rw [finalState_attempt]
      exact resolveBufferOperation_rested hstep hmarked
    · exact hmarked
  | removed env peerId =>
    change (finalState (removeFromBufferQuorum env peerId) b).Rested session localPeerId
    unfold removeFromBufferQuorum
    rw [finalState_get_bind, finalState_coordinate_bind]
    have hremoved : (b.changeBuffer (.removeExpectedPeer peerId env.now)).Rested session
        localPeerId := ⟨h.rests, h.isLocal⟩
    split
    · rw [finalState_attempt]
      exact resolveBufferOperation_rested hstep hremoved
    · exact hremoved
  | player env event => exact handleAudioPlayerEvent_rested hstep h
  | sync env => exact (musicSyncTick_moves env).rested b h
  | phase part env =>
    cases part with
    | restore => exact Keeps.bind (restoreAudioOutput_rested env) (fun _ => .pure _) b h
    | vote =>
      exact Keeps.bind (calm_moves rfl).rested (fun _ => resolveActiveVote_rested env) b h
    | pending => exact maybeStartPendingPlayback_rested hstep h
    | buffer => exact resolveBufferOperation_rested hstep h
    | startNext => exact startNextIfIdle_rested hstep h
    | health => exact maybePauseForBufferHealthLoss_rested env b h
    | follow => exact followPlayback_rested hstep h

/-- Along a run, no step restarts a session. -/
def NeverRestarts (session : String) (b : Backend) (steps : List LaterStep) : Prop :=
  ∀ past step, past ++ [step] <+: steps → ¬ Restarts session (runLater b past) step

/-- A run without restarts keeps a session at rest. -/
theorem runLater_rested {steps : List LaterStep} (hsteps : NeverRestarts session b steps)
    (h : b.Rested session localPeerId) : (runLater b steps).Rested session localPeerId := by
  induction steps using List.reverseRecOn with
  | nil => exact h
  | append_singleton steps step ih =>
    have hpast : NeverRestarts session b steps := fun past step' hearlier =>
      hsteps past step' (hearlier.trans (List.prefix_append _ _))
    rw [runLater_append]
    exact LaterStep.after_rested (hsteps steps step List.prefix_rfl) (ih hpast)

end Steps

/-! ## The vote -/

/-- A state of a session plays. -/
def MusicState.Plays (session : String) (m : MusicState) : Prop :=
  ∃ state ∈ m.playbackState, state.sessionId = session ∧ state.playing = true

instance (session : String) (m : MusicState) : Decidable (m.Plays session) :=
  inferInstanceAs (Decidable (∃ _ ∈ _, _))

theorem MusicState.Rests.not_plays {session : String} {m : MusicState} (h : m.Rests session) :
    ¬ m.Plays session := by
  rintro ⟨state, hstate, hsession, hplaying⟩
  rw [h.stopped state hstate hsession] at hplaying
  cases hplaying

/-- A session is at rest, and a given operation is in progress. -/
structure Backend.LeftOver (session : String) (localPeerId : PeerId)
    (operation : BufferOperation) (b : Backend) : Prop where
  /-- The session is at rest. -/
  rested : b.Rested session localPeerId
  /-- The operation is in progress. -/
  active : b.buffer.active = some operation

section Vote

variable {session : String} {localPeerId : PeerId} {operation : BufferOperation}

/-- Publishing leaves both. -/
theorem Moves.leftOver {α : Type} {m : Handler α} (hm : Moves PublishOnly m) :
    Keeps (Backend.LeftOver session localPeerId operation) m := by
  intro b h
  have hagrees := hm.agrees b b (.refl b)
  exact ⟨hagrees.rested h.rested, by rw [hagrees.buffer]; exact h.active⟩

/-- What comes after the change of an execution starts from the changed state. -/
theorem finalState_executeOnPlayback_bind {α : Type} (proposal : VoteProposal) (actor : PeerId)
    (op : MusicOp) (f : Unit → Handler α) (b : Backend) :
    finalState (executeOnPlayback proposal actor op >>= f) b =
      finalState (f ()) ((b.recordExecution proposal actor op).changeMusic op) := rfl

/-- After a pause the voted session is at rest, and the operation is still in progress. -/
theorem pauseForVote_leftOver (env : Env) (proposal : VoteProposal) {b : Backend}
    (hvote : b.music.activeVote = none) (hactive : b.buffer.active = some operation) :
    (finalState (pauseForVote env proposal) b).LeftOver session b.localPeerId operation := by
  unfold pauseForVote
  rw [finalState_get_bind]
  dsimp only
  rw [finalState_executeOnPlayback_bind]
  have hpaused : ((b.recordExecution proposal (actorPeerId env proposal b.localPeerId)
      (.pausePlaybackForVote (actorPeerId env proposal b.localPeerId)
        proposal.createdAtMicros)).changeMusic (.pausePlaybackForVote
          (actorPeerId env proposal b.localPeerId) proposal.createdAtMicros)).LeftOver session
            b.localPeerId operation := by
    refine ⟨⟨⟨fun state hstate _ => ?_, ?_⟩, rfl⟩, hactive⟩
    · change state ∈ (b.music.pausePlaybackForVote _ _).2.playbackState at hstate
      rw [MusicState.pausePlaybackForVote_playbackState] at hstate
      obtain ⟨_, _, rfl⟩ := Option.map_eq_some_iff.1 hstate
      rfl
    · exact (MusicState.mapPlaybackState_activeVote _ _).trans hvote
  split
  · exact hpaused
  · exact Keeps.bind (haltPlayer_moves env _).leftOver
      (fun _ => (publishPlaybackStateIfLocalSource_moves env _).leftOver) _ hpaused

/-- So is it after a skip. -/
theorem executeSkip_leftOver (env : Env) (proposal : VoteProposal) {b : Backend}
    (hvote : b.music.activeVote = none) (hactive : b.buffer.active = some operation) :
    (finalState (executeSkip env proposal) b).LeftOver session b.localPeerId operation := by
  unfold executeSkip
  rw [finalState_get_bind]
  dsimp only
  rw [finalState_executeOnPlayback_bind]
  refine Keeps.bind (publishPlaybackStateIfLocalSource_moves env _).leftOver
    (fun _ => .ite (fun t ht => ?_) (.pure _)) _ ⟨⟨⟨fun state hstate _ => ?_, hvote⟩, rfl⟩, hactive⟩
  · have hbusy : t.buffer.isActive = true := by
      simp [BufferCoordinator.isActive, ht.active]
    rw [finalState_of_ok (startNextIfIdle_of_isActive hbusy env)]
    exact ht
  · cases hstate
    rfl

/-- After a pause or skip has passed the voted session is at rest, and the operation that was in
progress still is. -/
theorem resolveActiveVote_leftOver {env : Env} {proposal : VoteProposal} {b : Backend}
    (haction : proposal.action = .pause ∨ proposal.action = .skip)
    (hpassed : (b.music.resolveVote (majorityThreshold b.roomPeerCount) b.roomPeerCount).1 =
      some (.passed proposal))
    (hfits : b.music.staleVoteReason proposal = none)
    (hactive : b.buffer.active = some operation) :
    (finalState (resolveActiveVote env) b).LeftOver session b.localPeerId operation := by
  obtain ⟨hready, htaken⟩ := MusicState.resolveVote_eq_passed hpassed
  unfold resolveActiveVote
  rw [finalState_get_bind]
  dsimp only
  rw [hready]
  dsimp only
  rw [finalState_music_bind, hpassed]
  have hmusic : (b.changeMusic (.resolveVote (majorityThreshold b.roomPeerCount)
      b.roomPeerCount)).music = { b.music with activeVote := none } := htaken
  have hfits' : (b.changeMusic (.resolveVote (majorityThreshold b.roomPeerCount)
      b.roomPeerCount)).music.staleVoteReason proposal = none := by
    rw [hmusic]
    exact hfits
  have hvote : (b.changeMusic (.resolveVote (majorityThreshold b.roomPeerCount)
      b.roomPeerCount)).music.activeVote = none := by
    rw [hmusic]
  dsimp only
  unfold executePassedVote
  rw [finalState_get_bind, if_pos ⟨by rw [hfits']; rfl, by
    simp [MusicState.shouldExecuteVoteLocally, hfits']⟩]
  unfold executeVoteAction
  rcases haction with haction | haction
  · rw [haction]
    exact pauseForVote_leftOver env proposal hvote hactive
  · rw [haction]
    exact executeSkip_leftOver env proposal hvote hactive

end Vote

/-! ## Main result -/

/-- After a pause or skip has passed, the operation that was in progress still is; nothing
plays in the session as long as no step restarts it; and the decision on a seek or resume
operation of the session, whenever it comes, makes it play again. -/
theorem voted_session_rests_until_restart {env : Env} {proposal : VoteProposal} {b : Backend}
    {operation : BufferOperation}
    (haction : proposal.action = .pause ∨ proposal.action = .skip)
    (hpassed : (b.music.resolveVote (majorityThreshold b.roomPeerCount) b.roomPeerCount).1 =
      some (.passed proposal))
    (hfits : b.music.staleVoteReason proposal = none)
    (hactive : b.buffer.active = some operation) :
    let t := finalState (resolveActiveVote env) b
    let session := operation.state.sessionId
    t.buffer.active = some operation ∧
      (∀ steps, NeverRestarts session t steps →
        ∀ past, past <+: steps → ¬ (runLater t past).music.Plays session) ∧
      ∀ steps env, Decides session env (runLater t steps) →
        (∀ operation ∈ (runLater t steps).buffer.active, operation.kind ≠ .start) →
          (runLater t (steps ++ [.phase .buffer env])).music.Plays session := by
  intro t session
  have ht : t.LeftOver session b.localPeerId operation :=
    resolveActiveVote_leftOver haction hpassed hfits hactive
  refine ⟨ht.active, fun steps hsteps past hpast => ?_, fun steps env hdecides hkind => ?_⟩
  · have hquiet : NeverRestarts session t past := fun before step hearlier =>
      hsteps before step (hearlier.trans hpast)
    exact (runLater_rested hquiet ht.rested).rests.not_plays
  · rw [runLater_append]
    exact hdecides.starts hkind

/-- A pause proposed while the leader's seek is being prepared. -/
def pauseDuringSeek : VoteProposal where
  voteId := "vote"
  proposer := "peer"
  action := .pause
  queueVersion := 3
  playbackSessionId := some "leader:1000000:x:0"
  createdAtMicros := 2500000

/-- In a room of four the leader of the playback seeks in its own track, a pause is proposed and
gets two votes, and one peer leaves, so that two votes are enough. -/
def pausedDuringSeek : Backend :=
  (Backend.new "leader" ∅ false 0).run [
    .command (.plain 1000000) (.enqueueBilibili "x" 1),
    .connectionEstablished (.plain 1500000) "peer",
    .connectionEstablished (.plain 1500000) "third",
    .connectionEstablished (.plain 1500000) "fourth",
    .command (.plain 2000000) (.seek 5000),
    .wire (.plain 2500000) "peer" (.voteProposal pauseDuringSeek),
    .command (.plain 3000000) (.vote true),
    .connectionClosed (.plain 3500000) "fourth" 0]

/-- The seek operation that is in progress then. -/
def seekInProgress : BufferOperation :=
  pausedDuringSeek.buffer.active.get (by decide)

/-- Another peer reports that it is ready for the seek. -/
def readyForSeek : LaterStep :=
  .status (.plain 5000000) "leader:2000000:buffer:Seek" "leader:1000000:x:0" "third"
    ⟨.ready, none, none⟩

/-- The main result at the pause during the seek. -/
theorem voted_session_rests_until_restart_seek :
    let t := finalState (resolveActiveVote (.plain 4000000)) pausedDuringSeek
    let session := seekInProgress.state.sessionId
    t.buffer.active = some seekInProgress ∧
      (∀ steps, NeverRestarts session t steps →
        ∀ past, past <+: steps → ¬ (runLater t past).music.Plays session) ∧
      ∀ steps env, Decides session env (runLater t steps) →
        (∀ operation ∈ (runLater t steps).buffer.active, operation.kind ≠ .start) →
          (runLater t (steps ++ [.phase .buffer env])).music.Plays session :=
  have haction : pauseDuringSeek.action = .pause ∨ pauseDuringSeek.action = .skip := .inl rfl
  voted_session_rests_until_restart haction (by decide) (by decide) (Option.some_get _).symm

/-- One report on the older operation is enough to undo a passed pause. -/
theorem pause_undone_by_older_operation :
    ¬ ∀ (b : Backend), b.Reachable → ∀ (env : Env) (proposal : VoteProposal)
        (operation : BufferOperation),
      proposal.action = .pause ∨ proposal.action = .skip →
      (b.music.resolveVote (majorityThreshold b.roomPeerCount) b.roomPeerCount).1 =
        some (.passed proposal) →
      b.music.staleVoteReason proposal = none →
      b.buffer.active = some operation → operation.kind ≠ .start →
      operation.state.leaderPeerId = b.localPeerId →
      b.music.playbackState.map PlaybackState.sessionId = some operation.state.sessionId →
      (∀ steps, ¬ (runLater (finalState (resolveActiveVote env) b) steps).music.Plays
          operation.state.sessionId) ∧
        (proposal.action = .skip → ∀ leftOver ∈ (finalState (resolveActiveVote env)
          b).buffer.active, leftOver.state.sessionId ≠ operation.state.sessionId) := by
  intro h
  have hpause := h pausedDuringSeek ⟨"leader", ∅, false, 0, _, rfl⟩ (.plain 4000000)
    pauseDuringSeek seekInProgress (.inl rfl) (by decide) (by decide) (Option.some_get _).symm
    (by decide) (by decide) (by decide)
  refine hpause.1 [readyForSeek] ?_
  decide

end LightEar
