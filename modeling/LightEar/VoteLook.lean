import LightEar.Backend.Moves

/-!
# The look at the ballot box

The events of a run bring proposals and ballots (`Event.proposal`, `Event.ballot`), and some of
them make the backend look at its ballot box, that is, call `resolveActiveVote`.  A reaction that
looks is cut in two at that point: `Event.look` is the state in which it looks, and
`Backend.step_eq_byWayOfLook` puts the reaction together again.
-/

namespace LightEar

open Foundation

/-! ## Proposals and ballots -/

/-- The proposal with which the local peer puts an action to the vote. -/
def ownProposal (env : Env) (b : Backend) (action : VoteAction) : VoteProposal where
  voteId := env.newVoteId b.localPeerId (env.clock .propose)
  proposer := b.localPeerId
  action := action
  queueVersion := b.music.queueVersion
  playbackSessionId := b.music.playbackState.map PlaybackState.sessionId
  createdAtMicros := env.clock .propose

/-- The action that a command puts to the vote, if it does not act at once. -/
def NetworkCommand.voteAction (b : Backend) : NetworkCommand → Option VoteAction
  | pause => if b.music.hasTrack then some .pause else none
  | resume => if b.music.hasTrack then some .resume else none
  | skip => if b.music.hasTrack then some .skip else none
  | seek positionMs =>
    match b.music.playbackState with
    | none => none
    | some current =>
      if b.music.hasTrack = false then none
      else if canControlPlayback current b.localPeerId then none
      else some (.seek positionMs)
  | removeQueueItem index =>
    match queueItemAt b.music.queue index with
    | none => none
    | some item => if item.requestedBy = b.localPeerId then none else some (.remove item.itemId)
  | moveQueueItem source target =>
    (queueItemAt b.music.queue source).map fun item => .move item.itemId (target - 1)
  | enqueueBilibili _ _ | vote _ => none

/-- The proposal that an event brings: the local peer's own, or one that comes from its
proposer. -/
def Event.proposal (b : Backend) : Event → Option VoteProposal
  | command env request => (request.voteAction b).map (ownProposal env b)
  | wire env source (.voteProposal proposal) =>
    if peerFieldMatchesSource env proposal.proposer source ∧ proposal.proposer ≠ b.localPeerId then
      some proposal
    else none
  | _ => none

/-- The ballot that an event brings to a vote: the local peer's own, or one that comes from the
peer it names. -/
def Event.ballot (localPeerId : PeerId) (voteId : String) : Event → Option (PeerId × Bool)
  | command _ (.vote approve) => some (localPeerId, approve)
  | wire env source (.voteBallot id peerId approve) =>
    if id = voteId ∧ peerFieldMatchesSource env peerId source then some (peerId, approve) else none
  | _ => none

/-! ## The look at the ballot box -/

/-- The environment in which an event looks at the ballot box. -/
def Event.lookEnv : Event → Env
  | command env _ | musicSync env | wire env _ _ | connectionEstablished env _
  | connectionClosed env _ _ | slowPeer env _ => env
  | musicLocal env _ => env .vote

/-- Putting an action to the vote, up to the look. -/
def proposeBeforeLook (env : Env) (action : VoteAction) : Handler Bool := do
  let b ← get
  let proposal := ownProposal env b action
  if b.music.activeVote.isSome || (b.music.staleVoteReason proposal).isSome then
    return false
  else
    music (.startVote proposal (env.now + voteTimeout))
    publishRoomWire env (.voteProposal proposal)
    publishRoomWire env (.voteBallot proposal.voteId b.localPeerId true)
    return true

/-- The local peer's ballot, up to the look. -/
def castBeforeLook (env : Env) (approve : Bool) : Handler Bool := do
  let b ← get
  music (.castVote b.localPeerId approve)
  match (b.music.castVote b.localPeerId approve).1 with
  | some (.accepted voteId) =>
    publishRoomWire env (.voteBallot voteId b.localPeerId approve)
    return true
  | some (.duplicate _) => return false
  | none => return false

/-- A queue of another peer, up to the look. -/
def queueBeforeLook (state : QueueState) : Handler Bool := do
  let b ← get
  music (.applyRemoteQueueState state)
  return (b.music.applyRemoteQueueState state).1

/-- A message that has been checked, up to the look. -/
def wireBeforeLook (env : Env) : WireMessage → Handler Bool
  | .queueState state => queueBeforeLook state
  | .queueResponse target state => do
    let b ← get
    if target = b.localPeerId then
      queueBeforeLook state
    else
      return false
  | .voteBallot voteId peerId approve => do
    music (.castVoteFor voteId peerId approve)
    return true
  | message => do
    handleWireMessage env message
    return false

/-- A message, up to the look. -/
def applyBeforeLook (env : Env) (source : PeerId) (message : WireMessage) : Handler Bool :=
  match validateWireSource env message source with
  | .error _ => return false
  | .ok () => wireBeforeLook env message

/-- A local tick, up to the look. -/
def tickBeforeLook (env : TickPhase → Env) (events : List (Env × AudioPlayerEvent)) :
    Handler Bool := do
  let goesOn ← restoreAudioOutput (env .restore)
  if goesOn then
    drainPlayerEvents events
    music (.takeTimedOutVote (env .vote).now)
    return true
  else
    return false

/-- A command, up to the look. -/
def commandBeforeLook (env : Env) (command : NetworkCommand) : Handler Bool :=
  match command with
  | .vote approve => castBeforeLook env approve
  | command => do
    let b ← get
    match command.voteAction b with
    | some action => proposeBeforeLook env action
    | none =>
      handleCommand env command
      return false

/-- The reaction to an event up to the look at the ballot box; says whether it looks. -/
def beforeLook : Event → Handler Bool
  | .command env command => commandBeforeLook env command
  | .musicLocal env events => tickBeforeLook env events
  | .wire env source message => applyBeforeLook env source message
  | event => do
    react event
    return false

/-- What a local tick does after the look. -/
def tickAfterLook (env : TickPhase → Env) : Handler Unit := do
  attempt (maybeStartPendingPlayback (env .pending))
  attempt (resolveBufferOperation (env .buffer))
  attempt (startNextIfIdle (env .startNext))
  attempt (maybePauseForBufferHealthLoss (env .health))
  followPlayback (env .follow)

/-- The reaction to an event after the look. -/
def afterLook : Event → Handler Unit
  | .musicLocal env _ => tickAfterLook env
  | _ => return

/-- The state in which an event looks at the ballot box, if it does. -/
def Event.look (b : Backend) (event : Event) : Option Backend :=
  match beforeLook event b with
  | .ok true t => some t
  | .ok false _ | .error _ _ => none

/-- A program with a look at its end. -/
def endWithLook (env : Env) (m : Handler Bool) : Handler Unit := do
  let looks ← m
  if looks then
    attempt (resolveActiveVote env)

section EndWithLook

variable {α : Type}

/-- A look at the end of a sequence is one at the end of its second half. -/
@[simp] theorem endWithLook_bind (env : Env) (m : Handler α) (f : α → Handler Bool) :
    endWithLook env (m >>= f) = m >>= fun a => endWithLook env (f a) :=
  bind_assoc ..

@[simp] theorem endWithLook_ite (env : Env) (c : Prop) [Decidable c] (m m' : Handler Bool) :
    endWithLook env (if c then m else m') =
      if c then endWithLook env m else endWithLook env m' :=
  apply_ite ..

@[simp] theorem endWithLook_true (env : Env) :
    endWithLook env (pure true) = attempt (resolveActiveVote env) := rfl

@[simp] theorem endWithLook_false (env : Env) : endWithLook env (pure false) = pure () := rfl

/-- Two programs that start in the same way end in the same state if what follows does. -/
theorem finalState_bind_congr {β γ : Type} {m : Handler α} {f : α → Handler β}
    {g : α → Handler γ} (h : ∀ a t, finalState (f a) t = finalState (g a) t) (b : Backend) :
    finalState (m >>= f) b = finalState (m >>= g) b := by
  rw [finalState_bind, finalState_bind]
  cases m b with
  | ok a t => exact h a t
  | error error t => rfl

/-- A result of its own makes no further change. -/
theorem finalState_bind_pure (m : Handler Unit) (a : α) (b : Backend) :
    finalState (m >>= fun _ => pure a) b = finalState m b := by
  rw [finalState_bind]
  unfold finalState
  cases m b <;> rfl

/-- So do two programs that branch in the same way. -/
theorem finalState_ite_congr {β : Type} {c : Prop} [Decidable c] {m m' : Handler α}
    {n n' : Handler β} {b : Backend} (h : finalState m b = finalState n b)
    (h' : finalState m' b = finalState n' b) :
    finalState (if c then m else m') b = finalState (if c then n else n') b := by
  split
  · exact h
  · exact h'

end EndWithLook

/-- Putting an action to the vote ends with a look. -/
theorem finalState_proposeOrExecuteVote (env : Env) (action : VoteAction) (b : Backend) :
    finalState (proposeOrExecuteVote env action) b =
      finalState (endWithLook env (proposeBeforeLook env action)) b := by
  unfold proposeBeforeLook proposeOrExecuteVote
  simp only [endWithLook_bind, endWithLook_ite, endWithLook_true, endWithLook_false]
  refine finalState_bind_congr (fun b t => finalState_ite_congr rfl ?_) b
  refine finalState_bind_congr (fun _ t => ?_) t
  refine finalState_bind_congr (fun _ t => ?_) t
  exact finalState_bind_congr (fun _ t => (finalState_attempt _ t).symm) t

/-- So does a ballot of the local peer. -/
theorem finalState_castVote (env : Env) (approve : Bool) (b : Backend) :
    finalState (castVote env approve) b =
      finalState (endWithLook env (castBeforeLook env approve)) b := by
  unfold castBeforeLook castVote
  rw [endWithLook_bind]
  refine finalState_bind_congr (fun b t => ?_) b
  rw [endWithLook_bind]
  refine finalState_bind_congr (fun _ t => ?_) t
  cases (b.music.castVote b.localPeerId approve).1 with
  | none => rfl
  | some outcome =>
    cases outcome with
    | duplicate voteId => rfl
    | accepted voteId =>
      dsimp only
      rw [endWithLook_bind, endWithLook_true]
      exact finalState_bind_congr (fun _ t => (finalState_attempt _ t).symm) t

/-- So does a message that has been checked. -/
theorem finalState_handleWireMessage (env : Env) (message : WireMessage) (b : Backend) :
    finalState (handleWireMessage env message) b =
      finalState (endWithLook env (wireBeforeLook env message)) b := by
  have hqueue : ∀ state t, finalState (handleQueueState env state) t =
      finalState (endWithLook env (queueBeforeLook state)) t := by
    intro state t
    unfold queueBeforeLook handleQueueState
    rw [endWithLook_bind]
    refine finalState_bind_congr (fun b t => ?_) t
    rw [endWithLook_bind]
    refine finalState_bind_congr (fun _ t => ?_) t
    cases (b.music.applyRemoteQueueState state).1 <;> rfl
  cases message with
  | queueState state => exact hqueue state b
  | queueResponse target state =>
    unfold handleWireMessage wireBeforeLook
    rw [endWithLook_bind]
    refine finalState_bind_congr (fun b t => ?_) b
    rw [endWithLook_ite]
    exact finalState_ite_congr (hqueue state t) rfl
  | voteBallot voteId peerId approve =>
    unfold handleWireMessage wireBeforeLook handleVoteBallot
    rw [endWithLook_bind, endWithLook_true]
  | _ =>
    unfold wireBeforeLook
    rw [endWithLook_bind, endWithLook_false]
    exact (finalState_bind_pure _ _ b).symm

/-- A command that puts an action on the current track to the vote does nothing else. -/
theorem votePlayback_of_voteAction {env : Env} {asked action : VoteAction} {b : Backend}
    (h : (if b.music.hasTrack then some asked else none) = some action) :
    finalState (votePlayback env asked) b = finalState (proposeOrExecuteVote env action) b := by
  unfold votePlayback
  rw [finalState_get_bind]
  split at h
  · rename_i htrack
    cases h
    rw [if_pos htrack]
  · cases h

/-- A command that puts an action to the vote does nothing else. -/
theorem handleCommand_of_voteAction {env : Env} {request : NetworkCommand} {b : Backend}
    {action : VoteAction} (h : request.voteAction b = some action) :
    finalState (handleCommand env request) b =
      finalState (proposeOrExecuteVote env action) b := by
  cases request with
  | pause => exact votePlayback_of_voteAction h
  | resume => exact votePlayback_of_voteAction h
  | skip => exact votePlayback_of_voteAction h
  | enqueueBilibili bvid part => cases h
  | vote approve => cases h
  | seek positionMs =>
    unfold handleCommand seek
    rw [finalState_get_bind]
    dsimp only [NetworkCommand.voteAction] at h
    cases hstate : b.music.playbackState with
    | none => rw [hstate] at h; cases h
    | some current =>
      rw [hstate] at h
      dsimp only at h ⊢
      split_ifs at h with htrack hown
      cases h
      rw [if_neg htrack, if_neg hown]
  | removeQueueItem index =>
    unfold handleCommand removeQueueItem
    rw [finalState_get_bind]
    dsimp only [NetworkCommand.voteAction] at h
    cases hitem : queueItemAt b.music.queue index with
    | none => rw [hitem] at h; cases h
    | some item =>
      rw [hitem] at h
      dsimp only at h ⊢
      split_ifs at h with hown
      cases h
      rw [if_neg hown]
  | moveQueueItem source target =>
    unfold handleCommand moveQueueItem
    rw [finalState_get_bind]
    dsimp only [NetworkCommand.voteAction] at h
    cases hitem : queueItemAt b.music.queue source with
    | none => rw [hitem] at h; cases h
    | some item => rw [hitem] at h; cases h; rfl

/-- So does a command. -/
theorem finalState_handleCommand (env : Env) (request : NetworkCommand) (b : Backend) :
    finalState (handleCommand env request) b =
      finalState (endWithLook env (commandBeforeLook env request)) b := by
  unfold commandBeforeLook
  split
  · exact finalState_castVote env _ b
  · rw [endWithLook_bind, finalState_get_bind]
    cases haction : request.voteAction b with
    | none =>
      dsimp only
      rw [endWithLook_bind, endWithLook_false]
      exact (finalState_bind_pure _ _ b).symm
    | some action =>
      exact (handleCommand_of_voteAction haction).trans
        (finalState_proposeOrExecuteVote env action b)

/-- The state after an event by way of the look: from the state of the look, what the look brings
and what comes after it. -/
def Event.byWayOfLook (b : Backend) (event : Event) : Backend :=
  match event.look b with
  | some t => finalState (afterLook event) (finalState (resolveActiveVote event.lookEnv) t)
  | none => finalState (beforeLook event) b

/-- By way of the look, an event is one program: what comes before the look and, if it looks, the
look and what comes after it. -/
theorem Event.byWayOfLook_eq (b : Backend) (event : Event) :
    event.byWayOfLook b = finalState (do
      let looks ← beforeLook event
      if looks then
        attempt (resolveActiveVote event.lookEnv)
        afterLook event) b := by
  rw [finalState_bind]
  unfold Event.byWayOfLook Event.look
  cases hbefore : beforeLook event b with
  | error error t => exact finalState_of_error hbefore
  | ok looks t =>
    cases looks with
    | false => exact finalState_of_ok hbefore
    | true =>
      dsimp only
      rw [if_pos rfl]
      exact (finalState_attempt_bind (resolveActiveVote event.lookEnv)
        (fun _ => afterLook event) t).symm

/-- An event whose reaction ends with the look. -/
theorem Event.byWayOfLook_of_endWithLook {event : Event} {b : Backend}
    (hafter : afterLook event = pure ()) :
    event.byWayOfLook b = finalState (endWithLook event.lookEnv (beforeLook event)) b := by
  rw [byWayOfLook_eq, hafter]
  exact finalState_bind_congr
    (fun _ t => finalState_ite_congr (finalState_bind_pure _ _ t) rfl) b

/-- An event whose reaction does not look. -/
theorem Event.byWayOfLook_of_react {event : Event} {b : Backend}
    (hbefore : beforeLook event = (react event >>= fun _ => pure false))
    (hafter : afterLook event = pure ()) : event.byWayOfLook b = b.step event := by
  rw [byWayOfLook_of_endWithLook hafter, hbefore, endWithLook_bind, endWithLook_false]
  exact finalState_bind_pure _ _ b

/-- A local tick goes on after the look. -/
theorem musicLocalTick_eq (env : TickPhase → Env) (events : List (Env × AudioPlayerEvent)) :
    musicLocalTick env events = (do
      let looks ← tickBeforeLook env events
      if looks then
        attempt (resolveActiveVote (env .vote))
        tickAfterLook env) := by
  unfold musicLocalTick tickBeforeLook
  rw [bind_assoc]
  refine bind_congr fun goesOn => ?_
  cases goesOn with
  | false => rfl
  | true =>
    simp only [if_true, bind_assoc, pure_bind]
    rfl

/-- A reaction is put together again at the look. -/
theorem Backend.step_eq_byWayOfLook (b : Backend) (event : Event) :
    b.step event = event.byWayOfLook b := by
  cases event with
  | musicSync env => exact (Event.byWayOfLook_of_react rfl rfl).symm
  | connectionEstablished env peerId => exact (Event.byWayOfLook_of_react rfl rfl).symm
  | connectionClosed env peerId num => exact (Event.byWayOfLook_of_react rfl rfl).symm
  | slowPeer env peerId => exact (Event.byWayOfLook_of_react rfl rfl).symm
  | musicLocal env events =>
    rw [Event.byWayOfLook_eq]
    change finalState (musicLocalTick env events) b = _
    rw [musicLocalTick_eq]
    rfl
  | command env request =>
    rw [Event.byWayOfLook_of_endWithLook rfl]
    exact finalState_handleCommand env request b
  | wire env source message =>
    rw [Event.byWayOfLook_of_endWithLook rfl]
    change finalState (applyWireMessage env source message) b =
      finalState (endWithLook env (applyBeforeLook env source message)) b
    unfold applyWireMessage applyBeforeLook
    cases validateWireSource env message source with
    | error error => rfl
    | ok _ => exact finalState_handleWireMessage env message b

/-- An event that looks goes on from the state of the look. -/
theorem Backend.step_of_look {b t : Backend} {event : Event} (h : event.look b = some t) :
    b.step event = finalState (afterLook event)
      (finalState (resolveActiveVote event.lookEnv) t) := by
  rw [Backend.step_eq_byWayOfLook]
  unfold Event.byWayOfLook
  rw [h]

/-- An event that does not look ends where it would have looked. -/
theorem Backend.step_of_no_look {b : Backend} {event : Event} (h : event.look b = none) :
    b.step event = finalState (beforeLook event) b := by
  rw [Backend.step_eq_byWayOfLook]
  unfold Event.byWayOfLook
  rw [h]

/-! ## What a look does -/

/-- The backend after its ballot box has been looked at: a decided vote is taken out. -/
def Backend.resolved (t : Backend) : Backend :=
  t.changeMusic (.resolveVote (majorityThreshold t.roomPeerCount) t.roomPeerCount)

/-- What a look does in each case. -/
theorem resolveActiveVote_apply (env : Env) (t : Backend) :
    resolveActiveVote env t =
      match t.music.readyVoteWaitingForQueue (majorityThreshold t.roomPeerCount) with
      | some proposal => requestQueueForVoteContext env proposal t
      | none =>
        match (t.music.resolveVote (majorityThreshold t.roomPeerCount) t.roomPeerCount).1 with
        | some (.passed proposal) => executePassedVote env proposal t.resolved
        | some (.rejected _) | none => .ok () t.resolved := by
  change (match t.music.readyVoteWaitingForQueue (majorityThreshold t.roomPeerCount) with
    | some proposal => requestQueueForVoteContext env proposal
    | none => do
      music (.resolveVote (majorityThreshold t.roomPeerCount) t.roomPeerCount)
      match (t.music.resolveVote (majorityThreshold t.roomPeerCount) t.roomPeerCount).1 with
      | some (.passed proposal) => executePassedVote env proposal
      | some (.rejected _) => return
      | none => return : Handler Unit) t = _
  cases t.music.readyVoteWaitingForQueue (majorityThreshold t.roomPeerCount) with
  | some proposal => rfl
  | none =>
    cases (t.music.resolveVote (majorityThreshold t.roomPeerCount) t.roomPeerCount).1 with
    | none => rfl
    | some resolution => cases resolution <;> rfl

/-- Executing a passed vote, in the state in which it has been taken out. -/
theorem executePassedVote_apply (env : Env) (proposal : VoteProposal) (t : Backend) :
    executePassedVote env proposal t =
      if (t.music.staleVoteReason proposal).isNone ∧
          t.music.shouldExecuteVoteLocally proposal t.localPeerId then
        executeVoteAction env proposal t
      else .ok () t := by
  change (if (t.music.staleVoteReason proposal).isNone ∧
      t.music.shouldExecuteVoteLocally proposal t.localPeerId then
    executeVoteAction env proposal else pure () : Handler Unit) t = _
  split_ifs <;> rfl

end LightEar
