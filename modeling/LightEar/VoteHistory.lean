import LightEar.Foundation.History
import LightEar.Foundation.Tally
import LightEar.VoteLook

/-!
# The history of a ballot box

Only a proposal opens a ballot box and only a ballot is put into it: every other change of the
backend keeps the box or drops it.  `BoxStep` says once what an event can do to the box.  It
follows that the box of an open vote is the tally of the ballots that have come since the event
that brought its proposal, with the proposer as the first to say yes (`BallotsSince`).
-/

namespace LightEar

open Foundation

/-! ## Changes other than proposals and ballots -/

/-- Everything but proposals and ballots. -/
def Deeds : Policy
  | _, .music op => op.isBallot = false
  | _, _ => True

instance : AllowsOrdinary Deeds where
  ordinary _ op h := by
    cases op with
    | startVote => cases h
    | receiveVoteProposal => cases h
    | castVote => cases h
    | castVoteFor => cases h
    | _ => rfl

instance : AllowsFeed Deeds where
  feed _ op h := by
    cases op with
    | appendQueueItem => rfl
    | applyRemoteQueueState => rfl
    | _ => cases h

instance : AllowsUpkeep Deeds := ⟨fun _ _ _ => trivial⟩
instance : AllowsPublish Deeds := ⟨fun _ _ _ => trivial⟩
instance : AllowsSettle Deeds := ⟨fun _ _ _ _ => trivial⟩
instance : AllowsAside Deeds := ⟨fun _ => trivial⟩
instance : AllowsOwn Deeds := ⟨fun _ _ _ _ _ _ _ => trivial⟩
instance : AllowsAdopt Deeds := ⟨fun _ _ _ _ _ _ _ _ _ _ _ _ => trivial⟩
instance : AllowsExecute Deeds := ⟨fun _ _ _ _ _ => trivial⟩
instance : AllowsTick Deeds where
instance : AllowsDeeds Deeds where

/-- A program without proposals and ballots keeps the box or drops it. -/
theorem Moves.box_of_deeds {α : Type} {m : Handler α} (hm : Moves Deeds m) (b : Backend) :
    KeptOrDropped b.music.activeVote (finalState m b).music.activeVote := by
  refine hm.preserves (I := fun t => KeptOrDropped b.music.activeVote t.music.activeVote) ?_
    (.inl rfl)
  rintro s t ⟨action, hP, hdoes⟩ hs
  cases action with
  | music op =>
    cases hdoes
    exact hs.trans (MusicOp.box_of_not_isBallot hP s.music)
  | coordinate op => cases hdoes; exact hs
  | publish message outcome => cases hdoes; exact hs
  | settle operation state => cases hdoes; exact hs
  | execute proposal actor op => cases hdoes; exact hs
  | aside => rwa [hdoes.music]

/-! ## What an event does to the box -/

/-- The box of a vote that has just been opened: the proposer has said yes. -/
def ActiveVote.opened (proposal : VoteProposal) (deadline : Instant) : ActiveVote :=
  ((ActiveVote.new proposal deadline).vote proposal.proposer true).2

/-- What an event does to the ballot box: if there is none, it opens one for the proposal it
brings; it puts in the ballot it brings; it leaves the box alone, if it brings no ballot for it;
or it drops the box. -/
inductive BoxStep (b : Backend) (event : Event) : Option ActiveVote → Prop
  | opened {proposal : VoteProposal} {deadline : Instant} :
    event.proposal b = some proposal → b.music.activeVote = none →
      BoxStep b event (some (.opened proposal deadline))
  | cast {vote : ActiveVote} {peerId : PeerId} {approve : Bool} :
    b.music.activeVote = some vote →
      event.ballot b.localPeerId vote.proposal.voteId = some (peerId, approve) →
        BoxStep b event (some (vote.vote peerId approve).2)
  | kept {vote : ActiveVote} :
    b.music.activeVote = some vote → event.ballot b.localPeerId vote.proposal.voteId = none →
      BoxStep b event (some vote)
  | dropped : BoxStep b event none

namespace BoxStep

variable {b : Backend} {event : Event} {box box' : Option ActiveVote}

/-- The box may be dropped afterwards. -/
theorem later (h : BoxStep b event box) (hlater : KeptOrDropped box box') :
    BoxStep b event box' := by
  rcases hlater with rfl | rfl
  · exact h
  · exact .dropped

/-- An event that brings no ballot leaves the box alone or drops it. -/
theorem of_no_ballot (h : ∀ voteId, event.ballot b.localPeerId voteId = none)
    (hbox : KeptOrDropped b.music.activeVote box) : BoxStep b event box := by
  refine later ?_ hbox
  cases hvote : b.music.activeVote with
  | none => exact .dropped
  | some vote => exact .kept hvote (h _)

end BoxStep

/-- Putting an action to the vote, up to the look, opens a box or changes nothing. -/
theorem proposeBeforeLook_box {env : Env} {request : NetworkCommand} {b : Backend}
    {action : VoteAction} (h : request.voteAction b = some action)
    (hballot : ∀ voteId, (Event.command env request).ballot b.localPeerId voteId = none) :
    BoxStep b (.command env request)
      (finalState (proposeBeforeLook env action) b).music.activeVote := by
  unfold proposeBeforeLook
  rw [finalState_get_bind]
  dsimp only
  split
  · exact .of_no_ballot hballot (.inl rfl)
  · rename_i hopens
    have hnone : b.music.activeVote = none := by
      cases hvote : b.music.activeVote with
      | none => rfl
      | some vote => simp [hvote] at hopens
    have hopened : BoxStep b (.command env request)
        (some (.opened (ownProposal env b action) (env.now + voteTimeout))) :=
      .opened (congrArg (Option.map (ownProposal env b)) h) hnone
    rw [finalState_music_bind]
    refine hopened.later ?_
    exact Moves.box_of_deeds (.bind (publishRoomWire_moves env _) fun _ =>
      .bind (publishRoomWire_moves env _) fun _ => .pure _) _

/-- A ballot of the local peer goes into the box. -/
theorem castBeforeLook_box (env : Env) (approve : Bool) (b : Backend) :
    BoxStep b (.command env (.vote approve))
      (finalState (castBeforeLook env approve) b).music.activeVote := by
  unfold castBeforeLook
  rw [finalState_get_bind, finalState_music_bind]
  refine BoxStep.later ?_ (Moves.box_of_deeds ?_ _)
  · change BoxStep b _ (b.music.castVote b.localPeerId approve).2.activeVote
    unfold MusicState.castVote
    cases hvote : b.music.activeVote with
    | none =>
      dsimp only
      rw [hvote]
      exact .dropped
    | some vote => exact .cast hvote rfl
  · split
    · exact .bind (publishRoomWire_moves env _) fun _ => .pure _
    · exact .pure _
    · exact .pure _

/-- A command that puts nothing to the vote and is no ballot keeps the box or drops it. -/
theorem handleCommand_box {env : Env} {request : NetworkCommand} {b : Backend}
    (h : request.voteAction b = none) (hvote : ∀ approve, request ≠ .vote approve) :
    KeptOrDropped b.music.activeVote
      (finalState (handleCommand env request) b).music.activeVote := by
  have hsame : KeptOrDropped b.music.activeVote b.music.activeVote := .inl rfl
  have hidle : ∀ action, ¬ b.music.hasTrack → KeptOrDropped b.music.activeVote
      (finalState (votePlayback env action) b).music.activeVote := by
    intro action htrack
    unfold votePlayback
    rw [finalState_get_bind, if_neg htrack]
    exact hsame
  cases request with
  | enqueueBilibili bvid part => exact Moves.box_of_deeds (enqueueBilibili_moves env bvid part) b
  | vote approve => exact absurd rfl (hvote approve)
  | pause => exact hidle _ fun htrack => by simp [NetworkCommand.voteAction, htrack] at h
  | resume => exact hidle _ fun htrack => by simp [NetworkCommand.voteAction, htrack] at h
  | skip => exact hidle _ fun htrack => by simp [NetworkCommand.voteAction, htrack] at h
  | seek positionMs =>
    unfold handleCommand seek
    rw [finalState_get_bind]
    dsimp only [NetworkCommand.voteAction] at h
    split
    · exact hsame
    · rename_i current hcurrent
      rw [hcurrent] at h
      dsimp only at h
      split_ifs at h with htrack hown
      · rw [if_pos htrack]
        exact hsame
      · rw [if_neg htrack, if_pos hown]
        exact Moves.box_of_deeds (seekOwn_moves env current positionMs) b
  | removeQueueItem index =>
    unfold handleCommand removeQueueItem
    rw [finalState_get_bind]
    dsimp only [NetworkCommand.voteAction] at h
    split
    · exact hsame
    · rename_i item hitem
      rw [hitem] at h
      dsimp only at h
      split_ifs at h with hown
      rw [if_pos hown]
      exact Moves.box_of_deeds (.bind (ordinary_moves rfl) fun _ => publishQueueState_moves env) b
  | moveQueueItem source target =>
    unfold handleCommand moveQueueItem
    rw [finalState_get_bind]
    rw [Option.map_eq_none_iff.1 h]
    exact hsame

/-- A command, up to the look, does nothing else to the box. -/
theorem commandBeforeLook_box (env : Env) (request : NetworkCommand) (b : Backend) :
    BoxStep b (.command env request)
      (finalState (commandBeforeLook env request) b).music.activeVote := by
  unfold commandBeforeLook
  split
  · exact castBeforeLook_box env _ b
  · rename_i hvote
    have hballot : ∀ voteId, (Event.command env request).ballot b.localPeerId voteId = none := by
      intro voteId
      cases request with
      | vote approve => exact absurd rfl (hvote approve)
      | _ => rfl
    rw [finalState_get_bind]
    cases haction : request.voteAction b with
    | some action => exact proposeBeforeLook_box haction hballot
    | none =>
      dsimp only
      rw [finalState_bind_pure]
      exact .of_no_ballot hballot (handleCommand_box haction hvote)

/-- A message is checked against the field that has to name its source. -/
theorem validateWireSource_eq_ok {env : Env} {message : WireMessage} {source : PeerId}
    (h : validateWireSource env message source = .ok ()) :
    peerFieldMatchesSource env message.sourceField.1 source = true := by
  unfold validateWireSource at h
  split_ifs at h with hmatches
  exact hmatches

/-- A message that does not come from the peer it names brings no ballot. -/
theorem Event.ballot_of_error {env : Env} {message : WireMessage} {source : PeerId}
    {error : String} (h : validateWireSource env message source = .error error)
    (localPeerId : PeerId) (voteId : String) :
    (Event.wire env source message).ballot localPeerId voteId = none := by
  cases message with
  | voteBallot id peerId approve =>
    unfold validateWireSource at h
    split_ifs at h with hmatches
    exact if_neg fun hboth => hmatches hboth.2
  | _ => rfl

/-- A proposal of another peer opens a box or changes nothing. -/
theorem handleVoteProposal_box {env : Env} {source : PeerId} {proposal : VoteProposal}
    (h : peerFieldMatchesSource env proposal.proposer source = true) (b : Backend) :
    BoxStep b (.wire env source (.voteProposal proposal))
      (finalState (handleVoteProposal env proposal) b).music.activeVote := by
  have hsame : BoxStep b (.wire env source (.voteProposal proposal)) b.music.activeVote :=
    .of_no_ballot (fun _ => rfl) (.inl rfl)
  unfold handleVoteProposal
  rw [finalState_get_bind]
  split
  · exact hsame
  · rename_i hother
    cases hreceived : b.music.receiveVoteProposal proposal (env.now + voteTimeout) with
    | error reason => exact hsame
    | ok m =>
      dsimp only
      rw [finalState_music_bind]
      refine BoxStep.later ?_ (Moves.box_of_deeds (requestQueueForVoteContext_moves env _) _)
      have hmusic : (b.changeMusic (.receiveVoteProposal proposal
          (env.now + voteTimeout))).music = m := by
        simp only [Backend.changeMusic, MusicOp.apply, hreceived]
      rw [hmusic]
      unfold MusicState.receiveVoteProposal at hreceived
      split_ifs at hreceived with hactive
      split at hreceived
      · cases hreceived
      · cases hreceived
        exact .opened (if_pos ⟨h, hother⟩) (by simpa using hactive)

/-- A ballot of another peer goes into the box of the vote it names. -/
theorem castVoteFor_box {env : Env} {source : PeerId} {voteId : String} {peerId : PeerId}
    {approve : Bool} (h : peerFieldMatchesSource env peerId source = true) (b : Backend) :
    BoxStep b (.wire env source (.voteBallot voteId peerId approve))
      (b.music.castVoteFor voteId peerId approve).2.activeVote := by
  unfold MusicState.castVoteFor
  cases hvote : b.music.activeVote with
  | none =>
    dsimp only
    rw [hvote]
    exact .dropped
  | some vote =>
    dsimp only
    split
    · rename_i hid
      rw [hvote]
      exact .kept hvote (if_neg fun hboth => hid hboth.1.symm)
    · rename_i hid
      exact .cast hvote (if_pos ⟨(not_not.1 hid).symm, h⟩)

/-- A message, up to the look, does nothing else to the box. -/
theorem applyBeforeLook_box (env : Env) (source : PeerId) (message : WireMessage) (b : Backend) :
    BoxStep b (.wire env source message)
      (finalState (applyBeforeLook env source message) b).music.activeVote := by
  unfold applyBeforeLook
  cases hvalid : validateWireSource env message source with
  | error error => exact .of_no_ballot (Event.ballot_of_error hvalid _) (.inl rfl)
  | ok _ =>
    have hmatches := validateWireSource_eq_ok hvalid
    have hqueue : ∀ state, Moves Deeds (queueBeforeLook state) := fun state =>
      .get_bind fun _ => .bind (feed_moves rfl) fun _ => .pure _
    cases message with
    | voteProposal proposal =>
      change BoxStep b _ (finalState (handleVoteProposal env proposal >>= fun _ => pure false)
        b).music.activeVote
      rw [finalState_bind_pure]
      exact handleVoteProposal_box hmatches b
    | voteBallot voteId peerId approve => exact castVoteFor_box hmatches b
    | queueState state => exact .of_no_ballot (fun _ => rfl) ((hqueue state).box_of_deeds b)
    | queueResponse target state =>
      exact .of_no_ballot (fun _ => rfl) (Moves.box_of_deeds
        (.get_bind fun _ => .ite (hqueue state) (.pure _)) b)
    | _ =>
      exact .of_no_ballot (fun _ => rfl) (Moves.box_of_deeds
        (.bind (handleWireMessage_deeds env rfl) fun _ => .pure _) b)

/-- An event, up to the look, takes one step at the box. -/
theorem beforeLook_box (event : Event) (b : Backend) :
    BoxStep b event (finalState (beforeLook event) b).music.activeVote := by
  have hplain : ∀ event : Event, beforeLook event = (react event >>= fun _ => pure false) →
      (∀ voteId, event.ballot b.localPeerId voteId = none) → Moves Deeds (react event) →
      BoxStep b event (finalState (beforeLook event) b).music.activeVote := by
    intro event hbefore hballot hdeeds
    rw [hbefore, finalState_bind_pure]
    exact .of_no_ballot hballot (hdeeds.box_of_deeds b)
  cases event with
  | command env request => exact commandBeforeLook_box env request b
  | wire env source message => exact applyBeforeLook_box env source message b
  | musicSync env => exact hplain _ rfl (fun _ => rfl) (musicSyncTick_moves env)
  | connectionEstablished env peerId =>
    exact hplain _ rfl (fun _ => rfl) (handleConnectionEstablished_moves env peerId)
  | connectionClosed env peerId num =>
    exact hplain _ rfl (fun _ => rfl) (handleConnectionClosed_moves env peerId num)
  | slowPeer env peerId =>
    exact hplain _ rfl (fun _ => rfl) (removeFromBufferQuorum_moves env peerId)
  | musicLocal env events =>
    refine .of_no_ballot (fun _ => rfl) (Moves.box_of_deeds (m := tickBeforeLook env events) ?_ b)
    refine .bind (restoreAudioOutput_moves _) fun goesOn => .ite ?_ (.pure _)
    exact .bind (drainPlayerEvents_moves events) fun _ =>
      .bind (ordinary_moves rfl) fun _ => .pure _

/-- The look and what comes after it keep the box or drop it. -/
theorem afterLook_moves (event : Event) : Moves Deeds (afterLook event) := by
  cases event with
  | musicLocal env events => exact tickAttempts_moves env (followPlayback_moves _)
  | _ => exact .pure _

/-- An event takes one step at the box up to the look. -/
theorem Event.look_box {b t : Backend} {event : Event} (h : event.look b = some t) :
    BoxStep b event t.music.activeVote := by
  have hbox := beforeLook_box event b
  unfold look at h
  split at h
  · rename_i hbefore
    cases h
    rwa [finalState_of_ok hbefore] at hbox
  · cases h
  · cases h

/-- An event takes one step at the box. -/
theorem Backend.step_box (b : Backend) (event : Event) :
    BoxStep b event (b.step event).music.activeVote := by
  cases hlook : event.look b with
  | none =>
    rw [Backend.step_of_no_look hlook]
    exact beforeLook_box event b
  | some t =>
    rw [Backend.step_of_look hlook]
    refine (Event.look_box hlook).later (KeptOrDropped.trans ?_
      ((afterLook_moves event).box_of_deeds _))
    exact (resolveActiveVote_moves event.lookEnv).box_of_deeds t

/-! ## The tally -/

/-- The ballots that events bring to a vote. -/
def ballotsFor (localPeerId : PeerId) (voteId : String) (events : List Event) :
    List (PeerId × Bool) :=
  events.filterMap (Event.ballot localPeerId voteId)

/-- What has been said on a proposal: the proposer's yes, and the ballots that came later. -/
def saidOn (localPeerId : PeerId) (proposal : VoteProposal) (later : List Event) :
    List (PeerId × Bool) :=
  (proposal.proposer, true) :: ballotsFor localPeerId proposal.voteId later

/-- The box holds what each peer has said first. -/
structure Tallied (said : List (PeerId × Bool)) (vote : ActiveVote) : Prop where
  /-- The approvals are those who said yes first. -/
  approvals : vote.approvals = sayers said true
  /-- The rejections are those who said no first. -/
  rejections : vote.rejections = sayers said false

namespace Tallied

variable {said : List (PeerId × Bool)} {vote : ActiveVote}

/-- Whoever has been heard is in the box. -/
theorem mem_iff (h : Tallied said vote) (peerId : PeerId) :
    peerId ∈ vote.approvals ∨ peerId ∈ vote.rejections ↔ peerId ∈ said.map Prod.fst := by
  rw [h.approvals, h.rejections, mem_sayers, mem_sayers, ← lookup_isSome_iff_mem]
  cases said.lookup peerId with
  | none => simp
  | some word => cases word <;> simp

/-- A ballot goes into the box as the next word. -/
theorem cast (h : Tallied said vote) (peerId : PeerId) (approve : Bool) :
    Tallied (said ++ [(peerId, approve)]) (vote.vote peerId approve).2 := by
  unfold ActiveVote.vote
  split
  · rename_i hvoted
    have hheard := (h.mem_iff peerId).1 hvoted
    exact ⟨h.approvals.trans (sayers_concat_of_heard hheard _ _).symm,
      h.rejections.trans (sayers_concat_of_heard hheard _ _).symm⟩
  · rename_i hnotVoted
    have hnew := mt (h.mem_iff peerId).2 hnotVoted
    cases approve with
    | true =>
      refine ⟨?_, h.rejections.trans (sayers_concat_of_ne (by decide) _).symm⟩
      exact (congrArg (insert peerId) h.approvals).trans (sayers_concat_of_new hnew true).symm
    | false =>
      refine ⟨h.approvals.trans (sayers_concat_of_ne (by decide) _).symm, ?_⟩
      exact (congrArg (insert peerId) h.rejections).trans (sayers_concat_of_new hnew false).symm

/-- A box that has just been opened holds the proposer's yes. -/
theorem opened (proposal : VoteProposal) (deadline : Instant) :
    Tallied [(proposal.proposer, true)] (.opened proposal deadline) := by
  have hempty : Tallied [] (.new proposal deadline) := ⟨rfl, rfl⟩
  exact hempty.cast proposal.proposer true

/-- No peer counts on both sides. -/
theorem disjoint (h : Tallied said vote) : Disjoint vote.approvals vote.rejections := by
  rw [h.approvals, h.rejections]
  exact disjoint_sayers said (by decide)

end Tallied

/-! ## The history of the box -/

/-- The box of an open vote is the tally of what has been said since the event of the run that
brought its proposal. -/
def BallotsSince (b : Backend) (past : List Event) (box : Option ActiveVote) : Prop :=
  ∀ vote ∈ box, ∃ before opening later, past = before ++ opening :: later ∧
    opening.proposal (b.run before) = some vote.proposal ∧
      Tallied (saidOn b.localPeerId vote.proposal later) vote

/-- A run goes on with the next event. -/
theorem Backend.run_concat (b : Backend) (events : List Event) (event : Event) :
    b.run (events ++ [event]) = (b.run events).step event :=
  List.foldl_append

/-- A ballot does not change what is voted on. -/
@[simp] theorem ActiveVote.vote_proposal (vote : ActiveVote) (peerId : PeerId) (approve : Bool) :
    (vote.vote peerId approve).2.proposal = vote.proposal := by
  unfold ActiveVote.vote
  split_ifs <;> rfl

/-- Nor does it change when the vote lapses. -/
@[simp] theorem ActiveVote.vote_deadline (vote : ActiveVote) (peerId : PeerId) (approve : Bool) :
    (vote.vote peerId approve).2.deadline = vote.deadline := by
  unfold ActiveVote.vote
  split_ifs <;> rfl

/-- A step at the box keeps the tally. -/
theorem BallotsSince.step {b : Backend} {past : List Event} {event : Event}
    {box : Option ActiveVote} (h : BallotsSince b past (b.run past).music.activeVote)
    (hstep : BoxStep (b.run past) event box) : BallotsSince b (past ++ [event]) box := by
  intro vote hvote
  cases hstep with
  | dropped => cases hvote
  | opened hproposal hnone =>
    cases hvote
    exact ⟨past, event, [], rfl, hproposal, .opened _ _⟩
  | kept hbox hballot =>
    cases hvote
    obtain ⟨before, opening, later, hpast, hopens, htally⟩ := h vote hbox
    refine ⟨before, opening, later ++ [event], by simp [hpast], hopens, ?_⟩
    rw [b.run_localPeerId] at hballot
    simpa [saidOn, ballotsFor, hballot] using htally
  | @cast current peerId approve hbox hballot =>
    cases hvote
    obtain ⟨before, opening, later, hpast, hopens, htally⟩ := h _ hbox
    refine ⟨before, opening, later ++ [event], by simp [hpast], by simpa using hopens, ?_⟩
    rw [b.run_localPeerId] at hballot
    simpa [saidOn, ballotsFor, hballot] using htally.cast peerId approve

/-- Throughout a run from a state without an open vote, the box is the tally of what has been
said. -/
theorem Backend.run_ballotsSince {b : Backend} (h : b.music.activeVote = none)
    (events : List Event) : BallotsSince b events (b.run events).music.activeVote := by
  induction events using List.reverseRecOn with
  | nil =>
    intro vote hvote
    rw [show (b.run []).music.activeVote = none from h] at hvote
    cases hvote
  | append_singleton events event ih =>
    rw [Backend.run_concat]
    exact ih.step ((b.run events).step_box event)

/-- So it is when an event looks at it. -/
theorem Event.look_ballotsSince {b t : Backend} (h : b.music.activeVote = none)
    {before : List Event} {event : Event} (hlook : event.look (b.run before) = some t) :
    BallotsSince b (before ++ [event]) t.music.activeVote :=
  (Backend.run_ballotsSince h before).step (Event.look_box hlook)

end LightEar
