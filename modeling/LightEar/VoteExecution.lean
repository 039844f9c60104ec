import LightEar.VoteHistory

/-!
# The execution of a vote

A look at the ballot box may execute a vote (`Backend.passedVote`).  At that moment a majority of
the room's size has approved, every approval is the first word of its peer since the proposal was
brought here, and the state is the one that the proposal is about.  The box is then empty, so a
vote is executed no more often than its proposal is brought (`executedVotes_sublist`).

A ballot that overtakes its proposal is ignored; so the first word of a peer in the whole run need
not be the one that counts.
-/

namespace LightEar

open Foundation

/-! ## The vote that a look executes -/

namespace Backend

/-- The vote that a look at the ballot box executes, if any. -/
def passedVote (t : Backend) : Option VoteProposal :=
  match t.music.readyVoteWaitingForQueue (majorityThreshold t.roomPeerCount) with
  | some _ => none
  | none =>
    match (t.music.resolveVote (majorityThreshold t.roomPeerCount) t.roomPeerCount).1 with
    | some (.passed proposal) =>
      if (t.resolved.music.staleVoteReason proposal).isNone ∧
          t.resolved.music.shouldExecuteVoteLocally proposal t.resolved.localPeerId then
        some proposal
      else none
    | some (.rejected _) | none => none

/-- What is known about the box when a look executes a vote. -/
theorem passedVote_eq_some {t : Backend} {proposal : VoteProposal}
    (h : t.passedVote = some proposal) :
    t.music.readyVoteWaitingForQueue (majorityThreshold t.roomPeerCount) = none ∧
      (t.music.resolveVote (majorityThreshold t.roomPeerCount) t.roomPeerCount).1 =
        some (.passed proposal) ∧ t.resolved.music.staleVoteReason proposal = none := by
  unfold passedVote at h
  split at h
  · cases h
  · rename_i hready
    split at h
    · rename_i passed hresolution
      split_ifs at h with hexecutes
      cases h
      exact ⟨hready, hresolution, Option.isNone_iff_eq_none.1 hexecutes.1⟩
    · cases h
    · cases h

end Backend

/-- A look that executes a vote takes it out and runs its action. -/
theorem resolveActiveVote_of_passedVote {t : Backend} {proposal : VoteProposal}
    (h : t.passedVote = some proposal) (env : Env) :
    resolveActiveVote env t = executeVoteAction env proposal t.resolved := by
  obtain ⟨hready, hresolution, hfits⟩ := Backend.passedVote_eq_some h
  have hnone : (t.resolved.music.staleVoteReason proposal).isNone = true := by rw [hfits]; rfl
  rw [resolveActiveVote_apply, hready, hresolution]
  dsimp only
  rw [executePassedVote_apply, if_pos ⟨hnone, hnone⟩]

/-- Any other look takes a decided vote out, or asks for a queue; no action is run. -/
theorem resolveActiveVote_of_none {t : Backend} (h : t.passedVote = none) (env : Env) :
    resolveActiveVote env t = .ok () t.resolved ∨
      ∃ proposal, resolveActiveVote env t = requestQueueForVoteContext env proposal t := by
  rw [resolveActiveVote_apply]
  unfold Backend.passedVote at h
  cases hready : t.music.readyVoteWaitingForQueue (majorityThreshold t.roomPeerCount) with
  | some proposal => exact .inr ⟨proposal, rfl⟩
  | none =>
    rw [hready] at h
    left
    dsimp only at h ⊢
    cases hresolution :
        (t.music.resolveVote (majorityThreshold t.roomPeerCount) t.roomPeerCount).1 with
    | none => rfl
    | some resolution =>
      cases resolution with
      | rejected proposal => rfl
      | passed proposal =>
        rw [hresolution] at h
        dsimp only at h ⊢
        split_ifs at h with hexecutes
        rw [executePassedVote_apply, if_neg hexecutes]

/-! ## At the moment of the execution -/

/-- The state is the one that a proposal is about: the queue has its version and the item, or a
track is loaded in its session. -/
def VoteProposal.FitsState (proposal : VoteProposal) (m : MusicState) : Prop :=
  match proposal.action with
  | .remove itemId | .move itemId _ =>
    m.queueVersion = proposal.queueVersion ∧ ∃ item ∈ m.queue, item.itemId = itemId
  | .pause | .resume | .skip | .seek _ =>
    ∃ state ∈ m.playbackState, state.track.isSome = true ∧
      proposal.playbackSessionId = some state.sessionId

/-- A vote that has its majority and does not wait for a queue is not about a newer queue. -/
theorem MusicState.queueVersion_le_of_ready {m : MusicState} {threshold : Nat} {vote : ActiveVote}
    (hvote : m.activeVote = some vote) (hmajority : threshold ≤ vote.approvals.card)
    (hready : m.readyVoteWaitingForQueue threshold = none)
    (haction : vote.proposal.action.isQueueAction = true) :
    vote.proposal.queueVersion ≤ m.queueVersion := by
  rw [MusicState.readyVoteWaitingForQueue_of_majority hvote hmajority, haction,
    Bool.true_and] at hready
  split_ifs at hready with hnewer
  exact not_lt.1 (by simpa using hnewer)

/-- A vote on a queue item that is not stale and not about a newer queue fits the queue. -/
theorem MusicState.fits_queue {m : MusicState} {proposal : VoteProposal} {itemId : String}
    (hversion : proposal.queueVersion ≤ m.queueVersion)
    (h : (if proposal.queueVersion < m.queueVersion then some "queue changed during vote"
      else if proposal.queueVersion = m.queueVersion then
        if m.queue.any (·.itemId == itemId) then none
        else some "queue item is no longer available"
      else none) = none) :
    m.queueVersion = proposal.queueVersion ∧ ∃ item ∈ m.queue, item.itemId = itemId := by
  split_ifs at h with holder hsame hitem
  · obtain ⟨item, hitem, hid⟩ := List.any_eq_true.1 hitem
    exact ⟨hsame.symm, item, hitem, by simpa using hid⟩
  · omega

/-- A vote on the playback that is not stale fits it. -/
theorem MusicState.fits_playback {m : MusicState} {proposal : VoteProposal}
    (h : (match m.playbackState.bind fun state => state.track.map fun _ => state.sessionId with
      | none => some "no active playback"
      | some currentSession =>
        if proposal.playbackSessionId ≠ some currentSession then
          some "playback changed during vote"
        else none) = none) :
    ∃ state ∈ m.playbackState, state.track.isSome = true ∧
      proposal.playbackSessionId = some state.sessionId := by
  split at h
  · cases h
  · rename_i session hsession
    obtain ⟨state, hstate, hnamed⟩ := Option.bind_eq_some_iff.1 hsession
    obtain ⟨track, htrack, rfl⟩ := Option.map_eq_some_iff.1 hnamed
    split_ifs at h with hother
    exact ⟨state, hstate, by rw [htrack]; rfl, not_not.1 hother⟩

/-- A vote that is not stale and not about a newer queue fits the state. -/
theorem MusicState.fits_of_not_stale {m : MusicState} {proposal : VoteProposal}
    (hversion : proposal.action.isQueueAction = true → proposal.queueVersion ≤ m.queueVersion)
    (h : m.staleVoteReason proposal = none) : proposal.FitsState m := by
  unfold staleVoteReason at h
  unfold VoteProposal.FitsState
  cases haction : proposal.action with
  | remove itemId =>
    rw [haction] at h hversion
    exact MusicState.fits_queue (hversion rfl) h
  | move itemId toIndex =>
    rw [haction] at h hversion
    exact MusicState.fits_queue (hversion rfl) h
  | pause => rw [haction] at h; exact MusicState.fits_playback h
  | resume => rw [haction] at h; exact MusicState.fits_playback h
  | skip => rw [haction] at h; exact MusicState.fits_playback h
  | seek positionMs => rw [haction] at h; exact MusicState.fits_playback h

/-! ## At most once -/

/-- The vote that an event executes, if any. -/
def Event.executed (b : Backend) (event : Event) : Option VoteProposal :=
  (event.look b).bind Backend.passedVote

namespace Backend

/-- The votes that a run executes, in order. -/
def executedVotes (b : Backend) (events : List Event) : List VoteProposal :=
  outputs step Event.executed b events

/-- The proposals that the events of a run bring, in order. -/
def broughtProposals (b : Backend) (events : List Event) : List VoteProposal :=
  outputs step Event.proposal b events

/-- The proposal in the ballot box, as a list of at most one. -/
def proposalInBox (b : Backend) : List VoteProposal :=
  (b.music.activeVote.map ActiveVote.proposal).toList

/-- A decided vote is out of the box. -/
theorem resolved_noVote {t : Backend} {proposal : VoteProposal}
    (h : t.passedVote = some proposal) : t.resolved.music.activeVote = none := by
  obtain ⟨-, hresolution, -⟩ := passedVote_eq_some h
  exact congrArg MusicState.activeVote (MusicState.resolveVote_eq_passed hresolution).2

/-- An event that executes a vote leaves the box empty. -/
theorem step_noVote_of_executed {b t : Backend} {event : Event} {proposal : VoteProposal}
    (hlook : event.look b = some t) (h : t.passedVote = some proposal) :
    (b.step event).music.activeVote = none := by
  have hrest : KeptOrDropped t.resolved.music.activeVote (b.step event).music.activeVote := by
    rw [step_of_look hlook]
    refine KeptOrDropped.trans ?_ ((afterLook_moves event).box_of_deeds _)
    have hrun : finalState (resolveActiveVote event.lookEnv) t =
        finalState (executeVoteAction event.lookEnv proposal) t.resolved := by
      unfold finalState
      rw [resolveActiveVote_of_passedVote h]
    rw [hrun]
    exact (executeVoteAction_moves event.lookEnv proposal).box_of_deeds t.resolved
  rcases hrest with hkept | hdropped
  · rw [hkept, resolved_noVote h]
  · exact hdropped

end Backend

/-- What is in the box after an event was there before, or has been brought by the event. -/
theorem BoxStep.proposal_sublist {b : Backend} {event : Event} {box : Option ActiveVote}
    (h : BoxStep b event box) : (box.map ActiveVote.proposal).toList.Sublist
      (b.proposalInBox ++ (event.proposal b).toList) := by
  unfold Backend.proposalInBox
  cases h with
  | opened hproposal hnone =>
    rw [hproposal]
    exact List.sublist_append_right ..
  | cast hbox hballot =>
    rw [hbox, Option.map_some, Option.map_some, ActiveVote.vote_proposal]
    exact List.sublist_append_left ..
  | kept hbox hballot =>
    rw [hbox]
    exact List.sublist_append_left ..
  | dropped => exact List.nil_sublist _

/-- A vote is executed no more often than its proposal is brought: what a run has executed, with
what is still in the box, is a part of what was in the box and what has been brought. -/
theorem Backend.executedVotes_sublist (b : Backend) (events : List Event) :
    (b.executedVotes events ++ (b.run events).proposalInBox).Sublist
      (b.proposalInBox ++ b.broughtProposals events) := by
  refine outputs_sublist (fun b event => ?_) b events
  cases hexecuted : event.executed b with
  | none => exact (b.step_box event).proposal_sublist
  | some proposal =>
    obtain ⟨t, hlook, hpassed⟩ := Option.bind_eq_some_iff.1 hexecuted
    obtain ⟨-, hresolution, -⟩ := passedVote_eq_some hpassed
    obtain ⟨vote, hvote, rfl, -⟩ := MusicState.resolveVote_passed_box hresolution
    have hbox := (Event.look_box hlook).proposal_sublist
    rw [hvote] at hbox
    unfold proposalInBox at hbox ⊢
    rw [step_noVote_of_executed hlook hpassed]
    exact hbox

/-- The proposal that a message from its proposer delivers. -/
def Event.delivered : Event → Option VoteProposal
  | wire env source (.voteProposal proposal) =>
    if peerFieldMatchesSource env proposal.proposer source then some proposal else none
  | _ => none

/-- The proposals that the messages of a run deliver, in order. -/
def deliveredProposals (events : List Event) : List VoteProposal :=
  events.filterMap Event.delivered

/-- The proposals that the local peer makes in a run, in order. -/
def Backend.ownProposals (b : Backend) (events : List Event) : List VoteProposal :=
  (b.broughtProposals events).filter (·.proposer = b.localPeerId)

/-- A proposal of another peer is brought by the message that delivers it. -/
theorem Event.delivered_of_proposal {b : Backend} {event : Event} {proposal : VoteProposal}
    (h : event.proposal b = some proposal) (hother : proposal.proposer ≠ b.localPeerId) :
    event.delivered = some proposal := by
  cases event with
  | command env request =>
    obtain ⟨action, -, rfl⟩ := Option.map_eq_some_iff.1 h
    exact absurd rfl hother
  | wire env source message =>
    cases message with
    | voteProposal received =>
      dsimp only [Event.proposal] at h
      split_ifs at h with hbrought
      cases h
      exact if_pos hbrought.1
    | _ => cases h
  | _ => cases h

/-- A proposal of another peer is brought no more often than it is delivered. -/
theorem Backend.count_broughtProposals_le {proposal : VoteProposal} (b : Backend)
    (events : List Event) (hother : proposal.proposer ≠ b.localPeerId) :
    (b.broughtProposals events).count proposal ≤ (deliveredProposals events).count proposal := by
  induction events generalizing b with
  | nil => exact Nat.le_refl _
  | cons event events ih =>
    have hpeer : (b.step event).localPeerId = b.localPeerId := b.run_localPeerId [event]
    have hrest := ih (b.step event) (hpeer ▸ hother)
    have hfirst : (event.proposal b).toList.count proposal ≤
        event.delivered.toList.count proposal := by
      by_cases hbrings : event.proposal b = some proposal
      · rw [hbrings, Event.delivered_of_proposal hbrings hother]
      · have hnone : (event.proposal b).toList.count proposal = 0 :=
          List.count_eq_zero.2 fun hmem => hbrings (Option.mem_toList.1 hmem)
        omega
    have hdelivered : deliveredProposals (event :: events) =
        event.delivered.toList ++ deliveredProposals events := by
      unfold deliveredProposals
      rw [List.filterMap_cons]
      cases event.delivered <;> rfl
    rw [hdelivered, List.count_append]
    change ((event.proposal b).toList ++ (b.step event).broughtProposals events).count
      proposal ≤ _
    rw [List.count_append]
    exact Nat.add_le_add hfirst hrest

/-- If no proposal is delivered twice and the local peer never uses the name of a vote twice, no
proposal is brought twice. -/
theorem Backend.broughtProposals_nodup {b : Backend} {events : List Event}
    (hdelivered : (deliveredProposals events).Nodup)
    (hnames : ((b.ownProposals events).map VoteProposal.voteId).Nodup) :
    (b.broughtProposals events).Nodup := by
  rw [List.nodup_iff_count_le_one]
  intro proposal
  by_cases hown : proposal.proposer = b.localPeerId
  · have hfilter := List.count_filter (l := b.broughtProposals events)
      (p := fun v => decide (v.proposer = b.localPeerId)) (a := proposal) (by simpa using hown)
    rw [← hfilter]
    exact List.nodup_iff_count_le_one.1 (List.Nodup.of_map _ hnames) proposal
  · exact (b.count_broughtProposals_le events hown).trans
      (List.nodup_iff_count_le_one.1 hdelivered proposal)

/-- From a state without an open vote, a run then executes no vote twice. -/
theorem Backend.executedVotes_nodup {b : Backend} (h : b.music.activeVote = none)
    {events : List Event} (hdelivered : (deliveredProposals events).Nodup)
    (hnames : ((b.ownProposals events).map VoteProposal.voteId).Nodup) :
    (b.executedVotes events).Nodup := by
  have hsublist := b.executedVotes_sublist events
  have hempty : b.proposalInBox = [] := by
    unfold proposalInBox
    rw [h]
    rfl
  rw [hempty, List.nil_append] at hsublist
  exact (broughtProposals_nodup hdelivered hnames).sublist
    ((List.sublist_append_left ..).trans hsublist)

/-! ## Two runs -/

/-- The pause of the leader's track that another peer proposes. -/
def majorityProposal : VoteProposal where
  voteId := "vote"
  proposer := "peer"
  action := .pause
  queueVersion := 3
  playbackSessionId := some "leader:1000000:x:0"
  createdAtMicros := 2000000

/-- The leader starts a track in a room of three, in which a ballot may come before the proposal
that it is for. -/
def proposalAfter (early : List Event) : List Event := [
  .command (.plain 1000000) (.enqueueBilibili "x" 1),
  .connectionEstablished (.plain 1500000) "peer",
  .connectionEstablished (.plain 1500000) "third"] ++ early ++ [
  .wire (.plain 2000000) "peer" (.voteProposal majorityProposal)]

/-- The no of the third peer, which overtakes the proposal. -/
def overtakingNo : Event := .wire (.plain 1800000) "third" (.voteBallot "vote" "third" false)

/-- The yes of the third peer. -/
def thirdYes : Event := .wire (.plain 2500000) "third" (.voteBallot "vote" "third" true)

/-- The next local tick. -/
def tickAfterVote : Event := .musicLocal (fun _ => .plain 4000000) []

/-! ## Main result -/

/-- What entitles a look at the ballot box to execute a vote, after some events of a run. -/
structure Mandate (b : Backend) (past : List Event) (t : Backend) (proposal : VoteProposal)
    (vote : ActiveVote) : Prop where
  /-- The vote is in the box. -/
  box : t.music.activeVote = some vote
  /-- It is about the proposal. -/
  about : vote.proposal = proposal
  /-- Every approval is the proposer's, or that of a peer whose first ballot since the proposal was
  brought says yes. -/
  ballots : ∃ before opening later, past = before ++ opening :: later ∧
    opening.proposal (b.run before) = some proposal ∧
      ∀ peerId ∈ vote.approvals, peerId = proposal.proposer ∨
        (ballotsFor b.localPeerId proposal.voteId later).lookup peerId = some true
  /-- No peer counts on both sides. -/
  oneSided : Disjoint vote.approvals vote.rejections
  /-- The approvals reach the majority threshold of the room. -/
  majority : majorityThreshold t.roomPeerCount ≤ vote.approvals.card
  /-- The state in which the vote is executed is the one it is about. -/
  fits : proposal.FitsState t.resolved.music

/-- A look that executes a vote is entitled to it. -/
theorem mandate_of_passedVote {b t : Backend} (h : b.music.activeVote = none)
    {before : List Event} {event : Event} {proposal : VoteProposal}
    (hlook : event.look (b.run before) = some t) (hpassed : t.passedVote = some proposal) :
    ∃ vote, Mandate b (before ++ [event]) t proposal vote := by
  obtain ⟨hready, hresolution, hfits⟩ := Backend.passedVote_eq_some hpassed
  obtain ⟨vote, hvote, rfl, hmajority⟩ := MusicState.resolveVote_passed_box hresolution
  obtain ⟨past, opening, later, hpast, hopens, htally⟩ :=
    Event.look_ballotsSince h hlook vote hvote
  have htaken : t.resolved.music = { t.music with activeVote := none } :=
    (MusicState.resolveVote_eq_passed hresolution).2
  refine ⟨vote, hvote, rfl, ⟨past, opening, later, hpast, hopens, fun peerId hpeer => ?_⟩,
    htally.disjoint, hmajority, MusicState.fits_of_not_stale (fun haction => ?_) hfits⟩
  · rw [htally.approvals, mem_sayers] at hpeer
    unfold saidOn at hpeer
    rw [List.lookup_cons] at hpeer
    by_cases hproposer : peerId = vote.proposal.proposer
    · exact .inl hproposer
    · rw [beq_false_of_ne hproposer] at hpeer
      exact .inr hpeer
  · have hversion := MusicState.queueVersion_le_of_ready hvote hmajority hready haction
    rw [htaken]
    exact hversion

/-- In every run in which no proposal is delivered twice and the local peer never uses the name of
a vote twice, whatever vote a look at the ballot box executes has its mandate, and it is not
executed again. -/
theorem executed_vote_has_mandate {localPeerId : PeerId} {rendezvousNodes : Finset PeerId}
    {audioPlayer : Bool} {retry : Instant} {before later : List Event} {event : Event}
    (hdelivered : (deliveredProposals (before ++ event :: later)).Nodup)
    (hnames : (((Backend.new localPeerId rendezvousNodes audioPlayer retry).ownProposals
      (before ++ event :: later)).map VoteProposal.voteId).Nodup)
    {t : Backend} {proposal : VoteProposal}
    (hlook : event.look ((Backend.new localPeerId rendezvousNodes audioPlayer retry).run before) =
      some t)
    (hpassed : t.passedVote = some proposal) :
    (∃ vote, Mandate (Backend.new localPeerId rendezvousNodes audioPlayer retry)
      (before ++ [event]) t proposal vote) ∧
    proposal ∉ ((Backend.new localPeerId rendezvousNodes audioPlayer retry).run
      (before ++ [event])).executedVotes later := by
  refine ⟨mandate_of_passedVote rfl hlook hpassed, ?_⟩
  have hnodup := Backend.executedVotes_nodup rfl hdelivered hnames
  unfold Backend.executedVotes at hnodup ⊢
  rw [outputs_append] at hnodup
  have hexecuted : event.executed ((Backend.new localPeerId rendezvousNodes audioPlayer
      retry).run before) = some proposal := Option.bind_eq_some_iff.2 ⟨t, hlook, hpassed⟩
  have hrest := (List.nodup_append.1 hnodup).2.1
  change ((event.executed ((Backend.new localPeerId rendezvousNodes audioPlayer
    retry).run before)).toList ++ _).Nodup at hrest
  rw [hexecuted] at hrest
  rw [Backend.run_concat]
  exact (List.nodup_cons.1 hrest).1

/-- The yes of the third peer is looked at. -/
theorem thirdYes_looks (early : List Event) (h : early = [] ∨ early = [overtakingNo]) :
    (thirdYes.look ((Backend.new "leader" ∅ false 0).run (proposalAfter early))).isSome = true := by
  rcases h with rfl | rfl
  · decide
  · decide

/-- The main result at a pause that two of three peers want. -/
theorem executed_vote_has_mandate_pause : ∃ t,
    thirdYes.look ((Backend.new "leader" ∅ false 0).run (proposalAfter [])) = some t ∧
    (∃ vote, Mandate (Backend.new "leader" ∅ false 0) (proposalAfter [] ++ [thirdYes]) t
      majorityProposal vote) ∧
    majorityProposal ∉ ((Backend.new "leader" ∅ false 0).run
      (proposalAfter [] ++ [thirdYes])).executedVotes [tickAfterVote] :=
  ⟨_, (Option.some_get (thirdYes_looks [] (.inl rfl))).symm,
    executed_vote_has_mandate (by decide) (by decide)
      (Option.some_get (thirdYes_looks [] (.inl rfl))).symm (by decide)⟩

/-- The yes of a peer whose no has come before the proposal counts, although it is not the first
ballot of that peer in the run. -/
theorem overtaking_ballot_is_forgotten :
    ¬ ∀ (localPeerId : PeerId) (rendezvousNodes : Finset PeerId) (audioPlayer : Bool)
        (retry : Instant) (before : List Event) (event : Event) (t : Backend)
        (proposal : VoteProposal) (vote : ActiveVote),
      (deliveredProposals (before ++ [event])).Nodup →
      (((Backend.new localPeerId rendezvousNodes audioPlayer retry).ownProposals
        (before ++ [event])).map VoteProposal.voteId).Nodup →
      event.look ((Backend.new localPeerId rendezvousNodes audioPlayer retry).run before) =
        some t →
      t.passedVote = some proposal → t.music.activeVote = some vote →
      ∀ peerId ∈ vote.approvals, peerId = proposal.proposer ∨
        (ballotsFor localPeerId proposal.voteId (before ++ [event])).lookup peerId =
          some true := by
  intro h
  have hlook := (Option.some_get (thirdYes_looks [overtakingNo] (.inr rfl))).symm
  have hfirst := h "leader" ∅ false 0 (proposalAfter [overtakingNo]) thirdYes _ majorityProposal
    _ (by decide) (by decide) hlook (by decide) rfl "third" (by decide)
  revert hfirst
  decide

end LightEar
