import LightEar.VoteHistory

/-!
# Who decides a vote

The threshold of a vote is taken from the room as it is when the vote is looked at, but the box
keeps the ballots of everybody who has ever voted: of peers that have left and of peers that never
were in the room.  The room decides the vote (`DecidedByRoom`) exactly when the ballots from
outside do not tip it (`OutsideTipsNothing`), at every look in every run.
-/

namespace LightEar

open Foundation

/-- The room decides a vote: it passes when more than half of the room has approved, and is
rejected when the approvals from the room and those in the room who have not voted are together
no more than half of it. -/
structure DecidedByRoom (room : Finset PeerId) (vote : ActiveVote) : Prop where
  /-- When it passes. -/
  passed : vote.terminalOutcome (majorityThreshold room.card) room.card = .passed ↔
    room.card < 2 * (vote.approvals ∩ room).card
  /-- When it is rejected. -/
  rejected : vote.terminalOutcome (majorityThreshold room.card) room.card = .rejected ↔
    2 * ((vote.approvals ∩ room).card + (room \ (vote.approvals ∪ vote.rejections)).card) ≤
      room.card

/-- The ballots from outside the room do not tip a vote. -/
structure OutsideTipsNothing (room : Finset PeerId) (vote : ActiveVote) : Prop where
  /-- Without a majority of the room, the approvals from outside do not make one. -/
  approvals : 2 * (vote.approvals ∩ room).card ≤ room.card → 2 * vote.approvals.card ≤ room.card
  /-- Unless all approvals together are a majority, the rejections from outside do not complete
  half of the room. -/
  rejections : 2 * vote.approvals.card ≤ room.card →
    2 * (vote.rejections ∩ room).card < room.card → 2 * vote.rejections.card < room.card

/-- The room consists of those who approve, those who reject and those who have not voted. -/
theorem card_room {room approvals rejections : Finset PeerId} (h : Disjoint approvals rejections) :
    (approvals ∩ room).card + (rejections ∩ room).card +
      (room \ (approvals ∪ rejections)).card = room.card := by
  have hvoted : ((approvals ∪ rejections) ∩ room).card =
      (approvals ∩ room).card + (rejections ∩ room).card := by
    rw [Finset.union_inter_distrib_right]
    exact Finset.card_union_of_disjoint (h.mono Finset.inter_subset_left Finset.inter_subset_left)
  have hsplit := Finset.card_inter_add_card_sdiff room (approvals ∪ rejections)
  rw [Finset.inter_comm, hvoted] at hsplit
  exact hsplit

/-- With no peer on both sides, the room decides exactly when the outside tips nothing. -/
theorem decidedByRoom_iff {room : Finset PeerId} {vote : ActiveVote}
    (h : Disjoint vote.approvals vote.rejections) :
    DecidedByRoom room vote ↔ OutsideTipsNothing room vote := by
  have hroom : _ = room.card := card_room h
  have happrovals := Finset.card_le_card
    (Finset.inter_subset_left : vote.approvals ∩ room ⊆ vote.approvals)
  have hrejections := Finset.card_le_card
    (Finset.inter_subset_left : vote.rejections ∩ room ⊆ vote.rejections)
  constructor
  · rintro ⟨hpassed, hrejected⟩
    rw [ActiveVote.terminalOutcome_eq_passed_iff] at hpassed
    rw [ActiveVote.terminalOutcome_eq_rejected_iff] at hrejected
    exact ⟨fun _ => by omega, fun _ _ => by omega⟩
  · rintro ⟨htip, htip'⟩
    constructor
    · rw [ActiveVote.terminalOutcome_eq_passed_iff]
      omega
    · rw [ActiveVote.terminalOutcome_eq_rejected_iff]
      omega

/-! ## A vote decided from outside -/

/-- The pause of the leader's track that another peer proposes. -/
def departedProposal : VoteProposal where
  voteId := "vote"
  proposer := "peer"
  action := .pause
  queueVersion := 3
  playbackSessionId := some "leader:1000000:x:0"
  createdAtMicros := 2000000

/-- The leader starts a track in a room of four; one peer proposes a pause, another one approves
it and leaves. -/
def approveAndLeave : List Event := [
  .command (.plain 1000000) (.enqueueBilibili "x" 1),
  .connectionEstablished (.plain 1500000) "peer",
  .connectionEstablished (.plain 1500000) "third",
  .connectionEstablished (.plain 1500000) "fourth",
  .wire (.plain 2000000) "peer" (.voteProposal departedProposal),
  .wire (.plain 2500000) "third" (.voteBallot "vote" "third" true),
  .connectionClosed (.plain 3000000) "third" 0]

/-- The next local tick. -/
def tickAfterDeparture : Event := .musicLocal (fun _ => .plain 4000000) []

/-- The tick looks at the ballot box. -/
theorem departure_looks : (tickAfterDeparture.look
    ((Backend.new "leader" ∅ false 0).run approveAndLeave)).isSome = true := by decide

/-- There is a vote in it. -/
theorem departure_votes : ((tickAfterDeparture.look
    ((Backend.new "leader" ∅ false 0).run approveAndLeave)).get
      departure_looks).music.activeVote.isSome = true := by decide

/-! ## Main result -/

/-- Whenever an event of a run looks at the ballot box, the room decides the vote exactly when the
ballots from outside the room do not tip it. -/
theorem vote_decided_by_room_iff {localPeerId : PeerId} {rendezvousNodes : Finset PeerId}
    {audioPlayer : Bool} {retry : Instant} {before : List Event} {event : Event} {t : Backend}
    (hlook : event.look ((Backend.new localPeerId rendezvousNodes audioPlayer retry).run before) =
      some t)
    {vote : ActiveVote} (hvote : t.music.activeVote = some vote) :
    DecidedByRoom t.roomPeerIds vote ↔ OutsideTipsNothing t.roomPeerIds vote := by
  obtain ⟨_, _, _, _, _, htally⟩ := Event.look_ballotsSince rfl hlook vote hvote
  exact decidedByRoom_iff htally.disjoint

/-- The main result at the tick after the departure: neither side of the equivalence holds. -/
theorem vote_decided_by_room_iff_departure : ∃ t vote,
    tickAfterDeparture.look ((Backend.new "leader" ∅ false 0).run approveAndLeave) = some t ∧
      t.music.activeVote = some vote ∧
        (DecidedByRoom t.roomPeerIds vote ↔ OutsideTipsNothing t.roomPeerIds vote) :=
  ⟨_, _, (Option.some_get departure_looks).symm, (Option.some_get departure_votes).symm,
    vote_decided_by_room_iff (Option.some_get departure_looks).symm
      (Option.some_get departure_votes).symm⟩

/-- The approval of the peer that has left makes the vote pass, with one of three members of the
room in favour. -/
theorem departed_peer_tips_vote :
    ¬ ∀ (localPeerId : PeerId) (rendezvousNodes : Finset PeerId) (audioPlayer : Bool)
        (retry : Instant) (before : List Event) (event : Event) (t : Backend) (vote : ActiveVote),
      event.look ((Backend.new localPeerId rendezvousNodes audioPlayer retry).run before) =
          some t →
        t.music.activeVote = some vote → DecidedByRoom t.roomPeerIds vote := by
  intro h
  have hdecided := h "leader" ∅ false 0 approveAndLeave tickAfterDeparture _ _
    (Option.some_get departure_looks).symm (Option.some_get departure_votes).symm
  have hpassed := hdecided.passed.1 (by decide)
  revert hpassed
  decide

end LightEar
