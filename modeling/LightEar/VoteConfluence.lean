import LightEar.VoteHistory

/-!
# Votes and the order of messages

The proposal and the ballots of a vote come from different peers, so that they reach a peer in any
order (`DeliveryOrder`).  A peer looks at the box after every ballot and takes the vote out as soon
as it is decided.  Among members of the room, what has been decided early cannot be turned by later
ballots (`MusicState.verdict_stable`), so the outcome is the verdict on all ballots behind the
proposal, whatever their order (`resolutions_eq`).  A ballot that overtakes the proposal is
ignored: there is no vote yet that it could be for.
-/

namespace LightEar

open Foundation

/-! ## The verdict on a box -/

namespace MusicState

/-- The verdict on a box in a room of the given size. -/
def verdict (m : MusicState) (total : Nat) (vote : ActiveVote) : Option VoteResolution :=
  ({ m with activeVote := some vote }.resolveVote (majorityThreshold total) total).1

/-- The verdict is a matter of the two counts. -/
theorem verdict_eq (m : MusicState) (total : Nat) (vote : ActiveVote) :
    m.verdict total vote =
      if total < 2 * vote.approvals.card then
        if vote.proposal.action.isQueueAction && vote.proposal.queueVersion > m.queueVersion then
          none
        else some (.passed vote.proposal)
      else if total ≤ 2 * vote.rejections.card then some (.rejected vote.proposal)
      else none := by
  have hpassed : vote.terminalOutcome (majorityThreshold total) total = .passed ↔ _ :=
    ActiveVote.terminalOutcome_eq_passed_iff
  have hrejected : vote.terminalOutcome (majorityThreshold total) total = .rejected ↔ _ :=
    ActiveVote.terminalOutcome_eq_rejected_iff
  unfold verdict resolveVote
  dsimp only
  cases houtcome : vote.terminalOutcome (majorityThreshold total) total with
  | passed =>
    have hmajority := hpassed.1 houtcome
    have hready := readyVoteWaitingForQueue_of_majority (m := { m with activeVote := some vote })
      rfl (majorityThreshold_le_iff.2 hmajority)
    dsimp only at hready ⊢
    rw [if_pos hmajority, hready]
    cases vote.proposal.action.isQueueAction && decide (vote.proposal.queueVersion >
      m.queueVersion) <;> rfl
  | rejected =>
    have hhalf := hrejected.1 houtcome
    dsimp only
    rw [if_neg (not_lt.2 hhalf.1), if_pos hhalf.2]
  | pending =>
    have hmajority : ¬ total < 2 * vote.approvals.card := fun h => by
      rw [houtcome] at hpassed
      cases hpassed.2 h
    have hhalf : ¬ total ≤ 2 * vote.rejections.card := fun h => by
      rw [houtcome] at hrejected
      cases hrejected.2 ⟨not_lt.1 hmajority, h⟩
    dsimp only
    rw [if_neg hmajority, if_neg hhalf]

/-- The verdict depends on the version of the queue, the proposal and those who have voted. -/
theorem verdict_congr {m m' : MusicState} {total : Nat} {vote vote' : ActiveVote}
    (hversion : m.queueVersion = m'.queueVersion) (hproposal : vote.proposal = vote'.proposal)
    (happrovals : vote.approvals = vote'.approvals)
    (hrejections : vote.rejections = vote'.rejections) :
    m.verdict total vote = m'.verdict total vote' := by
  rw [verdict_eq, verdict_eq]
  simp only [hversion, hproposal, happrovals, hrejections]

/-- In a room, ballots that come later do not turn a verdict. -/
theorem verdict_stable {m : MusicState} {total : Nat} {vote vote' : ActiveVote}
    {resolution : VoteResolution} (hproposal : vote'.proposal = vote.proposal)
    (happrovals : vote.approvals ⊆ vote'.approvals)
    (hrejections : vote.rejections ⊆ vote'.rejections)
    (hroom : vote'.approvals.card + vote'.rejections.card ≤ total)
    (h : m.verdict total vote = some resolution) : m.verdict total vote' = some resolution := by
  have happrovals := Finset.card_le_card happrovals
  have hrejections := Finset.card_le_card hrejections
  rw [verdict_eq] at h ⊢
  rw [hproposal]
  split_ifs at h with hpassed hwaits hrejected
  · rw [if_pos (by omega), if_neg hwaits]
    exact h
  · rw [if_neg (by omega), if_pos (by omega)]
    exact h

end MusicState

/-! ## Orders of delivery -/

/-- An order in which the proposal and the ballots of a vote reach a peer; each ballot is a peer
and what it says. -/
structure DeliveryOrder where
  /-- The ballots that overtake the proposal. -/
  early : List (Env × PeerId × Bool)
  /-- The environment in which the proposal arrives. -/
  opening : Env
  /-- The ballots behind the proposal. -/
  behind : List (Env × PeerId × Bool)

/-- A ballot as it reaches a peer: its own is a command, the others are messages. -/
def ballotEvent (localPeerId : PeerId) (voteId : String) (ballot : Env × PeerId × Bool) : Event :=
  if ballot.2.1 = localPeerId then .command ballot.1 (.vote ballot.2.2)
  else .wire ballot.1 ballot.2.1 (.voteBallot voteId ballot.2.1 ballot.2.2)

namespace DeliveryOrder

/-- The ballots that are delivered. -/
def ballots (order : DeliveryOrder) : List (PeerId × Bool) :=
  (order.early ++ order.behind).map Prod.snd

/-- The environments of the deliveries. -/
def envs (order : DeliveryOrder) : List Env :=
  order.opening :: (order.early ++ order.behind).map Prod.fst

/-- The deliveries as events at a peer. -/
def events (localPeerId : PeerId) (proposal : VoteProposal) (order : DeliveryOrder) : List Event :=
  order.early.map (ballotEvent localPeerId proposal.voteId) ++
    .wire order.opening proposal.proposer (.voteProposal proposal) ::
      order.behind.map (ballotEvent localPeerId proposal.voteId)

end DeliveryOrder

/-- The environment reads the names of the members of a room, and passes on the ballots of the
local peer. -/
structure Env.Serves (env : Env) (room : Finset PeerId) (localPeerId : PeerId) (voteId : String) :
    Prop where
  /-- The name of a member is read as that member. -/
  parses : ∀ peerId ∈ room, env.parsePeerId peerId = some peerId
  /-- A ballot of the local peer is published. -/
  publishes : ∀ approve,
    ∃ outcome, classifyRoomPublish (env.gossipsub (.voteBallot voteId localPeerId approve)) =
      .ok outcome

/-- A peer of a room that is about to receive the proposal of another member and at most one
ballot of each. -/
structure Receives (room : Finset PeerId) (proposal : VoteProposal) (b : Backend)
    (order : DeliveryOrder) : Prop where
  /-- No vote is open. -/
  noVote : b.music.activeVote = none
  /-- The peer sees the room. -/
  seesRoom : b.roomPeerIds = room
  /-- The proposal is another peer's. -/
  other : proposal.proposer ≠ b.localPeerId
  /-- The proposer is a member of the room. -/
  proposer : proposal.proposer ∈ room
  /-- The voters are members of the room. -/
  voters : ∀ ballot ∈ order.ballots, ballot.1 ∈ room
  /-- Nobody casts two ballots. -/
  oneEach : (order.ballots.map Prod.fst).Nodup
  /-- The messages get through. -/
  serves : ∀ env ∈ order.envs, env.Serves room b.localPeerId proposal.voteId

/-- What a look at the ballot box resolves, if the event looks. -/
def Event.resolution (b : Backend) (event : Event) : Option MusicState.VoteResolution :=
  (event.look b).bind fun t =>
    (t.music.resolveVote (majorityThreshold t.roomPeerCount) t.roomPeerCount).1

/-- What the events of a run resolve, in order. -/
def Backend.resolutions (b : Backend) (events : List Event) :
    List MusicState.VoteResolution :=
  outputs Backend.step Event.resolution b events

/-! ## Deliveries while no vote is open -/

/-- A message whose name is read as its source is valid. -/
theorem validateWireSource_of_parses {env : Env} {message : WireMessage} {source : PeerId}
    (h : env.parsePeerId message.sourceField.1 = some source) :
    validateWireSource env message source = .ok () :=
  if_pos (beq_iff_eq.2 h)

section Ballots

variable {voteId : String} {b : Backend} {env : Env} {peerId : PeerId} {approve : Bool}

/-- The look at a ballot of another member: the ballot has been put into the box. -/
theorem look_voteBallot (h : env.parsePeerId peerId = some peerId) :
    (Event.wire env peerId (.voteBallot voteId peerId approve)).look b =
      some (b.changeMusic (.castVoteFor voteId peerId approve)) := by
  have hbefore : beforeLook (.wire env peerId (.voteBallot voteId peerId approve)) b =
      .ok true (b.changeMusic (.castVoteFor voteId peerId approve)) := by
    change applyBeforeLook env peerId (.voteBallot voteId peerId approve) b = _
    unfold applyBeforeLook
    rw [validateWireSource_of_parses h]
    rfl
  unfold Event.look
  rw [hbefore]

/-- A ballot of the local peer that is not counted ends the reaction; one that is counted is
published. -/
theorem beforeLook_vote (env : Env) (approve : Bool) (b : Backend) :
    beforeLook (.command env (.vote approve)) b =
      match (b.music.castVote b.localPeerId approve).1 with
      | some (.accepted voteId) =>
        (do
          publishRoomWire env (.voteBallot voteId b.localPeerId approve)
          return true : Handler Bool) (b.changeMusic (.castVote b.localPeerId approve))
      | some (.duplicate _) | none =>
        .ok false (b.changeMusic (.castVote b.localPeerId approve)) := by
  change castBeforeLook env approve b = _
  change (match (b.music.castVote b.localPeerId approve).1 with
    | some (.accepted voteId) => (do
      publishRoomWire env (.voteBallot voteId b.localPeerId approve)
      return true : Handler Bool)
    | some (.duplicate _) => return false
    | none => return false : Handler Bool) (b.changeMusic (.castVote b.localPeerId approve)) = _
  cases (b.music.castVote b.localPeerId approve).1 with
  | none => rfl
  | some outcome => cases outcome <;> rfl

/-- A vote command that does not look resolves nothing. -/
theorem vote_of_not_looking {t : Backend}
    (h : beforeLook (.command env (.vote approve)) b = .ok false t) :
    (Event.command env (.vote approve)).resolution b = none ∧
      b.step (.command env (.vote approve)) = t := by
  have hlook : (Event.command env (.vote approve)).look b = none := by
    unfold Event.look
    rw [h]
  refine ⟨by unfold Event.resolution; rw [hlook]; rfl, ?_⟩
  rw [Backend.step_of_no_look hlook]
  exact finalState_of_ok h

/-- Without an open vote, a ballot changes nothing. -/
theorem ballotEvent_of_noVote (hvote : b.music.activeVote = none)
    (h : env.parsePeerId peerId = some peerId) :
    (ballotEvent b.localPeerId voteId (env, peerId, approve)).resolution b = none ∧
      b.step (ballotEvent b.localPeerId voteId (env, peerId, approve)) = b := by
  unfold ballotEvent
  dsimp only
  split
  · have hcast : b.music.castVote b.localPeerId approve = (none, b.music) := by
      unfold MusicState.castVote
      rw [hvote]
    have hbefore := beforeLook_vote env approve b
    rw [hcast] at hbefore
    obtain ⟨hresolution, hstep⟩ := vote_of_not_looking hbefore
    exact ⟨hresolution, hstep.trans (changeMusic_eq_self (congrArg Prod.snd hcast))⟩
  · have hcast : b.music.castVoteFor voteId peerId approve = (false, b.music) := by
      unfold MusicState.castVoteFor
      rw [hvote]
    have hsame : b.changeMusic (.castVoteFor voteId peerId approve) = b :=
      changeMusic_eq_self (congrArg Prod.snd hcast)
    have hlook : (Event.wire env peerId (.voteBallot voteId peerId approve)).look b = some b :=
      (look_voteBallot h).trans (congrArg some hsame)
    constructor
    · unfold Event.resolution
      rw [hlook, Option.bind_some]
      unfold MusicState.resolveVote
      rw [hvote]
    · rw [Backend.step_of_look hlook, resolveActiveVote_of_noVote hvote]
      rfl

end Ballots

/-! ## Deliveries while the vote goes on -/

/-- While a vote goes on, a peer is as it was before but for the box, the messages it has sent and
the notes on whom it has asked for a queue. -/
structure Voting (b : Backend) (vote : ActiveVote) (t : Backend) : Prop where
  /-- The music state is as before, with the vote in the box. -/
  music : t.music = { b.music with activeVote := some vote }
  /-- The room is the same. -/
  sameRoom : t.roomPeerIds = b.roomPeerIds
  /-- So is the peer. -/
  samePeer : t.localPeerId = b.localPeerId

namespace Voting

variable {b t : Backend} {vote : ActiveVote} {env : Env}

/-- Publishing goes on with the vote. -/
theorem publishRoomWireWithOutcome_keeps (env : Env) (message : WireMessage) :
    Keeps (Voting b vote) (publishRoomWireWithOutcome env message) := by
  unfold publishRoomWireWithOutcome
  split
  · exact .bind (.modify fun _ ht => ⟨ht.music, ht.sameRoom, ht.samePeer⟩) fun _ => .pure _
  · exact .pure _

/-- So does asking for a queue. -/
theorem requestQueueForVoteContext_keeps (env : Env) (proposal : VoteProposal) :
    Keeps (Voting b vote) (requestQueueForVoteContext env proposal) := by
  refine .get_bind fun _ => .ite ?_ (.pure _)
  refine .get_bind fun _ => ?_
  refine .bind (publishRoomWireWithOutcome_keeps env _) fun _ => .ite ?_ (.pure _)
  exact .modify fun _ ht => ⟨ht.music, ht.sameRoom, ht.samePeer⟩

/-- What a look resolves is the verdict. -/
theorem resolveVote_eq (h : Voting b vote t) :
    (t.music.resolveVote (majorityThreshold t.roomPeerCount) t.roomPeerCount).1 =
      b.music.verdict b.roomPeerCount vote := by
  unfold Backend.roomPeerCount
  rw [h.music, h.sameRoom]
  rfl

/-- A look without a verdict goes on with the vote. -/
theorem look_of_none (h : Voting b vote t) (hnone : b.music.verdict b.roomPeerCount vote = none)
    (env : Env) : Voting b vote (finalState (resolveActiveVote env) t) := by
  have hresolution := h.resolveVote_eq.trans hnone
  have hsame : t.resolved = t := by
    refine changeMusic_eq_self ((MusicState.resolveVote_snd ..).trans ?_)
    rw [hresolution]
  unfold finalState
  rw [resolveActiveVote_apply, hresolution, hsame]
  cases t.music.readyVoteWaitingForQueue (majorityThreshold t.roomPeerCount) with
  | none => exact h
  | some proposal => exact requestQueueForVoteContext_keeps env proposal t h

/-- A look with a verdict closes the vote. -/
theorem look_of_some {resolution : MusicState.VoteResolution} (h : Voting b vote t)
    (hsome : b.music.verdict b.roomPeerCount vote = some resolution) (env : Env) :
    (finalState (resolveActiveVote env) t).music.activeVote = none := by
  have hresolution := h.resolveVote_eq.trans hsome
  have hready : t.music.readyVoteWaitingForQueue (majorityThreshold t.roomPeerCount) = none := by
    cases hwaits : t.music.readyVoteWaitingForQueue (majorityThreshold t.roomPeerCount) with
    | none => rfl
    | some proposal =>
      rw [MusicState.resolveVote_of_waiting hwaits] at hresolution
      cases hresolution
  have hclosed : t.resolved.music.activeVote = none := by
    have htaken := MusicState.resolveVote_snd t.music (majorityThreshold t.roomPeerCount)
      t.roomPeerCount
    rw [hresolution] at htaken
    exact congrArg MusicState.activeVote htaken
  unfold finalState
  rw [resolveActiveVote_apply, hready, hresolution]
  cases resolution with
  | rejected proposal => exact hclosed
  | passed proposal =>
    have hexecute : Moves Deeds (executePassedVote env proposal) :=
      .get_bind fun _ => .ite (executeVoteAction_moves env proposal) (.pure _)
    rcases hexecute.box_of_deeds t.resolved with hkept | hdropped
    · exact hkept.trans hclosed
    · exact hdropped

end Voting

/-- A delivery of a ballot, while the vote goes on: it resolves the verdict on the box with the
ballot; without one the vote goes on, with one it is closed. -/
structure Counts (b : Backend) (vote : ActiveVote) (t : Backend) (event : Event) : Prop where
  /-- What is resolved. -/
  resolution : event.resolution t = b.music.verdict b.roomPeerCount vote
  /-- The vote goes on. -/
  goesOn : b.music.verdict b.roomPeerCount vote = none → Voting b vote (t.step event)
  /-- The vote is closed. -/
  closes : ∀ resolution, b.music.verdict b.roomPeerCount vote = some resolution →
    (t.step event).music.activeVote = none

/-- An event that looks at a box, and does nothing after that. -/
theorem Counts.of_look {b t u : Backend} {vote : ActiveVote} {event : Event}
    (hlook : event.look t = some u) (hvoting : Voting b vote u)
    (hafter : afterLook event = pure ()) : Counts b vote t event := by
  have hstep : t.step event = finalState (resolveActiveVote event.lookEnv) u := by
    rw [Backend.step_of_look hlook, hafter]
    rfl
  constructor
  · unfold Event.resolution
    rw [hlook]
    exact hvoting.resolveVote_eq
  · intro hnone
    rw [hstep]
    exact hvoting.look_of_none hnone _
  · intro resolution hsome
    rw [hstep]
    exact hvoting.look_of_some hsome _

/-- A ballot that is not accepted leaves the box. -/
theorem ActiveVote.vote_of_not_accepted {vote : ActiveVote} {peerId : PeerId} {approve : Bool}
    (h : (vote.vote peerId approve).1 = false) : (vote.vote peerId approve).2 = vote := by
  unfold ActiveVote.vote at h ⊢
  split_ifs at h ⊢ with hvoted
  rfl

/-- A ballot of the local peer, while the vote goes on, is counted. -/
theorem Voting.vote_counts {b t : Backend} {vote : ActiveVote} {env : Env}
    {room : Finset PeerId} (h : Voting b vote t)
    (hnone : b.music.verdict b.roomPeerCount vote = none)
    (hserves : env.Serves room b.localPeerId vote.proposal.voteId) (approve : Bool) :
    Counts b (vote.vote b.localPeerId approve).2 t (.command env (.vote approve)) := by
  have hcast : t.music.castVote t.localPeerId approve =
      (some (if (vote.vote b.localPeerId approve).1 then .accepted vote.proposal.voteId
        else .duplicate vote.proposal.voteId),
        { b.music with activeVote := some (vote.vote b.localPeerId approve).2 }) := by
    rw [h.music, h.samePeer]
    rfl
  have hbefore := beforeLook_vote env approve t
  have hvoting : Voting b (vote.vote b.localPeerId approve).2
      (t.changeMusic (.castVote t.localPeerId approve)) :=
    ⟨congrArg Prod.snd hcast, h.sameRoom, h.samePeer⟩
  rw [hcast] at hbefore
  cases haccepted : (vote.vote b.localPeerId approve).1 with
  | true =>
    obtain ⟨outcome, houtcome⟩ := hserves.publishes approve
    rw [haccepted, h.samePeer] at hbefore
    have hlook : beforeLook (.command env (.vote approve)) t = .ok true
        ((t.changeMusic (.castVote b.localPeerId approve)).recordPublished
          (.voteBallot vote.proposal.voteId b.localPeerId approve) outcome) :=
      hbefore.trans (bind_eq_ok.2 ⟨_, _, publishRoomWire_of_ok houtcome _, rfl⟩)
    rw [h.samePeer] at hvoting
    refine .of_look (u := (t.changeMusic (.castVote b.localPeerId approve)).recordPublished
      (.voteBallot vote.proposal.voteId b.localPeerId approve) outcome) ?_
      ⟨hvoting.music, hvoting.sameRoom, hvoting.samePeer⟩ rfl
    unfold Event.look
    rw [hlook]
  | false =>
    rw [haccepted] at hbefore
    obtain ⟨hresolution, hstep⟩ := vote_of_not_looking hbefore
    rw [ActiveVote.vote_of_not_accepted haccepted] at hvoting ⊢
    refine ⟨hresolution.trans hnone.symm, fun _ => hstep ▸ hvoting, fun resolution hsome => ?_⟩
    rw [hnone] at hsome
    cases hsome

/-- A ballot that is delivered while the vote goes on is counted. -/
theorem Voting.ballotEvent_counts {b t : Backend} {vote : ActiveVote} {env : Env}
    {room : Finset PeerId} (h : Voting b vote t)
    (hnone : b.music.verdict b.roomPeerCount vote = none)
    (hserves : env.Serves room b.localPeerId vote.proposal.voteId) {peerId : PeerId}
    (hvoter : peerId ∈ room) (approve : Bool) :
    Counts b (vote.vote peerId approve).2 t
      (ballotEvent b.localPeerId vote.proposal.voteId (env, peerId, approve)) := by
  unfold ballotEvent
  dsimp only
  split
  · rename_i hown
    subst hown
    exact h.vote_counts hnone hserves approve
  · have hcast : (t.music.castVoteFor vote.proposal.voteId peerId approve).2 =
        { b.music with activeVote := some (vote.vote peerId approve).2 } := by
      rw [h.music]
      unfold MusicState.castVoteFor
      dsimp only
      rw [if_neg (not_not.2 rfl)]
    exact .of_look (look_voteBallot (hserves.parses peerId hvoter))
      ⟨hcast, h.sameRoom, h.samePeer⟩ rfl

/-! ## The outcome -/

/-- The box of a proposal on which something has been said. -/
def talliedVote (proposal : VoteProposal) (deadline : Instant) (said : List (PeerId × Bool)) :
    ActiveVote where
  proposal := proposal
  approvals := sayers said true
  rejections := sayers said false
  deadline := deadline

/-- A tally is such a box. -/
theorem Tallied.eq_talliedVote {said : List (PeerId × Bool)} {vote : ActiveVote}
    (h : Tallied said vote) : vote = talliedVote vote.proposal vote.deadline said := by
  obtain ⟨proposal, approvals, rejections, deadline⟩ := vote
  obtain ⟨happrovals, hrejections⟩ := h
  dsimp only at happrovals hrejections
  subst happrovals hrejections
  rfl

/-- A ballot can be delivered: its voter is a member of the room, and its environment serves. -/
def Delivers (room : Finset PeerId) (localPeerId : PeerId) (voteId : String)
    (ballot : Env × PeerId × Bool) : Prop :=
  ballot.2.1 ∈ room ∧ ballot.1.Serves room localPeerId voteId

section Outcome

variable {room : Finset PeerId} {voteId : String}

/-- Ballots that come when no vote is open change nothing and resolve nothing. -/
theorem run_ballots_of_noVote {b : Backend} (hvote : b.music.activeVote = none)
    {ballots : List (Env × PeerId × Bool)}
    (hballots : ∀ ballot ∈ ballots, Delivers room b.localPeerId voteId ballot) :
    b.resolutions (ballots.map (ballotEvent b.localPeerId voteId)) = [] ∧
      b.run (ballots.map (ballotEvent b.localPeerId voteId)) = b := by
  induction ballots with
  | nil => exact ⟨rfl, rfl⟩
  | cons ballot ballots ih =>
    obtain ⟨env, peerId, approve⟩ := ballot
    obtain ⟨hvoter, hserves⟩ := hballots _ List.mem_cons_self
    have hfirst : (ballotEvent b.localPeerId voteId (env, peerId, approve)).resolution b = none ∧
        b.step (ballotEvent b.localPeerId voteId (env, peerId, approve)) = b :=
      ballotEvent_of_noVote hvote (hserves.parses peerId hvoter)
    obtain ⟨hrest, hrun⟩ := ih fun other hother => hballots other (List.mem_cons_of_mem _ hother)
    constructor
    · rw [List.map_cons]
      change ((ballotEvent b.localPeerId voteId (env, peerId, approve)).resolution b).toList ++
        (b.step (ballotEvent b.localPeerId voteId (env, peerId, approve))).resolutions _ = []
      rw [hfirst.1, hfirst.2]
      exact hrest
    · change (b.step (ballotEvent b.localPeerId voteId (env, peerId, approve))).run _ = b
      rw [hfirst.2]
      exact hrun

/-- The ballots that come while a vote goes on resolve the verdict on all of them. -/
theorem Voting.resolutions_eq {b t : Backend} {vote : ActiveVote} {said : List (PeerId × Bool)}
    (h : Voting b vote t) (hnone : b.music.verdict b.roomPeerCount vote = none)
    (htally : Tallied said vote) {ballots : List (Env × PeerId × Bool)}
    (hballots : ∀ ballot ∈ ballots,
      Delivers b.roomPeerIds b.localPeerId vote.proposal.voteId ballot)
    (hsaid : ∀ peerId ∈ said.map Prod.fst, peerId ∈ b.roomPeerIds) :
    t.resolutions (ballots.map (ballotEvent b.localPeerId vote.proposal.voteId)) =
      (b.music.verdict b.roomPeerCount (talliedVote vote.proposal vote.deadline
        (said ++ ballots.map Prod.snd))).toList := by
  induction ballots generalizing t vote said with
  | nil =>
    rw [List.map_nil, List.map_nil, List.append_nil, ← htally.eq_talliedVote, hnone]
    rfl
  | cons ballot ballots ih =>
    obtain ⟨env, peerId, approve⟩ := ballot
    obtain ⟨hvoter, hserves⟩ := hballots _ List.mem_cons_self
    have hcounts := h.ballotEvent_counts hnone hserves hvoter approve
    have htally' := htally.cast peerId approve
    have hbehind := fun other hother => hballots other (List.mem_cons_of_mem _ hother)
    have hheard : ∀ other ∈ (said ++ [(peerId, approve)]).map Prod.fst,
        other ∈ b.roomPeerIds := by
      intro other hother
      rw [List.map_append, List.mem_append] at hother
      rcases hother with hother | hother
      · exact hsaid other hother
      · rwa [List.mem_singleton.1 hother]
    have hall : said ++ ((env, peerId, approve) :: ballots).map Prod.snd =
        said ++ [(peerId, approve)] ++ ballots.map Prod.snd := by simp
    change ((ballotEvent b.localPeerId vote.proposal.voteId (env, peerId, approve)).resolution
      t).toList ++ (t.step (ballotEvent b.localPeerId vote.proposal.voteId
        (env, peerId, approve))).resolutions _ = _
    rw [hcounts.resolution]
    cases hverdict : b.music.verdict b.roomPeerCount (vote.vote peerId approve).2 with
    | none =>
      have hrest := ih (hcounts.goesOn hverdict) hverdict htally' (by simpa using hbehind) hheard
      rw [ActiveVote.vote_proposal, ActiveVote.vote_deadline] at hrest
      rw [hall, ← hrest]
      rfl
    | some resolution =>
      have hpeer : (t.step (ballotEvent b.localPeerId vote.proposal.voteId
          (env, peerId, approve))).localPeerId = b.localPeerId :=
        (t.run_localPeerId [_]).trans h.samePeer
      have hrest := (run_ballots_of_noVote (hcounts.closes _ hverdict)
        (hpeer.symm ▸ hbehind)).1
      rw [hpeer] at hrest
      have hstable : b.music.verdict b.roomPeerCount (talliedVote vote.proposal vote.deadline
          (said ++ [(peerId, approve)] ++ ballots.map Prod.snd)) = some resolution := by
        refine MusicState.verdict_stable (ActiveVote.vote_proposal vote peerId approve).symm
          ?_ ?_ ?_ hverdict
        · rw [htally'.approvals]
          exact sayers_subset_append _ _ _
        · rw [htally'.rejections]
          exact sayers_subset_append _ _ _
        · refine card_sayers_add_le (fun other hother => ?_) (by decide)
          rw [List.map_append, List.mem_append] at hother
          rcases hother with hother | hother
          · exact hheard other hother
          · obtain ⟨_, hword, rfl⟩ := List.mem_map.1 hother
            obtain ⟨ballot, hmem, rfl⟩ := List.mem_map.1 hword
            exact (hbehind ballot hmem).1
      rw [hrest, hall, hstable]
      rfl

/-- The proposal is not looked at when it arrives. -/
theorem look_voteProposal (b : Backend) (env : Env) (source : PeerId) (proposal : VoteProposal) :
    (Event.wire env source (.voteProposal proposal)).look b = none := by
  unfold Event.look beforeLook applyBeforeLook
  dsimp only
  cases validateWireSource env (.voteProposal proposal) source with
  | error error => rfl
  | ok _ =>
    unfold wireBeforeLook
    simp only [bind, EStateM.bind]
    cases handleWireMessage env (.voteProposal proposal) b <;> rfl

/-- A proposal that does not fit the state changes nothing; another one opens a vote. -/
theorem step_voteProposal {b : Backend} {env : Env} {proposal : VoteProposal}
    (hvote : b.music.activeVote = none) (hother : proposal.proposer ≠ b.localPeerId)
    (hparses : env.parsePeerId proposal.proposer = some proposal.proposer) :
    ((b.music.staleVoteReason proposal).isSome = true →
      b.step (.wire env proposal.proposer (.voteProposal proposal)) = b) ∧
    (b.music.staleVoteReason proposal = none →
      Voting b (.opened proposal (env.now + voteTimeout))
        (b.step (.wire env proposal.proposer (.voteProposal proposal)))) := by
  have hstep : b.step (.wire env proposal.proposer (.voteProposal proposal)) =
      finalState (handleVoteProposal env proposal) b := by
    change finalState (applyWireMessage env proposal.proposer (.voteProposal proposal)) b = _
    unfold applyWireMessage
    rw [validateWireSource_of_parses hparses]
    rfl
  rw [hstep]
  unfold handleVoteProposal
  rw [finalState_get_bind, if_neg hother]
  have hfree : ¬ b.music.activeVote.isSome = true := by
    rw [hvote]
    exact Bool.false_ne_true
  constructor
  · intro hstale
    obtain ⟨reason, hreason⟩ := Option.isSome_iff_exists.1 hstale
    have hreceived : b.music.receiveVoteProposal proposal (env.now + voteTimeout) =
        .error reason := by
      unfold MusicState.receiveVoteProposal
      rw [if_neg hfree, hreason]
    rw [hreceived]
    rfl
  · intro hfits
    have hreceived : b.music.receiveVoteProposal proposal (env.now + voteTimeout) =
        .ok (b.music.openVote proposal (env.now + voteTimeout)) := by
      unfold MusicState.receiveVoteProposal
      rw [if_neg hfree, hfits]
    rw [hreceived]
    dsimp only
    rw [finalState_music_bind]
    refine Voting.requestQueueForVoteContext_keeps env proposal _ ⟨?_, rfl, rfl⟩
    simp only [Backend.changeMusic, MusicOp.apply, hreceived]
    rfl

/-- Within its room, a proposal alone is not decided. -/
theorem verdict_opened {m : MusicState} {room : Finset PeerId} {proposal : VoteProposal}
    {localPeerId : PeerId} (hproposer : proposal.proposer ∈ room) (hlocal : localPeerId ∈ room)
    (hother : proposal.proposer ≠ localPeerId) (deadline : Instant) :
    m.verdict room.card (.opened proposal deadline) = none := by
  have htwo : 1 < room.card := Finset.one_lt_card.2 ⟨_, hproposer, _, hlocal, hother⟩
  have hopened : ActiveVote.opened proposal deadline =
      { proposal, approvals := {proposal.proposer}, rejections := ∅, deadline } := by
    simp [ActiveVote.opened, ActiveVote.new, ActiveVote.vote]
  rw [MusicState.verdict_eq, hopened]
  dsimp only
  rw [Finset.card_singleton, Finset.card_empty, if_neg (by omega), if_neg (by omega)]

/-- The outcome at a peer: nothing if the proposal does not fit its state, and otherwise the verdict
on what has been said behind the proposal. -/
theorem Receives.resolutions_eq {proposal : VoteProposal} {b : Backend} {order : DeliveryOrder}
    (h : Receives room proposal b order) :
    b.resolutions (order.events b.localPeerId proposal) =
      match b.music.staleVoteReason proposal with
      | some _ => []
      | none => (b.music.verdict room.card (talliedVote proposal (order.opening.now + voteTimeout)
          ((proposal.proposer, true) :: order.behind.map Prod.snd))).toList := by
  have hdelivers : ∀ ballot ∈ order.early ++ order.behind,
      Delivers room b.localPeerId proposal.voteId ballot := fun ballot hmem =>
    ⟨h.voters _ (List.mem_map_of_mem hmem),
      h.serves _ (List.mem_cons_of_mem _ (List.mem_map_of_mem hmem))⟩
  have hopening := h.serves order.opening List.mem_cons_self
  obtain ⟨hearly, hrun⟩ := run_ballots_of_noVote h.noVote fun ballot hmem =>
    hdelivers ballot (List.mem_append_left _ hmem)
  have hbehind : ∀ ballot ∈ order.behind, Delivers room b.localPeerId proposal.voteId ballot :=
    fun ballot hmem => hdelivers ballot (List.mem_append_right _ hmem)
  obtain ⟨hstale, hfits⟩ := step_voteProposal h.noVote h.other
    (hopening.parses _ h.proposer)
  have hsplit : b.resolutions (order.events b.localPeerId proposal) =
      (b.step (.wire order.opening proposal.proposer (.voteProposal proposal))).resolutions
        (order.behind.map (ballotEvent b.localPeerId proposal.voteId)) := by
    have hnothing : (Event.wire order.opening proposal.proposer
        (.voteProposal proposal)).resolution b = none := by
      unfold Event.resolution
      rw [look_voteProposal]
      rfl
    unfold DeliveryOrder.events Backend.resolutions
    rw [outputs_append]
    change b.resolutions _ ++ (b.run (order.early.map _)).resolutions _ = _
    rw [hearly, hrun, List.nil_append]
    change ((Event.wire order.opening proposal.proposer
      (.voteProposal proposal)).resolution b).toList ++ _ = _
    rw [hnothing]
    rfl
  rw [hsplit]
  cases hreason : b.music.staleVoteReason proposal with
  | some reason =>
    rw [hstale (by rw [hreason]; rfl)]
    exact (run_ballots_of_noVote h.noVote hbehind).1
  | none =>
    have hlocal : b.localPeerId ∈ room := h.seesRoom ▸ Finset.mem_insert_self ..
    have hnone : b.music.verdict b.roomPeerCount
        (.opened proposal (order.opening.now + voteTimeout)) = none := by
      unfold Backend.roomPeerCount
      rw [h.seesRoom]
      exact verdict_opened h.proposer hlocal h.other _
    have houtcome := (hfits hreason).resolutions_eq hnone (.opened proposal _)
      (h.seesRoom ▸ hbehind) (by simpa using h.seesRoom ▸ h.proposer)
    unfold Backend.roomPeerCount at houtcome
    rw [h.seesRoom] at houtcome
    exact houtcome

end Outcome

/-! ## A room of four -/

/-- The room. -/
def fourMembers : Finset PeerId := {"peer", "third", "left", "right"}

/-- A queued item of another peer. -/
def queuedItem : QueueItem where
  itemId := "q"
  track := ⟨"x:0", "bilibili", "x", 0, 240000⟩
  requestedBy := "peer"
  addedAtMicros := 100

/-- A member, connected to the others, that has taken over the queue of one of them. -/
def memberOfFour (localPeerId : PeerId) (others : List PeerId) : Backend :=
  (Backend.new localPeerId ∅ false 0).run
    (others.map (.connectionEstablished (.plain 150)) ++
      [.wire (.plain 200) "peer" (.queueState ⟨1, 100, "peer", [queuedItem]⟩)])

/-- The proposal to remove the item. -/
def removeProposal : VoteProposal where
  voteId := "vote"
  proposer := "peer"
  action := .remove "q"
  queueVersion := 1
  playbackSessionId := none
  createdAtMicros := 300

/-- The third member and the left one approve. -/
def inOrder : DeliveryOrder :=
  ⟨[], .plain 310, [(.plain 400, "third", true), (.plain 500, "left", true)]⟩

/-- The same the other way round. -/
def theOtherWay : DeliveryOrder :=
  ⟨[], .plain 310, [(.plain 400, "left", true), (.plain 500, "third", true)]⟩

/-- The approval of the third member overtakes the proposal. -/
def overtaking : DeliveryOrder :=
  ⟨[(.plain 250, "third", true)], .plain 310, [(.plain 500, "left", true)]⟩

/-- A plain environment serves a room whose members have names. -/
theorem Env.plain_serves {room : Finset PeerId} (h : "" ∉ room) (micros : Int)
    (localPeerId : PeerId) (voteId : String) :
    (Env.plain micros).Serves room localPeerId voteId where
  parses peerId hmember := by
    have hname : peerId ≠ "" := fun hempty => h (hempty ▸ hmember)
    exact if_neg hname
  publishes _ := ⟨.published, rfl⟩

/-- The left member receives the vote in order. -/
theorem left_receives :
    Receives fourMembers removeProposal (memberOfFour "left" ["peer", "third", "right"])
      inOrder where
  noVote := rfl
  seesRoom := by decide
  other := by decide
  proposer := by decide
  voters := by decide
  oneEach := by decide
  serves env henv := by
    simp only [DeliveryOrder.envs, inOrder, List.nil_append, List.map_cons, List.map_nil,
      List.mem_cons, List.not_mem_nil, or_false] at henv
    rcases henv with rfl | rfl | rfl <;> exact Env.plain_serves (by decide) _ _ _

/-- The right member may receive it the other way round. -/
theorem right_receives :
    Receives fourMembers removeProposal (memberOfFour "right" ["peer", "third", "left"])
      theOtherWay where
  noVote := rfl
  seesRoom := by decide
  other := by decide
  proposer := by decide
  voters := by decide
  oneEach := by decide
  serves env henv := by
    simp only [DeliveryOrder.envs, theOtherWay, List.nil_append, List.map_cons, List.map_nil,
      List.mem_cons, List.not_mem_nil, or_false] at henv
    rcases henv with rfl | rfl | rfl <;> exact Env.plain_serves (by decide) _ _ _

/-- Or with one ballot before the proposal. -/
theorem right_receives_overtaking :
    Receives fourMembers removeProposal (memberOfFour "right" ["peer", "third", "left"])
      overtaking where
  noVote := rfl
  seesRoom := by decide
  other := by decide
  proposer := by decide
  voters := by decide
  oneEach := by decide
  serves env henv := by
    simp only [DeliveryOrder.envs, overtaking, List.cons_append, List.nil_append, List.map_cons,
      List.map_nil, List.mem_cons, List.not_mem_nil, or_false] at henv
    rcases henv with rfl | rfl | rfl <;> exact Env.plain_serves (by decide) _ _ _

/-- The two members hold the same queue. -/
theorem members_sameQueue :
    (memberOfFour "left" ["peer", "third", "right"]).music.SameQueue
      (memberOfFour "right" ["peer", "third", "left"]).music :=
  ⟨by decide, by decide, by decide⟩

/-! ## Main result -/

/-- Whether a proposal fits depends on the queue and the playback only. -/
theorem MusicState.staleVoteReason_congr {m m' : MusicState} (hqueue : m.SameQueue m')
    (hplayback : m.playbackState = m'.playbackState) (proposal : VoteProposal) :
    m.staleVoteReason proposal = m'.staleVoteReason proposal := by
  unfold staleVoteReason
  rw [hqueue.items, hqueue.version, hplayback]

/-- Two members of a room with the same queue and playback get the proposal and at most one ballot
of each member, in any two orders.  If the same ballots come behind the proposal at both, they
reach the same outcome. -/
theorem vote_outcome_of_same_behind {room : Finset PeerId} {proposal : VoteProposal}
    {left right : Backend} {leftOrder rightOrder : DeliveryOrder}
    (hleft : Receives room proposal left leftOrder)
    (hright : Receives room proposal right rightOrder)
    (hqueue : left.music.SameQueue right.music)
    (hplayback : left.music.playbackState = right.music.playbackState)
    (hbehind : (leftOrder.behind.map Prod.snd).Perm (rightOrder.behind.map Prod.snd)) :
    left.resolutions (leftOrder.events left.localPeerId proposal) =
      right.resolutions (rightOrder.events right.localPeerId proposal) := by
  have honce : ((leftOrder.behind.map Prod.snd).map Prod.fst).Nodup :=
    hleft.oneEach.sublist
      (((List.sublist_append_right leftOrder.early leftOrder.behind).map Prod.snd).map Prod.fst)
  have hsayers : ∀ word,
      sayers ((proposal.proposer, true) :: leftOrder.behind.map Prod.snd) word =
        sayers ((proposal.proposer, true) :: rightOrder.behind.map Prod.snd) word :=
    sayers_cons_perm honce hbehind _
  rw [hleft.resolutions_eq, hright.resolutions_eq,
    MusicState.staleVoteReason_congr hqueue hplayback]
  cases right.music.staleVoteReason proposal with
  | some reason => rfl
  | none =>
    exact congrArg Option.toList (MusicState.verdict_congr hqueue.version rfl (hsayers true)
      (hsayers false))

/-- The main result for the two members. -/
theorem vote_outcome_of_same_behind_fourMembers :
    (memberOfFour "left" ["peer", "third", "right"]).resolutions
        (inOrder.events "left" removeProposal) =
      (memberOfFour "right" ["peer", "third", "left"]).resolutions
        (theOtherWay.events "right" removeProposal) :=
  vote_outcome_of_same_behind left_receives right_receives members_sameQueue (by decide)
    (by decide)

/-- If one ballot overtakes the proposal at one of them, the outcomes differ. -/
theorem overtaking_ballot_changes_outcome :
    ¬ ∀ (room : Finset PeerId) (proposal : VoteProposal) (left right : Backend)
        (leftOrder rightOrder : DeliveryOrder), Receives room proposal left leftOrder →
      Receives room proposal right rightOrder → left.music.SameQueue right.music →
      left.music.playbackState = right.music.playbackState →
      leftOrder.ballots.Perm rightOrder.ballots →
      left.resolutions (leftOrder.events left.localPeerId proposal) =
        right.resolutions (rightOrder.events right.localPeerId proposal) := by
  intro h
  have hsame := h _ _ _ _ _ _ left_receives right_receives_overtaking members_sameQueue
    (by decide) (by decide)
  revert hsame
  decide

end LightEar
