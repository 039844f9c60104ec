import Mathlib.Data.Finset.Card
import Mathlib.Data.List.AList
import Mathlib.Data.Rat.Floor

/-!
# The data of a listening room

A room is a set of peers that share a queue of tracks, one playback, votes and a chat.  This
file holds the records the peers exchange and keep, field by field as the program has them, the
fixed-width arithmetic they are computed with, and the ballot box of one vote.

Wall-clock times are microseconds (`Int`, bounded by `i64` where the program saturates),
monotonic instants are nanoseconds (`Nat`), and positions inside a track are milliseconds
(`Nat`, bounded by `u64`).  Peers are named by the text of their identifier.
-/

namespace LightEar

/-- The text of a peer identifier. -/
abbrev PeerId := String

/-- A reading of the monotonic clock, in nanoseconds. -/
abbrev Instant := Nat

/-- The nanoseconds of a whole number of milliseconds. -/
def millis (n : Nat) : Instant := n * 1000000

/-! ## Fixed-width arithmetic -/

/-- The largest `u64`. -/
def u64Max : Nat := 2 ^ 64 - 1

/-- The largest `i64`. -/
def i64Max : Int := 2 ^ 63 - 1

/-- The smallest `i64`. -/
def i64Min : Int := -2 ^ 63

/-- `u64::saturating_add`. -/
def satAdd (a b : Nat) : Nat := min (a + b) u64Max

/-- The nearest `i64`, where saturating signed arithmetic lands. -/
def satI64 (t : Int) : Int := max i64Min (min t i64Max)

/-- `u64::try_from(t).unwrap_or(0)` of a signed time. -/
def microsToVersion (t : Int) : Nat := t.toNat

/-- Adding one goes up except at the top of the range. -/
theorem lt_satAdd_one_iff {a : Nat} : a < satAdd a 1 ↔ a < u64Max := by
  unfold satAdd
  omega

/-- So does adding one twice. -/
theorem lt_satAdd_one_one_iff {a : Nat} : a < satAdd (satAdd a 1) 1 ↔ a < u64Max := by
  unfold satAdd
  omega

/-- A saturating increment changes nothing only at the bound. -/
theorem satAdd_one_eq_self_iff {a : Nat} : satAdd a 1 = a ↔ a = u64Max := by
  unfold satAdd
  omega

theorem satAdd_one_ne_zero (a : Nat) : satAdd a 1 ≠ 0 := by
  unfold satAdd u64Max
  omega

/-! ## Tracks, queue and playback -/

/-- A track, as the peers know it. -/
structure PlaybackTrack where
  /-- Names the track. -/
  trackId : String
  /-- The kind of media source. -/
  sourceKind : String
  /-- The source's own identifier. -/
  bvid : String
  /-- The part of a source with several parts. -/
  part : Nat
  /-- The length of the track. -/
  durationMs : Nat
  deriving DecidableEq, Repr

/-- A queued request for a track. -/
structure QueueItem where
  /-- Names the request. -/
  itemId : String
  /-- The requested track. -/
  track : PlaybackTrack
  /-- The peer that asked for it. -/
  requestedBy : PeerId
  /-- When it was asked for. -/
  addedAtMicros : Int
  deriving DecidableEq, Repr

/-- A whole queue on the wire. -/
structure QueueState where
  /-- How often the queue has changed. -/
  version : Nat
  /-- The stamp of the last change. -/
  updatedAtMicros : Int
  /-- The peer that sends the snapshot. -/
  updatedBy : PeerId
  /-- The items, front first. -/
  items : List QueueItem
  deriving DecidableEq, Repr

/-- What plays, where it stands and who leads it. -/
structure PlaybackState where
  /-- One listening of one track. -/
  sessionId : String
  /-- The peer whose state the others follow. -/
  leaderPeerId : PeerId
  /-- The loaded track; none while the room is idle. -/
  track : Option PlaybackTrack
  /-- The peer that asked for the track. -/
  trackRequestedBy : Option PeerId
  /-- The leader's count of playback changes. -/
  stateVersion : Nat
  /-- When the leader stamped this state. -/
  issuedAtMicros : Int
  /-- Whether the track runs. -/
  playing : Bool
  /-- The position at the anchor. -/
  positionMs : Nat
  /-- The time from which the position runs. -/
  anchorTimeMicros : Int
  /-- The speed. -/
  rate : Rat
  deriving DecidableEq, Repr

/-! ## Votes -/

/-- What a vote may decide. -/
inductive VoteAction where
  | pause
  | resume
  | skip
  | seek (positionMs : Nat)
  | remove (itemId : String)
  | move (itemId : String) (toIndex : Nat)
  deriving DecidableEq, Repr

namespace VoteAction

/-- The actions about the queue. -/
def isQueueAction : VoteAction → Bool
  | remove _ | move _ _ => true
  | pause | resume | skip | seek _ => false

/-- The actions about the current playback. -/
def isPlaybackAction (action : VoteAction) : Bool := !action.isQueueAction

end VoteAction

/-- A proposal, with the queue version and the session it is about. -/
structure VoteProposal where
  /-- Names the vote. -/
  voteId : String
  /-- The peer that started it. -/
  proposer : PeerId
  /-- What is to be done. -/
  action : VoteAction
  /-- The proposer's queue version at that time. -/
  queueVersion : Nat
  /-- The proposer's session at that time. -/
  playbackSessionId : Option String
  /-- When the vote was started. -/
  createdAtMicros : Int
  deriving DecidableEq, Repr

/-- The ballot box of the vote in progress. -/
structure ActiveVote where
  /-- The proposal voted on. -/
  proposal : VoteProposal
  /-- The peers that said yes. -/
  approvals : Finset PeerId
  /-- The peers that said no. -/
  rejections : Finset PeerId
  /-- When the vote lapses. -/
  deadline : Instant
  deriving DecidableEq

/-- How a vote stands. -/
inductive VoteTerminalOutcome where
  | pending
  | passed
  | rejected
  deriving DecidableEq, Repr

/-- More than half of the room. -/
def majorityThreshold (totalPeers : Nat) : Nat := totalPeers / 2 + 1

/-- Reaching the threshold is having a strict majority. -/
theorem majorityThreshold_le_iff {total k : Nat} : majorityThreshold total ≤ k ↔ total < 2 * k := by
  unfold majorityThreshold
  omega

namespace ActiveVote

/-- A fresh ballot box. -/
def new (proposal : VoteProposal) (deadline : Instant) : ActiveVote where
  proposal := proposal
  approvals := ∅
  rejections := ∅
  deadline := deadline

/-- Records a ballot unless the peer has voted already; tells whether it did. -/
def vote (v : ActiveVote) (peerId : PeerId) (approve : Bool) : Bool × ActiveVote :=
  if peerId ∈ v.approvals ∨ peerId ∈ v.rejections then
    (false, v)
  else if approve then
    (true, { v with approvals := insert peerId v.approvals })
  else
    (true, { v with rejections := insert peerId v.rejections })

/-- The number of yes ballots. -/
def approvalCount (v : ActiveVote) : Nat := v.approvals.card

/-- The ballots still to come in a room of the given size. -/
def pendingCount (v : ActiveVote) (eligiblePeers : Nat) : Nat :=
  eligiblePeers - (v.approvals.card + v.rejections.card)

/-- Passed at the threshold, rejected once it is out of reach. -/
def terminalOutcome (v : ActiveVote) (threshold eligiblePeers : Nat) : VoteTerminalOutcome :=
  if threshold ≤ v.approvals.card then
    .passed
  else if v.approvals.card + v.pendingCount eligiblePeers < threshold then
    .rejected
  else
    .pending

/-- A vote passes with a strict majority of the given size. -/
theorem terminalOutcome_eq_passed_iff {v : ActiveVote} {total : Nat} :
    v.terminalOutcome (majorityThreshold total) total = .passed ↔
      total < 2 * v.approvals.card := by
  rw [← majorityThreshold_le_iff]
  unfold terminalOutcome
  split_ifs with hpassed hrejected
  · exact ⟨fun _ => hpassed, fun _ => rfl⟩
  · exact ⟨nofun, fun h => absurd h hpassed⟩
  · exact ⟨nofun, fun h => absurd h hpassed⟩

/-- It is rejected once half of that size has said no, unless it passes. -/
theorem terminalOutcome_eq_rejected_iff {v : ActiveVote} {total : Nat} :
    v.terminalOutcome (majorityThreshold total) total = .rejected ↔
      2 * v.approvals.card ≤ total ∧ total ≤ 2 * v.rejections.card := by
  unfold terminalOutcome pendingCount
  split_ifs with hpassed hrejected
  · rw [majorityThreshold_le_iff] at hpassed
    exact ⟨nofun, fun h => absurd hpassed (by omega)⟩
  · rw [majorityThreshold_le_iff] at hpassed
    unfold majorityThreshold at hrejected
    exact ⟨fun _ => by omega, fun _ => rfl⟩
  · rw [majorityThreshold_le_iff] at hpassed
    unfold majorityThreshold at hrejected
    exact ⟨nofun, fun h => absurd h (by omega)⟩

end ActiveVote

end LightEar
