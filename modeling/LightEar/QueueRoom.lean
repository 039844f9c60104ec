import LightEar.Backend.Step
import LightEar.Foundation.GuardedRun
import Mathlib.Logic.Function.Basic

/-!
# The queue of a room

Every peer keeps a queue of its own.  A peer changes its queue by enqueueing, by removing an item
of its own, by committing a start that it leads and by executing a passed vote; each change gives
the queue a new key and is published as a snapshot of the whole queue.  A snapshot that reaches a
peer replaces the queue there if its key is greater.

`QueueRoom` runs the functions of the music state for any number of peers.  Which readings the
clocks give, when a vote is executed and which of the snapshots ever sent arrives where and when
are all part of the action, so that a list of actions is any interleaving at all.
-/

namespace LightEar

open Foundation

/-! ## The room -/

/-- One change of a queue: who made it, which vote it executes, and its stamp. -/
structure QueueChange where
  /-- The peer whose queue changed. -/
  peer : PeerId
  /-- The proposal that was executed; none for a change of the peer's own. -/
  proposal : Option VoteProposal
  /-- The reading of the clock, or the time of the proposal. -/
  stamp : Int
  /-- The queue before. -/
  before : QueueState
  /-- The queue after, as it is published. -/
  after : QueueState
  deriving DecidableEq, Repr

/-- The copies of all peers and what has been sent; the last four fields only observe. -/
structure QueueRoom where
  /-- The music state of each peer. -/
  replica : PeerId → MusicState
  /-- The snapshots sent so far. -/
  published : List QueueState
  /-- The proposals made so far. -/
  proposals : List VoteProposal
  /-- The changes made so far. -/
  changes : List QueueChange
  /-- The readings of the clocks so far. -/
  readings : List Int
  /-- The items enqueued so far. -/
  enqueued : List QueueItem
  /-- Which snapshot has reached which peer. -/
  received : List (PeerId × QueueState)

/-- What may happen to the queues of a room. -/
inductive QueueAction where
  | enqueue (peer : PeerId) (itemId : String) (track : PlaybackTrack)
      (addedMicros publishedMicros : Int)
  | removeOwn (peer : PeerId) (index : Nat) (micros : Int)
  | commitStart (peer : PeerId) (queueItemId : Option String)
      (removedMicros publishedMicros : Int)
  | propose (peer : PeerId) (voteId : String) (action : VoteAction) (micros : Int)
  | execute (peer : PeerId) (proposal : VoteProposal)
  | respond (peer : PeerId)
  | deliver (peer : PeerId) (state : QueueState)
  deriving DecidableEq, Repr

/-- A track that peers enqueue. -/
def someTrack : PlaybackTrack := ⟨"x:0", "bilibili", "x", 0, 240000⟩

/-- The readings of the clock that an action makes. -/
def QueueAction.readings : QueueAction → List Int
  | enqueue _ _ _ addedMicros publishedMicros => [addedMicros, publishedMicros]
  | removeOwn _ _ micros | propose _ _ _ micros => [micros]
  | commitStart _ _ removedMicros publishedMicros => [removedMicros, publishedMicros]
  | execute _ _ | respond _ | deliver _ _ => []

/-- Executes a passed vote about the queue. -/
def MusicState.executeQueueVote (m : MusicState) (proposal : VoteProposal) : MusicState :=
  match proposal.action with
  | .remove itemId => m.executeRemove itemId proposal.createdAtMicros
  | .move itemId toIndex => m.executeMove itemId toIndex proposal.createdAtMicros
  | .pause | .resume | .skip | .seek _ => m

/-- The item a vote is about. -/
def VoteAction.itemId? : VoteAction → Option String
  | .remove itemId | .move itemId _ => some itemId
  | .pause | .resume | .skip | .seek _ => none

/-- The items after a vote that is executed over them. -/
def VoteAction.onItems (action : VoteAction) (items : List QueueItem) : List QueueItem :=
  match action with
  | .remove itemId => items.eraseP (MusicState.isItem itemId)
  | .move itemId toIndex =>
    match items.find? (MusicState.isItem itemId) with
    | none => items
    | some item =>
      let rest := items.eraseP (MusicState.isItem itemId)
      rest.insertIdx (min toIndex rest.length) item
  | .pause | .resume | .skip | .seek _ => items

/-- Executing a vote about an item that is there rewrites the items and gives the next version
and the time of the proposal. -/
theorem MusicState.executeQueueVote_eq {m : MusicState} {proposal : VoteProposal}
    (h : proposal.action.itemId?.any fun itemId => m.queue.any (isItem itemId)) :
    m.executeQueueVote proposal =
      { m with queue := proposal.action.onItems m.queue }.markQueueChanged
        proposal.createdAtMicros := by
  unfold executeQueueVote VoteAction.onItems
  cases haction : proposal.action with
  | pause => rw [haction] at h; cases h
  | resume => rw [haction] at h; cases h
  | skip => rw [haction] at h; cases h
  | seek positionMs => rw [haction] at h; cases h
  | remove itemId =>
    rw [haction] at h
    exact if_pos h
  | move itemId toIndex =>
    rw [haction] at h
    dsimp only
    unfold executeMove
    cases hfind : m.queue.find? (isItem itemId) with
    | none =>
      have hnone : m.queue.any (isItem itemId) = false := by
        rw [List.any_eq_false]
        exact List.find?_eq_none.1 hfind
      exact absurd (hnone.symm.trans h) Bool.false_ne_true
    | some item => rfl

/-- A peer has the queue of a snapshot, under its key. -/
structure MusicState.Holds (m : MusicState) (state : QueueState) : Prop where
  /-- The items are those of the snapshot. -/
  items : m.queue = state.items
  /-- The version is that of the snapshot. -/
  version : m.queueVersion = state.version
  /-- The stamp is that of the snapshot. -/
  updatedAt : m.queueUpdatedAt = state.updatedAtMicros

/-- A snapshot with a greater key is taken. -/
theorem MusicState.applyRemoteQueueState_of_newer {m : MusicState} {state : QueueState}
    (h : shouldApplyQueueState m.queueVersion m.queueUpdatedAt state = true) :
    (m.applyRemoteQueueState state).2.Holds state := by
  unfold applyRemoteQueueState invalidateStaleQueueVote
  rw [if_pos h]
  dsimp only
  split
  · exact ⟨rfl, rfl, rfl⟩
  · split
    · exact ⟨rfl, rfl, rfl⟩
    · exact ⟨rfl, rfl, rfl⟩

/-- A snapshot without a greater key is refused. -/
theorem MusicState.applyRemoteQueueState_of_not_newer {m : MusicState} {state : QueueState}
    (h : shouldApplyQueueState m.queueVersion m.queueUpdatedAt state = false) :
    (m.applyRemoteQueueState state).2 = m := by
  unfold applyRemoteQueueState
  rw [if_neg (ne_true_of_eq_false h)]

/-- Between equal keys neither queue is newer. -/
theorem MusicState.Holds.not_newer {m : MusicState} {state : QueueState} (h : m.Holds state) :
    shouldApplyQueueState m.queueVersion m.queueUpdatedAt state = false := by
  unfold shouldApplyQueueState
  rw [h.version, h.updatedAt, ← Bool.not_eq_true, isQueueStateNewer_iff]
  omega

/-- A queue that a snapshot becomes once it is delivered, at once or because it has it. -/
def MusicState.Settles (m : MusicState) (state : QueueState) : Prop :=
  (m.applyRemoteQueueState state).2.Holds state

/-- Hearing of a snapshot twice is hearing of it once. -/
theorem MusicState.Holds.settles {m : MusicState} {state : QueueState} (h : m.Holds state) :
    m.Settles state := by
  unfold Settles
  rw [applyRemoteQueueState_of_not_newer h.not_newer]
  exact h

namespace QueueRoom

/-- A room of peers that have just started. -/
def new : QueueRoom where
  replica _ := .new
  published := []
  proposals := []
  changes := []
  readings := []
  enqueued := []
  received := []

/-- The queue of a peer as it would be published. -/
def queueState (room : QueueRoom) (peer : PeerId) : QueueState :=
  (room.replica peer).queueState peer

/-- A peer changes its queue and publishes it. -/
def change (room : QueueRoom) (peer : PeerId) (proposal : Option VoteProposal) (stamp : Int)
    (m : MusicState) : QueueRoom :=
  { room with
    replica := Function.update room.replica peer m
    published := room.published ++ [m.queueState peer]
    changes := room.changes ++
      [⟨peer, proposal, stamp, room.queueState peer, m.queueState peer⟩] }

/-- The proposal of a peer to change its queue as it is. -/
def proposal (room : QueueRoom) (peer : PeerId) (voteId : String) (action : VoteAction)
    (micros : Int) : VoteProposal where
  voteId := voteId
  proposer := peer
  action := action
  queueVersion := (room.replica peer).queueVersion
  playbackSessionId := (room.replica peer).playbackState.map PlaybackState.sessionId
  createdAtMicros := micros

/-- A peer removes an item of its own. -/
def removeOwn (room : QueueRoom) (peer : PeerId) (index : Nat) (micros : Int) : QueueRoom :=
  let m := room.replica peer
  match queueItemAt m.queue index with
  | none => room
  | some item =>
    if item.requestedBy = peer then
      room.change peer none micros ((m.removeQueueIndex index).markQueueChanged micros)
    else room

/-- A vote that has been proposed is not stale at a peer, and its item is there. -/
def Executes (room : QueueRoom) (peer : PeerId) (proposal : VoteProposal) : Prop :=
  proposal ∈ room.proposals ∧ ((room.replica peer).staleVoteReason proposal).isNone = true ∧
    (proposal.action.itemId?.any fun itemId =>
      (room.replica peer).queue.any (MusicState.isItem itemId)) = true

instance (room : QueueRoom) (peer : PeerId) (proposal : VoteProposal) :
    Decidable (room.Executes peer proposal) := inferInstanceAs (Decidable (_ ∧ _ ∧ _))

/-- A peer executes a passed vote that is not stale, if the item is there. -/
def execute (room : QueueRoom) (peer : PeerId) (proposal : VoteProposal) : QueueRoom :=
  if room.Executes peer proposal then
    room.change peer (some proposal) proposal.createdAtMicros
      ((room.replica peer).executeQueueVote proposal)
  else room

/-- A snapshot that was sent reaches a peer. -/
def deliver (room : QueueRoom) (peer : PeerId) (state : QueueState) : QueueRoom :=
  if state ∈ room.published then
    { room with
      replica := Function.update room.replica peer
        ((room.replica peer).applyRemoteQueueState state).2
      received := room.received ++ [(peer, state)] }
  else room

/-- The room after an action; what is not possible changes nothing. -/
def act (room : QueueRoom) : QueueAction → QueueRoom
  | .enqueue peer itemId track addedMicros publishedMicros =>
    let item : QueueItem := ⟨itemId, track, peer, addedMicros⟩
    let m := (room.replica peer).appendQueueItem item
    { room.change peer none publishedMicros (m.markQueueChanged publishedMicros) with
      enqueued := room.enqueued ++ [item] }
  | .removeOwn peer index micros => room.removeOwn peer index micros
  | .commitStart peer queueItemId removedMicros publishedMicros =>
    let m := (room.replica peer).removeBufferQueueItem queueItemId removedMicros
    room.change peer none publishedMicros (m.markQueueChanged publishedMicros)
  | .propose peer voteId action micros =>
    let proposal := room.proposal peer voteId action micros
    if action.isQueueAction ∧ ((room.replica peer).staleVoteReason proposal).isNone then
      { room with proposals := room.proposals ++ [proposal] }
    else room
  | .execute peer proposal => room.execute peer proposal
  | .respond peer => { room with published := room.published ++ [room.queueState peer] }
  | .deliver peer state => room.deliver peer state

/-- The room after an action, with the readings of the clock noted. -/
def step (room : QueueRoom) (action : QueueAction) : QueueRoom :=
  let next := room.act action
  { next with readings := next.readings ++ action.readings }

/-- The room after a list of actions. -/
def run (room : QueueRoom) (actions : List QueueAction) : QueueRoom := actions.foldl step room

/-- No reading of the clock that an action makes has been made before. -/
def Fresh (room : QueueRoom) (action : QueueAction) : Prop :=
  action.readings.Nodup ∧ ∀ micros ∈ action.readings, micros ∉ room.readings

instance (room : QueueRoom) (action : QueueAction) : Decidable (room.Fresh action) :=
  inferInstanceAs (Decidable (_ ∧ _))

/-! ## What a change leaves alone -/

@[simp] theorem change_replica_self (room : QueueRoom) (peer : PeerId)
    (proposal : Option VoteProposal) (stamp : Int) (m : MusicState) :
    (room.change peer proposal stamp m).replica peer = m := Function.update_self _ _ _

@[simp] theorem change_replica_of_ne (room : QueueRoom) {peer other : PeerId}
    (h : other ≠ peer) (proposal : Option VoteProposal) (stamp : Int) (m : MusicState) :
    (room.change peer proposal stamp m).replica other = room.replica other :=
  Function.update_of_ne h _ _

theorem execute_of (room : QueueRoom) {peer : PeerId} {proposal : VoteProposal}
    (h : room.Executes peer proposal) :
    room.execute peer proposal = room.change peer (some proposal) proposal.createdAtMicros
      ((room.replica peer).executeQueueVote proposal) := if_pos h

theorem execute_of_not (room : QueueRoom) {peer : PeerId} {proposal : VoteProposal}
    (h : ¬ room.Executes peer proposal) : room.execute peer proposal = room := if_neg h

theorem deliver_replica_self {room : QueueRoom} {state : QueueState}
    (h : state ∈ room.published) (peer : PeerId) :
    (room.deliver peer state).replica peer =
      ((room.replica peer).applyRemoteQueueState state).2 := by
  unfold deliver
  rw [if_pos h]
  exact Function.update_self _ _ _

theorem deliver_replica_of_ne (room : QueueRoom) (state : QueueState) {peer other : PeerId}
    (h : other ≠ peer) : (room.deliver peer state).replica other = room.replica other := by
  unfold deliver
  split
  · exact Function.update_of_ne h _ _
  · rfl

@[simp] theorem deliver_published (room : QueueRoom) (peer : PeerId) (state : QueueState) :
    (room.deliver peer state).published = room.published := by
  unfold deliver
  split <;> rfl

/-- A snapshot at which all peers settle, delivered to some of them, is what these then have. -/
theorem holds_of_delivered {room : QueueRoom} {state : QueueState} (hmem : state ∈ room.published)
    (hsettles : ∀ peer, (room.replica peer).Settles state) (peers : List PeerId) (peer : PeerId)
    (h : peer ∈ peers ∨ (room.replica peer).Holds state) :
    ((room.run (peers.map (.deliver · state))).replica peer).Holds state := by
  induction peers generalizing room with
  | nil => exact h.resolve_left List.not_mem_nil
  | cons first peers ih =>
    have hheld : ∀ other, other = first ∨ (room.replica other).Holds state →
        ((room.deliver first state).replica other).Holds state := by
      intro other hother
      by_cases hfirst : other = first
      · rw [hfirst, deliver_replica_self hmem]
        exact hsettles first
      · rw [deliver_replica_of_ne room state hfirst]
        exact hother.resolve_left hfirst
    refine ih ?_ ?_ ?_
    · change state ∈ (room.deliver first state).published
      rw [deliver_published]
      exact hmem
    · intro other
      change ((room.deliver first state).replica other).Settles state
      by_cases hfirst : other = first
      · exact (hheld other (.inl hfirst)).settles
      · rw [deliver_replica_of_ne room state hfirst]
        exact hsettles other
    · change peer ∈ peers ∨ ((room.deliver first state).replica peer).Holds state
      rcases h with h | h
      · rcases List.mem_cons.1 h with rfl | h
        · exact .inr (hheld peer (.inl rfl))
        · exact .inl h
      · exact .inr (hheld peer (.inr h))

end QueueRoom

end LightEar
