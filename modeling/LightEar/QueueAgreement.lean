import LightEar.EnqueueChain
import LightEar.QueueClock
import LightEar.QueueKeys

/-!
# Agreement on the queue

Peers change their queues side by side, and what one sends may reach another late, twice or never.
As long as every change is stamped ahead of what it replaces, the key of a peer only goes up, so a
peer never stands below what it has made or has been told.  Peers that have been told of every
change, or of something that is as new, therefore stand at the same key, the greatest of all, and
under one key there is one queue.

Which changes a peer has been told of does not depend on who told it: a snapshot that another peer
sends on request counts as well.
-/

namespace LightEar

open Foundation

/-! ## Keys that go up -/

theorem QueueState.not_above_trans {a b c : QueueState} (h : ¬ a.Above b) (h' : ¬ b.Above c) :
    ¬ a.Above c := by
  unfold Above at *
  rw [isQueueStateNewer_iff] at *
  omega

/-- Of two snapshots with different keys one is above the other. -/
theorem QueueState.sameKey_of_not_above {a b : QueueState} (h : ¬ a.Above b) (h' : ¬ b.Above a) :
    SameKey a b := by
  unfold Above at h h'
  rw [isQueueStateNewer_iff] at h h'
  exact ⟨by omega, by omega⟩

theorem SameKey.not_above {a b : QueueState} (h : SameKey a b) : ¬ a.Above b := by
  unfold QueueState.Above
  rw [isQueueStateNewer_iff, h.1, h.2]
  omega

/-- A marked change that is stamped ahead goes up. -/
theorem QueueChange.Marked.above {c : QueueChange} (h : c.Marked) (hahead : c.StampedAhead) :
    c.after.Above c.before := h.newer_iff.2 hahead

/-- A peer to whom a snapshot is delivered is not below the snapshot afterwards, nor below what it
had before. -/
theorem MusicState.not_above_applyRemoteQueueState (m : MusicState) (peer : PeerId)
    (state : QueueState) :
    ¬ state.Above ((m.applyRemoteQueueState state).2.queueState peer) ∧
      ¬ (m.queueState peer).Above ((m.applyRemoteQueueState state).2.queueState peer) := by
  have hself : m.Holds (m.queueState peer) := ⟨rfl, rfl, rfl⟩
  cases hnewer : shouldApplyQueueState m.queueVersion m.queueUpdatedAt state with
  | true =>
    have htaken := applyRemoteQueueState_of_newer hnewer
    have habove : state.Above (m.queueState peer) := hself.newer_iff.1 hnewer
    have hkey : SameKey ((m.applyRemoteQueueState state).2.queueState peer) state :=
      ⟨htaken.version, htaken.updatedAt⟩
    have hstate : ¬ state.Above ((m.applyRemoteQueueState state).2.queueState peer) :=
      hkey.symm.not_above
    exact ⟨hstate, QueueState.not_above_trans (habove.not_above (m.queueState peer).not_above_self)
      hstate⟩
  | false =>
    rw [applyRemoteQueueState_of_not_newer hnewer]
    refine ⟨fun habove => ?_, QueueState.not_above_self _⟩
    exact absurd (hself.newer_iff.2 habove) (ne_true_of_eq_false hnewer)

namespace QueueRoom

/-! ## Steps -/

/-- An action changes the queue of one peer, or brings it a snapshot, or leaves all queues. -/
theorem step_cases (room : QueueRoom) (action : QueueAction) :
    (∃ peer proposal stamp m,
      (room.step action).replica = Function.update room.replica peer m ∧
      (room.step action).changes = room.changes ++
        [⟨peer, proposal, stamp, room.queueState peer, m.queueState peer⟩] ∧
      (room.step action).received = room.received) ∨
    (∃ peer state,
      (room.step action).replica = Function.update room.replica peer
        ((room.replica peer).applyRemoteQueueState state).2 ∧
      (room.step action).changes = room.changes ∧
      (room.step action).received = room.received ++ [(peer, state)]) ∨
    ((room.step action).replica = room.replica ∧
      (room.step action).changes = room.changes ∧
      (room.step action).received = room.received) := by
  cases action with
  | enqueue peer itemId track addedMicros publishedMicros =>
    exact .inl ⟨peer, none, publishedMicros, _, rfl, rfl, rfl⟩
  | removeOwn peer index micros =>
    unfold step act removeOwn
    dsimp only
    split
    · exact .inr (.inr ⟨rfl, rfl, rfl⟩)
    · split
      · exact .inl ⟨peer, none, micros, _, rfl, rfl, rfl⟩
      · exact .inr (.inr ⟨rfl, rfl, rfl⟩)
  | commitStart peer queueItemId removedMicros publishedMicros =>
    exact .inl ⟨peer, none, publishedMicros, _, rfl, rfl, rfl⟩
  | propose peer voteId action micros =>
    unfold step act
    dsimp only
    split
    · exact .inr (.inr ⟨rfl, rfl, rfl⟩)
    · exact .inr (.inr ⟨rfl, rfl, rfl⟩)
  | execute peer proposal =>
    unfold step act execute
    dsimp only
    split
    · exact .inl ⟨peer, some proposal, proposal.createdAtMicros, _, rfl, rfl, rfl⟩
    · exact .inr (.inr ⟨rfl, rfl, rfl⟩)
  | respond peer => exact .inr (.inr ⟨rfl, rfl, rfl⟩)
  | deliver peer state =>
    unfold step act deliver
    dsimp only
    split
    · exact .inr (.inl ⟨peer, state, rfl, rfl, rfl⟩)
    · exact .inr (.inr ⟨rfl, rfl, rfl⟩)

/-- An action, as far as it changes a queue, stamps the change ahead. -/
def StampsAhead (room : QueueRoom) (action : QueueAction) : Prop :=
  ∀ c ∈ (room.step action).changes, c.StampedAhead

instance (room : QueueRoom) (action : QueueAction) : Decidable (room.StampsAhead action) :=
  inferInstanceAs (Decidable (∀ _ ∈ _, _))

/-! ## The invariant -/

/-- No peer is below the start, its own changes or what it has been told. -/
structure Climbs (room : QueueRoom) : Prop where
  /-- Nobody is below the start. -/
  fresh : ∀ peer, ¬ QueueState.fresh.Above (room.queueState peer)
  /-- Nobody is below a change of its own, and no change is below the start. -/
  changes : ∀ c ∈ room.changes,
    ¬ c.after.Above (room.queueState c.peer) ∧ ¬ QueueState.fresh.Above c.after
  /-- Nobody is below what has reached it. -/
  received : ∀ entry ∈ room.received, ¬ entry.2.Above (room.queueState entry.1)

namespace Climbs

variable {room : QueueRoom}

theorem new : QueueRoom.new.Climbs :=
  ⟨fun _ => QueueState.not_above_self _, List.forall_mem_nil _, List.forall_mem_nil _⟩

/-- While no peer goes down, only what is new has to be looked at. -/
theorem of_not_above {next : QueueRoom} (h : room.Climbs)
    (hup : ∀ peer, ¬ (room.queueState peer).Above (next.queueState peer))
    (hchanges : ∀ c ∈ next.changes, c ∈ room.changes ∨ c.after = next.queueState c.peer)
    (hreceived : ∀ entry ∈ next.received,
      entry ∈ room.received ∨ ¬ entry.2.Above (next.queueState entry.1)) : next.Climbs where
  fresh peer := QueueState.not_above_trans (h.fresh peer) (hup peer)
  changes c hc := by
    rcases hchanges c hc with hold | hlast
    · obtain ⟨hown, hfresh⟩ := h.changes c hold
      exact ⟨QueueState.not_above_trans hown (hup c.peer), hfresh⟩
    · rw [hlast]
      exact ⟨QueueState.not_above_self _, QueueState.not_above_trans (h.fresh c.peer) (hup c.peer)⟩
  received entry hentry := (hreceived entry hentry).elim
    (fun hold => QueueState.not_above_trans (h.received entry hold) (hup entry.1)) id

/-- A step that stamps ahead takes nobody down. -/
theorem step (h : room.Climbs) (hmarked : room.AllMarked) {action : QueueAction}
    (hahead : room.StampsAhead action) : (room.step action).Climbs := by
  have hnext : (room.step action).AllMarked := hmarked.step action
  rcases room.step_cases action with ⟨peer, proposal, stamp, m, hreplica, hchanges, hreceived⟩ |
    ⟨peer, state, hreplica, hchanges, hreceived⟩ | ⟨hreplica, hchanges, hreceived⟩
  · have hself : (room.step action).queueState peer = m.queueState peer := by
      unfold queueState
      rw [hreplica, Function.update_self]
    have hlast : (⟨peer, proposal, stamp, room.queueState peer, m.queueState peer⟩ : QueueChange) ∈
        (room.step action).changes := by
      rw [hchanges]
      exact List.mem_append_right _ (List.mem_singleton_self _)
    refine h.of_not_above (fun other => ?_) (fun c hc => ?_) fun entry hentry => ?_
    · by_cases hother : other = peer
      · rw [hother, hself]
        exact ((hnext _ hlast).above (hahead _ hlast)).not_above (QueueState.not_above_self _)
      · unfold queueState
        rw [hreplica, Function.update_of_ne hother]
        exact QueueState.not_above_self _
    · rw [hchanges] at hc
      refine (List.mem_append.1 hc).imp id fun hc => ?_
      rw [List.mem_singleton.1 hc, hself]
    · rw [hreceived] at hentry
      exact .inl hentry
  · have hself : (room.step action).queueState peer =
        (((room.replica peer).applyRemoteQueueState state).2).queueState peer := by
      unfold queueState
      rw [hreplica, Function.update_self]
    obtain ⟨hstate, hup⟩ := (room.replica peer).not_above_applyRemoteQueueState peer state
    refine h.of_not_above (fun other => ?_) (fun c hc => ?_) fun entry hentry => ?_
    · by_cases hother : other = peer
      · rw [hother, hself]
        exact hup
      · unfold queueState
        rw [hreplica, Function.update_of_ne hother]
        exact QueueState.not_above_self _
    · rw [hchanges] at hc
      exact .inl hc
    · rw [hreceived] at hentry
      refine (List.mem_append.1 hentry).imp id fun hentry => ?_
      rw [List.mem_singleton.1 hentry, hself]
      exact hstate
  · refine h.of_not_above (fun other => ?_) (fun c hc => ?_) fun entry hentry => ?_
    · unfold queueState
      rw [hreplica]
      exact QueueState.not_above_self _
    · rw [hchanges] at hc
      exact .inl hc
    · rw [hreceived] at hentry
      exact .inl hentry

end Climbs

/-! ## Peers that have been told -/

/-- A peer has made every change, or has been told of something that is as new. -/
def Informed (room : QueueRoom) (peer : PeerId) : Prop :=
  ∀ c ∈ room.changes, c.peer = peer ∨ ∃ entry ∈ room.received, entry.1 = peer ∧
    ¬ c.after.Above entry.2

instance (a b : QueueState) : Decidable (a.Above b) := inferInstanceAs (Decidable (_ = true))

instance (room : QueueRoom) (peer : PeerId) : Decidable (room.Informed peer) :=
  inferInstanceAs (Decidable (∀ _ ∈ _, _))

variable {room : QueueRoom} {p q : PeerId}

/-- An informed peer is not below any change. -/
theorem Climbs.not_above (h : room.Climbs) (hp : room.Informed p) {c : QueueChange}
    (hc : c ∈ room.changes) : ¬ c.after.Above (room.queueState p) := by
  rcases hp c hc with rfl | ⟨entry, hentry, rfl, hnew⟩
  · exact (h.changes c hc).1
  · exact QueueState.not_above_trans hnew (h.received entry hentry)

/-- An informed peer is not below anybody. -/
theorem Climbs.not_above_replica (h : room.Climbs) (hkeyed : room.Keyed)
    (hp : room.Informed p) (q : PeerId) :
    ¬ (room.queueState q).Above (room.queueState p) := by
  rcases hkeyed.replicas q with ⟨hversion, hupdated, -⟩ | ⟨c, hc, hkey, -⟩
  · have hfresh : SameKey (room.queueState q) .fresh := ⟨hversion, hupdated⟩
    exact QueueState.not_above_trans hfresh.not_above (h.fresh p)
  · exact QueueState.not_above_trans hkey.not_above (h.not_above hp hc)

end QueueRoom

/-! ## Main result -/

/-- Alice hears of Bob's item before she enqueues one of her own; Carol, who has missed both, asks
Alice. -/
def askAlice : List QueueAction := [
  .enqueue "bob" "b" someTrack 1 2,
  .deliver "alice" ⟨1, 2, "bob", [⟨"b", someTrack, "bob", 1⟩]⟩,
  .enqueue "alice" "a" someTrack 3 4,
  .respond "alice",
  .deliver "carol" ⟨2, 4, "alice", [⟨"b", someTrack, "bob", 1⟩, ⟨"a", someTrack, "alice", 3⟩]⟩]

end LightEar
