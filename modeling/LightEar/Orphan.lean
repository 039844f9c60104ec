import LightEar.Backend.Moves
import LightEar.BufferHistory

/-!
# Operations whose leader has left

When the last connection to a peer is closed, the peer is struck off the expected peers of the
operation in progress and the operation is looked at once more.  Only its leader decides on an
operation, so an operation of the peer that has just left is still in progress afterwards: no
such operation is left over exactly when none was in progress before.

That the operation stays is read off the text of the reaction; that no operation comes up is
what the upkeep moves are for.
-/

namespace LightEar

open Foundation

/-- The operation in progress is led by a given peer. -/
def Backend.LedBy (b : Backend) (peerId : PeerId) : Prop :=
  ∃ operation ∈ b.buffer.active, operation.state.leaderPeerId = peerId

instance (b : Backend) (peerId : PeerId) : Decidable (b.LedBy peerId) :=
  inferInstanceAs (Decidable (∃ _ ∈ _, _))

/-! ## No operation comes up -/

/-- A change that opens no operation gives no peer the lead. -/
theorem Backend.LedBy.of_changeBuffer {b : Backend} {op : CoordinatorOp}
    (hop : op.isUpkeep = true) {peerId : PeerId} (h : (b.changeBuffer op).LedBy peerId) :
    b.LedBy peerId := by
  obtain ⟨operation, hactive, hleads⟩ := h
  cases CoordinatorOp.becomes_of_active hactive with
  | started => cases hop
  | received => cases hop
  | @kept _ o _ hbefore hsame =>
    rw [hsame.state] at hleads
    exact ⟨o, hbefore, hleads⟩
  | @removed o hbefore => exact ⟨o, hbefore, hleads⟩
  | @reported o hbefore => exact ⟨o, hbefore, hleads⟩

/-- Looking after the operation in progress gives no peer the lead. -/
theorem Move.ledBy_of_upkeep {b b' : Backend} (hmove : Move Upkeep b b') {peerId : PeerId}
    (h : b'.LedBy peerId) : b.LedBy peerId := by
  obtain ⟨action, hP, hdoes⟩ := hmove
  cases action with
  | coordinate op =>
    cases hdoes
    exact h.of_changeBuffer hP
  | settle operation state =>
    cases hdoes
    have hrecorded : (b.recordCommit operation state).LedBy peerId := h.of_changeBuffer rfl
    exact hrecorded
  | execute proposal actor op => exact hP.elim
  | music op => cases hdoes; exact h
  | publish message outcome => cases hdoes; exact h
  | aside =>
    unfold Backend.LedBy at h ⊢
    rwa [hdoes.buffer] at h

/-- No program of upkeep gives a peer the lead. -/
theorem Moves.ledBy_of_upkeep {α : Type} {m : Handler α} (hm : Moves Upkeep m) {b : Backend}
    {peerId : PeerId} (h : (finalState m b).LedBy peerId) : b.LedBy peerId := by
  have hback := hm.preserves (I := fun t => t.LedBy peerId → b.LedBy peerId)
    (fun _ _ hmove ih ht => ih (hmove.ledBy_of_upkeep ht)) (s := b) id
  exact hback h

/-! ## The operation stays -/

/-- The operation in progress is led by a given other peer. -/
structure Backend.Follows (leader : PeerId) (b : Backend) : Prop where
  /-- That peer leads it. -/
  ledBy : b.LedBy leader
  /-- The local peer does not. -/
  other : leader ≠ b.localPeerId

namespace Backend.Follows

variable {leader : PeerId}

/-- Striking a peer off the expected ones leaves the leader. -/
theorem removeExpectedPeer {b : Backend} (h : b.Follows leader) (peerId : PeerId)
    (now : Instant) : (b.changeBuffer (.removeExpectedPeer peerId now)).Follows leader := by
  obtain ⟨⟨operation, hactive, hleads⟩, hother⟩ := h
  refine ⟨⟨operation.removePeer peerId, ?_, hleads⟩, hother⟩
  change (b.buffer.removeExpectedPeer peerId now).2.active = some (operation.removePeer peerId)
  unfold BufferCoordinator.removeExpectedPeer
  rw [Option.mem_def.1 hactive]

/-- A peer does not decide on an operation that another peer leads. -/
theorem resolveBufferOperation {b : Backend} (h : b.Follows leader) (env : Env) :
    finalState (resolveBufferOperation env) b = b := by
  obtain ⟨⟨operation, hactive, rfl⟩, hother⟩ := h
  unfold LightEar.resolveBufferOperation
  rw [finalState_get_bind, Option.mem_def.1 hactive]
  dsimp only
  rw [if_neg hother]
  rfl

/-- Nor does it start the next item of its queue while such an operation is in progress. -/
theorem startNextIfIdle {b : Backend} (h : b.Follows leader) (env : Env) :
    finalState (startNextIfIdle env) b = b := by
  obtain ⟨⟨operation, hactive, -⟩, -⟩ := h
  have hbusy : b.buffer.isActive = true := by
    simp [BufferCoordinator.isActive, Option.mem_def.1 hactive]
  exact finalState_of_ok (startNextIfIdle_of_isActive hbusy env)

/-- Striking off a peer does not end an operation that another peer leads. -/
theorem removeFromBufferQuorum (env : Env) (peerId : PeerId) :
    Keeps (Backend.Follows leader) (removeFromBufferQuorum env peerId) := by
  refine .get_bind fun b => .bind (.modify fun b h => ?_) fun _ => .ite ?_ (.pure _)
  · exact h.removeExpectedPeer peerId env.now
  · intro t ht
    rw [finalState_attempt, ht.resolveBufferOperation env]
    exact ht

/-- Nor does the start of a prepared playback. -/
theorem maybeStartPendingPlayback (env : Env) :
    Keeps (Backend.Follows leader) (maybeStartPendingPlayback env) := by
  intro b h
  obtain ⟨hpeer, hbuffer, -⟩ :=
    (maybeStartPendingPlayback_moves (P := CommitOnly) env).commitOnly_frame (b := b) rfl
  refine ⟨?_, by rw [hpeer]; exact h.other⟩
  unfold Backend.LedBy
  rw [hbuffer]
  exact h.ledBy

/-- Closing the last connection to a peer does not end an operation that another peer, be it that
peer itself, leads. -/
theorem connectionClosed (env : Env) (peerId : PeerId) (numEstablished : Nat) :
    Keeps (Backend.Follows leader) (handleConnectionClosed env peerId numEstablished) := by
  refine .ite (.bind ?_ fun _ => .bind ?_ fun _ => .bind ?_ fun _ => ?_) (.pure _)
  · exact .modify fun b h => ⟨h.ledBy, h.other⟩
  · exact .modify fun b h => ⟨h.ledBy, h.other⟩
  · exact removeFromBufferQuorum env peerId
  · intro t ht
    rw [finalState_attempt]
    exact maybeStartPendingPlayback env t ht

end Backend.Follows

/-- Right after the last connection to another peer is closed, an operation of that peer is in
progress exactly when one was before. -/
theorem Backend.ledBy_connectionClosed_iff {b : Backend} {peerId : PeerId}
    (hother : peerId ≠ b.localPeerId) (env : Env) :
    (b.step (.connectionClosed env peerId 0)).LedBy peerId ↔ b.LedBy peerId := by
  constructor
  · intro h
    exact (handleConnectionClosed_moves (P := Upkeep) env peerId 0).ledBy_of_upkeep h
  · intro h
    exact (Backend.Follows.connectionClosed env peerId 0 b ⟨h, hother⟩).ledBy

/-! ## Main result -/

/-- Along a run, the last connection to another peer is closed in a given state. -/
def LeavesAt (start : Backend) (events : List Event) (b : Backend) (env : Env)
    (peerId : PeerId) : Prop :=
  ∃ past future, events = past ++ .connectionClosed env peerId 0 :: future ∧
    b = start.run past ∧ peerId ≠ b.localPeerId

/-- In every run, no operation of a peer that has just left is ever in progress exactly when no
peer ever leaves while an operation of its own is in progress. -/
theorem no_orphan_iff_no_leader_leaves (localPeerId : PeerId) (rendezvousNodes : Finset PeerId)
    (audioPlayer : Bool) (retry : Instant) (events : List Event) :
    (∀ b env peerId,
      LeavesAt (.new localPeerId rendezvousNodes audioPlayer retry) events b env peerId →
        ¬ (b.step (.connectionClosed env peerId 0)).LedBy peerId) ↔
    ∀ b env peerId,
      LeavesAt (.new localPeerId rendezvousNodes audioPlayer retry) events b env peerId →
        ¬ b.LedBy peerId := by
  have hstep : ∀ b env peerId,
      LeavesAt (.new localPeerId rendezvousNodes audioPlayer retry) events b env peerId →
        ((b.step (.connectionClosed env peerId 0)).LedBy peerId ↔ b.LedBy peerId) := by
    rintro b env peerId ⟨_, _, _, _, hother⟩
    exact Backend.ledBy_connectionClosed_iff hother env
  constructor
  · intro h b env peerId hleaves hled
    exact h b env peerId hleaves ((hstep b env peerId hleaves).2 hled)
  · intro h b env peerId hleaves hled
    exact h b env peerId hleaves ((hstep b env peerId hleaves).1 hled)

/-- A peer learns of the queue of another, adopts its start of the first item, and loses it. -/
def leaderLeaves : List Event := [
  .connectionEstablished (.plain 1000000) "leader",
  .wire (.plain 2000000) "leader" (.queueState {
    version := 2
    items := [⟨"q", ⟨"x:0", "bilibili", "x", 0, 240000⟩, "leader", 1500000⟩]
    updatedBy := "leader"
    updatedAtMicros := 2000000 }),
  .wire (.plain 3000000) "leader" (.playbackBufferPrepare "leader:2500000:buffer:Start"
    "leader:2500000:x:0" "x:0" 0 .start {"leader", "peer"} "leader")]

/-- An operation may outlive the connection to its leader. -/
theorem orphan_after_leader_leaves :
    ¬ ∀ (localPeerId : PeerId) (rendezvousNodes : Finset PeerId) (audioPlayer : Bool)
        (retry : Instant) (events : List Event) (b : Backend) (env : Env) (peerId : PeerId),
      LeavesAt (.new localPeerId rendezvousNodes audioPlayer retry) events b env peerId →
        ¬ (b.step (.connectionClosed env peerId 0)).LedBy peerId := by
  intro h
  refine h "peer" ∅ false 0 (leaderLeaves ++ [.connectionClosed (.plain 4000000) "leader" 0]) _
    (.plain 4000000) "leader" ⟨leaderLeaves, [], rfl, rfl, by decide⟩ ?_
  decide

end LightEar
