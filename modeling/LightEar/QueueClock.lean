import LightEar.QueueRoom

/-!
# When a change is newer than what it replaces

Every change of a queue counts the version up and overwrites the stamp, with a reading of the
local clock or with the time of a proposal.  Neither is compared with the stamp that the queue
has, which may come from a peer whose clock is ahead or from a change during the vote.  A change is
therefore newer than what it replaces exactly when its stamp is not behind; otherwise nobody who
holds the old queue takes the new one.
-/

namespace LightEar

open Foundation

/-- The stamp of a change is later than the one it overwrites, or the same with room to count. -/
def QueueChange.StampedAhead (c : QueueChange) : Prop :=
  c.before.updatedAtMicros < c.stamp ∨
    c.before.updatedAtMicros = c.stamp ∧ c.before.version < u64Max

instance (c : QueueChange) : Decidable c.StampedAhead := inferInstanceAs (Decidable (_ ∨ _ ∧ _))

/-- A change gives the queue its stamp and counts the version up as far as it goes. -/
structure QueueChange.Marked (c : QueueChange) : Prop where
  /-- The stamp is the one given. -/
  stamp : c.after.updatedAtMicros = c.stamp
  /-- The version goes up unless it is at the top. -/
  version : c.before.version < c.after.version ↔ c.before.version < u64Max

/-- A marked change is newer exactly when its stamp is ahead. -/
theorem QueueChange.Marked.newer_iff {c : QueueChange} (h : c.Marked) :
    isQueueStateNewer c.after.version c.after.updatedAtMicros c.before.version
      c.before.updatedAtMicros = true ↔ c.StampedAhead := by
  rw [isQueueStateNewer_iff, h.version, h.stamp]
  unfold StampedAhead
  rw [eq_comm (a := c.stamp)]

/-- Consuming an item counts up once more than the change that follows. -/
theorem MusicState.lt_version_of_consumed (m : MusicState) (queueItemId : Option String)
    (removedMicros publishedMicros : Int) :
    m.queueVersion < ((m.removeBufferQueueItem queueItemId removedMicros).markQueueChanged
      publishedMicros).queueVersion ↔ m.queueVersion < u64Max := by
  unfold removeBufferQueueItem
  cases queueItemId with
  | none => exact lt_satAdd_one_iff
  | some itemId =>
    dsimp only
    split
    · exact lt_satAdd_one_one_iff
    · exact lt_satAdd_one_iff

namespace QueueRoom

/-- Whatever has been changed so far was marked. -/
def AllMarked (room : QueueRoom) : Prop := ∀ c ∈ room.changes, c.Marked

theorem AllMarked.change {room : QueueRoom} (h : room.AllMarked) {peer : PeerId}
    {proposal : Option VoteProposal} {stamp : Int} {m : MusicState}
    (hmarked : QueueChange.Marked
      ⟨peer, proposal, stamp, room.queueState peer, m.queueState peer⟩) :
    (room.change peer proposal stamp m).AllMarked := by
  intro c hc
  rcases List.mem_append.1 hc with hc | hc
  · exact h c hc
  · rw [List.mem_singleton.1 hc]
    exact hmarked

/-- Every action marks what it changes. -/
theorem AllMarked.step {room : QueueRoom} (h : room.AllMarked) (action : QueueAction) :
    (room.step action).AllMarked := by
  change ∀ c ∈ (room.act action).changes, c.Marked
  cases action with
  | enqueue peer itemId track addedMicros publishedMicros =>
    exact h.change (m := ((room.replica peer).appendQueueItem
      ⟨itemId, track, peer, addedMicros⟩).markQueueChanged publishedMicros)
        ⟨rfl, lt_satAdd_one_iff⟩
  | removeOwn peer index micros =>
    unfold act removeOwn
    dsimp only
    split
    · exact h
    · split
      · refine h.change ⟨rfl, ?_⟩
        unfold MusicState.removeQueueIndex
        split
        · exact lt_satAdd_one_iff
        · exact lt_satAdd_one_iff
      · exact h
  | commitStart peer queueItemId removedMicros publishedMicros =>
    exact h.change ⟨rfl, (room.replica peer).lt_version_of_consumed queueItemId removedMicros
      publishedMicros⟩
  | propose peer voteId action micros =>
    unfold act
    dsimp only
    split
    · exact h
    · exact h
  | execute peer proposal =>
    unfold act execute
    dsimp only
    split
    · rename_i hguard
      rw [MusicState.executeQueueVote_eq hguard.2.2]
      exact h.change ⟨rfl, lt_satAdd_one_iff⟩
    · exact h
  | respond peer => exact h
  | deliver peer state =>
    unfold act deliver
    dsimp only
    split
    · exact h
    · exact h

/-- In every run, whatever has been changed was marked. -/
theorem allMarked_run (actions : List QueueAction) : (new.run actions).AllMarked := by
  unfold run
  refine List.foldlRecOn actions step (List.forall_mem_nil _) ?_
  intro room hroom action _
  exact hroom.step action

end QueueRoom

/-! ## A clock that runs behind -/

/-- The snapshot of an item that Bob enqueues by a clock that runs ahead. -/
def stampedAhead : QueueState :=
  ⟨1, 101, "bob", [⟨"b", someTrack, "bob", 100⟩]⟩

/-- Alice hears of the item of Bob and enqueues one of her own by a clock that is behind his. -/
def enqueueBehind : List QueueAction := [
  .enqueue "bob" "b" someTrack 100 101,
  .deliver "alice" stampedAhead,
  .enqueue "alice" "a" someTrack 50 51]

/-- What Alice's enqueueing changes. -/
def changeBehind : QueueChange where
  peer := "alice"
  proposal := none
  stamp := 51
  before := { stampedAhead with updatedBy := "alice" }
  after := ⟨2, 51, "alice", [⟨"b", someTrack, "bob", 100⟩,
    ⟨"a", someTrack, "alice", 50⟩]⟩

/-! ## Main result -/

/-- In every run, a change of a queue is newer than what it replaces, and is taken by those who
hold what it replaces, exactly when its stamp is ahead. -/
theorem queue_change_newer_iff {actions : List QueueAction} {c : QueueChange}
    (hc : c ∈ (QueueRoom.new.run actions).changes) :
    (isQueueStateNewer c.after.version c.after.updatedAtMicros c.before.version
      c.before.updatedAtMicros = true ↔ c.StampedAhead) ∧
    ∀ m : MusicState, m.Holds c.before →
      ((m.applyRemoteQueueState c.after).1 = true ↔ c.StampedAhead) := by
  have hnewer := (QueueRoom.allMarked_run actions c hc).newer_iff
  refine ⟨hnewer, fun m hm => ?_⟩
  rw [← hnewer]
  unfold MusicState.applyRemoteQueueState shouldApplyQueueState
  rw [hm.version, hm.updatedAt]
  split
  · rename_i htaken
    simp [htaken]
  · rename_i hrefused
    simp [hrefused]

/-- The main result where the clock is behind: the change is not newer, and it is refused. -/
theorem queue_change_newer_iff_enqueueBehind :
    (isQueueStateNewer changeBehind.after.version changeBehind.after.updatedAtMicros
      changeBehind.before.version changeBehind.before.updatedAtMicros = true ↔
        changeBehind.StampedAhead) ∧
    ∀ m : MusicState, m.Holds changeBehind.before →
      ((m.applyRemoteQueueState changeBehind.after).1 = true ↔ changeBehind.StampedAhead) :=
  queue_change_newer_iff
    (show changeBehind ∈ (QueueRoom.new.run enqueueBehind).changes by decide)

/-- Not every change of a queue is newer than what it replaces. -/
theorem change_behind_not_newer :
    ¬ ∀ actions, ∀ c ∈ (QueueRoom.new.run actions).changes,
      isQueueStateNewer c.after.version c.after.updatedAtMicros c.before.version
        c.before.updatedAtMicros = true := by
  intro h
  have hrun := h enqueueBehind
  revert hrun
  decide

end LightEar
