import LightEar.QueueRoom

/-!
# Enqueueing one after the other

A snapshot replaces the whole queue, so of two items that are enqueued by peers that have not heard
of each other's, one is lost.  As long as every peer that enqueues has all the items enqueued
before, the snapshots form a chain: each has one item more and a greater key than all before it,
and whoever has heard of all of them has everything.  Once two enqueues have crossed, no snapshot
will ever have both items again.  So nothing is lost exactly when no enqueues cross, provided that
no clock is behind the stamp of the queue it changes.
-/

namespace LightEar

open Foundation

/-! ## The condition -/

/-- Only items with new identifiers are enqueued, and nothing else happens to the queues. -/
def QueueRoom.OnlyEnqueues (room : QueueRoom) : QueueAction → Prop
  | .enqueue _ itemId _ _ _ => ∀ item ∈ room.enqueued, item.itemId ≠ itemId
  | .deliver _ _ => True
  | _ => False

instance (room : QueueRoom) (action : QueueAction) : Decidable (room.OnlyEnqueues action) := by
  unfold QueueRoom.OnlyEnqueues
  cases action <;> infer_instance

/-- Under the condition an action enqueues an item that is not there yet, or delivers. -/
theorem QueueRoom.OnlyEnqueues.cases {room : QueueRoom} {action : QueueAction}
    (h : room.OnlyEnqueues action) :
    (∃ peer itemId track addedMicros publishedMicros,
      action = .enqueue peer itemId track addedMicros publishedMicros ∧
        (∀ item ∈ room.enqueued, item.itemId ≠ itemId) ∧
          ⟨itemId, track, peer, addedMicros⟩ ∉ room.enqueued) ∨
      ∃ peer state, action = .deliver peer state := by
  cases action with
  | enqueue peer itemId track addedMicros publishedMicros =>
    exact .inl ⟨peer, itemId, track, addedMicros, publishedMicros, rfl, h,
      fun hmem => h _ hmem rfl⟩
  | deliver peer state => exact .inr ⟨peer, state, rfl⟩
  | _ => exact h.elim

/-- The clock of a peer that enqueues is not behind the stamp of its queue. -/
def QueueRoom.Ahead (room : QueueRoom) : QueueAction → Prop
  | .enqueue peer _ _ _ publishedMicros =>
    isQueueStateNewer (satAdd (room.replica peer).queueVersion 1) publishedMicros
      (room.replica peer).queueVersion (room.replica peer).queueUpdatedAt = true
  | _ => True

instance (room : QueueRoom) (action : QueueAction) : Decidable (room.Ahead action) := by
  unfold QueueRoom.Ahead
  cases action <;> infer_instance

/-- A peer that enqueues has everything enqueued before. -/
def QueueRoom.Extends (room : QueueRoom) : QueueAction → Prop
  | .enqueue peer _ _ _ _ => ∀ item ∈ room.enqueued, item ∈ (room.replica peer).queue
  | _ => True

instance (room : QueueRoom) (action : QueueAction) : Decidable (room.Extends action) := by
  unfold QueueRoom.Extends
  cases action <;> infer_instance

/-- A peer has heard of everything that was sent by others. -/
def QueueRoom.HasAll (room : QueueRoom) (peer : PeerId) : Prop :=
  ∀ state ∈ room.published, state.updatedBy = peer ∨ (peer, state) ∈ room.received

instance (room : QueueRoom) (peer : PeerId) : Decidable (room.HasAll peer) :=
  inferInstanceAs (Decidable (∀ _ ∈ _, _ ∨ _))

/-! ## The order of snapshots -/

/-- The queue of a peer that has just started. -/
def QueueState.fresh : QueueState := ⟨0, 0, "", []⟩

/-- Whether one snapshot is above another. -/
def QueueState.Above (a b : QueueState) : Prop :=
  isQueueStateNewer a.version a.updatedAtMicros b.version b.updatedAtMicros = true

theorem QueueState.Above.trans {a b c : QueueState} (h : a.Above b) (h' : b.Above c) :
    a.Above c := by
  unfold Above at *
  rw [isQueueStateNewer_iff] at *
  omega

/-- What is not above the lower one is not above the upper one. -/
theorem QueueState.Above.not_above {a b c : QueueState} (h : a.Above b) (h' : ¬ c.Above b) :
    ¬ c.Above a :=
  fun hc => h' (hc.trans h)

theorem QueueState.not_above_self (a : QueueState) : ¬ a.Above a := by
  unfold Above
  rw [isQueueStateNewer_iff]
  omega

/-- A snapshot is taken by those it is above. -/
theorem MusicState.Holds.newer_iff {m : MusicState} {held state : QueueState} (h : m.Holds held) :
    shouldApplyQueueState m.queueVersion m.queueUpdatedAt state = true ↔ state.Above held := by
  unfold shouldApplyQueueState QueueState.Above
  rw [h.version, h.updatedAt]

/-! ## Snapshots and peers -/

/-- The snapshots, with the one that every peer starts from. -/
def QueueRoom.snapshots (room : QueueRoom) : List QueueState := .fresh :: room.published

/-- The snapshot that a peer publishes when it enqueues an item. -/
def QueueRoom.extended (room : QueueRoom) (peer : PeerId) (item : QueueItem) (micros : Int) :
    QueueState :=
  (((room.replica peer).appendQueueItem item).markQueueChanged micros).queueState peer

/-- Every peer has one of the snapshots, and these have what was enqueued. -/
structure QueueRoom.Traced (room : QueueRoom) : Prop where
  /-- No snapshot has what was not enqueued. -/
  subset : ∀ state ∈ room.snapshots, state.items ⊆ room.enqueued
  /-- Every item is enqueued once. -/
  nodup : room.enqueued.Nodup
  /-- Every peer has one of the snapshots, and none of those it has sent or received is above. -/
  replicas : ∀ peer, ∃ held ∈ room.snapshots, (room.replica peer).Holds held ∧
    ∀ state ∈ room.published,
      state.updatedBy = peer ∨ (peer, state) ∈ room.received → ¬ state.Above held
  /-- Only what was sent is received. -/
  received : ∀ entry ∈ room.received, entry.2 ∈ room.published

namespace QueueRoom

variable {room : QueueRoom}

@[simp] theorem snapshots_deliver (room : QueueRoom) (peer : PeerId) (state : QueueState) :
    (room.deliver peer state).snapshots = room.snapshots := by
  unfold snapshots
  rw [deliver_published]

@[simp] theorem enqueued_deliver (room : QueueRoom) (peer : PeerId) (state : QueueState) :
    (room.deliver peer state).enqueued = room.enqueued := by
  unfold deliver
  split <;> rfl

/-- What a peer has heard of after a delivery it had heard of before, or it was delivered now. -/
theorem heard_deliver {peer other : PeerId} {state s : QueueState}
    (h : s.updatedBy = other ∨ (other, s) ∈ room.received ++ [(peer, state)]) :
    (s.updatedBy = other ∨ (other, s) ∈ room.received) ∨ other = peer ∧ s = state := by
  rcases h with hby | hreceived
  · exact .inl (.inl hby)
  · rcases List.mem_append.1 hreceived with hbefore | hnow
    · exact .inl (.inr hbefore)
    · exact .inr (Prod.mk.inj (List.mem_singleton.1 hnow))

section Enqueue

variable {peer : PeerId} {itemId : String} {track : PlaybackTrack}
  {addedMicros publishedMicros : Int} {state : QueueState}

theorem mem_published_enqueue :
    state ∈ (room.act (.enqueue peer itemId track addedMicros publishedMicros)).published ↔
      state ∈ room.published ∨
        state = room.extended peer ⟨itemId, track, peer, addedMicros⟩ publishedMicros := by
  change state ∈ room.published ++ [_] ↔ _
  rw [List.mem_append, List.mem_singleton]
  rfl

theorem mem_snapshots_enqueue :
    state ∈ (room.act (.enqueue peer itemId track addedMicros publishedMicros)).snapshots ↔
      state ∈ room.snapshots ∨
        state = room.extended peer ⟨itemId, track, peer, addedMicros⟩ publishedMicros := by
  unfold snapshots
  rw [List.mem_cons, List.mem_cons, mem_published_enqueue, or_assoc]

/-- An item of a new snapshot is the new one or was in the queue. -/
theorem mem_items_extended {item other : QueueItem} :
    other ∈ (room.extended peer item publishedMicros).items ↔
      other ∈ (room.replica peer).queue ∨ other = item := by
  change other ∈ (room.replica peer).queue ++ [item] ↔ _
  rw [List.mem_append, List.mem_singleton]

end Enqueue

namespace Traced

theorem new : QueueRoom.new.Traced where
  subset state hstate := by
    rw [List.mem_singleton.1 hstate]
    exact List.nil_subset _
  nodup := .nil
  replicas _ := ⟨.fresh, .head _, ⟨rfl, rfl, rfl⟩, List.forall_mem_nil _⟩
  received := List.forall_mem_nil _

/-- The readings of the clocks do not matter. -/
theorem read (h : room.Traced) (readings : List Int) :
    QueueRoom.Traced { room with readings := readings } :=
  ⟨h.subset, h.nodup, h.replicas, h.received⟩

/-- A peer has nothing but what was enqueued. -/
theorem queue_subset (h : room.Traced) (peer : PeerId) :
    (room.replica peer).queue ⊆ room.enqueued := by
  obtain ⟨held, hmem, hholds, -⟩ := h.replicas peer
  rw [hholds.items]
  exact h.subset held hmem

/-- A snapshot that reaches a peer. -/
theorem deliver (h : room.Traced) (peer : PeerId) (state : QueueState) :
    (room.deliver peer state).Traced := by
  unfold QueueRoom.deliver
  split
  · rename_i hsent
    refine ⟨h.subset, h.nodup, fun other => ?_, ?_⟩
    · obtain ⟨held, hmem, hholds, hnot⟩ := h.replicas other
      by_cases hother : other = peer
      · subst hother
        dsimp only
        rw [Function.update_self]
        by_cases habove : state.Above held
        · -- the snapshot is taken
          refine ⟨state, List.mem_cons_of_mem _ hsent,
            MusicState.applyRemoteQueueState_of_newer (hholds.newer_iff.2 habove), ?_⟩
          intro s hs hheard
          rcases heard_deliver hheard with hbefore | ⟨-, rfl⟩
          · exact habove.not_above (hnot s hs hbefore)
          · exact s.not_above_self
        · -- the snapshot is refused
          have hrefused := eq_false_of_ne_true fun hnewer => habove (hholds.newer_iff.1 hnewer)
          rw [MusicState.applyRemoteQueueState_of_not_newer hrefused]
          refine ⟨held, hmem, hholds, fun s hs hheard => ?_⟩
          rcases heard_deliver hheard with hbefore | ⟨-, rfl⟩
          · exact hnot s hs hbefore
          · exact habove
      · dsimp only
        rw [Function.update_of_ne hother]
        refine ⟨held, hmem, hholds, fun s hs hheard => ?_⟩
        rcases heard_deliver hheard with hbefore | ⟨hsame, -⟩
        · exact hnot s hs hbefore
        · exact absurd hsame hother
    · intro entry hentry
      rcases List.mem_append.1 hentry with hentry | hentry
      · exact h.received entry hentry
      · rw [List.mem_singleton.1 hentry]
        exact hsent
  · exact h

section Enqueue

variable {peer : PeerId} {itemId : String} {track : PlaybackTrack}
  {addedMicros publishedMicros : Int}

/-- By a clock that is not behind, a peer publishes a snapshot above what it has. -/
theorem extended_above {held : QueueState} {item : QueueItem}
    (hholds : (room.replica peer).Holds held)
    (hahead : room.Ahead (.enqueue peer itemId track addedMicros publishedMicros)) :
    (room.extended peer item publishedMicros).Above held := by
  unfold QueueState.Above QueueRoom.extended
  rw [← hholds.version, ← hholds.updatedAt]
  exact hahead

/-- After an item is enqueued every peer still has one of the snapshots, with none of those it
has sent or received above. -/
theorem replicas_enqueue (h : room.Traced)
    (hahead : room.Ahead (.enqueue peer itemId track addedMicros publishedMicros))
    (other : PeerId) :
    ∃ held ∈ (room.act (.enqueue peer itemId track addedMicros publishedMicros)).snapshots,
      ((room.act (.enqueue peer itemId track addedMicros publishedMicros)).replica other).Holds
        held ∧
      ∀ state ∈ (room.act (.enqueue peer itemId track addedMicros publishedMicros)).published,
        state.updatedBy = other ∨ (other, state) ∈ room.received → ¬ state.Above held := by
  obtain ⟨held, hmem, hholds, hnot⟩ := h.replicas other
  by_cases hother : other = peer
  · -- the peer that enqueues has the new snapshot
    subst hother
    refine ⟨_, mem_snapshots_enqueue.2 (.inr rfl), ?_, fun state hstate hheard => ?_⟩
    · change ((room.change other none publishedMicros _).replica other).Holds _
      rw [change_replica_self]
      exact ⟨rfl, rfl, rfl⟩
    · rcases mem_published_enqueue.1 hstate with hstate | rfl
      · exact (extended_above hholds hahead).not_above (hnot state hstate hheard)
      · exact QueueState.not_above_self _
  · -- the others have not heard of it
    refine ⟨held, mem_snapshots_enqueue.2 (.inl hmem), ?_, fun state hstate hheard => ?_⟩
    · change ((room.change peer none publishedMicros _).replica other).Holds held
      rw [change_replica_of_ne room hother]
      exact hholds
    · rcases mem_published_enqueue.1 hstate with hstate | rfl
      · exact hnot state hstate hheard
      · rcases hheard with hby | hreceived
        · exact absurd hby.symm hother
        · exact hnot _ (h.received _ hreceived) (.inr hreceived)

/-- An item that a peer enqueues. -/
theorem enqueue (h : room.Traced) (hnew : ⟨itemId, track, peer, addedMicros⟩ ∉ room.enqueued)
    (hahead : room.Ahead (.enqueue peer itemId track addedMicros publishedMicros)) :
    (room.act (.enqueue peer itemId track addedMicros publishedMicros)).Traced where
  subset state hstate item hitem := by
    change item ∈ room.enqueued ++ [_]
    rw [List.mem_append, List.mem_singleton]
    rcases mem_snapshots_enqueue.1 hstate with hstate | rfl
    · exact .inl (h.subset state hstate hitem)
    · exact (mem_items_extended.1 hitem).imp (fun hqueue => h.queue_subset peer hqueue) id
  nodup := by
    refine List.nodup_append.2 ⟨h.nodup, List.nodup_singleton _, fun x hx y hy => ?_⟩
    rintro rfl
    exact hnew (List.mem_singleton.1 hy ▸ hx)
  replicas := h.replicas_enqueue hahead
  received entry hentry := mem_published_enqueue.2 (.inl (h.received entry hentry))

end Enqueue

/-- Every enqueueing or delivery is traced. -/
theorem step (h : room.Traced) {action : QueueAction} (honly : room.OnlyEnqueues action)
    (hahead : room.Ahead action) : (room.step action).Traced := by
  obtain ⟨peer, itemId, track, addedMicros, publishedMicros, rfl, -, hnew⟩ |
    ⟨peer, state, rfl⟩ := honly.cases
  · exact (h.enqueue hnew hahead).read _
  · exact (h.deliver peer state).read _

end Traced

end QueueRoom

/-! ## The chain -/

/-- The snapshots form a chain with a given top. -/
structure QueueRoom.Chained (room : QueueRoom) (top : QueueState) : Prop where
  /-- Every peer has one of the snapshots. -/
  traced : room.Traced
  /-- The top is one of the snapshots. -/
  mem : top ∈ room.snapshots
  /-- The top has everything, in the order of enqueueing. -/
  items : top.items = room.enqueued
  /-- The others are below and lack something. -/
  below : ∀ state ∈ room.snapshots, state = top ∨
    top.Above state ∧ ¬ room.enqueued ⊆ state.items

namespace QueueRoom.Chained

variable {room : QueueRoom} {top : QueueState}

theorem new : QueueRoom.new.Chained .fresh where
  traced := .new
  mem := .head _
  items := rfl
  below _ hstate := .inl (List.mem_singleton.1 hstate)

/-- The readings of the clocks do not matter. -/
theorem read (h : room.Chained top) (readings : List Int) :
    QueueRoom.Chained { room with readings := readings } top :=
  ⟨h.traced.read readings, h.mem, h.items, h.below⟩

/-- A peer that has everything has the top of the chain. -/
theorem holds_top (h : room.Chained top) {peer : PeerId}
    (hall : ∀ item ∈ room.enqueued, item ∈ (room.replica peer).queue) :
    (room.replica peer).Holds top := by
  obtain ⟨held, hmem, hholds, -⟩ := h.traced.replicas peer
  rcases h.below held hmem with rfl | ⟨-, hlacks⟩
  · exact hholds
  · exact absurd (hholds.items ▸ hall) hlacks

/-- What is above the top is above every snapshot. -/
theorem above_snapshots (h : room.Chained top) {next : QueueState} (habove : next.Above top) :
    ∀ state ∈ room.snapshots, next.Above state := by
  intro state hstate
  rcases h.below state hstate with rfl | ⟨hbelow, -⟩
  · exact habove
  · exact habove.trans hbelow

/-- A snapshot that reaches a peer. -/
theorem deliver (h : room.Chained top) (peer : PeerId) (state : QueueState) :
    (room.deliver peer state).Chained top := by
  constructor
  · exact h.traced.deliver peer state
  · rw [snapshots_deliver]
    exact h.mem
  · rw [enqueued_deliver]
    exact h.items
  · rw [snapshots_deliver, enqueued_deliver]
    exact h.below

/-- An item that a peer with everything enqueues by a clock that is not behind. -/
theorem enqueue (h : room.Chained top) {peer : PeerId} {itemId : String} {track : PlaybackTrack}
    {addedMicros publishedMicros : Int}
    (hnew : ⟨itemId, track, peer, addedMicros⟩ ∉ room.enqueued)
    (hahead : room.Ahead (.enqueue peer itemId track addedMicros publishedMicros))
    (hall : ∀ item ∈ room.enqueued, item ∈ (room.replica peer).queue) :
    (room.act (.enqueue peer itemId track addedMicros publishedMicros)).Chained
      (room.extended peer ⟨itemId, track, peer, addedMicros⟩ publishedMicros) := by
  have hholds := h.holds_top hall
  have habove : ∀ state ∈ room.snapshots,
      (room.extended peer ⟨itemId, track, peer, addedMicros⟩ publishedMicros).Above state :=
    h.above_snapshots (Traced.extended_above hholds hahead)
  constructor
  · exact h.traced.enqueue hnew hahead
  · exact mem_snapshots_enqueue.2 (.inr rfl)
  · change (room.replica peer).queue ++ _ = room.enqueued ++ _
    rw [hholds.items, h.items]
  · intro state hstate
    rcases mem_snapshots_enqueue.1 hstate with hstate | rfl
    · refine .inr ⟨habove state hstate, fun hsubset => hnew ?_⟩
      have hlast : ⟨itemId, track, peer, addedMicros⟩ ∈ state.items :=
        hsubset (List.mem_append_right _ (List.mem_singleton_self _))
      exact h.traced.subset state hstate hlast
    · exact .inl rfl

/-- Every action under the condition extends the chain or leaves it alone. -/
theorem step (h : room.Chained top) {action : QueueAction} (honly : room.OnlyEnqueues action)
    (hahead : room.Ahead action) (hextends : room.Extends action) :
    ∃ next, (room.step action).Chained next := by
  obtain ⟨peer, itemId, track, addedMicros, publishedMicros, rfl, -, hnew⟩ |
    ⟨peer, state, rfl⟩ := honly.cases
  · exact ⟨_, (h.enqueue hnew hahead hextends).read _⟩
  · exact ⟨top, (h.deliver peer state).read _⟩

/-- A peer that has heard of everything has the top of the chain. -/
theorem queue_eq (h : room.Chained top) {peer : PeerId} (hall : room.HasAll peer) :
    (room.replica peer).queue = room.enqueued := by
  obtain ⟨held, hmem, hholds, hnot⟩ := h.traced.replicas peer
  rcases h.below held hmem with rfl | ⟨habove, hlacks⟩
  · exact hholds.items.trans h.items
  · rcases List.mem_cons.1 h.mem with rfl | hsent
    · -- nothing has been enqueued, so nothing can be lacking
      refine absurd ?_ hlacks
      rw [← h.items]
      exact List.nil_subset _
    · exact absurd habove (hnot top hsent (hall top hsent))

end QueueRoom.Chained

/-! ## Items that have crossed -/

/-- There are two items that no snapshot has both. -/
def QueueRoom.Crossed (room : QueueRoom) : Prop :=
  ∃ first ∈ room.enqueued, ∃ second ∈ room.enqueued,
    ∀ state ∈ room.snapshots, ¬ (first ∈ state.items ∧ second ∈ state.items)

namespace QueueRoom.Crossed

variable {room : QueueRoom}

/-- An item that a peer enqueues without having all the others crosses one of them. -/
theorem of_not_extends (h : room.Traced) {action : QueueAction}
    (honly : room.OnlyEnqueues action) (hextends : ¬ room.Extends action) :
    (room.step action).Crossed := by
  obtain ⟨peer, itemId, track, addedMicros, publishedMicros, rfl, -, hnew⟩ |
    ⟨peer, state, rfl⟩ := honly.cases
  · obtain ⟨first, hfirst, hlacks⟩ : ∃ first ∈ room.enqueued,
        first ∉ (room.replica peer).queue := by
      by_contra hnone
      refine hextends fun item hitem => ?_
      by_contra hlacks
      exact hnone ⟨item, hitem, hlacks⟩
    refine ⟨first, List.mem_append_left _ hfirst, ⟨itemId, track, peer, addedMicros⟩,
      List.mem_append_right _ (List.mem_singleton_self _), ?_⟩
    rintro state hstate ⟨hhas, hhas'⟩
    rcases mem_snapshots_enqueue.1 hstate with hstate | rfl
    · exact hnew (h.subset state hstate hhas')
    · rcases mem_items_extended.1 hhas with hqueue | rfl
      · exact hlacks hqueue
      · exact hnew hfirst
  · exact absurd trivial hextends

/-- Items that have crossed do not come together again. -/
theorem step (h : room.Crossed) (htraced : room.Traced) {action : QueueAction}
    (honly : room.OnlyEnqueues action) : (room.step action).Crossed := by
  obtain ⟨first, hfirst, second, hsecond, hapart⟩ := h
  obtain ⟨peer, itemId, track, addedMicros, publishedMicros, rfl, hfresh, -⟩ |
    ⟨peer, state, rfl⟩ := honly.cases
  · refine ⟨first, List.mem_append_left _ hfirst, second, List.mem_append_left _ hsecond, ?_⟩
    rintro state hstate ⟨hhas, hhas'⟩
    rcases mem_snapshots_enqueue.1 hstate with hstate | rfl
    · exact hapart state hstate ⟨hhas, hhas'⟩
    · -- the new snapshot has no more of the two than the queue it extends
      have hold : ∀ item ∈ room.enqueued,
          item ∈ (room.extended peer ⟨itemId, track, peer, addedMicros⟩ publishedMicros).items →
            item ∈ (room.replica peer).queue := by
        intro item hitem hmem
        rcases mem_items_extended.1 hmem with hqueue | rfl
        · exact hqueue
        · exact absurd rfl (hfresh _ hitem)
      obtain ⟨held, hheld, hholds, -⟩ := htraced.replicas peer
      refine hapart held hheld ?_
      rw [← hholds.items]
      exact ⟨hold first hfirst hhas, hold second hsecond hhas'⟩
  · change (room.deliver peer state).Crossed
    unfold Crossed
    rw [enqueued_deliver, snapshots_deliver]
    exact ⟨first, hfirst, second, hsecond, hapart⟩

/-- Where items have crossed every peer lacks something. -/
theorem exists_not_mem (h : room.Crossed) (htraced : room.Traced) (peer : PeerId) :
    ∃ item ∈ room.enqueued, item ∉ (room.replica peer).queue := by
  obtain ⟨first, hfirst, second, hsecond, hapart⟩ := h
  obtain ⟨held, hheld, hholds, -⟩ := htraced.replicas peer
  rw [hholds.items]
  by_cases hhas : first ∈ held.items
  · exact ⟨second, hsecond, fun hhas' => hapart held hheld ⟨hhas, hhas'⟩⟩
  · exact ⟨first, hfirst, hhas⟩

end QueueRoom.Crossed

/-! ## Two items that cross -/

/-- Alice's snapshot with her item alone. -/
def aliceAlone : QueueState := ⟨1, 2, "alice", [⟨"a", someTrack, "alice", 1⟩]⟩

/-- Bob's snapshot with his item alone. -/
def bobAlone : QueueState := ⟨1, 4, "bob", [⟨"b", someTrack, "bob", 3⟩]⟩

/-- Alice and Bob enqueue before they hear of each other's item, by clocks that agree. -/
def crossingEnqueues : List QueueAction := [
  .enqueue "alice" "a" someTrack 1 2,
  .enqueue "bob" "b" someTrack 3 4,
  .deliver "alice" bobAlone,
  .deliver "bob" aliceAlone]

/-- Bob's snapshot with both items. -/
def bobAfterAlice : QueueState :=
  ⟨2, 4, "bob", [⟨"a", someTrack, "alice", 1⟩, ⟨"b", someTrack, "bob", 3⟩]⟩

/-- Bob enqueues after he has heard of Alice's item. -/
def orderlyEnqueues : List QueueAction := [
  .enqueue "alice" "a" someTrack 1 2,
  .deliver "bob" aliceAlone,
  .enqueue "bob" "b" someTrack 3 4,
  .deliver "alice" bobAfterAlice]

/-! ## Main result -/

/-- In every run in which only items are enqueued, by clocks that are not behind, whoever has
heard of everything has every item once exactly when every item was enqueued at a peer that had
all the items enqueued before. -/
theorem every_item_once_iff {actions : List QueueAction}
    (h : Along QueueRoom.step (fun room action => room.OnlyEnqueues action ∧ room.Ahead action)
      .new actions) {peer : PeerId} (hall : (QueueRoom.new.run actions).HasAll peer) :
    (∀ item ∈ (QueueRoom.new.run actions).enqueued,
      ((QueueRoom.new.run actions).replica peer).queue.count item = 1) ↔
        Along QueueRoom.step QueueRoom.Extends .new actions := by
  constructor
  · intro honce
    have htraced : (QueueRoom.new.run actions).Traced :=
      h.invariant .new fun _ _ hroom hC => hroom.step hC.1 hC.2
    have heither : Along QueueRoom.step QueueRoom.Extends .new actions ∨
        (QueueRoom.new.run actions).Crossed :=
      h.along_or .new (fun _ _ hroom hC => hroom.step hC.1 hC.2)
        (fun _ _ hroom hC hextends => .of_not_extends hroom hC.1 hextends)
        (fun _ _ hroom hC hcrossed => hcrossed.step hroom hC.1)
    refine heither.resolve_right fun hcrossed => ?_
    obtain ⟨item, hitem, hlacks⟩ := hcrossed.exists_not_mem htraced peer
    have hcount := honce item hitem
    rw [List.count_eq_zero_of_not_mem hlacks] at hcount
    exact absurd hcount (by decide)
  · intro hextends item hitem
    have hchained : ∃ top, (QueueRoom.new.run actions).Chained top :=
      (h.and hextends).invariant (I := fun room => ∃ top, room.Chained top) ⟨_, .new⟩
        fun _ _ ⟨_, hroom⟩ hC => hroom.step hC.1.1 hC.1.2 hC.2
    obtain ⟨top, hroom⟩ := hchained
    rw [hroom.queue_eq hall]
    exact List.count_eq_one_of_mem hroom.traced.nodup hitem

/-- The main result where Bob enqueues after Alice: Alice has both items once. -/
theorem every_item_once_iff_orderlyEnqueues :
    (∀ item ∈ (QueueRoom.new.run orderlyEnqueues).enqueued,
      ((QueueRoom.new.run orderlyEnqueues).replica "alice").queue.count item = 1) ↔
        Along QueueRoom.step QueueRoom.Extends .new orderlyEnqueues :=
  every_item_once_iff (by decide) (by decide)

/-- Where two items cross, one of them is lost, although the clocks agree. -/
theorem crossing_enqueues_lose_an_item :
    ¬ ∀ actions, Along QueueRoom.step
        (fun room action => room.OnlyEnqueues action ∧ room.Fresh action) .new actions →
      ∀ peer, (QueueRoom.new.run actions).HasAll peer →
        ∀ item ∈ (QueueRoom.new.run actions).enqueued,
          ((QueueRoom.new.run actions).replica peer).queue.count item = 1 := by
  intro h
  have hrun := h crossingEnqueues (by decide) "alice" (by decide)
  revert hrun
  decide

end LightEar
