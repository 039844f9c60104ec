import LightEar.QueueRoom

/-!
# Equal keys and equal queues

A snapshot with the key that a peer already has is nothing new to the peer, so one key must never
stand for two queues.  A change of a peer's own gets its key from a fresh reading of the clock.  A
vote, however, is executed by every peer on its own copy and stamped with one time for all, and a
proposal that is not stale may meet copies with the same version and other items.  Equal keys mean
equal queues exactly as long as this does not happen.

The invariant keeps track of where a key comes from: from the start, from a peer's own change, or
from the execution of one proposal at one version.
-/

namespace LightEar

open Foundation

/-! ## Keys -/

/-- Two snapshots with one key. -/
def SameKey (a b : QueueState) : Prop :=
  a.version = b.version ∧ a.updatedAtMicros = b.updatedAtMicros

instance (a b : QueueState) : Decidable (SameKey a b) := inferInstanceAs (Decidable (_ ∧ _))

theorem SameKey.symm {a b : QueueState} (h : SameKey a b) : SameKey b a := ⟨h.1.symm, h.2.symm⟩

theorem SameKey.trans {a b c : QueueState} (h : SameKey a b) (h' : SameKey b c) : SameKey a c :=
  ⟨h.1.trans h'.1, h.2.trans h'.2⟩

/-- The same items, up to where the named one stands. -/
def SameRest (itemId : String) (items items' : List QueueItem) : Prop :=
  items.find? (MusicState.isItem itemId) = items'.find? (MusicState.isItem itemId) ∧
    items.eraseP (MusicState.isItem itemId) = items'.eraseP (MusicState.isItem itemId)

instance (itemId : String) (items items' : List QueueItem) :
    Decidable (SameRest itemId items items') := inferInstanceAs (Decidable (_ ∧ _))

/-- A vote comes out the same over the same rest. -/
theorem VoteAction.onItems_congr {action : VoteAction} {itemId : String}
    {items items' : List QueueItem} (haction : action.itemId? = some itemId)
    (h : SameRest itemId items items') : action.onItems items = action.onItems items' := by
  unfold onItems
  cases action with
  | pause => cases haction
  | resume => cases haction
  | skip => cases haction
  | seek positionMs => cases haction
  | remove id =>
    cases haction
    exact h.2
  | move id toIndex =>
    cases haction
    dsimp only
    rw [← h.1, ← h.2]
    cases hfind : items.find? (MusicState.isItem itemId) with
    | some item => rfl
    | none =>
      have hfind' := h.1.symm.trans hfind
      have hrest := h.2
      rw [List.eraseP_of_forall_not (List.find?_eq_none.1 hfind),
        List.eraseP_of_forall_not (List.find?_eq_none.1 hfind')] at hrest
      exact hrest

/-- A peer that really executes a proposal has the same items, up to where the named one stands,
as every peer that has executed the proposal and come out with the same version. -/
def QueueRoom.Agrees (room : QueueRoom) : QueueAction → Prop
  | .execute peer proposal => room.Executes peer proposal →
    ∀ c ∈ room.changes, c.proposal = some proposal →
      c.after.version = satAdd (room.replica peer).queueVersion 1 →
        ∀ itemId ∈ proposal.action.itemId?,
          SameRest itemId c.before.items (room.replica peer).queue
  | _ => True

instance (room : QueueRoom) : (action : QueueAction) → Decidable (room.Agrees action)
  | .execute peer proposal =>
    inferInstanceAs (Decidable (room.Executes peer proposal → ∀ c ∈ room.changes, _ → _))
  | .enqueue .. | .removeOwn .. | .commitStart .. | .propose .. | .respond .. | .deliver .. =>
    isTrue trivial

/-! ## Where keys come from -/

/-- A snapshot is that of a fresh peer or was made by one of the changes. -/
def MadeBy (changes : List QueueChange) (state : QueueState) : Prop :=
  (state.version = 0 ∧ state.updatedAtMicros = 0 ∧ state.items = []) ∨
    ∃ c ∈ changes, SameKey state c.after ∧ state.items = c.after.items

theorem MadeBy.mono {changes more : List QueueChange} {state : QueueState}
    (h : MadeBy changes state) (hmore : changes ⊆ more) : MadeBy more state := by
  rcases h with h | ⟨c, hc, hmade⟩
  · exact .inl h
  · exact .inr ⟨c, hmore hc, hmade⟩

/-- The stamp of a change has been read, and nobody has the key of a fresh peer afterwards. -/
structure QueueChange.Stamped (c : QueueChange) (readings : List Int) : Prop where
  /-- The stamp was read off a clock. -/
  read : c.stamp ∈ readings
  /-- The stamp is the one given. -/
  stamp : c.after.updatedAtMicros = c.stamp
  /-- The version has gone up. -/
  version : c.after.version ≠ 0

/-- A change is an execution of a proposal as proposed, or has a stamp that no proposal has. -/
def QueueChange.Sourced (c : QueueChange) (proposals : List VoteProposal) : Prop :=
  match c.proposal with
  | none => ∀ proposal ∈ proposals, proposal.createdAtMicros ≠ c.stamp
  | some proposal => proposal ∈ proposals ∧ c.stamp = proposal.createdAtMicros ∧
      (∃ itemId, proposal.action.itemId? = some itemId) ∧
        c.after.version = satAdd c.before.version 1 ∧
          c.after.items = proposal.action.onItems c.before.items

/-- Every queue in the room is accounted for, and one key stands for one queue. -/
structure QueueRoom.Keyed (room : QueueRoom) : Prop where
  /-- What a peer has was made by a change. -/
  replicas : ∀ peer, MadeBy room.changes (room.queueState peer)
  /-- What was sent was made by a change. -/
  published : ∀ state ∈ room.published, MadeBy room.changes state
  /-- Changes are stamped with readings. -/
  stamped : ∀ c ∈ room.changes, c.Stamped room.readings
  /-- Changes are executions of proposals or have stamps of their own. -/
  sourced : ∀ c ∈ room.changes, c.Sourced room.proposals
  /-- Proposals are made at readings. -/
  proposed : ∀ proposal ∈ room.proposals, proposal.createdAtMicros ∈ room.readings
  /-- No two proposals are made at one reading. -/
  distinct : ∀ proposal ∈ room.proposals, ∀ other ∈ room.proposals,
    proposal.createdAtMicros = other.createdAtMicros → proposal = other
  /-- Changes to one key are changes to one queue. -/
  keyed : ∀ c ∈ room.changes, ∀ d ∈ room.changes,
    SameKey c.after d.after → c.after.items = d.after.items

namespace QueueRoom.Keyed

variable {room : QueueRoom}

/-- Snapshots that are accounted for have one queue for one key. -/
theorem items_eq (h : room.Keyed) {a b : QueueState} (ha : MadeBy room.changes a)
    (hb : MadeBy room.changes b) (hkey : SameKey a b) : a.items = b.items := by
  rcases ha with ⟨hversion, -, hitems⟩ | ⟨c, hc, hca, hitems⟩
  · rcases hb with ⟨-, -, hitems'⟩ | ⟨d, hd, hdb, -⟩
    · rw [hitems, hitems']
    · exact absurd ((hdb.1.symm.trans hkey.1.symm).trans hversion) (h.stamped d hd).version
  · rcases hb with ⟨hversion, -, -⟩ | ⟨d, hd, hdb, hitems'⟩
    · exact absurd ((hca.1.symm.trans hkey.1).trans hversion) (h.stamped c hc).version
    · rw [hitems, hitems']
      exact h.keyed c hc d hd ((hca.symm.trans hkey).trans hdb)

/-- More readings do no harm. -/
theorem read (h : room.Keyed) (readings : List Int) :
    QueueRoom.Keyed { room with readings := room.readings ++ readings } where
  replicas := h.replicas
  published := h.published
  stamped c hc := ⟨List.mem_append_left _ (h.stamped c hc).read, (h.stamped c hc).stamp,
    (h.stamped c hc).version⟩
  sourced := h.sourced
  proposed proposal hmem := List.mem_append_left _ (h.proposed proposal hmem)
  distinct := h.distinct
  keyed := h.keyed

/-- A change that is stamped and sourced, and that no earlier change contradicts. -/
theorem change (h : room.Keyed) {peer : PeerId} {proposal : Option VoteProposal} {stamp : Int}
    {m : MusicState}
    (hstamped : QueueChange.Stamped
      ⟨peer, proposal, stamp, room.queueState peer, m.queueState peer⟩ room.readings)
    (hsourced : QueueChange.Sourced
      ⟨peer, proposal, stamp, room.queueState peer, m.queueState peer⟩ room.proposals)
    (hkeyed : ∀ c ∈ room.changes, SameKey c.after (m.queueState peer) → c.after.items = m.queue) :
    (room.change peer proposal stamp m).Keyed := by
  have hlast : ∀ {c}, c ∈ (room.change peer proposal stamp m).changes → c ∈ room.changes ∨
      c = ⟨peer, proposal, stamp, room.queueState peer, m.queueState peer⟩ := fun hc =>
    (List.mem_append.1 hc).imp id List.mem_singleton.1
  have hmore : room.changes ⊆ (room.change peer proposal stamp m).changes :=
    List.subset_append_left _ _
  have hmade : MadeBy (room.change peer proposal stamp m).changes (m.queueState peer) :=
    .inr ⟨_, List.mem_append_right _ (List.mem_singleton_self _), ⟨rfl, rfl⟩, rfl⟩
  constructor
  · intro other
    unfold QueueRoom.queueState
    by_cases hother : other = peer
    · rw [hother, change_replica_self]
      exact hmade
    · rw [change_replica_of_ne room hother]
      exact (h.replicas other).mono hmore
  · intro state hstate
    rcases List.mem_append.1 hstate with hstate | hstate
    · exact (h.published state hstate).mono hmore
    · rw [List.mem_singleton.1 hstate]
      exact hmade
  · intro c hc
    rcases hlast hc with hc | rfl
    · exact h.stamped c hc
    · exact hstamped
  · intro c hc
    rcases hlast hc with hc | rfl
    · exact h.sourced c hc
    · exact hsourced
  · exact h.proposed
  · exact h.distinct
  · intro c hc d hd hkey
    rcases hlast hc with hc | rfl
    · rcases hlast hd with hd | rfl
      · exact h.keyed c hc d hd hkey
      · exact hkeyed c hc hkey
    · rcases hlast hd with hd | rfl
      · exact (hkeyed d hd hkey.symm).symm
      · rfl

/-- A change of a peer's own, stamped with a fresh reading. -/
theorem own (h : room.Keyed) (peer : PeerId) {stamp : Int} (m : MusicState)
    {readings : List Int} (hfresh : stamp ∉ room.readings) (hread : stamp ∈ readings) :
    QueueRoom.Keyed { room.change peer none stamp (m.markQueueChanged stamp) with
      readings := room.readings ++ readings } := by
  refine (h.read readings).change (m := m.markQueueChanged stamp)
    ⟨List.mem_append_right _ hread, rfl, ?_⟩ ?_ ?_
  · exact satAdd_one_ne_zero m.queueVersion
  · intro proposal hproposal heq
    have hstamp : proposal.createdAtMicros = stamp := heq
    exact hfresh (hstamp ▸ h.proposed proposal hproposal)
  · intro c hc hkey
    have hstamp : c.stamp = stamp := (h.stamped c hc).stamp.symm.trans hkey.2
    exact absurd (hstamp ▸ (h.stamped c hc).read) hfresh

/-- A vote executed in agreement with those that have executed it. -/
theorem execute (h : room.Keyed) {peer : PeerId} {proposal : VoteProposal}
    (hagrees : room.Agrees (.execute peer proposal)) : (room.execute peer proposal).Keyed := by
  by_cases hguard : room.Executes peer proposal
  · rw [room.execute_of hguard]
    have hrest := hagrees hguard
    obtain ⟨hproposal, -, hpresent⟩ := hguard
    obtain ⟨itemId, hitem, -⟩ := (Option.any_eq_true _ _).1 hpresent
    rw [MusicState.executeQueueVote_eq hpresent]
    refine h.change ⟨h.proposed proposal hproposal, rfl, ?_⟩
      ⟨hproposal, rfl, ⟨itemId, hitem⟩, rfl, rfl⟩ ?_
    · exact satAdd_one_ne_zero (room.replica peer).queueVersion
    · -- an earlier change with this key has executed the same proposal at the same version
      intro c hc hkey
      have hstamp : c.stamp = proposal.createdAtMicros := (h.stamped c hc).stamp.symm.trans hkey.2
      have hsourced := h.sourced c hc
      unfold QueueChange.Sourced at hsourced
      cases hother : c.proposal with
      | none =>
        rw [hother] at hsourced
        exact absurd hstamp.symm (hsourced proposal hproposal)
      | some other =>
        rw [hother] at hsourced
        obtain ⟨hmem, hcstamp, -, -, hitems⟩ := hsourced
        obtain rfl := h.distinct other hmem proposal hproposal (hcstamp.symm.trans hstamp)
        rw [hitems]
        exact VoteAction.onItems_congr hitem (hrest c hc hother hkey.1 itemId hitem)
  · rw [room.execute_of_not hguard]
    exact h

/-- A proposal made at a fresh reading. -/
theorem propose (h : room.Keyed) {proposal : VoteProposal} {readings : List Int}
    (hfresh : proposal.createdAtMicros ∉ room.readings)
    (hread : proposal.createdAtMicros ∈ readings) :
    QueueRoom.Keyed { room with
      proposals := room.proposals ++ [proposal]
      readings := room.readings ++ readings } := by
  have hlast : ∀ {other}, other ∈ room.proposals ++ [proposal] →
      other ∈ room.proposals ∨ other = proposal := fun hother =>
    (List.mem_append.1 hother).imp id List.mem_singleton.1
  refine ⟨h.replicas, h.published, (h.read readings).stamped, ?_, ?_, ?_, h.keyed⟩
  · intro c hc
    have hsourced := h.sourced c hc
    unfold QueueChange.Sourced at hsourced ⊢
    cases hproposal : c.proposal with
    | none =>
      rw [hproposal] at hsourced
      intro other hother
      rcases hlast hother with hother | rfl
      · exact hsourced other hother
      · exact fun heq => hfresh (heq ▸ (h.stamped c hc).read)
    | some other =>
      rw [hproposal] at hsourced
      exact ⟨List.mem_append_left _ hsourced.1, hsourced.2⟩
  · intro other hother
    rcases hlast hother with hother | rfl
    · exact List.mem_append_left _ (h.proposed other hother)
    · exact List.mem_append_right _ hread
  · intro other hother another hanother heq
    rcases hlast hother with hold | rfl
    · rcases hlast hanother with hold' | rfl
      · exact h.distinct other hold another hold' heq
      · exact absurd (heq ▸ h.proposed other hold) hfresh
    · rcases hlast hanother with hold' | rfl
      · exact absurd (heq ▸ h.proposed another hold') hfresh
      · rfl

/-- A snapshot that reaches a peer. -/
theorem deliver (h : room.Keyed) (peer : PeerId) (state : QueueState) :
    (room.deliver peer state).Keyed := by
  unfold QueueRoom.deliver
  split
  · rename_i hmem
    refine ⟨fun other => ?_, h.published, h.stamped, h.sourced, h.proposed, h.distinct, h.keyed⟩
    change MadeBy room.changes ((Function.update room.replica peer _ other).queueState other)
    by_cases hother : other = peer
    · subst hother
      rw [Function.update_self]
      cases hnewer : shouldApplyQueueState (room.replica other).queueVersion
          (room.replica other).queueUpdatedAt state with
      | false =>
        rw [MusicState.applyRemoteQueueState_of_not_newer hnewer]
        exact h.replicas other
      | true =>
        have htaken := MusicState.applyRemoteQueueState_of_newer hnewer
        rcases h.published state hmem with hmade | ⟨c, hc, hkey, hitems⟩
        · exact .inl ⟨htaken.version.trans hmade.1, htaken.updatedAt.trans hmade.2.1,
            htaken.items.trans hmade.2.2⟩
        · exact .inr ⟨c, hc, ⟨htaken.version.trans hkey.1, htaken.updatedAt.trans hkey.2⟩,
            htaken.items.trans hitems⟩
    · rw [Function.update_of_ne hother]
      exact h.replicas other
  · exact h

/-- Every action that is fresh and in agreement keeps the keys apart. -/
theorem step (h : room.Keyed) {action : QueueAction} (hfresh : room.Fresh action)
    (hagrees : room.Agrees action) : (room.step action).Keyed := by
  cases action with
  | enqueue peer itemId track addedMicros publishedMicros =>
    have hown := h.own peer ((room.replica peer).appendQueueItem
      ⟨itemId, track, peer, addedMicros⟩) (hfresh.2 publishedMicros (.tail _ (.head _)))
      (.tail addedMicros (.head []))
    exact ⟨hown.replicas, hown.published, hown.stamped, hown.sourced, hown.proposed,
      hown.distinct, hown.keyed⟩
  | removeOwn peer index micros =>
    unfold QueueRoom.step act removeOwn
    dsimp only
    split
    · exact h.read _
    · split
      · exact h.own peer _ (hfresh.2 micros (.head _)) (.head _)
      · exact h.read _
  | commitStart peer queueItemId removedMicros publishedMicros =>
    exact h.own peer _ (hfresh.2 publishedMicros (.tail _ (.head _))) (.tail _ (.head _))
  | propose peer voteId action micros =>
    unfold QueueRoom.step act
    dsimp only
    split
    · exact h.propose (hfresh.2 micros (.head _)) (.head _)
    · exact h.read _
  | execute peer proposal => exact (h.execute hagrees).read _
  | respond peer =>
    refine ⟨h.replicas, fun state hstate => ?_, (h.read _).stamped, h.sourced,
      (h.read _).proposed, h.distinct, h.keyed⟩
    rcases List.mem_append.1 hstate with hstate | hstate
    · exact h.published state hstate
    · rw [List.mem_singleton.1 hstate]
      exact h.replicas peer
  | deliver peer state => exact (h.deliver peer state).read _

/-- A fresh room. -/
theorem new : QueueRoom.new.Keyed :=
  ⟨fun _ => .inl ⟨rfl, rfl, rfl⟩, List.forall_mem_nil _, List.forall_mem_nil _,
    List.forall_mem_nil _, List.forall_mem_nil _, List.forall_mem_nil _, List.forall_mem_nil _⟩

end QueueRoom.Keyed

/-- The invariant holds at the end of every run that is fresh and in agreement. -/
theorem QueueRoom.keyed_of_along {actions : List QueueAction}
    (h : Along QueueRoom.step (fun room action => room.Fresh action ∧ room.Agrees action)
      .new actions) : (QueueRoom.new.run actions).Keyed :=
  h.invariant .new fun _ _ hroom hC => hroom.step hC.1 hC.2

/-- A snapshot above which no peer stands is what every peer settles at. -/
theorem QueueRoom.Keyed.settles {room : QueueRoom} (h : room.Keyed) {state : QueueState}
    (hmem : state ∈ room.published) {peer : PeerId}
    (hgreatest : shouldApplyQueueState state.version state.updatedAtMicros
      (room.queueState peer) = false) : (room.replica peer).Settles state := by
  cases hnewer : shouldApplyQueueState (room.replica peer).queueVersion
      (room.replica peer).queueUpdatedAt state with
  | true => exact MusicState.applyRemoteQueueState_of_newer hnewer
  | false =>
    have hkey : SameKey (room.queueState peer) state := by
      unfold shouldApplyQueueState at hgreatest hnewer
      rw [← Bool.not_eq_true, isQueueStateNewer_iff] at hgreatest hnewer
      unfold QueueRoom.queueState MusicState.queueState at hgreatest ⊢
      unfold SameKey
      dsimp only at hgreatest ⊢
      omega
    refine MusicState.Holds.settles ⟨?_, hkey.1, hkey.2⟩
    exact h.items_eq (h.replicas peer) (h.published state hmem) hkey

/-! ## A vote over two queues -/

/-- The snapshot of the queue in which everybody has the item of Carol. -/
def sharedItem : QueueState := ⟨1, 2, "carol", [⟨"x", someTrack, "carol", 1⟩]⟩

/-- A vote of Alice to remove it. -/
def removeVote (micros version : Nat) : VoteProposal where
  voteId := "vote"
  proposer := "alice"
  action := .remove "x"
  queueVersion := version
  playbackSessionId := none
  createdAtMicros := micros

/-- Carol enqueues an item, and Alice and Bob hear of it. -/
def shareItem : List QueueAction := [
  .enqueue "carol" "x" someTrack 1 2,
  .deliver "alice" sharedItem,
  .deliver "bob" sharedItem]

/-- Alice and Bob enqueue an item each; before they hear of each other's, a vote to remove the
item of Carol is passed and executed by both. -/
def voteOverTwoQueues : List QueueAction := shareItem ++ [
  .enqueue "alice" "a" someTrack 3 4,
  .enqueue "bob" "b" someTrack 5 6,
  .propose "alice" "vote" (.remove "x") 7,
  .execute "alice" (removeVote 7 2),
  .execute "bob" (removeVote 7 2)]

/-- Alice and Bob execute the vote over the same queue. -/
def voteOverOneQueue : List QueueAction := shareItem ++ [
  .propose "alice" "vote" (.remove "x") 3,
  .execute "alice" (removeVote 3 1),
  .execute "bob" (removeVote 3 1)]

/-! ## Main result -/

/-- In every run in which no two readings coincide and every proposal is executed over the same
rest, replicas with the same key hold the same items, and after a snapshot above which nobody
stands has reached any peers, in any order, their queues are that of the snapshot. -/
theorem equal_keys_equal_queues {actions : List QueueAction}
    (h : Along QueueRoom.step (fun room action => room.Fresh action ∧ room.Agrees action)
      .new actions) :
    (∀ p q, SameKey ((QueueRoom.new.run actions).queueState p)
        ((QueueRoom.new.run actions).queueState q) →
      ((QueueRoom.new.run actions).replica p).queue =
        ((QueueRoom.new.run actions).replica q).queue) ∧
    ∀ state ∈ (QueueRoom.new.run actions).published,
      (∀ p, shouldApplyQueueState state.version state.updatedAtMicros
        ((QueueRoom.new.run actions).queueState p) = false) →
      ∀ (peers : List PeerId), ∀ p ∈ peers,
        (((QueueRoom.new.run actions).run (peers.map (.deliver · state))).replica p).queue =
          state.items := by
  have hkeyed := QueueRoom.keyed_of_along h
  refine ⟨fun p q hkey => ?_, fun state hmem hgreatest peers p hp => ?_⟩
  · exact hkeyed.items_eq (hkeyed.replicas p) (hkeyed.replicas q) hkey
  · exact (QueueRoom.holds_of_delivered hmem (fun peer => hkeyed.settles hmem (hgreatest peer))
      peers p (.inl hp)).items

/-- The main result where the vote meets one queue. -/
theorem equal_keys_equal_queues_voteOverOneQueue :
    (∀ p q, SameKey ((QueueRoom.new.run voteOverOneQueue).queueState p)
        ((QueueRoom.new.run voteOverOneQueue).queueState q) →
      ((QueueRoom.new.run voteOverOneQueue).replica p).queue =
        ((QueueRoom.new.run voteOverOneQueue).replica q).queue) ∧
    ∀ state ∈ (QueueRoom.new.run voteOverOneQueue).published,
      (∀ p, shouldApplyQueueState state.version state.updatedAtMicros
        ((QueueRoom.new.run voteOverOneQueue).queueState p) = false) →
      ∀ (peers : List PeerId), ∀ p ∈ peers,
        (((QueueRoom.new.run voteOverOneQueue).run
          (peers.map (.deliver · state))).replica p).queue = state.items :=
  equal_keys_equal_queues (by decide)

/-- Where the vote meets two queues, two replicas have one key and different items. -/
theorem vote_over_two_queues :
    ¬ ∀ actions, Along QueueRoom.step QueueRoom.Fresh .new actions → ∀ p q,
      SameKey ((QueueRoom.new.run actions).queueState p)
          ((QueueRoom.new.run actions).queueState q) →
        ((QueueRoom.new.run actions).replica p).queue =
          ((QueueRoom.new.run actions).replica q).queue := by
  intro h
  have hrun := h voteOverTwoQueues (by decide) "alice" "bob"
  revert hrun
  decide

end LightEar
