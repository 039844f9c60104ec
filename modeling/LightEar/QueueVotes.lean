import LightEar.QueueHandlers
import LightEar.VoteExecution

/-!
# What a queue vote does

A passed vote about the queue is executed by every peer on its own copy.  A removal takes out the
first item with the proposal's id; a move takes it out and puts it back at the place asked for, or
at the end if the queue is too short.  The other items keep their order.

Neither the time of the execution nor the peer that executes has a part in it, so copies that are
equal stay equal (`queueVote_exact`).
-/

namespace LightEar

open Foundation

/-- The first item with an id, between the items before and after it. -/
structure FirstNamed (itemId : String) (items before : List QueueItem) (item : QueueItem)
    (after : List QueueItem) : Prop where
  /-- The three parts make up the list. -/
  split : items = before ++ item :: after
  /-- The item has the id. -/
  named : item.itemId = itemId
  /-- No item before it has. -/
  first : ∀ other ∈ before, other.itemId ≠ itemId

/-- The items after a move: the same ones, with one of them at a place among the rest. -/
structure Moved (items items' rest : List QueueItem) (item : QueueItem) (place : Nat) :
    Prop where
  /-- None is lost or added. -/
  perm : items'.Perm items
  /-- The item is at its place. -/
  placed : items'[place]? = some item
  /-- The others are in their old order. -/
  others : items'.eraseIdx place = rest

/-- What is found is the first item with the id. -/
theorem exists_firstNamed {itemId : String} {items : List QueueItem} {item : QueueItem}
    (h : items.find? (MusicState.isItem itemId) = some item) :
    ∃ before after, FirstNamed itemId items before item after := by
  obtain ⟨hitem, before, after, hsplit, hbefore⟩ := List.find?_eq_some_iff_append.1 h
  refine ⟨before, after, hsplit, beq_iff_eq.1 hitem, ?_⟩
  intro other hother hnamed
  have hnot := hbefore other hother
  simp [MusicState.isItem, hnamed] at hnot

namespace FirstNamed

variable {itemId : String} {items before after : List QueueItem} {item : QueueItem}

/-- The first item with the id is the one that is found. -/
theorem find?_eq (h : FirstNamed itemId items before item after) :
    items.find? (MusicState.isItem itemId) = some item := by
  have hnot : ∀ other ∈ before, !MusicState.isItem itemId other := by
    intro other hother
    have hne := h.first other hother
    simp [MusicState.isItem, hne]
  exact List.find?_eq_some_iff_append.2
    ⟨beq_iff_eq.2 h.named, before, after, h.split, hnot⟩

/-- The others are what is left without it. -/
theorem eraseP_eq (h : FirstNamed itemId items before item after) :
    items.eraseP (MusicState.isItem itemId) = before ++ after := by
  have hnot : ∀ other ∈ before, ¬MusicState.isItem itemId other = true := by
    intro other hother hnamed
    exact h.first other hother (beq_iff_eq.1 hnamed)
  have hitem : MusicState.isItem itemId item = true := beq_iff_eq.2 h.named
  rw [h.split, List.eraseP_append_right _ hnot, List.eraseP_cons_of_pos hitem]

/-- A removal leaves the others. -/
theorem onItems_remove (h : FirstNamed itemId items before item after) :
    (VoteAction.remove itemId).onItems items = before ++ after :=
  h.eraseP_eq

/-- A move puts the item where it was asked for, or last. -/
theorem onItems_move (h : FirstNamed itemId items before item after) (toIndex : Nat) :
    Moved items ((VoteAction.move itemId toIndex).onItems items) (before ++ after) item
      (min toIndex (items.length - 1)) := by
  have hlength : items.length - 1 = (before ++ after).length := by
    rw [h.split]
    simp
  have hplace : min toIndex (before ++ after).length ≤ (before ++ after).length :=
    min_le_right _ _
  have hitems : (VoteAction.move itemId toIndex).onItems items =
      (before ++ after).insertIdx (min toIndex (before ++ after).length) item := by
    unfold VoteAction.onItems
    dsimp only
    rw [h.find?_eq, h.eraseP_eq]
  rw [hlength, hitems]
  refine ⟨?_, ?_, ?_⟩
  · rw [h.split]
    exact (List.perm_insertIdx item _ hplace).trans List.perm_middle.symm
  · rw [List.getElem?_insertIdx_self, if_pos hplace]
  · exact List.eraseIdx_insertIdx_self item

end FirstNamed

/-! ## Copies -/

/-- Two peers have the same items under the same key. -/
structure SameQueue (m m' : MusicState) : Prop where
  /-- The items are the same. -/
  items : m.queue = m'.queue
  /-- The versions are the same. -/
  version : m.queueVersion = m'.queueVersion
  /-- The stamps are the same. -/
  updatedAt : m.queueUpdatedAt = m'.queueUpdatedAt

/-- A vote about the queue is executed in the same way on copies that are equal. -/
theorem SameQueue.executeVoteAction {b b' : Backend} (h : SameQueue b.music b'.music)
    {proposal : VoteProposal} (haction : proposal.action.isQueueAction = true) (env env' : Env) :
    SameQueue (finalState (executeVoteAction env proposal) b).music
      (finalState (executeVoteAction env' proposal) b').music := by
  rw [executeVoteAction_music haction, executeVoteAction_music haction, h.items]
  split
  · rename_i hthere
    have hthere' : (proposal.action.itemId?.any fun itemId =>
        b.music.queue.any (MusicState.isItem itemId)) = true := by
      rw [h.items]
      exact hthere
    rw [MusicState.executeQueueVote_eq hthere, MusicState.executeQueueVote_eq hthere']
    refine ⟨?_, ?_, rfl⟩
    · exact congrArg proposal.action.onItems h.items
    · exact congrArg (fun version => satAdd version 1) h.version
  · exact h

/-! ## Main result -/

/-- A vote of the present version that is not stale is about an item of the queue. -/
theorem exists_firstNamed_of_fits {m : MusicState} {proposal : VoteProposal} {itemId : String}
    (haction : proposal.action.itemId? = some itemId)
    (hversion : proposal.queueVersion = m.queueVersion)
    (hfits : m.staleVoteReason proposal = none) :
    ∃ before item after, FirstNamed itemId m.queue before item after := by
  have hstate : proposal.FitsState m :=
    MusicState.fits_of_not_stale (fun _ => hversion.le) hfits
  have hitem : ∃ item ∈ m.queue, item.itemId = itemId := by
    unfold VoteProposal.FitsState at hstate
    unfold VoteAction.itemId? at haction
    cases hkind : proposal.action with
    | remove id =>
      rw [hkind] at hstate haction
      cases haction
      exact hstate.2
    | move id toIndex =>
      rw [hkind] at hstate haction
      cases haction
      exact hstate.2
    | pause | resume | skip | seek positionMs =>
      rw [hkind] at haction
      cases haction
  obtain ⟨named, hnamed, hid⟩ := hitem
  have hfound : (m.queue.find? (MusicState.isItem itemId)).isSome = true :=
    List.find?_isSome.2 ⟨named, hnamed, beq_iff_eq.2 hid⟩
  obtain ⟨item, hitem⟩ := Option.isSome_iff_exists.1 hfound
  obtain ⟨before, after, hfirst⟩ := exists_firstNamed hitem
  exact ⟨before, item, after, hfirst⟩

/-- A vote about an item of the queue rewrites the items as its action says. -/
theorem executeVoteAction_queue {b : Backend} {proposal : VoteProposal} {itemId : String}
    {before after : List QueueItem} {item : QueueItem}
    (haction : proposal.action.itemId? = some itemId)
    (hfirst : FirstNamed itemId b.music.queue before item after) (env : Env) :
    (finalState (executeVoteAction env proposal) b).music.queue =
      proposal.action.onItems b.music.queue := by
  have hthere : (proposal.action.itemId?.any fun itemId =>
      b.music.queue.any (MusicState.isItem itemId)) = true := by
    rw [haction, hfirst.split]
    simp [MusicState.isItem, hfirst.named]
  have hqueue : proposal.action.isQueueAction = true := by
    cases hkind : proposal.action with
    | remove id => rfl
    | move id toIndex => rfl
    | pause | resume | skip | seek positionMs =>
      rw [hkind] at haction
      cases haction
  rw [executeVoteAction_music hqueue, if_pos hthere, MusicState.executeQueueVote_eq hthere]
  rfl

/-- A vote about the queue that has the present version and is not stale does exactly what it
says: a removal takes out the first item with the id and keeps the others in order; a move puts
that item at the place asked for, or last, and keeps the others in order.  It does the same on
every copy with the same items and key, whoever executes it and whenever. -/
theorem queueVote_exact {b : Backend} {proposal : VoteProposal}
    (haction : proposal.action.isQueueAction = true)
    (hversion : proposal.queueVersion = b.music.queueVersion)
    (hfits : b.music.staleVoteReason proposal = none) (env : Env) :
    (∀ itemId, proposal.action = .remove itemId →
      ∃ before item after, FirstNamed itemId b.music.queue before item after ∧
        (finalState (executeVoteAction env proposal) b).music.queue = before ++ after) ∧
    (∀ itemId toIndex, proposal.action = .move itemId toIndex →
      ∃ before item after, FirstNamed itemId b.music.queue before item after ∧
        Moved b.music.queue (finalState (executeVoteAction env proposal) b).music.queue
          (before ++ after) item (min toIndex (b.music.queue.length - 1))) ∧
    ∀ (b' : Backend) (env' : Env), SameQueue b.music b'.music →
      SameQueue (finalState (executeVoteAction env proposal) b).music
        (finalState (executeVoteAction env' proposal) b').music := by
  refine ⟨?_, ?_, ?_⟩
  · intro itemId hremove
    have hid : proposal.action.itemId? = some itemId := by rw [hremove]; rfl
    obtain ⟨before, item, after, hfirst⟩ := exists_firstNamed_of_fits hid hversion hfits
    refine ⟨before, item, after, hfirst, ?_⟩
    rw [executeVoteAction_queue hid hfirst, hremove]
    exact hfirst.onItems_remove
  · intro itemId toIndex hmove
    have hid : proposal.action.itemId? = some itemId := by rw [hmove]; rfl
    obtain ⟨before, item, after, hfirst⟩ := exists_firstNamed_of_fits hid hversion hfits
    refine ⟨before, item, after, hfirst, ?_⟩
    rw [executeVoteAction_queue hid hfirst, hmove]
    exact hfirst.onItems_move toIndex
  · intro b' env' hsame
    exact hsame.executeVoteAction haction env env'

/-- A peer with three items in its queue, two of which have the same id. -/
def threeItems : Backend :=
  { Backend.new "a" ∅ false 0 with
    music := { MusicState.new with
      queue := [⟨"p", someTrack, "a", 1000000⟩, ⟨"q", someTrack, "b", 2000000⟩,
        ⟨"q", someTrack, "c", 3000000⟩]
      queueVersion := 3
      queueUpdatedAt := 3000000 } }

/-- The proposal to move the item past the end of the queue. -/
def farMove : VoteProposal where
  voteId := "v"
  proposer := "b"
  action := .move "q" 9
  queueVersion := 3
  playbackSessionId := none
  createdAtMicros := 4000000

/-- The main result where an item is moved past the end. -/
theorem queueVote_exact_farMove :
    ∃ before item after, FirstNamed "q" threeItems.music.queue before item after ∧
      Moved threeItems.music.queue
        (finalState (executeVoteAction (.plain 5000000) farMove) threeItems).music.queue
        (before ++ after) item (min 9 (threeItems.music.queue.length - 1)) := by
  have haction : farMove.action.isQueueAction = true := rfl
  have hversion : farMove.queueVersion = threeItems.music.queueVersion := rfl
  have hfits : threeItems.music.staleVoteReason farMove = none := by decide
  exact (queueVote_exact haction hversion hfits (.plain 5000000)).2.1 "q" 9 rfl

end LightEar
