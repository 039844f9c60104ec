import LightEar.QueueHandlers
import LightEar.TornCommit

/-!
# Votes that have become stale

A vote is about a version of the queue or about a session of the playback, and a proposal that no
longer fits the state of a peer is refused there.  A vote that is already open is dropped when a
snapshot of another queue, another playback or a cancellation comes in.  The changes that a peer
makes to its own queue and playback do not look at the box, so the vote stays open, and no other
can be opened while it is.

`Spares` says, for each change and in terms of the state before, that the open vote is not one that
the change makes stale.  No open vote is ever stale exactly in the runs whose changes spare the
open vote (`no_stale_vote_iff`).
-/

namespace LightEar

open Foundation

namespace MusicState

/-! ## Votes that fit -/

/-- The session of the loaded track. -/
def currentSession (m : MusicState) : Option String :=
  m.playbackState.bind fun state => state.track.map fun _ => state.sessionId

/-- The open vote is not stale. -/
def NoStaleVote (m : MusicState) : Prop :=
  ∀ vote, m.activeVote = some vote → m.staleVoteReason vote.proposal = none

/-- A vote in the box that is about the queue is about a newer version than the given one, or about
this version and an item that is there. -/
def QueueVoteFits (box : Option ActiveVote) (version : Nat) (items : List QueueItem) : Prop :=
  ∀ vote, box = some vote → ∀ itemId, vote.proposal.action.itemId? = some itemId →
    version < vote.proposal.queueVersion ∨
      version = vote.proposal.queueVersion ∧ items.any (isItem itemId) = true

/-- A vote in the box that is about the playback is about the given session. -/
def PlaybackVoteFits (box : Option ActiveVote) (session : Option String) : Prop :=
  ∀ vote, box = some vote → vote.proposal.action.isPlaybackAction = true →
    session.isSome = true ∧ vote.proposal.playbackSessionId = session

/-- No vote in the box is about the playback. -/
def NoPlaybackVote (box : Option ActiveVote) : Prop :=
  ∀ vote, box = some vote → vote.proposal.action.isPlaybackAction = false

theorem queueReason_eq_none_iff {m : MusicState} {proposal : VoteProposal} {itemId : String} :
    (if proposal.queueVersion < m.queueVersion then some "queue changed during vote"
      else if proposal.queueVersion = m.queueVersion then
        if m.queue.any (·.itemId == itemId) then none
        else some "queue item is no longer available"
      else none) = none ↔
      m.queueVersion < proposal.queueVersion ∨
        m.queueVersion = proposal.queueVersion ∧ m.queue.any (isItem itemId) = true := by
  have hitem : m.queue.any (isItem itemId) = m.queue.any (·.itemId == itemId) := rfl
  rw [hitem]
  rcases Nat.lt_trichotomy proposal.queueVersion m.queueVersion with hlt | heq | hgt
  · rw [if_pos hlt]
    simp only [reduceCtorEq, false_iff]
    omega
  · rw [if_neg heq.not_lt, if_pos heq]
    simp [heq]
  · rw [if_neg hgt.not_gt, if_neg hgt.ne']
    simp [hgt]

theorem playbackReason_eq_none_iff {m : MusicState} {proposal : VoteProposal} :
    (match m.currentSession with
      | none => some "no active playback"
      | some currentSession =>
        if proposal.playbackSessionId ≠ some currentSession then
          some "playback changed during vote"
        else none) = none ↔
      m.currentSession.isSome = true ∧ proposal.playbackSessionId = m.currentSession := by
  cases m.currentSession with
  | none => simp
  | some session => simp

/-- A vote about the playback is not about an item. -/
theorem itemId?_of_isPlaybackAction {action : VoteAction} (h : action.isPlaybackAction = true) :
    action.itemId? = none := by
  cases action with
  | pause => rfl
  | resume => rfl
  | skip => rfl
  | seek positionMs => rfl
  | remove itemId => cases h
  | move itemId toIndex => cases h

/-- Of the two things that a vote may be about, a vote about an item has the first to fit. -/
theorem fits_item_iff {action : VoteAction} {itemId : String} {P : String → Prop} {Q : Prop}
    (h : action.itemId? = some itemId) :
    ((∀ itemId, action.itemId? = some itemId → P itemId) ∧
      (action.isPlaybackAction = true → Q)) ↔ P itemId := by
  constructor
  · intro hfits
    exact hfits.1 itemId h
  · intro hitem
    refine ⟨fun other hother => ?_, fun hplayback => ?_⟩
    · rw [h, Option.some.injEq] at hother
      exact hother ▸ hitem
    · rw [itemId?_of_isPlaybackAction hplayback] at h
      cases h

/-- A vote about the playback has the second. -/
theorem fits_playback_iff {action : VoteAction} {P : String → Prop} {Q : Prop}
    (h : action.isPlaybackAction = true) :
    ((∀ itemId, action.itemId? = some itemId → P itemId) ∧
      (action.isPlaybackAction = true → Q)) ↔ Q := by
  rw [itemId?_of_isPlaybackAction h, forall_prop_of_true h]
  exact and_iff_right fun itemId hitem => nomatch hitem

/-- A proposal fits if what it is about is there. -/
theorem staleVoteReason_eq_none_iff {m : MusicState} {proposal : VoteProposal} :
    m.staleVoteReason proposal = none ↔
      (∀ itemId, proposal.action.itemId? = some itemId →
        m.queueVersion < proposal.queueVersion ∨
          m.queueVersion = proposal.queueVersion ∧ m.queue.any (isItem itemId) = true) ∧
      (proposal.action.isPlaybackAction = true →
        m.currentSession.isSome = true ∧ proposal.playbackSessionId = m.currentSession) := by
  unfold staleVoteReason
  cases haction : proposal.action with
  | remove itemId =>
    refine Iff.trans ?_ (fits_item_iff rfl).symm
    exact queueReason_eq_none_iff
  | move itemId toIndex =>
    refine Iff.trans ?_ (fits_item_iff rfl).symm
    exact queueReason_eq_none_iff
  | pause => exact playbackReason_eq_none_iff.trans (fits_playback_iff rfl).symm
  | resume => exact playbackReason_eq_none_iff.trans (fits_playback_iff rfl).symm
  | skip => exact playbackReason_eq_none_iff.trans (fits_playback_iff rfl).symm
  | seek positionMs => exact playbackReason_eq_none_iff.trans (fits_playback_iff rfl).symm

/-- The open vote is not stale if the queue and the playback fit it. -/
theorem noStaleVote_iff {m : MusicState} : m.NoStaleVote ↔
    QueueVoteFits m.activeVote m.queueVersion m.queue ∧
      PlaybackVoteFits m.activeVote m.currentSession := by
  constructor
  · intro h
    exact ⟨fun vote hvote => (staleVoteReason_eq_none_iff.1 (h vote hvote)).1,
      fun vote hvote => (staleVoteReason_eq_none_iff.1 (h vote hvote)).2⟩
  · intro h vote hvote
    exact staleVoteReason_eq_none_iff.2 ⟨h.1 vote hvote, h.2 vote hvote⟩

theorem noStaleVote_of_none {m : MusicState} (h : m.activeVote = none) : m.NoStaleVote := by
  intro vote hvote
  rw [h] at hvote
  cases hvote

/-- Nothing in an empty box is about the playback. -/
theorem noPlaybackVote_of_none {box : Option ActiveVote} (h : box = none) :
    NoPlaybackVote box := by
  intro vote hvote
  rw [h] at hvote
  cases hvote

/-- A box from which no vote is about the playback fits any playback. -/
theorem NoPlaybackVote.fits {box : Option ActiveVote} (h : NoPlaybackVote box)
    (session : Option String) : PlaybackVoteFits box session := by
  intro vote hvote hplayback
  rw [h vote hvote] at hplayback
  cases hplayback

/-- With nothing loaded, only such a box fits. -/
theorem playbackVoteFits_none_iff {box : Option ActiveVote} :
    PlaybackVoteFits box none ↔ NoPlaybackVote box := by
  refine ⟨fun h vote hvote => ?_, fun h => h.fits none⟩
  refine Bool.eq_false_of_not_eq_true fun hplayback => ?_
  exact absurd (h vote hvote hplayback).1 Bool.false_ne_true

/-! ## Changes that look at the box -/

/-- Dropping a playback vote leaves a queue vote as fitting as it was. -/
theorem KeepsOrDropsPlayback.queueVoteFits_iff {box box' : Option ActiveVote}
    (h : KeepsOrDropsPlayback box box') (version : Nat) (items : List QueueItem) :
    QueueVoteFits box' version items ↔ QueueVoteFits box version items := by
  rcases h with rfl | ⟨rfl, vote, rfl, hplayback⟩
  · exact Iff.rfl
  · refine iff_of_true (fun vote hvote => nomatch hvote) fun vote' hvote' itemId hitem => ?_
    cases hvote'
    rw [itemId?_of_isPlaybackAction hplayback] at hitem
    cases hitem

/-- After this no playback vote is left. -/
theorem noPlaybackVote_invalidate (m : MusicState) :
    NoPlaybackVote m.invalidatePlaybackVote.activeVote := by
  unfold invalidatePlaybackVote
  cases hvote : m.activeVote with
  | none => exact noPlaybackVote_of_none hvote
  | some vote =>
    dsimp only
    split
    · exact noPlaybackVote_of_none rfl
    · rename_i hqueue
      intro vote' hvote'
      rw [hvote] at hvote'
      cases hvote'
      exact Bool.eq_false_of_not_eq_true hqueue

/-- The session of a state with a track. -/
def loadedSession (state : PlaybackState) : Option String :=
  state.track.map fun _ => state.sessionId

theorem loadedSession_eq (state : PlaybackState) :
    loadedSession state = (playbackTrackKey state).map Prod.fst := by
  unfold loadedSession playbackTrackKey
  rw [Option.map_map]
  rfl

theorem currentSession_eq (m : MusicState) :
    m.currentSession = (m.playbackState.bind playbackTrackKey).map Prod.fst := by
  have hsession : m.currentSession = m.playbackState.bind loadedSession := rfl
  rw [hsession, funext loadedSession_eq, Option.map_bind]
  rfl

/-- A playback vote that fits is dropped if another session or track takes over, and fits
otherwise. -/
theorem playbackVoteFits_invalidate {m : MusicState}
    (h : PlaybackVoteFits m.activeVote m.currentSession) (next : PlaybackState) :
    PlaybackVoteFits (m.invalidatePlaybackVoteIfTrackChanges next).activeVote
      (loadedSession next) := by
  unfold invalidatePlaybackVoteIfTrackChanges
  cases hvote : m.activeVote with
  | none => exact (noPlaybackVote_of_none hvote).fits _
  | some vote =>
    dsimp only
    split
    · exact (noPlaybackVote_of_none rfl).fits _
    · rename_i hkept
      intro vote' hvote' hplayback
      rw [hvote] at hvote'
      cases hvote'
      have hsame : m.playbackState.bind playbackTrackKey = playbackTrackKey next := by
        by_contra hother
        exact hkept (Bool.and_eq_true_iff.2 ⟨hplayback, bne_iff_ne.2 hother⟩)
      rw [loadedSession_eq, ← hsame, ← currentSession_eq]
      exact h vote hvote hplayback

/-! ## Loading and cancelling -/

theorem setPlaybackState_currentSession (m : MusicState) (state : PlaybackState) :
    (m.setPlaybackState state).currentSession = loadedSession state := by
  unfold currentSession
  rw [setPlaybackState_playbackState]
  rfl

/-- Loading a state drops from the box what it makes stale. -/
theorem setPlaybackState_noStaleVote_iff {m : MusicState}
    (h : PlaybackVoteFits m.activeVote m.currentSession) (state : PlaybackState) :
    (m.setPlaybackState state).NoStaleVote ↔
      QueueVoteFits m.activeVote m.queueVersion m.queue := by
  have hqueue := m.setPlaybackState_sameQueue state
  have hbox : (m.setPlaybackState state).activeVote =
      (m.invalidatePlaybackVoteIfTrackChanges state).activeVote := rfl
  rw [noStaleVote_iff, setPlaybackState_currentSession, hqueue.version, hqueue.items, hbox,
    and_iff_left (playbackVoteFits_invalidate h state)]
  exact (m.invalidatePlaybackVoteIfTrackChanges_drops state).queueVoteFits_iff _ _

/-- So does loading a state that another peer prepares. -/
theorem noStaleVote_setRemotePlaybackPrepare {m : MusicState} (h : m.NoStaleVote)
    (state : PlaybackState) (now : Instant) :
    (m.setRemotePlaybackPrepare state now).NoStaleVote := by
  have hqueue := MusicOp.sameQueue (.setRemotePlaybackPrepare state now) rfl m
  have hbox : (m.setRemotePlaybackPrepare state now).activeVote =
      (m.invalidatePlaybackVoteIfTrackChanges state).activeVote := rfl
  obtain ⟨hitem, hsession⟩ := noStaleVote_iff.1 h
  refine noStaleVote_iff.2 ⟨?_, playbackVoteFits_invalidate hsession state⟩
  change QueueVoteFits _ (MusicOp.apply (.setRemotePlaybackPrepare state now) m).queueVersion
    (MusicOp.apply (.setRemotePlaybackPrepare state now) m).queue
  rw [hqueue.version, hqueue.items, hbox,
    (m.invalidatePlaybackVoteIfTrackChanges_drops state).queueVoteFits_iff]
  exact hitem

/-- A cancellation drops every playback vote. -/
theorem noStaleVote_cancelPlayback {m : MusicState} (h : m.NoStaleVote) (sessionId : String) :
    (m.cancelPlayback sessionId).NoStaleVote := by
  have hqueue := MusicOp.sameQueue (.cancelPlayback sessionId) rfl m
  change (m.cancelPlayback sessionId).SameQueue m at hqueue
  refine noStaleVote_iff.2 ⟨?_, ?_⟩
  · rw [hqueue.version, hqueue.items]
    unfold cancelPlayback
    split
    · exact (m.invalidatePlaybackVote_drops.queueVoteFits_iff _ _).2 (noStaleVote_iff.1 h).1
    · exact (noStaleVote_iff.1 h).1
  · unfold cancelPlayback
    split
    · exact (noPlaybackVote_invalidate m).fits _
    · exact (noStaleVote_iff.1 h).2

/-- A snapshot drops a queue vote that it makes stale. -/
theorem noStaleVote_applyRemoteQueueState {m : MusicState} (h : m.NoStaleVote)
    (state : QueueState) : (m.applyRemoteQueueState state).2.NoStaleVote := by
  unfold applyRemoteQueueState
  split
  · dsimp only
    unfold invalidateStaleQueueVote
    dsimp only
    cases hvote : m.activeVote with
    | none => exact noStaleVote_of_none rfl
    | some vote =>
      dsimp only
      split
      · exact noStaleVote_of_none rfl
      · rename_i hkept
        intro vote' hvote'
        cases hvote'
        by_cases hqueue : vote.proposal.action.isQueueAction = true
        · rw [hqueue, Bool.true_and, Option.isSome_iff_ne_none, not_not] at hkept
          exact hkept
        · -- the snapshot does not touch the playback
          have hbefore := staleVoteReason_eq_none_iff.1 (h vote hvote)
          refine staleVoteReason_eq_none_iff.2 ⟨fun itemId hitem => ?_, hbefore.2⟩
          have hnone : vote.proposal.action.itemId? = none :=
            itemId?_of_isPlaybackAction (by
              unfold VoteAction.isPlaybackAction
              rw [Bool.eq_false_of_not_eq_true hqueue]
              rfl)
          rw [hnone] at hitem
          cases hitem
  · exact h

/-! ## Changes that do not look at the box -/

/-- After a change of the queue a queue vote has to fit what the queue has become. -/
theorem noStaleVote_queueChange_iff {m m' : MusicState} (h : m.NoStaleVote)
    (hbox : m'.activeVote = m.activeVote) (hplayback : m'.playbackState = m.playbackState) :
    m'.NoStaleVote ↔ QueueVoteFits m.activeVote m'.queueVersion m'.queue := by
  have hsession : m'.currentSession = m.currentSession := by
    unfold currentSession
    rw [hplayback]
  rw [noStaleVote_iff, hbox, hsession, and_iff_left (noStaleVote_iff.1 h).2]

/-- After a change of the playback a playback vote has to fit what the playback has become. -/
theorem noStaleVote_playbackChange_iff {m m' : MusicState} (h : m.NoStaleVote)
    (hbox : m'.activeVote = m.activeVote) (hqueue : m'.SameQueue m) :
    m'.NoStaleVote ↔ PlaybackVoteFits m.activeVote m'.currentSession := by
  rw [noStaleVote_iff, hbox, hqueue.version, hqueue.items, and_iff_right (noStaleVote_iff.1 h).1]

/-- Ballots do not change what a vote is about. -/
theorem noStaleVote_ballot {m : MusicState} (h : m.NoStaleVote) {vote : ActiveVote}
    (hvote : m.activeVote = some vote) (peerId : PeerId) (approve : Bool) :
    { m with activeVote := some (vote.vote peerId approve).2 }.NoStaleVote := by
  intro vote' hvote'
  cases hvote'
  have hsame : (vote.vote peerId approve).2.proposal = vote.proposal := by
    unfold ActiveVote.vote
    split
    · rfl
    · split
      · rfl
      · rfl
  rw [hsame]
  exact h vote hvote

/-- A vote that is opened over a proposal that fits is not stale. -/
theorem noStaleVote_openVote {m : MusicState} {proposal : VoteProposal}
    (h : m.staleVoteReason proposal = none) (deadline : Instant) :
    (m.openVote proposal deadline).NoStaleVote := by
  have hfresh : { m with activeVote := some (ActiveVote.new proposal deadline) }.NoStaleVote := by
    intro vote hvote
    cases hvote
    exact h
  exact noStaleVote_ballot hfresh rfl proposal.proposer true

end MusicState

/-! ## Actions -/

/-- The changes that concern neither the queue nor the session that plays. -/
def MusicOp.isUpkeep : MusicOp → Bool
  | markPlaybackReady .. | removePendingPeer .. | maybeStartPendingPlayback ..
  | pausePlaybackForVote .. | refreshPlaybackState .. | nextPlaybackVersion => true
  | _ => false

/-- What may happen to the music state of a peer. -/
inductive MusicAction where
  | enqueue (item : QueueItem) (micros : Int)
  | removeOwn (localPeerId : PeerId) (index : Nat) (micros : Int)
  | commit (operation : BufferOperation) (committedMicros removedMicros publishedMicros : Int)
  | remoteQueue (state : QueueState)
  | remotePlayback (state : PlaybackState)
  | remotePrepare (state : PlaybackState) (now : Instant)
  | cancelPlayback (sessionId : String)
  | takeLocalPendingCancel (localPeerId : PeerId)
  | stopCurrentPlayback (localPeerId : PeerId) (micros : Int)
  | propose (localPeerId : PeerId) (voteId : String) (action : VoteAction) (micros : Int)
      (deadline : Instant)
  | receiveProposal (proposal : VoteProposal) (deadline : Instant)
  | castVote (peerId : PeerId) (approve : Bool)
  | castVoteFor (voteId : String) (peerId : PeerId) (approve : Bool)
  | resolve (localPeerId actor : PeerId) (threshold eligiblePeers : Nat)
  | timeOut (now : Instant)
  | upkeep (op : MusicOp) (h : op.isUpkeep = true)

namespace MusicState

/-- Removes an item of one's own. -/
def removeOwn (m : MusicState) (localPeerId : PeerId) (index : Nat) (micros : Int) : MusicState :=
  match queueItemAt m.queue index with
  | none => m
  | some item =>
    if item.requestedBy = localPeerId then (m.removeQueueIndex index).markQueueChanged micros
    else m

/-- Consumes the item of a start, with a new key and another for publishing it. -/
def consumeItem (m : MusicState) (operation : BufferOperation)
    (removedMicros publishedMicros : Int) : MusicState :=
  if operation.kind = .start then
    (m.removeBufferQueueItem operation.queueItemId removedMicros).markQueueChanged publishedMicros
  else m

/-- Commits an operation. -/
def commit (m : MusicState) (operation : BufferOperation)
    (committedMicros removedMicros publishedMicros : Int) : MusicState :=
  ({ m with playbackVersion := satAdd m.playbackVersion 1 }.consumeItem operation removedMicros
    publishedMicros).setPlaybackState
      (committedState operation.state (satAdd m.playbackVersion 1) committedMicros musicStartDelay)

/-- The proposal that the local peer makes. -/
def proposalFor (m : MusicState) (localPeerId : PeerId) (voteId : String) (action : VoteAction)
    (micros : Int) : VoteProposal where
  voteId := voteId
  proposer := localPeerId
  action := action
  queueVersion := m.queueVersion
  playbackSessionId := m.playbackState.map PlaybackState.sessionId
  createdAtMicros := micros

/-- Opens a vote of the local peer, unless one is open or the proposal would be stale. -/
def propose (m : MusicState) (proposal : VoteProposal) (deadline : Instant) : MusicState :=
  if m.activeVote.isSome || (m.staleVoteReason proposal).isSome then m
  else m.startVote proposal deadline

/-- Executes a passed vote; only the proposer pauses for a resume or a seek. -/
def executeVote (m : MusicState) (localPeerId actor : PeerId) (proposal : VoteProposal) :
    MusicState :=
  match proposal.action with
  | .pause => (m.pausePlaybackForVote actor proposal.createdAtMicros).2
  | .skip => (m.stopCurrentPlaybackForVote actor proposal.createdAtMicros).2
  | .resume | .seek _ =>
    if proposal.proposer = localPeerId ∧ m.hasTrack then
      (m.pausePlaybackForVote actor proposal.createdAtMicros).2
    else m
  | .remove _ | .move _ _ => m.executeQueueVote proposal

/-- Looks at the box, and executes a vote that has passed unless it has become stale. -/
def resolve (m : MusicState) (localPeerId actor : PeerId) (threshold eligiblePeers : Nat) :
    MusicState :=
  let m' := (m.resolveVote threshold eligiblePeers).2
  match (m.resolveVote threshold eligiblePeers).1 with
  | some (.passed proposal) =>
    if (m'.staleVoteReason proposal).isNone then m'.executeVote localPeerId actor proposal else m'
  | some (.rejected _) => m'
  | none => m'

/-- The state after an action. -/
def act (m : MusicState) : MusicAction → MusicState
  | .enqueue item micros => (m.appendQueueItem item).markQueueChanged micros
  | .removeOwn localPeerId index micros => m.removeOwn localPeerId index micros
  | .commit operation committedMicros removedMicros publishedMicros =>
    m.commit operation committedMicros removedMicros publishedMicros
  | .remoteQueue state => (m.applyRemoteQueueState state).2
  | .remotePlayback state => (m.setPlaybackState state).removeStartedPlaybackQueueItem state
  | .remotePrepare state now => m.setRemotePlaybackPrepare state now
  | .cancelPlayback sessionId => m.cancelPlayback sessionId
  | .takeLocalPendingCancel localPeerId => (m.takeLocalPendingCancel localPeerId).2
  | .stopCurrentPlayback localPeerId micros => (m.stopCurrentPlayback localPeerId micros).2
  | .propose localPeerId voteId action micros deadline =>
    m.propose (m.proposalFor localPeerId voteId action micros) deadline
  | .receiveProposal proposal deadline => MusicOp.apply (.receiveVoteProposal proposal deadline) m
  | .castVote peerId approve => (m.castVote peerId approve).2
  | .castVoteFor voteId peerId approve => (m.castVoteFor voteId peerId approve).2
  | .resolve localPeerId actor threshold eligiblePeers =>
    m.resolve localPeerId actor threshold eligiblePeers
  | .timeOut now => m.takeTimedOutVote now
  | .upkeep op _ => op.apply m

/-- Whether the open vote is not one that an action makes stale.  Only changes of the peer's own
queue, the item that a remote playback has started, and stops can make a vote stale: a queue vote
has to be about a queue that is still to come, or about the queue that the action leaves and an
item in it, and there must be no playback vote when the playback ends. -/
def Spares (m : MusicState) : MusicAction → Prop
  | .enqueue item _ =>
    QueueVoteFits m.activeVote (satAdd m.queueVersion 1) (m.queue ++ [item])
  | .removeOwn localPeerId index _ =>
    ∀ item, queueItemAt m.queue index = some item → item.requestedBy = localPeerId →
      QueueVoteFits m.activeVote (satAdd m.queueVersion 1) (m.queue.eraseIdx (index - 1))
  | .commit operation _ _ _ =>
    operation.kind = .start →
      match operation.queueItemId.filter fun itemId => m.queue.any (isItem itemId) with
      | some itemId =>
        QueueVoteFits m.activeVote (satAdd (satAdd m.queueVersion 1) 1)
          (m.queue.eraseP (isItem itemId))
      | none => QueueVoteFits m.activeVote (satAdd m.queueVersion 1) m.queue
  | .remotePlayback state =>
    ∀ track, state.track = some track →
      QueueVoteFits m.activeVote m.queueVersion
        (m.queue.eraseP fun item => queueItemMatchesStartedPlayback item state track.trackId)
  | .takeLocalPendingCancel localPeerId =>
    ∀ preparing, m.playbackPhase = .preparing preparing →
      preparing.isLeader localPeerId = true → NoPlaybackVote m.activeVote
  | .stopCurrentPlayback _ _ => NoPlaybackVote m.activeVote
  | _ => True

/-! ## One action -/

section Step

variable {m : MusicState}

theorem noStaleVote_enqueue_iff (h : m.NoStaleVote) (item : QueueItem) (micros : Int) :
    (m.act (.enqueue item micros)).NoStaleVote ↔ m.Spares (.enqueue item micros) :=
  noStaleVote_queueChange_iff h rfl rfl

theorem noStaleVote_removeOwn_iff (h : m.NoStaleVote) (localPeerId : PeerId) (index : Nat)
    (micros : Int) :
    (m.removeOwn localPeerId index micros).NoStaleVote ↔
      ∀ item, queueItemAt m.queue index = some item → item.requestedBy = localPeerId →
        QueueVoteFits m.activeVote (satAdd m.queueVersion 1) (m.queue.eraseIdx (index - 1)) := by
  unfold removeOwn
  cases hitem : queueItemAt m.queue index with
  | none => exact iff_of_true h fun _ hnone => nomatch hnone
  | some item =>
    dsimp only
    by_cases hown : item.requestedBy = localPeerId
    · have hindex : index ≠ 0 := by
        rintro rfl
        exact absurd hitem.symm (Option.some_ne_none item)
      have hremoved : m.removeQueueIndex index =
          { m with queue := m.queue.eraseIdx (index - 1) } := if_neg hindex
      have hchange : (m.removeQueueIndex index |>.markQueueChanged micros).NoStaleVote ↔
          QueueVoteFits m.activeVote (satAdd m.queueVersion 1)
            (m.queue.eraseIdx (index - 1)) := by
        rw [hremoved]
        exact noStaleVote_queueChange_iff h rfl rfl
      rw [if_pos hown, hchange]
      exact ⟨fun hfits _ _ _ => hfits, fun hspares => hspares item rfl hown⟩
    · rw [if_neg hown]
      refine iff_of_true h fun item' hitem' hown' => ?_
      rw [Option.some.injEq] at hitem'
      exact absurd (hitem' ▸ hown') hown

/-- What a start leaves of the queue. -/
theorem queueVoteFits_consumeItem_iff (box : Option ActiveVote) (operation : BufferOperation)
    (removedMicros publishedMicros : Int) (hkind : operation.kind = .start) :
    QueueVoteFits box (m.consumeItem operation removedMicros publishedMicros).queueVersion
        (m.consumeItem operation removedMicros publishedMicros).queue ↔
      match operation.queueItemId.filter fun itemId => m.queue.any (isItem itemId) with
      | some itemId =>
        QueueVoteFits box (satAdd (satAdd m.queueVersion 1) 1) (m.queue.eraseP (isItem itemId))
      | none => QueueVoteFits box (satAdd m.queueVersion 1) m.queue := by
  unfold consumeItem removeBufferQueueItem
  rw [if_pos hkind]
  cases operation.queueItemId with
  | none => rfl
  | some itemId =>
    rw [Option.filter_some]
    dsimp only
    by_cases hpresent : m.queue.any (isItem itemId) = true
    · rw [if_pos hpresent, if_pos hpresent]
      rfl
    · rw [if_neg hpresent, if_neg hpresent]
      rfl

/-- Consuming an item leaves box and playback alone. -/
theorem consumeItem_frame (operation : BufferOperation) (removedMicros publishedMicros : Int) :
    (m.consumeItem operation removedMicros publishedMicros).activeVote = m.activeVote ∧
      (m.consumeItem operation removedMicros publishedMicros).playbackState = m.playbackState := by
  let op : MusicOp := .removeBufferQueueItem operation.queueItemId removedMicros
  unfold consumeItem
  split
  · exact ⟨op.sameVote rfl m, op.samePlayback rfl m⟩
  · exact ⟨rfl, rfl⟩

theorem noStaleVote_commit_iff (h : m.NoStaleVote) (operation : BufferOperation)
    (committedMicros removedMicros publishedMicros : Int) :
    (m.commit operation committedMicros removedMicros publishedMicros).NoStaleVote ↔
      (operation.kind = .start →
        match operation.queueItemId.filter fun itemId => m.queue.any (isItem itemId) with
        | some itemId =>
          QueueVoteFits m.activeVote (satAdd (satAdd m.queueVersion 1) 1)
            (m.queue.eraseP (isItem itemId))
        | none => QueueVoteFits m.activeVote (satAdd m.queueVersion 1) m.queue) := by
  obtain ⟨hqueue, hsession⟩ := noStaleVote_iff.1 h
  let bumped : MusicState := { m with playbackVersion := satAdd m.playbackVersion 1 }
  obtain ⟨hbox, hplayback⟩ := bumped.consumeItem_frame operation removedMicros publishedMicros
  have hfits : PlaybackVoteFits
      (bumped.consumeItem operation removedMicros publishedMicros).activeVote
      (bumped.consumeItem operation removedMicros publishedMicros).currentSession := by
    unfold currentSession
    rw [hbox, hplayback]
    exact hsession
  refine (setPlaybackState_noStaleVote_iff hfits _).trans ?_
  rw [hbox]
  by_cases hkind : operation.kind = .start
  · rw [queueVoteFits_consumeItem_iff _ _ _ _ hkind]
    exact ⟨fun hfits _ => hfits, fun hspares => hspares hkind⟩
  · refine iff_of_true ?_ fun hstart => absurd hstart hkind
    unfold consumeItem
    rw [if_neg hkind]
    exact hqueue

/-- A remote playback with a track takes an item out of the queue and leaves its key. -/
theorem removeStartedPlaybackQueueItem_of_track {state : PlaybackState} {track : PlaybackTrack}
    (h : state.track = some track) (m : MusicState) :
    m.removeStartedPlaybackQueueItem state =
      { m with
        queue :=
          m.queue.eraseP fun item =>
            queueItemMatchesStartedPlayback item state track.trackId } := by
  unfold removeStartedPlaybackQueueItem
  rw [h]

theorem noStaleVote_remotePlayback_iff (h : m.NoStaleVote) (state : PlaybackState) :
    ((m.setPlaybackState state).removeStartedPlaybackQueueItem state).NoStaleVote ↔
      ∀ track, state.track = some track →
        QueueVoteFits m.activeVote m.queueVersion
          (m.queue.eraseP fun item =>
            queueItemMatchesStartedPlayback item state track.trackId) := by
  obtain ⟨hitem, hsession⟩ := noStaleVote_iff.1 h
  have hqueue := m.setPlaybackState_sameQueue state
  cases htrack : state.track with
  | none =>
    have hidle : (m.setPlaybackState state).removeStartedPlaybackQueueItem state =
        m.setPlaybackState state := by
      unfold removeStartedPlaybackQueueItem
      rw [htrack]
    rw [hidle]
    exact iff_of_true ((setPlaybackState_noStaleVote_iff hsession state).2 hitem)
      fun _ hnone => nomatch hnone
  | some track =>
    rw [removeStartedPlaybackQueueItem_of_track htrack, noStaleVote_iff, hqueue.items]
    change QueueVoteFits (m.invalidatePlaybackVoteIfTrackChanges state).activeVote
        (m.setPlaybackState state).queueVersion _ ∧
      PlaybackVoteFits (m.invalidatePlaybackVoteIfTrackChanges state).activeVote
        (m.setPlaybackState state).currentSession ↔ _
    rw [setPlaybackState_currentSession, hqueue.version,
      and_iff_left (playbackVoteFits_invalidate hsession state),
      (m.invalidatePlaybackVoteIfTrackChanges_drops state).queueVoteFits_iff]
    constructor
    · intro hfits track' htrack'
      cases htrack'
      exact hfits
    · exact fun hspares => hspares track rfl

theorem noStaleVote_takeLocalPendingCancel_iff (h : m.NoStaleVote) (localPeerId : PeerId) :
    (m.takeLocalPendingCancel localPeerId).2.NoStaleVote ↔
      ∀ preparing, m.playbackPhase = .preparing preparing →
        preparing.isLeader localPeerId = true → NoPlaybackVote m.activeVote := by
  unfold takeLocalPendingCancel
  cases hphase : m.playbackPhase with
  | idle state => exact iff_of_true h fun _ hother => nomatch hother
  | active state => exact iff_of_true h fun _ hother => nomatch hother
  | preparing preparing =>
    dsimp only
    by_cases hleader : preparing.isLeader localPeerId = true
    · rw [if_pos hleader]
      have hidle : NoStaleVote { m with playbackPhase := .idle none } ↔
          PlaybackVoteFits m.activeVote none :=
        noStaleVote_playbackChange_iff h rfl ⟨rfl, rfl, rfl⟩
      rw [playbackVoteFits_none_iff] at hidle
      refine hidle.trans ⟨fun hnone _ _ _ => hnone, fun hspares => ?_⟩
      exact hspares preparing rfl hleader
    · rw [if_neg hleader]
      refine iff_of_true h fun preparing' hpreparing hleader' => ?_
      cases hpreparing
      exact absurd hleader' hleader

theorem noStaleVote_stopCurrentPlayback_iff (h : m.NoStaleVote) (localPeerId : PeerId)
    (micros : Int) :
    (m.stopCurrentPlayback localPeerId micros).2.NoStaleVote ↔ NoPlaybackVote m.activeVote := by
  have hidle : (m.stopCurrentPlayback localPeerId micros).2.NoStaleVote ↔
      PlaybackVoteFits m.activeVote none :=
    noStaleVote_playbackChange_iff h rfl ⟨rfl, rfl, rfl⟩
  rw [hidle, playbackVoteFits_none_iff]

/-- What is opened locally fits. -/
theorem noStaleVote_propose (h : m.NoStaleVote) (proposal : VoteProposal) (deadline : Instant) :
    (m.propose proposal deadline).NoStaleVote := by
  unfold propose
  split
  · exact h
  · rename_i hopen
    rw [Bool.or_eq_true, not_or, Option.isSome_iff_ne_none, not_not, Option.isSome_iff_ne_none,
      not_not] at hopen
    exact noStaleVote_openVote hopen.2 deadline

/-- What is opened for another peer fits. -/
theorem noStaleVote_receiveProposal (h : m.NoStaleVote) (proposal : VoteProposal)
    (deadline : Instant) :
    (MusicOp.apply (.receiveVoteProposal proposal deadline) m).NoStaleVote := by
  unfold MusicOp.apply receiveVoteProposal
  dsimp only
  split
  · rename_i m' hreceived
    split at hreceived
    · cases hreceived
    · split at hreceived
      · cases hreceived
      · rename_i hfits
        cases hreceived
        exact noStaleVote_openVote hfits deadline
  · exact h

theorem noStaleVote_castVote (h : m.NoStaleVote) (peerId : PeerId) (approve : Bool) :
    (m.castVote peerId approve).2.NoStaleVote := by
  unfold castVote
  split
  · exact h
  · rename_i vote hvote
    exact noStaleVote_ballot h hvote peerId approve

theorem noStaleVote_castVoteFor (h : m.NoStaleVote) (voteId : String) (peerId : PeerId)
    (approve : Bool) : (m.castVoteFor voteId peerId approve).2.NoStaleVote := by
  unfold castVoteFor
  split
  · exact h
  · rename_i vote hvote
    split
    · exact h
    · exact noStaleVote_ballot h hvote peerId approve

/-- Executing a vote opens none. -/
theorem executeVote_activeVote (localPeerId actor : PeerId) (proposal : VoteProposal) :
    (m.executeVote localPeerId actor proposal).activeVote = m.activeVote := by
  have hpause : (m.pausePlaybackForVote actor proposal.createdAtMicros).2.activeVote =
      m.activeVote := mapPlaybackState_activeVote _ _
  unfold executeVote executeQueueVote
  cases proposal.action with
  | pause => exact hpause
  | skip => rfl
  | remove itemId =>
    exact MusicOp.sameVote (.executeRemove itemId proposal.createdAtMicros) rfl m
  | move itemId toIndex =>
    exact MusicOp.sameVote (.executeMove itemId toIndex proposal.createdAtMicros) rfl m
  | resume =>
    dsimp only
    split
    · exact hpause
    · rfl
  | seek positionMs =>
    dsimp only
    split
    · exact hpause
    · rfl

/-- After a look at the box it is empty or as it was. -/
theorem noStaleVote_resolve (h : m.NoStaleVote) (localPeerId actor : PeerId)
    (threshold eligiblePeers : Nat) :
    (m.resolve localPeerId actor threshold eligiblePeers).NoStaleVote := by
  have hlook := m.resolveVote_snd threshold eligiblePeers
  unfold resolve
  dsimp only
  cases hresolution : (m.resolveVote threshold eligiblePeers).1 with
  | none =>
    rw [hresolution] at hlook
    dsimp only at hlook ⊢
    rw [hlook]
    exact h
  | some resolution =>
    rw [hresolution] at hlook
    dsimp only at hlook
    have hempty : (m.resolveVote threshold eligiblePeers).2.activeVote = none := by rw [hlook]
    cases resolution with
    | rejected proposal => exact noStaleVote_of_none hempty
    | passed proposal =>
      dsimp only
      split
      · exact noStaleVote_of_none ((executeVote_activeVote _ _ _).trans hempty)
      · exact noStaleVote_of_none hempty

theorem noStaleVote_takeTimedOutVote (h : m.NoStaleVote) (now : Instant) :
    (m.takeTimedOutVote now).NoStaleVote := by
  unfold takeTimedOutVote
  split
  · exact h
  · split
    · exact noStaleVote_of_none rfl
    · exact h

/-- Rewriting the state of the playback within its session keeps the session. -/
theorem mapPlaybackState_currentSession {f : PlaybackState → PlaybackState}
    (hf : ∀ state, loadedSession (f state) = loadedSession state) :
    (m.mapPlaybackState f).currentSession = m.currentSession := by
  have hsession : ∀ m : MusicState, m.currentSession = m.playbackState.bind loadedSession :=
    fun _ => rfl
  rw [hsession, hsession, mapPlaybackState_playbackState]
  cases m.playbackState with
  | none => rfl
  | some state => exact hf state

/-- A pause and a refresh stay within the session. -/
theorem loadedSession_refreshedState (now : Int) (state : PlaybackState) :
    loadedSession (refreshedState now state) = loadedSession state := by
  obtain ⟨positionMs, anchor, hrefreshed⟩ := refreshedState_eq now state
  rw [hrefreshed]
  rfl

theorem maybeStartPendingPlayback_currentSession (localPeerId : PeerId) (now : Instant)
    (micros delay : Int) :
    (m.maybeStartPendingPlayback localPeerId now micros delay).2.currentSession =
      m.currentSession := by
  unfold maybeStartPendingPlayback currentSession playbackState
  cases hphase : m.playbackPhase with
  | idle state => simp [hphase]
  | active state => simp [hphase]
  | preparing preparing =>
    dsimp only
    split_ifs
    · simp [hphase]
    · simp [hphase]
    · simp

/-- The other changes leave the session alone. -/
theorem upkeep_currentSession {op : MusicOp} (hop : op.isUpkeep = true) :
    (op.apply m).currentSession = m.currentSession := by
  cases hplayback : op.isPlaybackChange with
  | false =>
    unfold currentSession
    rw [op.samePlayback hplayback]
  | true =>
    cases op with
    | maybeStartPendingPlayback localPeerId now micros delay =>
      exact maybeStartPendingPlayback_currentSession localPeerId now micros delay
    | pausePlaybackForVote actor micros => exact mapPlaybackState_currentSession fun _ => rfl
    | refreshPlaybackState localPeerId micros =>
      have hsession : ∀ m : MusicState, m.currentSession = m.playbackState.bind loadedSession :=
        fun _ => rfl
      change (m.refreshPlaybackState localPeerId micros).2.currentSession = _
      rw [hsession, hsession]
      rcases m.refreshPlaybackState_playbackState localPeerId micros with hmap | hsame
      · rw [hmap]
        cases m.playbackState with
        | none => rfl
        | some state => exact loadedSession_refreshedState micros state
      · rw [hsame]
    | markPlaybackReady => cases hplayback
    | removePendingPeer => cases hplayback
    | nextPlaybackVersion => cases hplayback
    | _ => cases hop

theorem noStaleVote_upkeep (h : m.NoStaleVote) {op : MusicOp} (hop : op.isUpkeep = true) :
    (op.apply m).NoStaleVote := by
  obtain ⟨hqueue, hvote⟩ : op.isQueueChange = false ∧ op.isVoteChange = false := by
    cases op with
    | markPlaybackReady => exact ⟨rfl, rfl⟩
    | removePendingPeer => exact ⟨rfl, rfl⟩
    | maybeStartPendingPlayback => exact ⟨rfl, rfl⟩
    | pausePlaybackForVote => exact ⟨rfl, rfl⟩
    | refreshPlaybackState => exact ⟨rfl, rfl⟩
    | nextPlaybackVersion => exact ⟨rfl, rfl⟩
    | _ => cases hop
  rw [noStaleVote_playbackChange_iff h (op.sameVote hvote m) (op.sameQueue hqueue m),
    upkeep_currentSession hop]
  exact (noStaleVote_iff.1 h).2

end Step

/-- An action leaves no stale vote exactly if it spares the open vote. -/
theorem noStaleVote_act_iff {m : MusicState} (h : m.NoStaleVote) (action : MusicAction) :
    (m.act action).NoStaleVote ↔ m.Spares action := by
  cases action with
  | enqueue item micros => exact noStaleVote_enqueue_iff h item micros
  | removeOwn localPeerId index micros => exact noStaleVote_removeOwn_iff h localPeerId index micros
  | commit operation committedMicros removedMicros publishedMicros =>
    exact noStaleVote_commit_iff h operation committedMicros removedMicros publishedMicros
  | remoteQueue state => exact iff_of_true (noStaleVote_applyRemoteQueueState h state) trivial
  | remotePlayback state => exact noStaleVote_remotePlayback_iff h state
  | remotePrepare state now =>
    exact iff_of_true (noStaleVote_setRemotePlaybackPrepare h state now) trivial
  | cancelPlayback sessionId => exact iff_of_true (noStaleVote_cancelPlayback h sessionId) trivial
  | takeLocalPendingCancel localPeerId =>
    exact noStaleVote_takeLocalPendingCancel_iff h localPeerId
  | stopCurrentPlayback localPeerId micros =>
    exact noStaleVote_stopCurrentPlayback_iff h localPeerId micros
  | propose localPeerId voteId action micros deadline =>
    exact iff_of_true (noStaleVote_propose h _ deadline) trivial
  | receiveProposal proposal deadline =>
    exact iff_of_true (noStaleVote_receiveProposal h proposal deadline) trivial
  | castVote peerId approve => exact iff_of_true (noStaleVote_castVote h peerId approve) trivial
  | castVoteFor voteId peerId approve =>
    exact iff_of_true (noStaleVote_castVoteFor h voteId peerId approve) trivial
  | resolve localPeerId actor threshold eligiblePeers =>
    exact iff_of_true (noStaleVote_resolve h localPeerId actor threshold eligiblePeers) trivial
  | timeOut now => exact iff_of_true (noStaleVote_takeTimedOutVote h now) trivial
  | upkeep op hop => exact iff_of_true (noStaleVote_upkeep h hop) trivial

/-! ## Runs -/

/-- In every run, no open vote is stale after any action exactly if every action spares the vote
that is open when it happens. -/
theorem no_stale_vote_iff (actions : List MusicAction) :
    Along act (fun m action => (m.act action).NoStaleVote) .new actions ↔
      Along act Spares .new actions := by
  have hnew : MusicState.new.NoStaleVote := noStaleVote_of_none rfl
  have hactions : Along act (fun _ _ => True) .new actions :=
    .of_forall (fun _ _ => trivial) _ _
  exact hactions.iff_of_step hnew (fun m action h _ => noStaleVote_act_iff h action)
    fun m action h _ hspares => (noStaleVote_act_iff h action).2 hspares

/-- An item of Ann's. -/
def annsItem : QueueItem := ⟨"q1", someTrack, "ann", 10⟩

/-- Another. -/
def annsNextItem : QueueItem := ⟨"q2", someTrack, "ann", 30⟩

/-- Ann enqueues an item, puts another peer's wish to move it to the vote, and enqueues a second
one. -/
def enqueuedDuringVote : List MusicAction :=
  [.enqueue annsItem 10, .propose "ann" "v1" (.move "q1" 0) 20 (millis 20000),
    .enqueue annsNextItem 30]

/-- A proposal about the queue as it is then. -/
def freshProposal : VoteProposal := ⟨"v2", "bob", .move "q2" 0, 2, none, 40⟩

/-- The open vote is about a queue that is no more, and a proposal that fits is refused because of
it. -/
theorem not_no_stale_vote_enqueuedDuringVote :
    ¬ Along act (fun m action => (m.act action).NoStaleVote) .new enqueuedDuringVote ∧
      (enqueuedDuringVote.foldl act .new).staleVoteReason freshProposal = none ∧
      (enqueuedDuringVote.foldl act .new).receiveVoteProposal freshProposal (millis 20000) =
        .error "another vote is active" := by
  refine ⟨fun h => ?_, by decide, rfl⟩
  have hfits := h.2.2.1 _ rfl
  revert hfits
  decide

end MusicState

/-! ## The reactions -/

/-- Appending an item and publishing the queue. -/
theorem enqueue_music (env : Env) (item : QueueItem) (b : Backend) :
    (finalState (music (.appendQueueItem item) >>= fun _ => publishQueueState env) b).music =
      b.music.act (.enqueue item (env.clock .queuePublished)) :=
  publishQueueState_music env _

/-- Removing an item of one's own. -/
theorem removeQueueItem_music {env : Env} {b : Backend} {index : Nat}
    (hown : ∀ item, queueItemAt b.music.queue index = some item →
      item.requestedBy = b.localPeerId) :
    (finalState (removeQueueItem env index) b).music =
      b.music.act (.removeOwn b.localPeerId index (env.clock .queuePublished)) := by
  change _ = b.music.removeOwn b.localPeerId index (env.clock .queuePublished)
  unfold removeQueueItem MusicState.removeOwn
  rw [finalState_get_bind]
  cases hitem : queueItemAt b.music.queue index with
  | none => rfl
  | some item =>
    dsimp only
    rw [if_pos (hown item hitem), if_pos (hown item hitem)]
    exact publishQueueState_music env _

theorem consumeStartItem_music (env : Env) (operation : BufferOperation) (b : Backend) :
    (finalState (consumeStartItem env operation) b).music =
      b.music.consumeItem operation (env.clock .queueRemoved) (env.clock .queuePublished) := by
  unfold consumeStartItem MusicState.consumeItem
  split
  · exact publishQueueState_music env _
  · rfl

/-- Committing an operation. -/
theorem commitBufferOperation_music {env : Env} {operation : BufferOperation} {b t : Backend}
    {state : PlaybackState} (h : commitBufferOperation env operation b = .ok (some state) t) :
    t.music = b.music.act (.commit operation (env.clock .commit) (env.clock .queueRemoved)
      (env.clock .queuePublished)) := by
  obtain ⟨started, u, hstart, hrest⟩ := bind_eq_ok.1 h
  cases started with
  | false => cases hrest
  | true =>
    rw [commitBufferOperation_eq (streamStarts_of_eq_ok hstart)] at h
    obtain ⟨_, consumed, hconsume, hset⟩ := bind_eq_ok.1 h
    obtain ⟨_, stored, hstored, hpublish⟩ := bind_eq_ok.1 hset
    obtain ⟨_, sent, hsent, hdone⟩ := bind_eq_ok.1 hpublish
    cases hstored
    cases hdone
    have hqueue := consumeStartItem_music env operation (b.changeMusic .nextPlaybackVersion)
    have hplayback := (publishPlaybackState_moves (P := OffMusic) env
      (b.stateToCommit env operation)).music_of_offMusic
        (consumed.changeMusic (.setPlaybackState (b.stateToCommit env operation)))
    rw [finalState_of_ok hconsume] at hqueue
    rw [finalState_of_ok hsent] at hplayback
    rw [hplayback]
    change consumed.music.setPlaybackState _ = _
    rw [hqueue]
    rfl

/-- Stopping the playback. -/
theorem publishStop_music (env : Env) (b : Backend) :
    (finalState (publishStop env) b).music =
      b.music.act (.stopCurrentPlayback b.localPeerId (env.clock .stop)) := by
  unfold publishStop
  rw [finalState_get_bind, finalState_music_bind]
  exact (publishPlaybackState_moves (P := OffMusic) env _).music_of_offMusic _

end LightEar
