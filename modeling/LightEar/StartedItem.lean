import LightEar.QueueClock

/-!
# The item that a start consumes

The leader of a start removes the started item by its identifier, gives the queue a new key and
publishes it.  A follower hears of the start in two ways: by that snapshot, and by the playback
states of the session, on each of which it removes the first item that might be the started one.
A twin of the started item, of the same track and requester and added before a state was issued,
might be as well, and after the snapshot it is the first one that might.  So leader and follower
agree under every schedule exactly when the started item has no such twin, and the snapshot is
newer than what it replaces.
-/

namespace LightEar

/-! ## The commit and what it sends -/

/-- A commit of a start: the leader, the operation with its item, and the readings of its clock. -/
structure StartCommit where
  /-- The leader before the commit. -/
  leader : MusicState
  /-- The name of the leader. -/
  leaderPeerId : PeerId
  /-- The item whose start has been prepared. -/
  item : QueueItem
  /-- The state that has been prepared. -/
  prepared : PlaybackState
  /-- The state is about the track of the item. -/
  track : prepared.track = some item.track
  /-- The state names who has asked for the item. -/
  requester : prepared.trackRequestedBy = some item.requestedBy
  /-- The reading for the committed state. -/
  committedMicros : Int
  /-- The reading at the removal of the item. -/
  removedMicros : Int
  /-- The reading at the publication of the queue. -/
  publishedMicros : Int
  /-- The readings of the refreshes that follow. -/
  refreshes : List Int

/-- A state, and what becomes of it by one refresh after the other. -/
def refreshedStates : PlaybackState → List Int → List PlaybackState
  | state, [] => [state]
  | state, now :: times => state :: refreshedStates (MusicState.refreshedState now state) times

namespace StartCommit

/-- The leader after the commit. -/
def afterCommit (c : StartCommit) : MusicState :=
  (c.leader.removeBufferQueueItem (some c.item.itemId) c.removedMicros).markQueueChanged
    c.publishedMicros

/-- The snapshot that the commit publishes. -/
def queueState (c : StartCommit) : QueueState := c.afterCommit.queueState c.leaderPeerId

/-- The change of the leader's queue. -/
def change (c : StartCommit) : QueueChange where
  peer := c.leaderPeerId
  proposal := none
  stamp := c.publishedMicros
  before := c.leader.queueState c.leaderPeerId
  after := c.queueState

/-- The state that the commit publishes. -/
def committed (c : StartCommit) : PlaybackState :=
  MusicState.committedState c.prepared (satAdd c.leader.playbackVersion 1) c.committedMicros
    musicStartDelay

/-- The states of the session. -/
def states (c : StartCommit) : List PlaybackState := refreshedStates c.committed c.refreshes

end StartCommit

/-! ## The follower -/

/-- What the queue and the playback of a follower become by a playback state. -/
def MusicState.followPlaybackState (m : MusicState) (received : PlaybackState)
    (receivedMicros : Int) : MusicState :=
  let state := normalizeRemotePlaybackState received receivedMicros
  if shouldApplyPlaybackState m.playbackState state then
    (m.setPlaybackState state).removeStartedPlaybackQueueItem state
  else m

/-- One message that reaches the follower, a state with the time at which it is received. -/
inductive StartDelivery where
  | queueState
  | playbackState (state : PlaybackState) (receivedMicros : Int)
  deriving DecidableEq

namespace StartCommit

/-- The follower after a message. -/
def receive (c : StartCommit) (m : MusicState) : StartDelivery → MusicState
  | .queueState => (m.applyRemoteQueueState c.queueState).2
  | .playbackState state receivedMicros => m.followPlaybackState state receivedMicros

/-- A list of messages with the snapshot and at least one state of the session. -/
structure Schedule (c : StartCommit) (deliveries : List StartDelivery) : Prop where
  /-- All states are states of the session. -/
  states : ∀ state receivedMicros, .playbackState state receivedMicros ∈ deliveries →
    state ∈ c.states
  /-- The snapshot is delivered. -/
  queueState : .queueState ∈ deliveries
  /-- A state is delivered. -/
  playbackState : ∃ state receivedMicros, .playbackState state receivedMicros ∈ deliveries

/-- Whatever follower shares the queue with the leader, it has the leader's items after every
schedule. -/
def ConsumesOnce (c : StartCommit) : Prop :=
  ∀ follower : MusicState, follower.queue = c.leader.queue →
    follower.queueVersion = c.leader.queueVersion →
    follower.queueUpdatedAt = c.leader.queueUpdatedAt →
    ∀ deliveries, c.Schedule deliveries →
      (deliveries.foldl c.receive follower).queue = c.afterCommit.queue

/-! ## The condition -/

/-- An item of the same track and the same requester as the started one. -/
def Twin (c : StartCommit) (other : QueueItem) : Prop :=
  other.track.trackId = c.item.track.trackId ∧ other.requestedBy = c.item.requestedBy

/-- Every other item of the same track and requester was added after the last state of the
session was issued. -/
def NoEarlierTwin (c : StartCommit) : Prop :=
  ∀ other ∈ c.leader.queue.eraseP (MusicState.isItem c.item.itemId), c.Twin other →
    ∀ micros ∈ c.committedMicros :: c.refreshes, micros < other.addedAtMicros

/-- The started item is still in the queue. -/
def Present (c : StartCommit) : Prop :=
  c.leader.queue.any (MusicState.isItem c.item.itemId) = true

end StartCommit

/-! ## The states of a session -/

/-- Refreshing changes neither track nor requester, and issues each state at its reading. -/
theorem mem_refreshedStates {state s : PlaybackState} {times : List Int}
    (h : s ∈ refreshedStates state times) :
    s.track = state.track ∧ s.trackRequestedBy = state.trackRequestedBy ∧
      s.issuedAtMicros ∈ state.issuedAtMicros :: times := by
  induction times generalizing state with
  | nil =>
    rw [List.mem_singleton.1 h]
    exact ⟨rfl, rfl, .head _⟩
  | cons now times ih =>
    rcases List.mem_cons.1 h with rfl | h
    · exact ⟨rfl, rfl, .head _⟩
    · obtain ⟨htrack, hrequester, hissued⟩ := ih h
      obtain ⟨positionMs, anchor, hrefreshed⟩ := MusicState.refreshedState_eq now state
      rw [hrefreshed] at htrack hrequester
      exact ⟨htrack, hrequester, .tail _ hissued⟩

/-- Every reading issues a state. -/
theorem exists_refreshedStates {state : PlaybackState} {times : List Int} {micros : Int}
    (h : micros ∈ state.issuedAtMicros :: times) :
    ∃ s ∈ refreshedStates state times, s.issuedAtMicros = micros := by
  induction times generalizing state with
  | nil => exact ⟨state, .head _, (List.mem_singleton.1 h).symm⟩
  | cons now times ih =>
    rcases List.mem_cons.1 h with rfl | h
    · exact ⟨state, .head _, rfl⟩
    · obtain ⟨s, hs, hissued⟩ :=
        ih (show micros ∈ (MusicState.refreshedState now state).issuedAtMicros :: times from h)
      exact ⟨s, .tail _ hs, hissued⟩

namespace StartCommit

variable {c : StartCommit}

theorem track_of_mem_states {state : PlaybackState} (h : state ∈ c.states) :
    state.track = some c.item.track :=
  (mem_refreshedStates h).1.trans c.track

/-- A state of the session might have started an item exactly when the item is a twin of the
started one that was added in time. -/
theorem matches_iff {state : PlaybackState} (h : state ∈ c.states) (receivedMicros : Int)
    (other : QueueItem) :
    MusicState.queueItemMatchesStartedPlayback other
        (normalizeRemotePlaybackState state receivedMicros) c.item.track.trackId = true ↔
      c.Twin other ∧ other.addedAtMicros ≤ state.issuedAtMicros := by
  have hrequester := (mem_refreshedStates h).2.1.trans c.requester
  unfold MusicState.queueItemMatchesStartedPlayback Twin
  rw [normalizeRemotePlaybackState_trackRequestedBy, hrequester,
    normalizeRemotePlaybackState_issuedAtMicros, Option.any_some]
  by_cases htrack : other.track.trackId = c.item.track.trackId
  · by_cases hsame : other.requestedBy = c.item.requestedBy
    · simp [htrack, hsame]
    · simp [htrack, hsame]
  · simp [htrack]

/-! ## What a message does to the follower -/

/-- A state of the session removes the first item that it might have started, or nothing. -/
theorem follow_cases {state : PlaybackState} (h : state ∈ c.states) (m : MusicState)
    (receivedMicros : Int) :
    (m.followPlaybackState state receivedMicros).queueVersion = m.queueVersion ∧
    (m.followPlaybackState state receivedMicros).queueUpdatedAt = m.queueUpdatedAt ∧
    (m.followPlaybackState state receivedMicros).queue =
      if shouldApplyPlaybackState m.playbackState
          (normalizeRemotePlaybackState state receivedMicros) then
        m.queue.eraseP fun item => MusicState.queueItemMatchesStartedPlayback item
          (normalizeRemotePlaybackState state receivedMicros) c.item.track.trackId
      else m.queue := by
  unfold MusicState.followPlaybackState
  dsimp only
  split
  · unfold MusicState.removeStartedPlaybackQueueItem
    rw [normalizeRemotePlaybackState_track, track_of_mem_states h]
    dsimp only
    have hsame := m.setPlaybackState_sameQueue
      (normalizeRemotePlaybackState state receivedMicros)
    exact ⟨hsame.version, hsame.updatedAt, congrArg _ hsame.items⟩
  · exact ⟨rfl, rfl, rfl⟩

/-- Where no item might have been started, a state of the session leaves the queue. -/
theorem follow_queue_of_noEarlierTwin (hno : c.NoEarlierTwin) {state : PlaybackState}
    (h : state ∈ c.states) {m : MusicState}
    (hqueue : m.queue = c.leader.queue.eraseP (MusicState.isItem c.item.itemId))
    (receivedMicros : Int) : (m.followPlaybackState state receivedMicros).queue = m.queue := by
  rw [(follow_cases h m receivedMicros).2.2]
  split
  · refine List.eraseP_of_forall_not fun other hother hmatches => ?_
    obtain ⟨htwin, hadded⟩ := (matches_iff h receivedMicros other).1 hmatches
    have hlater := hno other (hqueue ▸ hother) htwin _ (mem_refreshedStates h).2.2
    exact absurd hadded hlater.not_ge
  · rfl

/-- The leader's items without the started one. -/
theorem afterCommit_queue (c : StartCommit) :
    c.afterCommit.queue = c.leader.queue.eraseP (MusicState.isItem c.item.itemId) := by
  unfold afterCommit MusicState.removeBufferQueueItem
  dsimp only
  split
  · rfl
  · rename_i habsent
    rw [Bool.not_eq_true, List.any_eq_false] at habsent
    exact (List.eraseP_of_forall_not habsent).symm

/-- The snapshot of the commit is taken by those who have the queue before it exactly when its
stamp is ahead. -/
theorem shouldApply_iff (c : StartCommit) :
    shouldApplyQueueState c.leader.queueVersion c.leader.queueUpdatedAt c.queueState = true ↔
      c.change.StampedAhead := by
  have hmarked : c.change.Marked :=
    ⟨rfl, c.leader.lt_version_of_consumed _ c.removedMicros c.publishedMicros⟩
  exact hmarked.newer_iff

/-- The follower after the snapshot, if it had the queue before the commit. -/
theorem receive_queueState_of_shared {m : MusicState} (hqueue : m.queue = c.leader.queue)
    (hversion : m.queueVersion = c.leader.queueVersion)
    (hupdatedAt : m.queueUpdatedAt = c.leader.queueUpdatedAt)
    (h : c.change.StampedAhead ∨ ¬ c.Present) :
    (c.receive m .queueState).queue = c.afterCommit.queue := by
  change (m.applyRemoteQueueState c.queueState).2.queue = _
  by_cases hahead : c.change.StampedAhead
  · refine (MusicState.applyRemoteQueueState_of_newer ?_).items
    rw [hversion, hupdatedAt]
    exact c.shouldApply_iff.2 hahead
  · have habsent := h.resolve_left hahead
    unfold Present at habsent
    rw [Bool.not_eq_true, List.any_eq_false] at habsent
    rw [MusicState.applyRemoteQueueState_of_not_newer, hqueue, c.afterCommit_queue,
      List.eraseP_of_forall_not habsent]
    rw [hversion, hupdatedAt]
    exact eq_false_of_ne_true fun htaken => hahead (c.shouldApply_iff.1 htaken)

/-! ## Under the condition -/

/-- Once the follower has the leader's items it keeps them. -/
theorem foldl_receive_queue (hno : c.NoEarlierTwin) (deliveries : List StartDelivery)
    {m : MusicState}
    (hstates : ∀ state receivedMicros, .playbackState state receivedMicros ∈ deliveries →
      state ∈ c.states) (hm : m.queue = c.afterCommit.queue) :
    (deliveries.foldl c.receive m).queue = c.afterCommit.queue := by
  induction deliveries generalizing m with
  | nil => exact hm
  | cons delivery deliveries ih =>
    refine ih (fun state r hmem => hstates state r (List.mem_cons_of_mem _ hmem)) ?_
    cases delivery with
    | queueState =>
      change (m.applyRemoteQueueState c.queueState).2.queue = _
      cases hnewer : shouldApplyQueueState m.queueVersion m.queueUpdatedAt c.queueState with
      | true => exact (MusicState.applyRemoteQueueState_of_newer hnewer).items
      | false =>
        rw [MusicState.applyRemoteQueueState_of_not_newer hnewer]
        exact hm
    | playbackState state receivedMicros =>
      have hstate := hstates state receivedMicros (.head _)
      exact (follow_queue_of_noEarlierTwin hno hstate (hm.trans c.afterCommit_queue)
        receivedMicros).trans hm

/-- A snapshot that is newer gives the follower the leader's items, whatever came before it. -/
theorem foldl_receive_of_stampedAhead (hno : c.NoEarlierTwin) (hahead : c.change.StampedAhead)
    (deliveries : List StartDelivery) {m : MusicState}
    (hstates : ∀ state receivedMicros, .playbackState state receivedMicros ∈ deliveries →
      state ∈ c.states)
    (hmem : .queueState ∈ deliveries) (hversion : m.queueVersion = c.leader.queueVersion)
    (hupdatedAt : m.queueUpdatedAt = c.leader.queueUpdatedAt) :
    (deliveries.foldl c.receive m).queue = c.afterCommit.queue := by
  induction deliveries generalizing m with
  | nil => cases hmem
  | cons delivery deliveries ih =>
    have hrest : ∀ state receivedMicros, .playbackState state receivedMicros ∈ deliveries →
        state ∈ c.states := fun state r h => hstates state r (List.mem_cons_of_mem _ h)
    cases delivery with
    | queueState =>
      refine foldl_receive_queue hno deliveries hrest
        (MusicState.applyRemoteQueueState_of_newer ?_).items
      rw [hversion, hupdatedAt]
      exact c.shouldApply_iff.2 hahead
    | playbackState state receivedMicros =>
      obtain ⟨hversion', hupdatedAt', -⟩ :=
        follow_cases (hstates state receivedMicros (.head _)) m receivedMicros
      exact ih hrest ((List.mem_cons.1 hmem).resolve_left nofun) (hversion'.trans hversion)
        (hupdatedAt'.trans hupdatedAt)

theorem consumesOnce_of (hno : c.NoEarlierTwin) (h : c.change.StampedAhead ∨ ¬ c.Present) :
    c.ConsumesOnce := by
  intro follower hqueue hversion hupdatedAt deliveries hschedule
  rcases h with hahead | habsent
  · exact foldl_receive_of_stampedAhead hno hahead deliveries hschedule.states
      hschedule.queueState hversion hupdatedAt
  · refine foldl_receive_queue hno deliveries hschedule.states ?_
    unfold Present at habsent
    rw [Bool.not_eq_true, List.any_eq_false] at habsent
    rw [hqueue, c.afterCommit_queue, List.eraseP_of_forall_not habsent]

/-! ## Without the condition -/

/-- A follower with the leader's queue and a given playback state. -/
def followerWith (c : StartCommit) (state : Option PlaybackState) : MusicState :=
  { MusicState.new with
    queue := c.leader.queue
    queueVersion := c.leader.queueVersion
    queueUpdatedAt := c.leader.queueUpdatedAt
    playbackPhase := .idle state }

/-- The snapshot and then one state make a schedule. -/
theorem schedule_pair {state : PlaybackState} (h : state ∈ c.states) (receivedMicros : Int) :
    c.Schedule [.queueState, .playbackState state receivedMicros] where
  states s r hmem := by
    rcases List.mem_cons.1 hmem with heq | hmem
    · cases heq
    · cases List.mem_singleton.1 hmem
      exact h
  queueState := .head _
  playbackState := ⟨state, receivedMicros, .tail _ (.head _)⟩

theorem applyRemoteQueueState_playbackState (m : MusicState) (state : QueueState) :
    (m.applyRemoteQueueState state).2.playbackState = m.playbackState := by
  unfold MusicState.applyRemoteQueueState MusicState.invalidateStaleQueueVote
  split
  · dsimp only
    split
    · rfl
    · split
      · rfl
      · rfl
  · rfl

/-- A follower whose playback is ahead ignores the states of the session and has nothing but the
snapshot to go by. -/
theorem stampedAhead_of_consumesOnce (h : c.ConsumesOnce) :
    c.change.StampedAhead ∨ ¬ c.Present := by
  by_contra hneither
  obtain ⟨hbehind, hpresent⟩ := not_or.1 hneither
  rw [not_not] at hpresent
  let ahead : PlaybackState := { c.committed with issuedAtMicros := c.committedMicros + 1 }
  have hmem : c.committed ∈ c.states := by
    unfold states
    cases c.refreshes with
    | nil => exact .head _
    | cons now times => exact .head _
  have hrun := h (c.followerWith (some ahead)) rfl rfl rfl _ (schedule_pair hmem 0)
  have hrefused : ((c.followerWith (some ahead)).applyRemoteQueueState c.queueState).2 =
      c.followerWith (some ahead) :=
    MusicState.applyRemoteQueueState_of_not_newer
      (eq_false_of_ne_true fun htaken => hbehind (c.shouldApply_iff.1 htaken))
  have hignored : shouldApplyPlaybackState (some ahead)
      (normalizeRemotePlaybackState c.committed 0) = false :=
    shouldApplyPlaybackState_of_gt (.inl (Int.lt_succ c.committedMicros))
  change (((c.followerWith (some ahead)).applyRemoteQueueState c.queueState).2.followPlaybackState
    c.committed 0).queue = _ at hrun
  rw [hrefused, (follow_cases hmem _ 0).2.2] at hrun
  change (if shouldApplyPlaybackState (some ahead) _ = true then _ else c.leader.queue) = _ at hrun
  rw [hignored, if_neg Bool.false_ne_true, c.afterCommit_queue] at hrun
  obtain ⟨item, hitem, hmatches⟩ := List.any_eq_true.1 hpresent
  exact List.eraseP_eq_self_iff.1 hrun.symm item hitem hmatches

/-- An idle follower takes a state after the snapshot, and removes a twin. -/
theorem noEarlierTwin_of_consumesOnce (h : c.ConsumesOnce) : c.NoEarlierTwin := by
  intro other hother htwin micros hmicros
  by_contra hearlier
  obtain ⟨state, hstate, hissued⟩ : ∃ state ∈ c.states, state.issuedAtMicros = micros :=
    exists_refreshedStates hmicros
  have hrun := h (c.followerWith none) rfl rfl rfl _ (schedule_pair hstate 0)
  have hqueue : (c.receive (c.followerWith none) .queueState).queue = c.afterCommit.queue :=
    receive_queueState_of_shared rfl rfl rfl (stampedAhead_of_consumesOnce h)
  change ((c.receive (c.followerWith none) .queueState).followPlaybackState state 0).queue = _
    at hrun
  have hidle : (c.receive (c.followerWith none) .queueState).playbackState = none :=
    applyRemoteQueueState_playbackState _ _
  rw [(follow_cases hstate _ 0).2.2, hqueue, hidle] at hrun
  refine List.eraseP_eq_self_iff.1 hrun other (c.afterCommit_queue ▸ hother) ?_
  refine (matches_iff hstate 0 other).2 ⟨htwin, ?_⟩
  rw [hissued]
  exact Int.not_lt.1 hearlier

end StartCommit

/-! ## Twins in the queue -/

/-- A start by Alice of the first of two items with the same track that she has asked for. -/
def startOfTwin : StartCommit where
  leader := { MusicState.new with
    queue := [⟨"first", someTrack, "alice", 1⟩,
      ⟨"second", someTrack, "alice", 2⟩]
    queueVersion := 2
    queueUpdatedAt := 3 }
  leaderPeerId := "alice"
  item := ⟨"first", someTrack, "alice", 1⟩
  prepared := {
    sessionId := "alice:4:x:0"
    leaderPeerId := "alice"
    track := some someTrack
    trackRequestedBy := some "alice"
    stateVersion := 1
    issuedAtMicros := 4
    playing := false
    positionMs := 0
    anchorTimeMicros := 4
    rate := 1 }
  track := rfl
  requester := rfl
  committedMicros := 5
  removedMicros := 6
  publishedMicros := 7
  refreshes := [1000005]

/-! ## Main result -/

/-- Every follower that shares the queue of the leader has the leader's items after every schedule
exactly when the started item has no twin added before a state of the session was issued, and
either the commit stamps the queue ahead or there is nothing left to consume. -/
theorem start_consumes_once_iff (c : StartCommit) :
    c.ConsumesOnce ↔ c.NoEarlierTwin ∧ (c.change.StampedAhead ∨ ¬ c.Present) :=
  ⟨fun h => ⟨StartCommit.noEarlierTwin_of_consumesOnce h,
    StartCommit.stampedAhead_of_consumesOnce h⟩,
    fun h => StartCommit.consumesOnce_of h.1 h.2⟩

/-- With a twin in the queue, a follower that hears of the snapshot and then of the state drops
the twin as well, although the leader's clock never goes back. -/
theorem twin_of_started_item_dropped :
    ¬ ∀ c : StartCommit, (c.committedMicros :: c.refreshes).Pairwise (· < ·) →
      c.leader.queueUpdatedAt < c.publishedMicros → c.ConsumesOnce := by
  intro h
  have hrun := h startOfTwin (by decide) (by decide) startOfTwin.leader rfl rfl rfl _
    (StartCommit.schedule_pair (.head _) 8)
  revert hrun
  decide

end LightEar
