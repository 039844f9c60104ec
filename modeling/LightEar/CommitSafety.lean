import LightEar.Backend.Moves
import LightEar.BufferHistory

/-!
# What a commit rests on

A committed operation makes the room play.  In every run, each commit is of an operation that
the local peer leads, at a moment at which a strict majority of the expected peers, and with an
audio output the local peer itself, have ready as their latest accepted report; the state stored
and published is the operation's own, running from an anchor that is not in its past; and no
operation is committed twice.

The moves of the backend carry this: a commit is recorded only where it is decided
(`Decided`), the coordinator is at all times the replay of its noted changes, and an operation
that the local peer leads was opened under a name of its own.
-/

namespace LightEar

open CoordinatorOp

/-! ## Justified commits -/

/-- The latest report taken from a peer on an operation says that it is ready. -/
def ReportsReady (log : List CoordinatorOp) (operation : BufferOperation) (peerId : PeerId) :
    Prop :=
  ∃ status ∈ latestStatus log operation.operationId operation.state.sessionId peerId,
    status.status = .ready

instance (log : List CoordinatorOp) (operation : BufferOperation) :
    DecidablePred (ReportsReady log operation) :=
  fun _ => inferInstanceAs (Decidable (∃ _ ∈ _, _))

/-- What a commit of a peer rests on. -/
structure Commit.Justified (localPeerId : PeerId) (c : Commit) : Prop where
  /-- The operation was in progress. -/
  active : (replay c.log .new).active = some c.operation
  /-- The local peer leads it. -/
  leads : c.operation.state.leaderPeerId = localPeerId
  /-- More than half of the expected peers are ready by their latest report. -/
  majority : c.operation.expectedPeers.card <
    2 * (c.operation.expectedPeers.filter (ReportsReady c.log c.operation)).card
  /-- With an audio output, the local peer is expected and ready by its latest report. -/
  audible : c.audioOutput = true →
    localPeerId ∈ c.operation.expectedPeers ∧ ReportsReady c.log c.operation localPeerId
  /-- The session is the operation's. -/
  session : c.state.sessionId = c.operation.state.sessionId
  /-- The track is the operation's. -/
  track : c.state.track = c.operation.state.track
  /-- The position is the operation's. -/
  position : c.state.positionMs = c.operation.state.positionMs
  /-- The state runs. -/
  playing : c.state.playing = true
  /-- It starts no earlier than it was issued. -/
  anchor : c.state.issuedAtMicros ≤ c.state.anchorTimeMicros
  /-- It was stored. -/
  stored : c.stored = some c.state
  /-- It was handed to the network. -/
  published : ∃ outcome, (.playbackState c.state, outcome) ∈ c.published

/-- The names of the committed operations, in order. -/
def Backend.committedIds (b : Backend) : List String :=
  b.commits.map fun c => c.operation.operationId

/-! ## Counting ready peers -/

/-- For an operation of the local peer whose name was given once, the count of ready statuses is
the number of expected peers that are ready by their latest report. -/
theorem count_ready_eq_card {log : List CoordinatorOp} (hids : DistinctIds log)
    {o : BufferOperation} (hactive : (replay log .new).active = some o)
    (hstarted : o.operationId ∈ startedIds log) :
    o.count .ready = (o.expectedPeers.filter (ReportsReady log o)).card := by
  have hcount := Foundation.countP_entries_eq_card o.statuses
    (fun status => status.status = .ready) (statusesExpected_replay log hactive)
  refine hcount.trans (congrArg Finset.card ?_)
  refine Finset.filter_congr fun peerId hpeer => ?_
  rw [lookup_eq_latestStatus log hids hactive hstarted hpeer]
  rfl

/-- A status recorded as ready is an expected peer's latest report. -/
theorem reportsReady_of_reports {log : List CoordinatorOp} (hids : DistinctIds log)
    {o : BufferOperation} (hactive : (replay log .new).active = some o)
    (hstarted : o.operationId ∈ startedIds log) {peerId : PeerId}
    (h : o.reports peerId .ready = true) :
    peerId ∈ o.expectedPeers ∧ ReportsReady log o peerId := by
  unfold BufferOperation.reports at h
  cases hlookup : o.statuses.lookup peerId with
  | none => simp [hlookup] at h
  | some status =>
    have hpeer := statusesExpected_replay log hactive peerId status hlookup
    refine ⟨hpeer, status, ?_, by simpa [hlookup] using h⟩
    rw [← lookup_eq_latestStatus log hids hactive hstarted hpeer]
    exact hlookup

/-! ## The coordinator of a backend -/

/-- The coordinator is the replay of its noted changes, and what the local peer leads it has
opened itself. -/
structure Backend.Tracked (b : Backend) : Prop where
  /-- The coordinator is what its changes have left. -/
  replayed : b.buffer = replay b.bufferLog .new
  /-- An operation that the local peer leads was opened under a name of its own. -/
  own : ∀ o, b.buffer.active = some o → o.state.leaderPeerId = b.localPeerId →
    o.operationId ∈ startedIds b.bufferLog

theorem Backend.Tracked.changeBuffer {b : Backend} (h : b.Tracked) {op : CoordinatorOp}
    (hop : op.Opens b.localPeerId) : (b.changeBuffer op).Tracked := by
  have hkeep : ∀ o, b.buffer.active = some o → o.state.leaderPeerId = b.localPeerId →
      o.operationId ∈ startedIds (b.bufferLog ++ [op]) := by
    intro o hactive hleads
    rw [startedIds_append]
    exact List.mem_append_left _ (h.own o hactive hleads)
  refine ⟨?_, fun o hactive hleads => ?_⟩
  · change op.apply b.buffer = replay (b.bufferLog ++ [op]) .new
    rw [replay_append, h.replayed]
    rfl
  · change o.operationId ∈ startedIds (b.bufferLog ++ [op])
    cases becomes_of_active hactive with
    | started =>
      rw [startedIds_append]
      exact List.mem_append_right _ (List.mem_singleton_self _)
    | received => exact absurd hleads hop
    | kept hbefore hsame =>
      rw [hsame.operationId]
      exact hkeep _ hbefore (hsame.state ▸ hleads)
    | @removed o hbefore => exact hkeep o hbefore hleads
    | @reported o hbefore => exact hkeep o hbefore hleads

theorem Backend.Tracked.move {b b' : Backend} (h : b.Tracked) (hmove : Move Sound b b') :
    b'.Tracked := by
  obtain ⟨action, hP, hdoes⟩ := hmove
  cases action with
  | coordinate op => cases hdoes; exact h.changeBuffer hP
  | settle operation state =>
    cases hdoes
    have hrecord : (b.recordCommit operation state).Tracked := ⟨h.replayed, h.own⟩
    exact hrecord.changeBuffer trivial
  | music op => cases hdoes; exact ⟨h.replayed, h.own⟩
  | publish message outcome => cases hdoes; exact ⟨h.replayed, h.own⟩
  | execute proposal actor op => cases hdoes; exact ⟨h.replayed, h.own⟩
  | aside =>
    refine ⟨by rw [hdoes.buffer, hdoes.bufferLog, h.replayed], ?_⟩
    rw [hdoes.buffer, hdoes.bufferLog, hdoes.localPeerId]
    exact h.own

/-! ## Commits over a run -/

/-- All commits so far are justified and of different operations, none of which is in
progress. -/
structure Backend.WellCommitted (b : Backend) : Prop where
  /-- Each commit is justified. -/
  justified : ∀ c ∈ b.commits, c.Justified b.localPeerId
  /-- No operation was committed twice. -/
  nodup : b.committedIds.Nodup
  /-- Committed operations are the local peer's own. -/
  started : ∀ id ∈ b.committedIds, id ∈ startedIds b.bufferLog
  /-- A committed operation is over. -/
  notActive : ∀ o, b.buffer.active = some o → o.operationId ∉ b.committedIds

/-- The commit that is recorded when an operation is settled is justified. -/
theorem Decided.justified {b : Backend} (htracked : b.Tracked) (hids : DistinctIds b.bufferLog)
    {operation : BufferOperation} {state : PlaybackState} (h : Decided b operation state) :
    Commit.Justified b.localPeerId
      ⟨operation, b.bufferLog, b.audioPlayer, state, b.music.playbackState, b.published⟩ := by
  have hactive : (replay b.bufferLog .new).active = some operation := by
    rw [← htracked.replayed]
    exact h.active
  have hstarted := htracked.own operation h.active h.leads
  obtain ⟨version, now, rfl⟩ := h.committed
  refine ⟨hactive, h.leads, ?_, fun haudio => ?_, rfl, rfl, rfl, rfl, ?_, h.stored, h.published⟩
  · rw [← count_ready_eq_card hids hactive hstarted]
    exact majorityThreshold_le_iff.1 h.quorum
  · exact reportsReady_of_reports hids hactive hstarted (h.audible haudio)
  · simp [MusicState.committedState, musicStartDelay]

/-- What concerns neither the commits nor the operation keeps what is known of the commits. -/
theorem Backend.WellCommitted.of_same {b b' : Backend} (h : b.WellCommitted)
    (hlocal : b'.localPeerId = b.localPeerId) (hcommits : b'.commits = b.commits)
    (hlog : b'.bufferLog = b.bufferLog) (hbuffer : b'.buffer = b.buffer) :
    b'.WellCommitted := by
  have hids : b'.committedIds = b.committedIds := by
    unfold Backend.committedIds
    rw [hcommits]
  constructor
  · rw [hcommits, hlocal]
    exact h.justified
  · rw [hids]
    exact h.nodup
  · rw [hids, hlog]
    exact h.started
  · rw [hids, hbuffer]
    exact h.notActive

/-- A backend that has just started has committed nothing. -/
theorem Backend.WellCommitted.new {localPeerId : PeerId} {rendezvousNodes : Finset PeerId}
    {audioPlayer : Bool} {retry : Instant} :
    (Backend.new localPeerId rendezvousNodes audioPlayer retry).WellCommitted := by
  constructor
  · intro c hc
    cases hc
  · exact List.nodup_nil
  · intro id hid
    cases hid
  · intro o ho
    cases ho

/-- A change of the coordinator keeps what is known of the commits. -/
theorem Backend.WellCommitted.changeBuffer {b : Backend} (h : b.WellCommitted)
    {op : CoordinatorOp} (hids : DistinctIds (b.bufferLog ++ [op])) :
    (b.changeBuffer op).WellCommitted := by
  refine ⟨h.justified, h.nodup, fun id hid => ?_, fun o hactive hcommitted => ?_⟩
  · change id ∈ startedIds (b.bufferLog ++ [op])
    rw [startedIds_append]
    exact List.mem_append_left _ (h.started id hid)
  · have hstarted := h.started o.operationId hcommitted
    cases becomes_of_active hactive with
    | started => exact (hids.fresh rfl).1 hstarted
    | received operationId =>
      refine hids.disjoint operationId ?_ ?_
      · rw [startedIds_append]
        exact List.mem_append_left _ hstarted
      · rw [receivedIds_append]
        exact List.mem_append_right _ (List.mem_singleton_self _)
    | kept hbefore hsame =>
      rw [hsame.operationId] at hcommitted
      exact h.notActive _ hbefore hcommitted
    | @removed o hbefore => exact h.notActive o hbefore hcommitted
    | @reported o hbefore => exact h.notActive o hbefore hcommitted

/-- Settling a decided operation commits an operation for the first time and ends it. -/
theorem Backend.WellCommitted.settled {b : Backend} (h : b.WellCommitted) (htracked : b.Tracked)
    (hids : DistinctIds b.bufferLog) {operation : BufferOperation} {state : PlaybackState}
    (hdecided : Decided b operation state) : (b.settled operation state).WellCommitted := by
  have hcommitted : (b.settled operation state).committedIds =
      b.committedIds ++ [operation.operationId] := by
    simp [Backend.settled, Backend.committedIds, Backend.recordCommit, Backend.changeBuffer]
  refine ⟨fun c hc => ?_, ?_, fun id hid => ?_, fun o hactive => ?_⟩
  · rcases List.mem_append.1 hc with hc | hc
    · exact h.justified c hc
    · rw [List.mem_singleton.1 hc]
      exact hdecided.justified htracked hids
  · rw [hcommitted, List.nodup_append]
    refine ⟨h.nodup, List.nodup_singleton _, fun id hid id' hid' => ?_⟩
    rw [List.mem_singleton.1 hid']
    rintro rfl
    exact h.notActive operation hdecided.active hid
  · change id ∈ startedIds (b.bufferLog ++ [.cancel operation.operationId])
    rw [startedIds_append]
    refine List.mem_append_left _ ?_
    rw [hcommitted] at hid
    rcases List.mem_append.1 hid with hid | hid
    · exact h.started id hid
    · rw [List.mem_singleton.1 hid]
      exact htracked.own operation hdecided.active hdecided.leads
  · obtain ⟨hbefore, hother⟩ := BufferCoordinator.active_of_takeIf hactive
    change b.buffer.active = some o at hbefore
    rw [hdecided.active] at hbefore
    cases hbefore
    simp at hother

/-- With names given once, the commits of every run are well. -/
theorem Backend.Reachable.wellCommitted {b : Backend} (hb : b.Reachable)
    (hids : DistinctIds b.bufferLog) : b.WellCommitted := by
  refine (hb.invariant (P := Sound)
    (I := fun b => b.Tracked ∧ (DistinctIds b.bufferLog → b.WellCommitted)) ?_ ?_).2 hids
  · intro _ _ _ _
    refine ⟨⟨rfl, fun o ho => ?_⟩, fun _ => .new⟩
    cases ho
  · rintro b b' hmove ⟨htracked, hI⟩
    refine ⟨htracked.move hmove, fun hids => ?_⟩
    obtain ⟨action, hP, hdoes⟩ := hmove
    cases action with
    | coordinate op => cases hdoes; exact (hI hids.of_append).changeBuffer hids
    | settle operation state =>
      cases hdoes
      exact (hI hids.of_append).settled htracked hids.of_append hP
    | music op => cases hdoes; exact (hI hids).of_same rfl rfl rfl rfl
    | publish message outcome => cases hdoes; exact (hI hids).of_same rfl rfl rfl rfl
    | execute proposal actor op => cases hdoes; exact (hI hids).of_same rfl rfl rfl rfl
    | aside =>
      have hbefore := hI (hdoes.bufferLog ▸ hids)
      exact hbefore.of_same hdoes.localPeerId hdoes.commits hdoes.bufferLog hdoes.buffer

/-! ## Main result -/

/-- In every run in which names of operations are given once, each commit is justified, no
operation is committed twice, and an operation that has been committed is never again in
progress. -/
theorem commits_safe {b : Backend} (hb : b.Reachable) (hids : DistinctIds b.bufferLog) :
    (∀ c ∈ b.commits, c.Justified b.localPeerId) ∧ b.committedIds.Nodup ∧
      ∀ o, b.buffer.active = some o → o.operationId ∉ b.committedIds := by
  have hwell := hb.wellCommitted hids
  exact ⟨hwell.justified, hwell.nodup, hwell.notActive⟩

/-- A peer in a room of two that has put a track on its queue, when the other peer has reported
that it is ready too. -/
def pairStart : Backend :=
  (Backend.new "leader" ∅ false 0).run [
    .connectionEstablished (.plain 500000) "peer",
    .command (.plain 1000000) (.enqueueBilibili "x" 1),
    .wire (.plain 2000000) "peer" (.playbackBufferStatus "leader:1000000:buffer:Start"
      "leader:1000000:x:0" "peer" ⟨.ready, some 12000, none⟩)]

/-- The main result at a run in which the report of the other peer makes the majority. -/
theorem commits_safe_pairStart :
    pairStart.committedIds = ["leader:1000000:buffer:Start"] ∧
      (∀ c ∈ pairStart.commits, c.Justified pairStart.localPeerId) ∧
        pairStart.committedIds.Nodup ∧
          ∀ o, pairStart.buffer.active = some o → o.operationId ∉ pairStart.committedIds :=
  ⟨by decide, commits_safe ⟨"leader", ∅, false, 0, _, rfl⟩ ⟨by decide, by decide⟩⟩

end LightEar
