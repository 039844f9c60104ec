import LightEar.BufferState
import LightEar.Foundation.Ballot

/-!
# The life of a coordinator

A coordinator is what the changes made to it have left.  This file follows a list of changes
from the empty coordinator: which reports have been accepted on the way, which operations have
been opened, and what the operation in progress remembers of it.

Its recorded statuses belong to expected peers, and for an operation whose name was given once
they are the latest accepted reports on it.  Hence the quorum counts what it is meant to count:
the expected peers whose latest accepted report is of a given kind.
-/

namespace LightEar

namespace BufferCoordinator

@[simp] theorem startLeaderOperation_active (c : BufferCoordinator) (operationId : String)
    (state : PlaybackState) (kind : PlaybackBufferOperationKind) (queueItemId : Option String)
    (expectedPeers : Finset PeerId) (deadline : Instant) :
    (c.startLeaderOperation operationId state kind queueItemId expectedPeers deadline).active =
      some ⟨operationId, state, kind, queueItemId, expectedPeers, ∅, deadline, none⟩ := rfl

/-- What is left after dropping an operation on some condition was there before. -/
theorem active_of_takeIf {c : BufferCoordinator} {p : BufferOperation → Bool}
    {operation : BufferOperation} (h : (c.takeIf p).2.active = some operation) :
    c.active = some operation ∧ p operation = false := by
  unfold takeIf at h
  split at h
  · cases h
  · rename_i hp
    refine ⟨h, ?_⟩
    rw [h] at hp
    simpa using hp

end BufferCoordinator

/-! ## Accepted reports -/

/-- A report that a coordinator has taken. -/
structure AcceptedStatus where
  /-- The operation it is about. -/
  operationId : String
  /-- The session it is about. -/
  sessionId : String
  /-- The peer that reports. -/
  peerId : PeerId
  /-- What is reported. -/
  status : BufferPeerStatus
  deriving DecidableEq, Repr

namespace CoordinatorOp

/-- The report that a change records, if it is one and the coordinator takes it. -/
def accepted (c : BufferCoordinator) : CoordinatorOp → Option AcceptedStatus
  | markStatus operationId sessionId peerId status now =>
    match (c.markStatus operationId sessionId peerId status now).1 with
    | .accepted _ => some ⟨operationId, sessionId, peerId, status⟩
    | .ignored => none
  | _ => none

/-- The reports taken along a list of changes, in order. -/
def acceptedStatuses : BufferCoordinator → List CoordinatorOp → List AcceptedStatus
  | _, [] => []
  | c, op :: ops => (op.accepted c).toList ++ acceptedStatuses (op.apply c) ops

theorem acceptedStatuses_append (c : BufferCoordinator) (ops ops' : List CoordinatorOp) :
    acceptedStatuses c (ops ++ ops') =
      acceptedStatuses c ops ++ acceptedStatuses (replay ops c) ops' := by
  induction ops generalizing c with
  | nil => rfl
  | cons op ops ih =>
    simp only [List.cons_append, acceptedStatuses, replay_cons, ih, List.append_assoc]

/-- Whether a report is the one that a peer made on an operation. -/
def IsReport (operationId sessionId : String) (peerId : PeerId) (report : AcceptedStatus) :
    Prop :=
  report.operationId = operationId ∧ report.sessionId = sessionId ∧ report.peerId = peerId

instance (operationId sessionId : String) (peerId : PeerId) (report : AcceptedStatus) :
    Decidable (IsReport operationId sessionId peerId report) :=
  inferInstanceAs (Decidable (_ ∧ _ ∧ _))

/-- The latest report of a peer on an operation that was taken along a list of changes. -/
def latestStatus (log : List CoordinatorOp) (operationId sessionId : String) (peerId : PeerId) :
    Option BufferPeerStatus :=
  ((acceptedStatuses .new log).reverse.find? fun report =>
    IsReport operationId sessionId peerId report).map AcceptedStatus.status

/-- The operation that a change opens for the local peer. -/
def startedId : CoordinatorOp → Option String
  | startLeader operationId .. => some operationId
  | _ => none

/-- The operation that a change adopts from another peer. -/
def receivedId : CoordinatorOp → Option String
  | receiveRemote operationId .. => some operationId
  | _ => none

/-- The operations that a list of changes opens for the local peer. -/
def startedIds (log : List CoordinatorOp) : List String := log.filterMap startedId

/-- The operations that a list of changes adopts from other peers. -/
def receivedIds (log : List CoordinatorOp) : List String := log.filterMap receivedId

end CoordinatorOp

open CoordinatorOp

/-- Names of operations are given once: no two operations of the local peer share one, and none
of them has the name of another peer's. -/
structure DistinctIds (log : List CoordinatorOp) : Prop where
  /-- The local peer gives each name once. -/
  nodup : (startedIds log).Nodup
  /-- No other peer gives such a name. -/
  disjoint : ∀ id ∈ startedIds log, id ∉ receivedIds log

theorem startedIds_append (log log' : List CoordinatorOp) :
    startedIds (log ++ log') = startedIds log ++ startedIds log' :=
  List.filterMap_append

theorem receivedIds_append (log log' : List CoordinatorOp) :
    receivedIds (log ++ log') = receivedIds log ++ receivedIds log' :=
  List.filterMap_append

/-- Names that are distinct in the end were distinct all along. -/
theorem DistinctIds.of_append {log log' : List CoordinatorOp} (h : DistinctIds (log ++ log')) :
    DistinctIds log := by
  refine ⟨?_, fun id hid hrecv => ?_⟩
  · have hnodup := h.nodup
    rw [startedIds_append] at hnodup
    exact (List.nodup_append.1 hnodup).1
  · refine h.disjoint id ?_ ?_
    · rw [startedIds_append]
      exact List.mem_append_left _ hid
    · rw [receivedIds_append]
      exact List.mem_append_left _ hrecv

/-- The name of a new operation of the local peer has not been used. -/
theorem DistinctIds.fresh {log : List CoordinatorOp} {op : CoordinatorOp} {id : String}
    (h : DistinctIds (log ++ [op])) (hop : op.startedId = some id) :
    id ∉ startedIds log ∧ id ∉ receivedIds log := by
  have hstarted : startedIds (log ++ [op]) = startedIds log ++ [id] := by
    rw [startedIds_append]
    simp [startedIds, hop]
  constructor
  · intro hid
    have hnodup := h.nodup
    rw [hstarted] at hnodup
    exact (List.nodup_append.1 hnodup).2.2 id hid id (List.mem_singleton_self id) rfl
  · intro hid
    refine h.disjoint id ?_ ?_
    · rw [hstarted]
      exact List.mem_append_right _ (List.mem_singleton_self id)
    · rw [receivedIds_append]
      exact List.mem_append_left _ hid

/-! ## What becomes of an operation -/

/-- Two operations differ at most in their times. -/
structure BufferOperation.SameReports (o o' : BufferOperation) : Prop where
  /-- The name stays. -/
  operationId : o'.operationId = o.operationId
  /-- The state to commit stays. -/
  state : o'.state = o.state
  /-- The expected peers stay. -/
  expectedPeers : o'.expectedPeers = o.expectedPeers
  /-- The recorded statuses stay. -/
  statuses : o'.statuses = o.statuses

theorem BufferOperation.SameReports.refl (o : BufferOperation) : o.SameReports o :=
  ⟨rfl, rfl, rfl, rfl⟩

/-- How the operation that is in progress after a change came about. -/
inductive CoordinatorOp.Becomes (c : BufferCoordinator) : CoordinatorOp → BufferOperation → Prop
  | started (operationId : String) (state : PlaybackState) (kind : PlaybackBufferOperationKind)
      (queueItemId : Option String) (expectedPeers : Finset PeerId) (deadline : Instant) :
      Becomes c (.startLeader operationId state kind queueItemId expectedPeers deadline)
        ⟨operationId, state, kind, queueItemId, expectedPeers, ∅, deadline, none⟩
  | received (operationId : String) (state : PlaybackState) (kind : PlaybackBufferOperationKind)
      (expectedPeers : Finset PeerId) (timeout now : Instant) :
      Becomes c (.receiveRemote operationId state kind expectedPeers timeout now)
        ⟨operationId, state, kind, none, expectedPeers, ∅, now + timeout, none⟩
  | kept {op : CoordinatorOp} {o o' : BufferOperation} (hactive : c.active = some o)
      (hsame : o.SameReports o') (haccepted : op.accepted c = none)
      (hstarted : op.startedId = none) : Becomes c op o'
  | removed {o : BufferOperation} (hactive : c.active = some o) (peerId : PeerId)
      (now : Instant) : Becomes c (.removeExpectedPeer peerId now) (o.removePeer peerId)
  | reported {o : BufferOperation} (hactive : c.active = some o) (peerId : PeerId)
      (hmember : peerId ∈ o.expectedPeers) (status : BufferPeerStatus) (now : Instant)
      (haccepted : CoordinatorOp.accepted c
          (.markStatus o.operationId o.state.sessionId peerId status now) =
        some ⟨o.operationId, o.state.sessionId, peerId, status⟩) :
      Becomes c (.markStatus o.operationId o.state.sessionId peerId status now)
        (o.setStatus peerId status)

/-- Every operation in progress after a change came about in one of these ways. -/
theorem CoordinatorOp.becomes_of_active {c : BufferCoordinator} {op : CoordinatorOp}
    {o' : BufferOperation} (h : (op.apply c).active = some o') : Becomes c op o' := by
  cases op with
  | startLeader operationId state kind queueItemId expectedPeers deadline =>
    cases h
    exact .started _ _ _ _ _ _
  | receiveRemote operationId state kind expectedPeers timeout now =>
    simp only [apply, BufferCoordinator.receiveRemoteOperation] at h
    split at h
    · exact .kept h (.refl o') rfl rfl
    · cases h
      exact .received _ _ _ _ _ _
  | extendDeadline deadline =>
    obtain ⟨o, hactive, rfl⟩ := Option.map_eq_some_iff.1 h
    exact .kept hactive ⟨rfl, rfl, rfl, rfl⟩ rfl rfl
  | removeExpectedPeer peerId now =>
    simp only [apply, BufferCoordinator.removeExpectedPeer] at h
    split at h
    · rename_i hnone
      rw [hnone] at h
      cases h
    · rename_i o hactive
      cases h
      exact .removed hactive peerId now
  | markPreparePublished operationId now =>
    obtain ⟨o, hactive, rfl⟩ := Option.map_eq_some_iff.1 h
    refine .kept hactive ?_ rfl rfl
    split
    · exact ⟨rfl, rfl, rfl, rfl⟩
    · exact .refl _
  | prepareRepublishDue now interval =>
    simp only [apply, BufferCoordinator.prepareRepublishDue] at h
    split at h
    · rename_i hnone
      rw [hnone] at h
      cases h
    · rename_i o hactive
      split at h
      · cases h
        exact .kept hactive ⟨rfl, rfl, rfl, rfl⟩ rfl rfl
      · rw [hactive] at h
        cases h
        exact .kept hactive (.refl _) rfl rfl
  | markStatus operationId sessionId peerId status now =>
    simp only [apply, BufferCoordinator.markStatus] at h
    split at h
    · rename_i hnone
      rw [hnone] at h
      cases h
    · rename_i o hactive
      split at h
      · rename_i htaken
        cases h
        obtain ⟨hnamed, hmember⟩ := htaken
        simp only [BufferOperation.isNamed, Bool.and_eq_true, beq_iff_eq] at hnamed
        obtain ⟨rfl, rfl⟩ := hnamed
        refine .reported hactive peerId hmember status now ?_
        simp [accepted, BufferCoordinator.markStatus, hactive, BufferOperation.isNamed, hmember]
      · rename_i hrefused
        rw [hactive] at h
        cases h
        refine .kept hactive (.refl _) ?_ rfl
        simp only [accepted, BufferCoordinator.markStatus, hactive, if_neg hrefused]
  | cancel operationId =>
    exact .kept (BufferCoordinator.active_of_takeIf h).1 (.refl o') rfl rfl
  | clear => cases h
  | clearIfLocalLeader localPeerId =>
    exact .kept (BufferCoordinator.active_of_takeIf h).1 (.refl o') rfl rfl
  | clearMatching state =>
    exact .kept (BufferCoordinator.active_of_takeIf h).1 (.refl o') rfl rfl

/-! ## Recorded statuses -/

/-- Every recorded status belongs to an expected peer. -/
def BufferOperation.StatusesExpected (o : BufferOperation) : Prop :=
  ∀ peerId, ∀ status ∈ o.statuses.lookup peerId, peerId ∈ o.expectedPeers

/-- A change keeps the recorded statuses with expected peers. -/
theorem CoordinatorOp.Becomes.statusesExpected {c : BufferCoordinator} {op : CoordinatorOp}
    {o' : BufferOperation} (h : Becomes c op o')
    (hc : ∀ o, c.active = some o → o.StatusesExpected) : o'.StatusesExpected := by
  cases h with
  | started => intro peerId status hstatus; cases hstatus
  | received => intro peerId status hstatus; cases hstatus
  | @kept op o o' hactive hsame =>
    intro peerId status hstatus
    rw [hsame.statuses] at hstatus
    rw [hsame.expectedPeers]
    exact hc o hactive peerId status hstatus
  | @removed o hactive gone now =>
    intro peerId status hstatus
    by_cases hpeer : peerId = gone
    · subst hpeer
      rw [BufferOperation.removePeer, AList.lookup_erase] at hstatus
      cases hstatus
    · rw [BufferOperation.removePeer, AList.lookup_erase_ne hpeer] at hstatus
      exact Finset.mem_erase.2 ⟨hpeer, hc o hactive peerId status hstatus⟩
  | @reported o hactive reporter hmember report now =>
    intro peerId status hstatus
    by_cases hpeer : peerId = reporter
    · subst hpeer
      exact hmember
    · rw [BufferOperation.setStatus, AList.lookup_insert_ne hpeer] at hstatus
      exact hc o hactive peerId status hstatus

/-- Throughout the life of a coordinator, recorded statuses belong to expected peers. -/
theorem statusesExpected_replay (log : List CoordinatorOp) {o : BufferOperation}
    (h : (replay log .new).active = some o) : o.StatusesExpected := by
  induction log using List.reverseRecOn generalizing o with
  | nil => cases h
  | append_singleton log op ih =>
    rw [replay_append] at h
    exact (becomes_of_active h).statusesExpected fun o ho => ih ho

/-- The name of the operation in progress has been used. -/
theorem operationId_mem_replay (log : List CoordinatorOp) {o : BufferOperation}
    (h : (replay log .new).active = some o) :
    o.operationId ∈ startedIds log ∨ o.operationId ∈ receivedIds log := by
  induction log using List.reverseRecOn generalizing o with
  | nil => cases h
  | append_singleton log op ih =>
    rw [replay_append] at h
    rw [startedIds_append, receivedIds_append, List.mem_append, List.mem_append]
    cases becomes_of_active h with
    | started => exact .inl (.inr (List.mem_singleton_self _))
    | received => exact .inr (.inr (List.mem_singleton_self _))
    | @kept op o' _ hactive hsame =>
      rw [hsame.operationId]
      exact (ih hactive).imp .inl .inl
    | removed hactive peerId now => exact (ih hactive).imp .inl .inl
    | reported hactive peerId hmember status now => exact (ih hactive).imp .inl .inl

/-- A change takes reports only on the operation in progress. -/
theorem CoordinatorOp.accepted_eq_some {c : BufferCoordinator} {op : CoordinatorOp}
    {report : AcceptedStatus} (h : op.accepted c = some report) :
    ∃ o, c.active = some o ∧ report.operationId = o.operationId := by
  cases op with
  | markStatus operationId sessionId peerId status now =>
    simp only [accepted, BufferCoordinator.markStatus] at h
    split at h
    · rename_i houtcome
      split at houtcome
      · cases houtcome
      · rename_i o hactive
        split at houtcome
        · rename_i htaken
          cases h
          simp only [BufferOperation.isNamed, Bool.and_eq_true, beq_iff_eq] at htaken
          exact ⟨o, hactive, htaken.1.1.symm⟩
        · cases houtcome
    · cases h
  | _ => cases h

/-- Reports have been taken only on operations that were opened. -/
theorem operationId_mem_of_accepted (log : List CoordinatorOp) {report : AcceptedStatus}
    (h : report ∈ acceptedStatuses .new log) :
    report.operationId ∈ startedIds log ∨ report.operationId ∈ receivedIds log := by
  induction log using List.reverseRecOn with
  | nil => cases h
  | append_singleton log op ih =>
    rw [acceptedStatuses_append] at h
    rw [startedIds_append, receivedIds_append, List.mem_append, List.mem_append]
    rcases List.mem_append.1 h with h | h
    · exact (ih h).imp .inl .inl
    · simp only [acceptedStatuses, List.append_nil, Option.mem_toList] at h
      obtain ⟨o, hactive, hid⟩ := accepted_eq_some h
      rw [hid]
      exact (operationId_mem_replay log hactive).imp .inl .inl

/-! ## Latest reports -/

/-- A change that takes no report on an operation leaves its latest reports. -/
theorem latestStatus_append_of_not_isReport {log : List CoordinatorOp} {op : CoordinatorOp}
    {operationId sessionId : String} {peerId : PeerId}
    (h : ∀ report ∈ op.accepted (replay log .new),
      ¬ IsReport operationId sessionId peerId report) :
    latestStatus (log ++ [op]) operationId sessionId peerId =
      latestStatus log operationId sessionId peerId := by
  unfold latestStatus
  rw [acceptedStatuses_append]
  cases haccepted : op.accepted (replay log .new) with
  | none => simp [acceptedStatuses, haccepted]
  | some report =>
    have hreport := h report haccepted
    simp [acceptedStatuses, haccepted, hreport]

/-- A report that is taken is the latest one. -/
theorem latestStatus_append_of_accepted {log : List CoordinatorOp} {op : CoordinatorOp}
    {report : AcceptedStatus} (h : op.accepted (replay log .new) = some report) :
    latestStatus (log ++ [op]) report.operationId report.sessionId report.peerId =
      some report.status := by
  unfold latestStatus
  rw [acceptedStatuses_append]
  simp [acceptedStatuses, h, IsReport]

/-- On an operation that nobody has opened there is no report. -/
theorem latestStatus_eq_none {log : List CoordinatorOp} {operationId : String}
    (hstarted : operationId ∉ startedIds log) (hreceived : operationId ∉ receivedIds log)
    (sessionId : String) (peerId : PeerId) :
    latestStatus log operationId sessionId peerId = none := by
  unfold latestStatus
  rw [Option.map_eq_none_iff, List.find?_eq_none]
  intro report hreport hmatch
  have hmatch := of_decide_eq_true hmatch
  rcases operationId_mem_of_accepted log (List.mem_reverse.1 hreport) with h | h
  · exact hstarted (hmatch.1 ▸ h)
  · exact hreceived (hmatch.1 ▸ h)

/-- For an operation of the local peer whose name was given once, the recorded status of each
expected peer is the latest report taken from it. -/
theorem lookup_eq_latestStatus (log : List CoordinatorOp) (hids : DistinctIds log)
    {o : BufferOperation} (h : (replay log .new).active = some o)
    (hstarted : o.operationId ∈ startedIds log) {peerId : PeerId}
    (hpeer : peerId ∈ o.expectedPeers) :
    o.statuses.lookup peerId = latestStatus log o.operationId o.state.sessionId peerId := by
  induction log using List.reverseRecOn generalizing o with
  | nil => cases h
  | append_singleton log op ih =>
    rw [replay_append] at h
    have hlog := hids.of_append
    -- If the last change has started nothing, the operation was started before.
    have hbefore : op.startedId = none → o.operationId ∈ startedIds log := by
      intro hop
      rw [startedIds_append, List.mem_append] at hstarted
      rcases hstarted with hstarted | hstarted
      · exact hstarted
      · simp [startedIds, hop] at hstarted
    cases becomes_of_active h with
    | started operationId state =>
      obtain ⟨hnew, hnotReceived⟩ := hids.fresh rfl
      rw [latestStatus_append_of_not_isReport (by intro report hreport; cases hreport)]
      exact (latestStatus_eq_none hnew hnotReceived _ _).symm
    | received operationId state =>
      refine absurd ?_ (hids.disjoint _ hstarted)
      rw [receivedIds_append]
      exact List.mem_append_right _ (List.mem_singleton_self _)
    | @kept op o₀ _ hactive hsame haccepted hop =>
      rw [latestStatus_append_of_not_isReport (by rw [haccepted]; nofun), hsame.statuses,
        hsame.operationId, hsame.state]
      rw [hsame.expectedPeers] at hpeer
      exact ih hlog hactive (hsame.operationId ▸ hbefore hop) hpeer
    | @removed o₀ hactive gone now =>
      rw [latestStatus_append_of_not_isReport (by intro report hreport; cases hreport)]
      obtain ⟨hne, hmem⟩ := Finset.mem_erase.1 hpeer
      rw [BufferOperation.removePeer, AList.lookup_erase_ne hne]
      exact ih hlog hactive (hbefore rfl) hmem
    | @reported o₀ hactive reporter hmember status now haccepted =>
      by_cases heq : peerId = reporter
      · subst heq
        rw [BufferOperation.setStatus, AList.lookup_insert]
        exact (latestStatus_append_of_accepted haccepted).symm
      · rw [latestStatus_append_of_not_isReport, BufferOperation.setStatus,
          AList.lookup_insert_ne heq]
        · exact ih hlog hactive (hbefore rfl) hpeer
        · rw [haccepted]
          rintro report hreport ⟨-, -, hreporter⟩
          cases hreport
          exact heq hreporter.symm

end LightEar
