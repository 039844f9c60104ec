import LightEar.BufferHistory

/-!
# The quorum of the operation in progress

A coordinator counts the reports it has recorded and compares the counts with a threshold.  This
file says what the counts are worth.  Whatever has been done to a coordinator, its operation
remembers for each expected peer exactly the last report that the peer has made on it since it was
opened (`lookup_eq_latestReport`), so that the counts are the numbers of expected peers that are
ready or have failed, and the operation stands as these numbers say
(`quorum_eq_standing`).
-/

namespace LightEar

namespace CoordinatorOp

/-! ## Reports since the opening -/

/-- Whether a change puts a new operation in place of whatever was active. -/
def opens (c : BufferCoordinator) : CoordinatorOp → Bool
  | startLeader .. => true
  | receiveRemote operationId state .. => !c.active.any (·.isNamed operationId state.sessionId)
  | _ => false

/-- Follows one change: the coordinator after it, and the changes since the last opening, latest
first. -/
def track (s : BufferCoordinator × List CoordinatorOp) (op : CoordinatorOp) :
    BufferCoordinator × List CoordinatorOp :=
  (op.apply s.1, if op.opens s.1 then [] else op :: s.2)

/-- The changes since the operation in progress was opened, latest first. -/
def sinceOpened (log : List CoordinatorOp) : List CoordinatorOp :=
  (log.foldl track (.new, [])).2

/-- The report of a peer on an operation that a change is, if it is one. -/
def reportOf (operationId sessionId : String) (peerId : PeerId) :
    CoordinatorOp → Option BufferPeerStatus
  | markStatus operationId' sessionId' peerId' status _ =>
    if operationId' = operationId ∧ sessionId' = sessionId ∧ peerId' = peerId then some status
    else none
  | _ => none

/-- The last report that a peer has made on an operation since it was opened. -/
def latestReport (log : List CoordinatorOp) (o : BufferOperation) (peerId : PeerId) :
    Option BufferPeerStatus :=
  (sinceOpened log).findSome? (reportOf o.operationId o.state.sessionId peerId)

/-- How many expected peers of an operation have last reported a given kind. -/
def reporting (log : List CoordinatorOp) (o : BufferOperation)
    (kind : PlaybackBufferStatusKind) : Nat :=
  (o.expectedPeers.filter fun peerId =>
    ∃ status ∈ latestReport log o peerId, status.status = kind).card

theorem foldl_track_fst (log : List CoordinatorOp) (s : BufferCoordinator × List CoordinatorOp) :
    (log.foldl track s).1 = replay log s.1 := by
  induction log generalizing s with
  | nil => rfl
  | cons op log ih =>
    rw [List.foldl_cons, ih]
    rfl

/-- What has happened since the opening, after one more change. -/
theorem sinceOpened_append (log : List CoordinatorOp) (op : CoordinatorOp) :
    sinceOpened (log ++ [op]) =
      if op.opens (replay log .new) then [] else op :: sinceOpened log := by
  have hreplay : (log.foldl track (.new, [])).1 = replay log .new := foldl_track_fst log _
  unfold sinceOpened
  rw [List.foldl_concat, ← hreplay]
  rfl

/-- A newly opened operation has no reports. -/
theorem statuses_of_opens {c : BufferCoordinator} {op : CoordinatorOp} {o : BufferOperation}
    (hopens : op.opens c = true) (h : (op.apply c).active = some o) : o.statuses = ∅ := by
  cases op with
  | startLeader =>
    cases h
    rfl
  | receiveRemote operationId state kind expectedPeers timeout now =>
    simp only [opens, Bool.not_eq_true'] at hopens
    simp only [apply, BufferCoordinator.receiveRemoteOperation, hopens] at h
    cases h
    rfl
  | _ => cases hopens

/-- A report of an expected peer on the operation in progress is taken. -/
theorem accepted_of_reportOf {c : BufferCoordinator} {op : CoordinatorOp} {o : BufferOperation}
    {peerId : PeerId} {status : BufferPeerStatus} (hactive : c.active = some o)
    (hpeer : peerId ∈ o.expectedPeers)
    (h : op.reportOf o.operationId o.state.sessionId peerId = some status) :
    (op.accepted c).isSome := by
  cases op with
  | markStatus operationId sessionId reporter report now =>
    simp only [reportOf] at h
    split at h
    · rename_i hnamed
      obtain ⟨rfl, rfl, rfl⟩ := hnamed
      simp [accepted, BufferCoordinator.markStatus, hactive, BufferOperation.isNamed, hpeer]
    · cases h
  | _ => cases h

end CoordinatorOp

open CoordinatorOp

/-- An operation that has just been opened has no report. -/
theorem latestReport_append_of_opens {log : List CoordinatorOp} {op : CoordinatorOp}
    {o : BufferOperation} {peerId : PeerId} (hopens : op.opens (replay log .new) = true) :
    latestReport (log ++ [op]) o peerId = none := by
  unfold latestReport
  rw [sinceOpened_append, if_pos hopens]
  rfl

/-- A report of a peer is its last one. -/
theorem latestReport_append_of_some {log : List CoordinatorOp} {op : CoordinatorOp}
    {o : BufferOperation} {peerId : PeerId} {status : BufferPeerStatus}
    (hopens : op.opens (replay log .new) = false)
    (h : op.reportOf o.operationId o.state.sessionId peerId = some status) :
    latestReport (log ++ [op]) o peerId = some status := by
  unfold latestReport
  rw [sinceOpened_append, if_neg (by simp [hopens]), List.findSome?_cons, h]

/-- A change that is no report of a peer leaves its last report. -/
theorem latestReport_append_of_none {log : List CoordinatorOp} {op : CoordinatorOp}
    {o : BufferOperation} {peerId : PeerId} (hopens : op.opens (replay log .new) = false)
    (h : op.reportOf o.operationId o.state.sessionId peerId = none) :
    latestReport (log ++ [op]) o peerId = latestReport log o peerId := by
  unfold latestReport
  rw [sinceOpened_append, if_neg (by simp [hopens]), List.findSome?_cons, h]

/-- The last report depends on the name of the operation only. -/
theorem latestReport_congr (log : List CoordinatorOp) {o o' : BufferOperation} (peerId : PeerId)
    (hid : o'.operationId = o.operationId) (hstate : o'.state = o.state) :
    latestReport log o' peerId = latestReport log o peerId := by
  unfold latestReport
  rw [hid, hstate]

/-- Whatever has been done to a coordinator, its operation remembers for each expected peer the
last report that the peer has made on it since it was opened. -/
theorem lookup_eq_latestReport (log : List CoordinatorOp) {o : BufferOperation}
    (h : (replay log .new).active = some o) {peerId : PeerId} (hpeer : peerId ∈ o.expectedPeers) :
    o.statuses.lookup peerId = latestReport log o peerId := by
  induction log using List.reverseRecOn generalizing o with
  | nil => cases h
  | append_singleton log op ih =>
    rw [replay_append] at h
    change (op.apply (replay log .new)).active = some o at h
    by_cases hopens : op.opens (replay log .new) = true
    · rw [statuses_of_opens hopens h, latestReport_append_of_opens hopens]
      rfl
    · have hopens : op.opens (replay log .new) = false := Bool.eq_false_iff.2 hopens
      cases becomes_of_active h with
      | started => cases hopens
      | received operationId state kind expectedPeers timeout now =>
        -- the operation named is the one in progress, and stays
        have hnamed : (replay log .new).active.any (·.isNamed operationId state.sessionId) :=
          by simpa [opens] using hopens
        simp only [apply, BufferCoordinator.receiveRemoteOperation, if_pos hnamed] at h
        rw [latestReport_append_of_none hopens rfl]
        exact ih h hpeer
      | @kept op o₀ _ hactive hsame haccepted hop =>
        rw [hsame.expectedPeers] at hpeer
        have hreport : op.reportOf o.operationId o.state.sessionId peerId = none := by
          rw [hsame.operationId, hsame.state]
          by_contra hreport
          obtain ⟨status, hstatus⟩ := Option.ne_none_iff_exists'.1 hreport
          have htaken := accepted_of_reportOf hactive hpeer hstatus
          rw [haccepted] at htaken
          cases htaken
        rw [latestReport_append_of_none hopens hreport, hsame.statuses,
          latestReport_congr log peerId hsame.operationId hsame.state]
        exact ih hactive hpeer
      | @removed o₀ hactive gone now =>
        obtain ⟨hne, hmem⟩ := Finset.mem_erase.1 hpeer
        rw [latestReport_append_of_none hopens rfl, BufferOperation.removePeer,
          AList.lookup_erase_ne hne]
        exact ih hactive hmem
      | @reported o₀ hactive reporter hmember report now haccepted =>
        by_cases heq : peerId = reporter
        · subst heq
          have hreport : reportOf o₀.operationId o₀.state.sessionId peerId
              (.markStatus o₀.operationId o₀.state.sessionId peerId report now) = some report :=
            if_pos ⟨rfl, rfl, rfl⟩
          change (o₀.statuses.insert peerId report).lookup peerId =
            latestReport (log ++ [_]) o₀ peerId
          rw [latestReport_append_of_some hopens hreport]
          exact AList.lookup_insert _
        · have hreport : reportOf o₀.operationId o₀.state.sessionId peerId
              (.markStatus o₀.operationId o₀.state.sessionId reporter report now) = none :=
            if_neg fun hsame => heq hsame.2.2.symm
          change (o₀.statuses.insert reporter report).lookup peerId =
            latestReport (log ++ [_]) o₀ peerId
          rw [latestReport_append_of_none hopens hreport, AList.lookup_insert_ne heq]
          exact ih hactive hpeer

/-! ## Counts and quorum -/

/-- The counts of an operation are the numbers of expected peers by their last reports. -/
theorem count_eq_reporting (log : List CoordinatorOp) {o : BufferOperation}
    (h : (replay log .new).active = some o) (kind : PlaybackBufferStatusKind) :
    o.count kind = reporting log o kind := by
  have hcount := Foundation.countP_entries_eq_card o.statuses
    (fun status => status.status = kind) (statusesExpected_replay log h)
  refine hcount.trans (congrArg Finset.card ?_)
  refine Finset.filter_congr fun peerId hpeer => ?_
  rw [lookup_eq_latestReport log h hpeer]

/-- No peer is ready and failed at once. -/
theorem reporting_add_le (log : List CoordinatorOp) (o : BufferOperation) :
    reporting log o .ready + reporting log o .failed ≤ o.expectedPeers.card := by
  have hapart : Disjoint
      (o.expectedPeers.filter fun peerId =>
        ∃ status ∈ latestReport log o peerId, status.status = .ready)
      (o.expectedPeers.filter fun peerId =>
        ∃ status ∈ latestReport log o peerId, status.status = .failed) := by
    refine Finset.disjoint_filter.2 ?_
    rintro peerId - ⟨status, hstatus, hready⟩ ⟨status', hstatus', hfailed⟩
    rw [Option.mem_unique hstatus hstatus', hfailed] at hready
    cases hready
  unfold reporting
  rw [← Finset.card_disjUnion _ _ hapart, Finset.disjUnion_eq_union]
  refine Finset.card_le_card (Finset.union_subset ?_ ?_)
  · exact Finset.filter_subset _ _
  · exact Finset.filter_subset _ _

/-- How an operation of `n` peers stands of which `r` are ready, `b` load and `f` have failed. -/
def BufferQuorum.standing (n r b f : Nat) (deadline now : Instant) : BufferQuorum :=
  if n < 2 * r then .ready r (majorityThreshold n)
  else if deadline ≤ now then .timedOut r (majorityThreshold n)
  else if 2 * (n - f) ≤ n then .impossible r f (majorityThreshold n)
  else .waiting r b f (majorityThreshold n)

/-- If no peer is counted twice, an operation stands as its counts say. -/
theorem BufferOperation.quorum_eq_standing {o : BufferOperation}
    (h : o.count .ready + o.count .failed ≤ o.expectedPeers.card) (now : Instant) :
    o.quorum now = .standing o.expectedPeers.card (o.count .ready) (o.count .buffering)
      (o.count .failed) o.deadline now := by
  have hremaining : o.count .ready + (o.expectedPeers.card - (o.count .ready + o.count .failed)) <
        majorityThreshold o.expectedPeers.card ↔
      2 * (o.expectedPeers.card - o.count .failed) ≤ o.expectedPeers.card := by
    rw [← not_le, majorityThreshold_le_iff, not_lt]
    have hsum : o.count .ready +
        (o.expectedPeers.card - (o.count .ready + o.count .failed)) =
          o.expectedPeers.card - o.count .failed := by omega
    rw [hsum]
  unfold quorum BufferQuorum.standing
  simp only [majorityThreshold_le_iff, hremaining]

/-- A report is refused unless it is that of an expected peer on the operation in progress, and
then changes nothing. -/
theorem BufferCoordinator.markStatus_refused (c : BufferCoordinator)
    (operationId sessionId : String) (peerId : PeerId) (status : BufferPeerStatus)
    (now : Instant) :
    ((c.markStatus operationId sessionId peerId status now).1 = .ignored ↔
      ∀ o, c.active = some o → o.operationId = operationId → o.state.sessionId = sessionId →
        peerId ∉ o.expectedPeers) ∧
    ((c.markStatus operationId sessionId peerId status now).1 = .ignored →
      (c.markStatus operationId sessionId peerId status now).2 = c) := by
  unfold markStatus
  cases hactive : c.active with
  | none => exact ⟨⟨fun _ _ ho => (Option.some_ne_none _ ho.symm).elim, fun _ => rfl⟩, fun _ => rfl⟩
  | some o =>
    dsimp only
    by_cases htaken : o.isNamed operationId sessionId ∧ peerId ∈ o.expectedPeers
    · rw [if_pos htaken]
      simp only [BufferOperation.isNamed, Bool.and_eq_true, beq_iff_eq] at htaken
      have hcounted : ∀ quorum, BufferStatusOutcome.accepted quorum ≠ .ignored := by
        intro quorum hignored
        cases hignored
      refine ⟨⟨fun hignored => absurd hignored (hcounted _), fun hrefused => ?_⟩,
        fun hignored => absurd hignored (hcounted _)⟩
      exact absurd htaken.2 (hrefused o rfl htaken.1.1 htaken.1.2)
    · rw [if_neg htaken]
      simp only [BufferOperation.isNamed, Bool.and_eq_true, beq_iff_eq, not_and] at htaken
      refine ⟨⟨fun _ o' ho' hid hsession => ?_, fun _ => rfl⟩, fun _ => rfl⟩
      cases ho'
      exact htaken ⟨hid, hsession⟩

/-- A cancellation is refused unless it names the operation in progress, and then changes
nothing. -/
theorem BufferCoordinator.cancel_refused (c : BufferCoordinator) (operationId : String) :
    ((c.cancel operationId).1 = none ↔
      ∀ o, c.active = some o → o.operationId ≠ operationId) ∧
    ((c.cancel operationId).1 = none → (c.cancel operationId).2 = c) := by
  unfold cancel takeIf
  cases hactive : c.active with
  | none => exact ⟨⟨fun _ _ ho => (Option.some_ne_none _ ho.symm).elim, fun _ => rfl⟩, fun _ => rfl⟩
  | some o =>
    rw [Option.any_some]
    by_cases hid : o.operationId = operationId
    · rw [if_pos (beq_iff_eq.2 hid)]
      exact ⟨⟨fun hnone => absurd hnone (Option.some_ne_none o),
        fun hrefused => absurd hid (hrefused o rfl)⟩,
        fun hnone => absurd hnone (Option.some_ne_none o)⟩
    · rw [if_neg (by simpa using hid)]
      refine ⟨⟨fun _ o' ho' => ?_, fun _ => rfl⟩, fun _ => rfl⟩
      cases ho'
      exact hid

/-- In every life of a coordinator, its recorded statuses belong to expected peers, the counts
never exceed their number, the operation stands as the last reports of its expected peers say, and
a refused report or cancellation changes nothing. -/
theorem buffer_quorum_exact (log : List CoordinatorOp) :
    (∀ o, (replay log .new).active = some o →
      (∀ peerId, ∀ status ∈ o.statuses.lookup peerId, peerId ∈ o.expectedPeers) ∧
      o.count .ready + o.count .failed ≤ o.expectedPeers.card ∧
      ∀ now, (replay log .new).quorum now =
        some (.standing o.expectedPeers.card (reporting log o .ready)
          (reporting log o .buffering) (reporting log o .failed) o.deadline now)) ∧
    (∀ operationId sessionId peerId status now,
      let outcome := ((replay log .new).markStatus operationId sessionId peerId status now).1
      (outcome = .ignored ↔
        ∀ o, (replay log .new).active = some o → o.operationId = operationId →
          o.state.sessionId = sessionId → peerId ∉ o.expectedPeers) ∧
      (outcome = .ignored →
        ((replay log .new).markStatus operationId sessionId peerId status now).2 =
          replay log .new)) ∧
    (∀ operationId,
      (((replay log .new).cancel operationId).1 = none ↔
        ∀ o, (replay log .new).active = some o → o.operationId ≠ operationId) ∧
      (((replay log .new).cancel operationId).1 = none →
        ((replay log .new).cancel operationId).2 = replay log .new)) := by
  refine ⟨fun o hactive => ?_, fun _ _ _ _ _ => BufferCoordinator.markStatus_refused _ _ _ _ _ _,
    fun _ => BufferCoordinator.cancel_refused _ _⟩
  have hcounts : o.count .ready + o.count .failed ≤ o.expectedPeers.card := by
    rw [count_eq_reporting log hactive, count_eq_reporting log hactive]
    exact reporting_add_le log o
  refine ⟨statusesExpected_replay log hactive, hcounts, fun now => ?_⟩
  unfold BufferCoordinator.quorum
  rw [hactive, Option.map_some, BufferOperation.quorum_eq_standing hcounts]
  simp only [count_eq_reporting log hactive]

end LightEar
