import LightEar.Backend.Step
import LightEar.Foundation.GracePeriod
import LightEar.Foundation.GuardedRun

/-!
# Reports on the current playback

The tracker `PlaybackHealth` is called with reports from the wire, with reports of the local peer
and with evaluations, each for one session.  Two questions about whole sequences of calls are
answered here.

A report on another session makes the tracker forget the current one.  Nobody notices, whatever
is called later, exactly when there was nothing to forget (`late_report_unnoticed_iff`).

The leader asks for `lowWatermarkMs` more than the position, and for still more of an old report,
also where the track ends sooner.  A room that has loaded the whole track is therefore found
unhealthy near the end, and loses its majority exactly when that lasts for the grace period
(`never_lost_iff`).
-/

namespace LightEar

open Foundation

/-- A report that is healthy at some position while it is recent. -/
def PlaybackHealthStatus.covers (report : PlaybackHealthStatus) : Bool :=
  report.status == .ready && report.bufferedUntilMs.isSome

/-- No other report is ever healthy. -/
theorem PlaybackHealthStatus.covers_of_isHealthy {report : PlaybackHealthStatus}
    {positionMs : Nat} {now staleAfter : Instant}
    (h : report.isHealthy positionMs now staleAfter = true) : report.covers = true := by
  unfold isHealthy at h
  unfold covers
  cases hloaded : report.bufferedUntilMs with
  | none => simp [hloaded] at h
  | some bufferedUntil =>
    rw [hloaded, Bool.and_eq_true] at h
    simpa using h.1

/-- So an evaluation looks at these only. -/
theorem PlaybackHealthStatus.any_isHealthy_filter (report : Option PlaybackHealthStatus)
    (positionMs : Nat) (now staleAfter : Instant) :
    (report.filter covers).any (·.isHealthy positionMs now staleAfter) =
      report.any (·.isHealthy positionMs now staleAfter) := by
  cases report with
  | none => rfl
  | some report =>
    cases hcovers : report.covers with
    | true => simp [Option.filter, hcovers]
    | false =>
      have hnot : report.isHealthy positionMs now staleAfter = false := by
        refine Bool.eq_false_iff.2 fun h => ?_
        rw [covers_of_isHealthy h] at hcovers
        exact Bool.noConfusion hcovers
      simp [Option.filter, hcovers, hnot]

namespace PlaybackHealthDecision

/-- How many peers were found healthy. -/
def healthy : PlaybackHealthDecision → Nat
  | stable healthy _ | majorityLost healthy _ => healthy

/-- Whether the majority counts as lost. -/
def isMajorityLost : PlaybackHealthDecision → Bool
  | stable _ _ => false
  | majorityLost _ _ => true

end PlaybackHealthDecision

namespace PlaybackHealth

/-! ## Calls -/

/-- A call of the tracker. -/
inductive Call where
  | markStatus (sessionId : String) (peerId : PeerId) (status : PlaybackBufferStatusKind)
      (bufferedUntilMs : Option Nat) (now : Instant)
  | markLocalStatusForPublish (sessionId : String) (peerId : PeerId)
      (status : PlaybackBufferStatusKind) (bufferedUntilMs : Option Nat)
      (now minInterval : Instant)
  | evaluate (sessionId : String) (expectedPeers : Finset PeerId) (positionMs : Nat)
      (now lossGrace staleAfter : Instant)

namespace Call

/-- The session a call is about. -/
def sessionId : Call → String
  | markStatus sessionId _ _ _ _ => sessionId
  | markLocalStatusForPublish sessionId _ _ _ _ _ => sessionId
  | evaluate sessionId _ _ _ _ _ => sessionId

/-- When a call is made. -/
def now : Call → Instant
  | markStatus _ _ _ _ now => now
  | markLocalStatusForPublish _ _ _ _ now _ => now
  | evaluate _ _ _ now _ _ => now

end Call

/-- What a caller learns. -/
inductive Answer where
  | publish (should : Bool)
  | decided (decision : PlaybackHealthDecision)
  deriving DecidableEq, Repr

/-- The tracker after a call. -/
def next (health : PlaybackHealth) : Call → PlaybackHealth
  | .markStatus sessionId peerId status bufferedUntilMs now =>
    health.markStatus sessionId peerId status bufferedUntilMs now
  | .markLocalStatusForPublish sessionId peerId status bufferedUntilMs now minInterval =>
    (health.markLocalStatusForPublish sessionId peerId status bufferedUntilMs now minInterval).2
  | .evaluate sessionId expectedPeers positionMs now lossGrace staleAfter =>
    (health.evaluate sessionId expectedPeers positionMs now lossGrace staleAfter).2

/-- What the caller learns from a call; a report from the wire is only noted. -/
def answer (health : PlaybackHealth) : Call → List Answer
  | .markStatus _ _ _ _ _ => []
  | .markLocalStatusForPublish sessionId peerId status bufferedUntilMs now minInterval =>
    [.publish (health.markLocalStatusForPublish sessionId peerId status bufferedUntilMs now
      minInterval).1]
  | .evaluate sessionId expectedPeers positionMs now lossGrace staleAfter =>
    [.decided (health.evaluate sessionId expectedPeers positionMs now lossGrace staleAfter).1]

/-- What the callers learn from a sequence of calls. -/
def answers : PlaybackHealth → List Call → List Answer
  | _, [] => []
  | health, call :: calls => health.answer call ++ (health.next call).answers calls

theorem answers_append (health : PlaybackHealth) (calls later : List Call) :
    health.answers (calls ++ later) =
      health.answers calls ++ (calls.foldl next health).answers later := by
  induction calls generalizing health with
  | nil => rfl
  | cons call calls ih =>
    rw [List.cons_append, answers, answers, ih, List.append_assoc, List.foldl_cons]

/-! ## Sessions -/

/-- A tracker that knows nothing but the session. -/
def ofSession (sessionId : String) : PlaybackHealth :=
  { new with sessionId := some sessionId }

theorem resetSession_of_eq {health : PlaybackHealth} {sessionId : String}
    (h : health.sessionId = some sessionId) : health.resetSession sessionId = health := by
  simp [resetSession, h]

theorem ofSession_sessionId (s : String) : (ofSession s).sessionId = some s := rfl

theorem resetSession_of_ne {health : PlaybackHealth} {sessionId : String}
    (h : health.sessionId ≠ some sessionId) :
    health.resetSession sessionId = ofSession sessionId := by
  simp [resetSession, h, ofSession]

/-- After a call the tracker is at the session of the call. -/
theorem next_sessionId (health : PlaybackHealth) (call : Call) :
    (health.next call).sessionId = some call.sessionId := by
  have hreset : (health.resetSession call.sessionId).sessionId = some call.sessionId := by
    unfold resetSession
    split
    · assumption
    · rfl
  cases call with
  | markStatus sessionId peerId status bufferedUntilMs now => exact hreset
  | markLocalStatusForPublish sessionId peerId status bufferedUntilMs now minInterval =>
    exact hreset
  | evaluate sessionId expectedPeers positionMs now lossGrace staleAfter =>
    unfold next evaluate
    dsimp only
    split
    · exact hreset
    · split <;> exact hreset

/-- A call begins by looking at the session, so only the tracker reset to it matters. -/
theorem answer_next_congr {health other : PlaybackHealth} {call : Call}
    (h : health.resetSession call.sessionId = other.resetSession call.sessionId) :
    health.answer call = other.answer call ∧ health.next call = other.next call := by
  cases call <;> dsimp only [Call.sessionId] at h
  case markStatus => exact ⟨rfl, by simp only [next, markStatus, h]⟩
  case markLocalStatusForPublish =>
    simp only [answer, next, markLocalStatusForPublish, h, and_self]
  case evaluate => simp only [answer, next, evaluate, h, and_self]

/-- A tracker at another session reacts as one that knows nothing. -/
theorem answers_of_ne {health : PlaybackHealth} {sessionId : String} {calls : List Call}
    (h : health.sessionId ≠ some sessionId) (hcalls : ∀ c ∈ calls, c.sessionId = sessionId) :
    health.answers calls = (ofSession sessionId).answers calls := by
  cases calls with
  | nil => rfl
  | cons call calls =>
    have hreset : health.resetSession call.sessionId =
        (ofSession sessionId).resetSession call.sessionId := by
      rw [hcalls call List.mem_cons_self, resetSession_of_ne h, resetSession_of_eq rfl]
    obtain ⟨hanswer, hnext⟩ := answer_next_congr hreset
    rw [answers, answers, hanswer, hnext]

/-! ## Evaluations -/

/-- The expected peers that an evaluation finds healthy. -/
def healthyPeers (health : PlaybackHealth) (expectedPeers : Finset PeerId) (positionMs : Nat)
    (now staleAfter : Instant) : Finset PeerId :=
  expectedPeers.filter fun peerId =>
    (health.statuses.lookup peerId).any (·.isHealthy positionMs now staleAfter)

/-- What the tracker remembers of a lost majority. -/
def lossWatch (health : PlaybackHealth) : Watch := ⟨health.lossSince, health.pausedForLoss⟩

/-- What an evaluation shows the watch: whether a strict majority is missing. -/
def lossSample (health : PlaybackHealth) (expectedPeers : Finset PeerId) (positionMs : Nat)
    (now staleAfter : Instant) : Sample where
  bad := (health.healthyPeers expectedPeers positionMs now staleAfter).card <
    majorityThreshold expectedPeers.card
  now := now

/-- An evaluation is a look of the watch. -/
theorem evaluate_eq {health : PlaybackHealth} {s : String} (hs : health.sessionId = some s)
    (expectedPeers : Finset PeerId) (positionMs : Nat) (now lossGrace staleAfter : Instant) :
    health.evaluate s expectedPeers positionMs now lossGrace staleAfter =
      let healthy := (health.healthyPeers expectedPeers positionMs now staleAfter).card
      let threshold := majorityThreshold expectedPeers.card
      let looked := health.lossWatch.look lossGrace
        (health.lossSample expectedPeers positionMs now staleAfter)
      (if looked.1 then .majorityLost healthy threshold else .stable healthy threshold,
        { health with lossSince := looked.2.since, pausedForLoss := looked.2.fired }) := by
  unfold evaluate
  rw [resetSession_of_eq hs]
  by_cases hmajority : majorityThreshold expectedPeers.card ≤
      (health.healthyPeers expectedPeers positionMs now staleAfter).card
  · have hgood : (health.lossSample expectedPeers positionMs now staleAfter).bad = false :=
      decide_eq_false (not_lt.2 hmajority)
    rw [Watch.look_of_good hgood]
    exact if_pos hmajority
  · have hbad : (health.lossSample expectedPeers positionMs now staleAfter).bad = true :=
      decide_eq_true (not_le.1 hmajority)
    refine (if_neg hmajority).trans ?_
    by_cases hshort : (health.pausedForLoss ||
        decide (now - health.lossSince.getD now < lossGrace)) = true
    · have hlook : health.lossWatch.look lossGrace
          (health.lossSample expectedPeers positionMs now staleAfter) =
          (false, ⟨some (health.lossSince.getD now), health.pausedForLoss⟩) :=
        (if_pos hbad).trans (if_pos hshort)
      rw [hlook]
      exact if_pos hshort
    · have hlook : health.lossWatch.look lossGrace
          (health.lossSample expectedPeers positionMs now staleAfter) =
          (true, ⟨some (health.lossSince.getD now), true⟩) :=
        (if_pos hbad).trans (if_neg hshort)
      rw [hlook]
      exact if_neg hshort

/-- The decision names the number of healthy peers. -/
theorem evaluate_healthy {health : PlaybackHealth} {s : String} (hs : health.sessionId = some s)
    (expectedPeers : Finset PeerId) (positionMs : Nat) (now lossGrace staleAfter : Instant) :
    (health.evaluate s expectedPeers positionMs now lossGrace staleAfter).1.healthy =
      (health.healthyPeers expectedPeers positionMs now staleAfter).card := by
  rw [evaluate_eq hs]
  dsimp only
  split <;> rfl

/-- The majority counts as lost when the watch fires. -/
theorem evaluate_isMajorityLost {health : PlaybackHealth} {s : String}
    (hs : health.sessionId = some s) (expectedPeers : Finset PeerId) (positionMs : Nat)
    (now lossGrace staleAfter : Instant) :
    (health.evaluate s expectedPeers positionMs now lossGrace staleAfter).1.isMajorityLost =
      (health.lossWatch.look lossGrace
        (health.lossSample expectedPeers positionMs now staleAfter)).1 := by
  rw [evaluate_eq hs]
  dsimp only
  split <;> simp_all [PlaybackHealthDecision.isMajorityLost]

/-! ## A late report -/

/-- There is nothing about the session that a later call could depend on. -/
structure HoldsNothing (health : PlaybackHealth) : Prop where
  /-- No report can be found healthy. -/
  uncovered : ∀ peerId, ∀ report ∈ health.statuses.lookup peerId, report.covers = false
  /-- No report has been published. -/
  unpublished : ∀ peerId, health.publishedStatuses.lookup peerId = none
  /-- The majority has not been lost. -/
  noLoss : health.lossSince = none
  /-- No loss has been acted on. -/
  notPaused : health.pausedForLoss = false

/-- Two trackers that no call of the session tells apart. -/
structure Alike (sessionId : String) (health other : PlaybackHealth) : Prop where
  /-- The first is at the session. -/
  session : health.sessionId = some sessionId
  /-- So is the second. -/
  otherSession : other.sessionId = some sessionId
  /-- They hold the same reports that can be healthy. -/
  covered : ∀ peerId, (health.statuses.lookup peerId).filter (·.covers) =
    (other.statuses.lookup peerId).filter (·.covers)
  /-- They have published the same reports. -/
  published : ∀ peerId, health.publishedStatuses.lookup peerId =
    other.publishedStatuses.lookup peerId
  /-- They have been losing the majority for the same time. -/
  lossSince : health.lossSince = other.lossSince
  /-- They have both acted on it, or neither. -/
  pausedForLoss : health.pausedForLoss = other.pausedForLoss

namespace Alike

variable {s : String} {health other : PlaybackHealth}

/-- Looking at the session changes neither. -/
theorem reset (h : Alike s health other) :
    health.resetSession s = health ∧ other.resetSession s = other :=
  ⟨resetSession_of_eq h.session, resetSession_of_eq h.otherSession⟩

/-- The same new report of a peer keeps two trackers alike. -/
theorem insert_status (h : Alike s health other) (peerId : PeerId)
    (report : PlaybackHealthStatus) (peer : PeerId) :
    ((health.statuses.insert peerId report).lookup peer).filter (·.covers) =
      ((other.statuses.insert peerId report).lookup peer).filter (·.covers) := by
  by_cases hpeer : peer = peerId
  · subst hpeer
    rw [AList.lookup_insert, AList.lookup_insert]
  · rw [AList.lookup_insert_ne hpeer, AList.lookup_insert_ne hpeer]
    exact h.covered peer

/-- So does the same newly published report. -/
theorem insert_published (h : Alike s health other) (peerId : PeerId)
    (report : PlaybackHealthStatus) (peer : PeerId) :
    (health.publishedStatuses.insert peerId report).lookup peer =
      (other.publishedStatuses.insert peerId report).lookup peer := by
  by_cases hpeer : peer = peerId
  · subst hpeer
    rw [AList.lookup_insert, AList.lookup_insert]
  · rw [AList.lookup_insert_ne hpeer, AList.lookup_insert_ne hpeer]
    exact h.published peer

/-- Both count the same healthy peers. -/
theorem healthyPeers_eq (h : Alike s health other) (expectedPeers : Finset PeerId)
    (positionMs : Nat) (now staleAfter : Instant) :
    health.healthyPeers expectedPeers positionMs now staleAfter =
      other.healthyPeers expectedPeers positionMs now staleAfter := by
  refine Finset.filter_congr fun peerId _ => ?_
  rw [← PlaybackHealthStatus.any_isHealthy_filter, h.covered peerId,
    PlaybackHealthStatus.any_isHealthy_filter]

/-- A call gives the same answer on both and leaves them alike. -/
theorem step (h : Alike s health other) {call : Call} (hcall : call.sessionId = s) :
    health.answer call = other.answer call ∧ Alike s (health.next call) (other.next call) := by
  obtain ⟨hreset, hother⟩ := h.reset
  cases call with
  | markStatus sessionId peerId status bufferedUntilMs now =>
    obtain rfl : sessionId = s := hcall
    refine ⟨rfl, ?_⟩
    simp only [next, markStatus, hreset, hother]
    exact { h with covered := h.insert_status peerId _ }
  | markLocalStatusForPublish sessionId peerId status bufferedUntilMs now minInterval =>
    obtain rfl : sessionId = s := hcall
    simp only [answer, next, markLocalStatusForPublish, hreset, hother, h.published peerId]
    refine ⟨trivial, { h with covered := h.insert_status peerId _, published := fun peer => ?_ }⟩
    dsimp only
    split_ifs with hpublish
    · exact h.insert_published peerId _ peer
    · exact h.published peer
  | evaluate sessionId expectedPeers positionMs now lossGrace staleAfter =>
    obtain rfl : sessionId = s := hcall
    have hwatch : health.lossWatch = other.lossWatch := by
      rw [lossWatch, lossWatch, h.lossSince, h.pausedForLoss]
    simp only [answer, next, evaluate_eq h.session, evaluate_eq h.otherSession, lossSample,
      h.healthyPeers_eq, hwatch]
    exact ⟨rfl, { h with lossSince := rfl, pausedForLoss := rfl }⟩

/-- So does any sequence of calls. -/
theorem answers_eq (h : Alike s health other) {calls : List Call}
    (hcalls : ∀ c ∈ calls, c.sessionId = s) : health.answers calls = other.answers calls := by
  induction calls generalizing health other with
  | nil => rfl
  | cons call calls ih =>
    obtain ⟨hanswer, hnext⟩ := h.step (hcalls call List.mem_cons_self)
    rw [answers, answers, hanswer, ih hnext fun c hc => hcalls c (List.mem_cons_of_mem _ hc)]

end Alike

/-- A tracker that holds nothing is like one that knows nothing but the session. -/
theorem HoldsNothing.alike {health : PlaybackHealth} {s : String} (h : health.HoldsNothing)
    (hs : health.sessionId = some s) : Alike s health (ofSession s) where
  session := hs
  otherSession := rfl
  covered peerId := by
    change _ = none
    rw [Option.filter_eq_none_iff]
    intro report hreport
    simp [h.uncovered peerId report hreport]
  published := h.unpublished
  lossSince := h.noLoss
  pausedForLoss := h.notPaused

section Telltale

variable {health : PlaybackHealth} {s : String} {now : Instant}

/-- A report that covers is counted by an evaluation that calls it recent. -/
theorem covers_eq_false_of_answers (hs : health.sessionId = some s)
    (h : ∀ call : Call, call.sessionId = s → now ≤ call.now →
      (ofSession s).answer call = health.answer call)
    (peerId : PeerId) (report : PlaybackHealthStatus)
    (hreport : report ∈ health.statuses.lookup peerId) : report.covers = false := by
  by_contra hcovers
  rw [Bool.not_eq_false, PlaybackHealthStatus.covers, Bool.and_eq_true, beq_iff_eq,
    Option.isSome_iff_exists] at hcovers
  obtain ⟨hready, bufferedUntil, hloaded⟩ := hcovers
  have hhealthy : report.isHealthy 0 now (now - report.updatedAt) = true := by
    simp [PlaybackHealthStatus.isHealthy, hready, hloaded]
  have hfound : health.healthyPeers {peerId} 0 now (now - report.updatedAt) = {peerId} := by
    rw [healthyPeers, Finset.filter_singleton, Option.mem_def.1 hreport]
    exact if_pos hhealthy
  have hsame := h (.evaluate s {peerId} 0 now 0 (now - report.updatedAt)) rfl le_rfl
  have hcount : ((ofSession s).healthyPeers {peerId} 0 now (now - report.updatedAt)).card =
      (health.healthyPeers {peerId} 0 now (now - report.updatedAt)).card := by
    rw [← evaluate_healthy (ofSession_sessionId s) _ _ _ 0, ← evaluate_healthy hs _ _ _ 0]
    exact congrArg _ (Answer.decided.inj (List.cons.inj hsame).1)
  rw [hfound, Finset.card_singleton] at hcount
  exact absurd hcount Nat.zero_ne_one

/-- A published report keeps the same report from being published again at once. -/
theorem lookup_published_of_answers (hs : health.sessionId = some s)
    (h : ∀ call : Call, call.sessionId = s → now ≤ call.now →
      (ofSession s).answer call = health.answer call)
    (peerId : PeerId) : health.publishedStatuses.lookup peerId = none := by
  cases hprevious : health.publishedStatuses.lookup peerId with
  | none => rfl
  | some previous =>
    have hsame := h (.markLocalStatusForPublish s peerId previous.status
      previous.bufferedUntilMs now (now - previous.updatedAt + 1)) rfl le_rfl
    have hfresh : (ofSession s).publishedStatuses.lookup peerId = none := rfl
    simp only [answer, markLocalStatusForPublish, resetSession_of_eq hs,
      resetSession_of_eq (ofSession_sessionId s), hprevious, hfresh] at hsame
    simp [shouldPublish] at hsame

/-- An evaluation that finds nobody healthy tells how long that has lasted, and whether it has
been acted on. -/
theorem lossWatch_of_answers (hs : health.sessionId = some s)
    (h : ∀ call : Call, call.sessionId = s → now ≤ call.now →
      (ofSession s).answer call = health.answer call)
    (peerId : PeerId) : health.lossWatch = ⟨none, false⟩ := by
  have hbad : ∀ t : Instant, health.lossSample {peerId} 0 t 0 = ⟨true, t⟩ := by
    intro t
    have hnone : health.healthyPeers {peerId} 0 t 0 = ∅ := by
      refine Finset.filter_eq_empty_iff.2 fun peer _ hany => ?_
      obtain ⟨report, hreport, hhealthy⟩ := (Option.any_eq_true _ _).1 hany
      have huncovered := covers_eq_false_of_answers hs h peer report hreport
      rw [PlaybackHealthStatus.covers_of_isHealthy hhealthy] at huncovered
      exact Bool.noConfusion huncovered
    rw [lossSample, hnone]
    rfl
  have hlook : ∀ t grace : Instant, now ≤ t →
      (Watch.look grace ⟨none, false⟩ ⟨true, t⟩).1 =
        (health.lossWatch.look grace ⟨true, t⟩).1 := by
    intro t grace ht
    have hsame := h (.evaluate s {peerId} 0 t grace 0) rfl ht
    have hlost := congrArg PlaybackHealthDecision.isMajorityLost
      (Answer.decided.inj (List.cons.inj hsame).1)
    rw [evaluate_isMajorityLost (ofSession_sessionId s), evaluate_isMajorityLost hs,
      hbad] at hlost
    exact hlost
  have hnotFired : health.pausedForLoss = false := by
    by_contra hfired
    have hwatch : health.lossWatch.fired = true := Bool.not_eq_false _ ▸ hfired
    have hsame := hlook now 0 le_rfl
    rw [Watch.look_of_fired rfl hwatch] at hsame
    simp [Watch.look] at hsame
  have hnever : health.lossSince = none := by
    cases hsince : health.lossSince with
    | none => rfl
    | some since =>
      -- a little later the old loss is old enough, and a new one is not
      obtain ⟨t, hnow, hlater⟩ : ∃ t : Nat, now ≤ t ∧ since < t :=
        ⟨max now since + 1, Nat.le_succ_of_le (le_max_left _ _),
          Nat.lt_succ_of_le (le_max_right _ _)⟩
      have hsame := hlook t (t - since) hnow
      have hlong : ¬ t - health.lossWatch.since.getD t < t - since := by
        simp [lossWatch, hsince]
      have hshort : t - t < t - since := by
        rw [Nat.sub_self]
        exact Nat.sub_pos_of_lt hlater
      rw [Watch.look_of_long (w := health.lossWatch) rfl hnotFired hlong,
        Watch.look_of_short rfl rfl hshort] at hsame
      exact Bool.noConfusion hsame
  rw [lossWatch, hnotFired, hnever]

end Telltale

/-- Calls for the current session leave the tracker at it. -/
theorem foldl_next_sessionId {calls : List Call} (hs : health.sessionId = some s)
    (hcalls : ∀ c ∈ calls, c.sessionId = s) : (calls.foldl next health).sessionId = some s := by
  induction calls generalizing health with
  | nil => exact hs
  | cons call calls ih =>
    refine ih ?_ fun c hc => hcalls c (List.mem_cons_of_mem _ hc)
    rw [next_sessionId, hcalls call List.mem_cons_self]

/-- A report on another session is not noticed, whatever is called later for the current session,
exactly when the tracker held nothing about that session when the report came. -/
theorem late_report_unnoticed_iff {health : PlaybackHealth} {s other : String}
    {earlier : List Call} (hs : health.sessionId = some s)
    (hearlier : ∀ c ∈ earlier, c.sessionId = s) (hother : other ≠ s) (peerId : PeerId)
    (status : PlaybackBufferStatusKind) (bufferedUntilMs : Option Nat) (now : Instant) :
    (∀ later : List Call, (∀ c ∈ later, c.sessionId = s) →
        (now :: later.map Call.now).Pairwise (· ≤ ·) →
        health.answers (earlier ++
            .markStatus other peerId status bufferedUntilMs now :: later) =
          health.answers (earlier ++ later)) ↔
      (earlier.foldl next health).HoldsNothing := by
  set held := earlier.foldl next health with hheld
  have hsession : held.sessionId = some s := foldl_next_sessionId hs hearlier
  have hforgets : ∀ later : List Call, (∀ c ∈ later, c.sessionId = s) →
      (held.next (.markStatus other peerId status bufferedUntilMs now)).answers later =
        (ofSession s).answers later := by
    intro later hlater
    refine answers_of_ne ?_ hlater
    rw [next_sessionId]
    exact fun h => hother (Option.some.inj h)
  have hsplit : ∀ later : List Call, (∀ c ∈ later, c.sessionId = s) →
      (health.answers (earlier ++
            .markStatus other peerId status bufferedUntilMs now :: later) =
          health.answers (earlier ++ later) ↔
        (ofSession s).answers later = held.answers later) := by
    intro later hlater
    rw [answers_append, answers_append, List.append_cancel_left_eq, answers, ← hheld,
      hforgets later hlater]
    rfl
  constructor
  · intro h
    have hcall : ∀ call : Call, call.sessionId = s → now ≤ call.now →
        (ofSession s).answer call = held.answer call := by
      intro call hcall hnow
      have hmem : ∀ c ∈ [call], c.sessionId = s := by simpa using hcall
      have hsame := (hsplit [call] hmem).1 (h [call] hmem (by simpa using hnow))
      simpa [answers] using hsame
    have hwatch := lossWatch_of_answers hsession hcall peerId
    exact ⟨covers_eq_false_of_answers hsession hcall,
      lookup_published_of_answers hsession hcall, congrArg Watch.since hwatch,
      congrArg Watch.fired hwatch⟩
  · intro h later hlater _
    exact (hsplit later hlater).2 ((h.alike hsession).answers_eq hlater).symm

/-- A tracker that has just been reset does not notice such a report. -/
theorem late_report_unnoticed_iff_reset :
    "b" ≠ "a" ∧ (ofSession "b").HoldsNothing ∧
      ∀ later : List Call, (∀ c ∈ later, c.sessionId = "b") →
        (0 :: later.map Call.now).Pairwise (· ≤ ·) →
        (ofSession "b").answers ([] ++
            .markStatus "a" "peer" .ready (some 240000) 0 :: later) =
          (ofSession "b").answers ([] ++ later) := by
  have hnothing : (ofSession "b").HoldsNothing := by
    constructor
    · intro peerId report hreport
      cases hreport
    · exact fun peerId => rfl
    · rfl
    · rfl
  have hother : ("a" : String) ≠ "b" := by decide
  have hnoCall : ∀ c ∈ ([] : List Call), c.sessionId = "b" := List.forall_mem_nil _
  exact ⟨hother.symm, hnothing, (late_report_unnoticed_iff (ofSession_sessionId "b") hnoCall
    hother "peer" .ready (some 240000) 0).2 hnothing⟩

/-- The handler does not look at the session of a report before it calls the tracker. -/
theorem applyWireMessage_playbackBufferHealth {env : Env} {source peerId : PeerId}
    (hsource : env.parsePeerId peerId = some source) (sessionId : String)
    (status : PlaybackBufferStatusKind) (bufferedUntilMs : Option Nat) (b : Backend) :
    finalState (applyWireMessage env source
        (.playbackBufferHealth sessionId peerId status bufferedUntilMs)) b =
      { b with
        playbackHealth := b.playbackHealth.next
          (.markStatus sessionId peerId status bufferedUntilMs env.now) } := by
  have hvalid : validateWireSource env
      (.playbackBufferHealth sessionId peerId status bufferedUntilMs) source = .ok () := by
    simp [validateWireSource, WireMessage.sourceField, peerFieldMatchesSource, hsource]
  rw [applyWireMessage, hvalid]
  rfl

/-- A late report about the previous session "a" comes while the tracker holds the report of the
same peer on the current session "b": the evaluation then counts no healthy peer instead of
one. -/
theorem late_report_noticed :
    let health := (ofSession "b").next (.markStatus "b" "peer" .ready (some 60000) 0)
    let b := { Backend.new "me" ∅ false 0 with playbackHealth := health }
    let reported := finalState (applyWireMessage (.plain 1) "peer"
      (.playbackBufferHealth "a" "peer" .ready (some 240000))) b
    let later : List Call := [.evaluate "b" {"peer"} 5000 2000 bufferHealthLossGrace
      bufferHealthStaleAfter]
    b.playbackHealth.answers later = [.decided (.stable 1 1)] ∧
      reported.playbackHealth.answers later = [.decided (.stable 0 1)] := by
  decide

/-! ## A room that has loaded the whole track -/

/-- The evaluation the leader asks for at a position: `lowWatermarkMs` ahead. -/
def leaderCall (sessionId : String) (expectedPeers : Finset PeerId) (positionMs : Nat)
    (now : Instant) : Call :=
  .evaluate sessionId expectedPeers (satAdd positionMs lowWatermarkMs) now bufferHealthLossGrace
    bufferHealthStaleAfter

/-- Whether a peer that has loaded the whole track is healthy at a watched position: the track
goes on until there, and for an old report still longer. -/
def reachesWatermark (health : PlaybackHealth) (durationMs watched : Nat)
    (now staleAfter : Instant) (peerId : PeerId) : Bool :=
  watched ≤ durationMs &&
    ((health.statuses.lookup peerId).any (fun report => now - report.updatedAt ≤ staleAfter) ||
      satAdd watched (staleAfter / 1000000) ≤ durationMs)

/-- An evaluation is one of the leader's, and the latest report of every expected peer says that
the whole track is loaded. -/
def FullyBuffered (durationMs : Nat) (health : PlaybackHealth) : Call → Prop
  | .evaluate sessionId expectedPeers watched now lossGrace staleAfter =>
    (∃ positionMs ≤ durationMs, .evaluate sessionId expectedPeers watched now lossGrace
      staleAfter = leaderCall sessionId expectedPeers positionMs now) ∧
    ∀ peerId ∈ expectedPeers, ∃ updatedAt,
      health.statuses.lookup peerId = some ⟨.ready, some durationMs, updatedAt⟩
  | .markStatus _ _ _ _ _ | .markLocalStatusForPublish _ _ _ _ _ _ => True

/-- An evaluation is bad when fewer than a strict majority of the expected peers is healthy at
the watched position. -/
def watermarkSample (durationMs : Nat) (health : PlaybackHealth) : Call → List Sample
  | .evaluate _ expectedPeers watched now _ staleAfter =>
    [⟨(expectedPeers.filter fun peerId =>
        health.reachesWatermark durationMs watched now staleAfter peerId).card <
          majorityThreshold expectedPeers.card, now⟩]
  | .markStatus _ _ _ _ _ | .markLocalStatusForPublish _ _ _ _ _ _ => []

/-- The evaluations of a sequence of calls. -/
def watermarkSamples (durationMs : Nat) : PlaybackHealth → List Call → List Sample
  | _, [] => []
  | health, call :: calls =>
    health.watermarkSample durationMs call ++ watermarkSamples durationMs (health.next call) calls

/-- For a peer that has loaded the whole track, being healthy means no more. -/
theorem healthyPeers_of_full {health : PlaybackHealth} {durationMs watched : Nat}
    {expectedPeers : Finset PeerId} {now staleAfter : Instant}
    (h : ∀ peerId ∈ expectedPeers, ∃ updatedAt,
      health.statuses.lookup peerId = some ⟨.ready, some durationMs, updatedAt⟩) :
    health.healthyPeers expectedPeers watched now staleAfter =
      expectedPeers.filter fun peerId =>
        health.reachesWatermark durationMs watched now staleAfter peerId := by
  refine Finset.filter_congr fun peerId hpeer => ?_
  obtain ⟨updatedAt, hlookup⟩ := h peerId hpeer
  simp [reachesWatermark, hlookup, PlaybackHealthStatus.isHealthy]

/-- The majority counts as lost in one of the answers. -/
def LostIn (answers : List Answer) : Prop :=
  ∃ decision, Answer.decided decision ∈ answers ∧ decision.isMajorityLost = true

theorem lostIn_append {first second : List Answer} :
    LostIn (first ++ second) ↔ LostIn first ∨ LostIn second := by
  simp only [LostIn, List.mem_append, or_and_right, exists_or]

/-- One call: the majority counts as lost when the watch fires, and the watch goes on. -/
theorem lostIn_answer {health : PlaybackHealth} {s : String} {durationMs : Nat} {call : Call}
    (hs : health.sessionId = some s) (hcall : call.sessionId = s)
    (hfull : health.FullyBuffered durationMs call) (samples : List Sample) :
    (LostIn (health.answer call) ∨
        (health.next call).lossWatch.fires bufferHealthLossGrace samples = true) ↔
      health.lossWatch.fires bufferHealthLossGrace
        (health.watermarkSample durationMs call ++ samples) = true := by
  cases call with
  | markStatus sessionId peerId status bufferedUntilMs now =>
    obtain rfl : sessionId = s := hcall
    simp [next, markStatus, resetSession_of_eq hs, lossWatch, answer, watermarkSample, LostIn]
  | markLocalStatusForPublish sessionId peerId status bufferedUntilMs now minInterval =>
    obtain rfl : sessionId = s := hcall
    simp [next, markLocalStatusForPublish, resetSession_of_eq hs, lossWatch, answer,
      watermarkSample, LostIn]
  | evaluate sessionId expectedPeers watched now lossGrace staleAfter =>
    obtain rfl : sessionId = s := hcall
    obtain ⟨⟨positionMs, -, hleader⟩, hloaded⟩ := hfull
    obtain ⟨-, -, hgrace, hstale⟩ : watched = satAdd positionMs lowWatermarkMs ∧ now = now ∧
        lossGrace = bufferHealthLossGrace ∧ staleAfter = bufferHealthStaleAfter := by
      simpa [leaderCall] using hleader
    have hsample : health.watermarkSample durationMs (.evaluate sessionId expectedPeers watched
        now lossGrace staleAfter) =
        [health.lossSample expectedPeers watched now staleAfter] := by
      rw [lossSample, healthyPeers_of_full hloaded, watermarkSample]
    rw [hsample, List.singleton_append, Watch.fires, Bool.or_eq_true, ← hgrace]
    refine or_congr ?_ ?_
    · rw [← evaluate_isMajorityLost hs]
      simp [LostIn, answer]
    · rw [next, evaluate_eq hs]
      rfl

/-- Over a sequence of calls the majority counts as lost when the watch fires. -/
theorem lostIn_answers_iff {s : String} {durationMs : Nat} {calls : List Call}
    {health : PlaybackHealth} (hs : health.sessionId = some s)
    (hcalls : ∀ c ∈ calls, c.sessionId = s)
    (hfull : Along next (FullyBuffered durationMs) health calls) :
    LostIn (health.answers calls) ↔
      health.lossWatch.fires bufferHealthLossGrace (watermarkSamples durationMs health calls) =
        true := by
  induction calls generalizing health with
  | nil => simp [LostIn, answers, watermarkSamples, Watch.fires]
  | cons call calls ih =>
    have hcall : call.sessionId = s := hcalls call List.mem_cons_self
    have hnext : (health.next call).sessionId = some s := by rw [next_sessionId, hcall]
    rw [answers, watermarkSamples, lostIn_append,
      ih hnext (fun c hc => hcalls c (List.mem_cons_of_mem _ hc)) hfull.2]
    exact lostIn_answer hs hcall hfull.1 _

/-- In a room that has loaded the whole track the majority is never lost exactly when the
evaluations near the end, where the watermark is past it, never last for the grace period. -/
theorem never_lost_iff {health : PlaybackHealth} {s : String} {durationMs : Nat}
    {calls : List Call} (hs : health.sessionId = some s) (hcalls : ∀ c ∈ calls, c.sessionId = s)
    (hfull : Along next (FullyBuffered durationMs) health calls)
    (htimes : (health.lossWatch.noted ++ watermarkSamples durationMs health calls).Pairwise
      fun x y => x.now ≤ y.now) :
    (∀ healthy threshold,
        .decided (.majorityLost healthy threshold) ∉ health.answers calls) ↔
      ¬ Lasting bufferHealthLossGrace
        (health.lossWatch.counted (watermarkSamples durationMs health calls)) := by
  have hgrace : 0 < bufferHealthLossGrace := by decide
  rw [← Watch.fires_iff hgrace htimes, ← lostIn_answers_iff hs hcalls hfull]
  constructor
  · rintro h ⟨decision, hmem, hlost⟩
    cases decision with
    | stable healthy threshold => exact Bool.noConfusion hlost
    | majorityLost healthy threshold => exact h healthy threshold hmem
  · exact fun h healthy threshold hmem => h ⟨_, hmem, rfl⟩

/-- In the middle of a track of four minutes a report that is ten seconds old is good enough. -/
theorem never_lost_iff_midTrack :
    let calls : List Call := [.markStatus "s" "me" .ready (some 240000) 0,
      leaderCall "s" {"me"} 100000 (millis 10000), leaderCall "s" {"me"} 104000 (millis 14000)]
    ∀ healthy threshold,
      .decided (.majorityLost healthy threshold) ∉ (ofSession "s").answers calls := by
  intro calls
  have hcalls : ∀ c ∈ calls, c.sessionId = "s" := by
    simp [calls, leaderCall, Call.sessionId]
  have hfull : Along next (FullyBuffered 240000) (ofSession "s") calls := by
    refine ⟨trivial, ⟨⟨100000, by decide, rfl⟩, ?_⟩, ⟨⟨104000, by decide, rfl⟩, ?_⟩, trivial⟩ <;>
      intro peerId hpeer <;>
      obtain rfl := Finset.mem_singleton.1 hpeer <;>
      exact ⟨0, rfl⟩
  have htimes : ((ofSession "s").lossWatch.noted ++
      watermarkSamples 240000 (ofSession "s") calls).Pairwise fun x y => x.now ≤ y.now := by
    decide
  have hnever : ¬ Lasting bufferHealthLossGrace
      ((ofSession "s").lossWatch.counted (watermarkSamples 240000 (ofSession "s") calls)) := by
    rw [← Watch.fires_iff (by decide) htimes]
    decide
  exact (never_lost_iff rfl hcalls hfull htimes).2 hnever

/-- One peer plays a track of four minutes that it has loaded to the end, and reports so at every
evaluation: four seconds and one second before the end it is found unhealthy, and the majority is
lost. -/
theorem loaded_room_loses_majority :
    let calls : List Call := [.markStatus "s" "me" .ready (some 240000) (millis 236000),
      leaderCall "s" {"me"} 236000 (millis 236000),
      .markStatus "s" "me" .ready (some 240000) (millis 239000),
      leaderCall "s" {"me"} 239000 (millis 239000)]
    Along next (FullyBuffered 240000) (ofSession "s") calls ∧
      (ofSession "s").answers calls =
        [.decided (.stable 0 1), .decided (.majorityLost 0 1)] := by
  refine ⟨⟨trivial, ⟨⟨236000, by decide, rfl⟩, ?_⟩, trivial, ⟨⟨239000, by decide, rfl⟩, ?_⟩,
    trivial⟩, by decide⟩
  · intro peerId hpeer
    obtain rfl := Finset.mem_singleton.1 hpeer
    exact ⟨millis 236000, rfl⟩
  · intro peerId hpeer
    obtain rfl := Finset.mem_singleton.1 hpeer
    exact ⟨millis 239000, rfl⟩

end PlaybackHealth

/-- While the leader's evaluation does not find the majority lost, it changes nothing but the
tracker. -/
theorem maybePauseForBufferHealthLoss_of_not_lost {env : Env} {b : Backend}
    {current : PlaybackState} (hidle : b.buffer.isActive = false)
    (hcurrent : b.music.playbackState = some current)
    (hleads : current.leaderPeerId = b.localPeerId ∧ current.playing = true)
    (hkept : ¬ PlaybackHealth.LostIn (b.playbackHealth.answer (PlaybackHealth.leaderCall
      current.sessionId b.roomPeerIds (playbackPositionMs current (env.clock .healthPosition))
      env.now))) :
    maybePauseForBufferHealthLoss env b = .ok () { b with
      playbackHealth := b.playbackHealth.next (PlaybackHealth.leaderCall current.sessionId
        b.roomPeerIds (playbackPositionMs current (env.clock .healthPosition)) env.now) } := by
  unfold PlaybackHealth.leaderCall at hkept ⊢
  rw [PlaybackHealth.answer] at hkept
  rw [PlaybackHealth.next]
  rcases hevaluate : b.playbackHealth.evaluate current.sessionId b.roomPeerIds
    (satAdd (playbackPositionMs current (env.clock .healthPosition)) lowWatermarkMs) env.now
    bufferHealthLossGrace bufferHealthStaleAfter with ⟨decision, health⟩
  rw [hevaluate] at hkept
  have hstable : ∃ healthy threshold, decision = .stable healthy threshold := by
    cases decision with
    | stable healthy threshold => exact ⟨healthy, threshold, rfl⟩
    | majorityLost healthy threshold =>
      exact absurd ⟨_, List.mem_singleton_self _, rfl⟩ hkept
  obtain ⟨healthy, threshold, rfl⟩ := hstable
  unfold maybePauseForBufferHealthLoss
  rw [get_bind_apply, if_neg (Bool.eq_false_iff.1 hidle), hcurrent]
  dsimp only
  rw [if_pos hleads, hevaluate]
  rfl

end LightEar
