import LightEar.HealthReports
import Mathlib.Data.List.Chain

/-!
# What the calls of one session lead to

The answers of the tracker `PlaybackHealth` over a whole session are read off the calls.

An evaluation is unhealthy if no strict majority of the expected peers is healthy.  The majority
counts as lost at an unhealthy evaluation if the unbroken run of unhealthy evaluations that it
belongs to has lasted for the grace period, and only once in the run
(`evaluate_majorityLost_iff`).

Of two reports of a peer that are published one after the other the second is of another kind, or
comes after the interval and says that more is loaded; and the last published report is always of
the same kind as the latest one (`published_rate_limited`).
-/

namespace LightEar

open Foundation

namespace PlaybackHealth

/-! ## The start of a session -/

theorem resetSession_resetSession (health : PlaybackHealth) (s : String) :
    (health.resetSession s).resetSession s = health.resetSession s := by
  by_cases hs : health.sessionId = some s
  · rw [resetSession_of_eq hs, resetSession_of_eq hs]
  · rw [resetSession_of_ne hs, resetSession_of_eq (ofSession_sessionId s)]

/-- A call resets to its session, so that it makes no difference whether that has been done. -/
theorem next_resetSession (health : PlaybackHealth) (call : Call) :
    (health.resetSession call.sessionId).next call = health.next call :=
  (answer_next_congr (health.resetSession_resetSession call.sessionId)).2

/-- Before a sequence of calls it can as well be done first. -/
theorem foldl_next_resetSession {s : String} {calls : List Call}
    (hcalls : ∀ c ∈ calls, c.sessionId = s) (health : PlaybackHealth) :
    (calls.foldl next health).resetSession s = calls.foldl next (health.resetSession s) := by
  cases calls with
  | nil => rfl
  | cons call calls =>
    obtain rfl : call.sessionId = s := hcalls call List.mem_cons_self
    have hsession : (calls.foldl next (health.next call)).sessionId = some call.sessionId :=
      foldl_next_sessionId (next_sessionId health call)
        fun c hc => hcalls c (List.mem_cons_of_mem _ hc)
    rw [List.foldl_cons, List.foldl_cons, next_resetSession, resetSession_of_eq hsession]

/-- The last of a session's calls finds the tracker at the session. -/
theorem sessionId_before_last {s : String} {calls : List Call} {last : Call}
    (hcalls : ∀ c ∈ calls ++ [last], c.sessionId = s) :
    (∀ c ∈ calls, c.sessionId = s) ∧
      (calls.foldl next (ofSession s)).sessionId = some last.sessionId := by
  have hbefore : ∀ c ∈ calls, c.sessionId = s :=
    fun c hc => hcalls c (List.mem_append_left _ hc)
  have hlast : last.sessionId = s :=
    hcalls last (List.mem_append_right _ (List.mem_singleton_self last))
  refine ⟨hbefore, ?_⟩
  rw [hlast]
  exact foldl_next_sessionId (ofSession_sessionId s) hbefore

/-! ## Evaluations -/

/-- No strict majority of the expected peers is healthy. -/
def isUnhealthy (health : PlaybackHealth) (expectedPeers : Finset PeerId) (positionMs : Nat)
    (now staleAfter : Instant) : Bool :=
  2 * (health.healthyPeers expectedPeers positionMs now staleAfter).card ≤ expectedPeers.card

/-- That is what an evaluation shows the watch. -/
theorem lossSample_eq (health : PlaybackHealth) (expectedPeers : Finset PeerId) (positionMs : Nat)
    (now staleAfter : Instant) :
    health.lossSample expectedPeers positionMs now staleAfter =
      ⟨health.isUnhealthy expectedPeers positionMs now staleAfter, now⟩ := by
  unfold lossSample isUnhealthy majorityThreshold
  rw [Sample.mk.injEq, decide_eq_decide]
  exact ⟨by omega, rfl⟩

/-- The evaluation that a call makes, if it makes one: whether it is unhealthy, when it is made,
and whether the majority is found lost. -/
def evaluation (health : PlaybackHealth) : Call → List Watch.Look
  | .evaluate sessionId expectedPeers positionMs now lossGrace staleAfter =>
    [{ sample :=
        ⟨(health.resetSession sessionId).isUnhealthy expectedPeers positionMs now staleAfter, now⟩
       fired := (health.evaluate sessionId expectedPeers positionMs now lossGrace
        staleAfter).1.isMajorityLost }]
  | .markStatus _ _ _ _ _ | .markLocalStatusForPublish _ _ _ _ _ _ => []

/-- The evaluations of a sequence of calls, first to last. -/
def evaluations : PlaybackHealth → List Call → List Watch.Look
  | _, [] => []
  | health, call :: calls => health.evaluation call ++ evaluations (health.next call) calls

theorem evaluations_concat (health : PlaybackHealth) (calls : List Call) (last : Call) :
    health.evaluations (calls ++ [last]) =
      health.evaluations calls ++ (calls.foldl next health).evaluation last := by
  induction calls generalizing health with
  | nil => exact List.append_nil _
  | cons call calls ih =>
    rw [List.cons_append, evaluations, evaluations, ih, List.append_assoc, List.foldl_cons]

/-- Resetting to the session first makes no difference to its evaluations. -/
theorem evaluations_resetSession {s : String} {calls : List Call}
    (hcalls : ∀ c ∈ calls, c.sessionId = s) (health : PlaybackHealth) :
    (health.resetSession s).evaluations calls = health.evaluations calls := by
  cases calls with
  | nil => rfl
  | cons call calls =>
    obtain rfl : call.sessionId = s := hcalls call List.mem_cons_self
    have hsame : (health.resetSession call.sessionId).evaluation call =
        health.evaluation call := by
      cases call <;> dsimp only [Call.sessionId]
      case markStatus => rfl
      case markLocalStatusForPublish => rfl
      case evaluate =>
        simp only [evaluation, PlaybackHealth.evaluate, resetSession_resetSession]
    rw [evaluations, evaluations, hsame, next_resetSession]

/-- One call at the session of the tracker: the watch has seen one evaluation more, if it was
one. -/
theorem lossWatch_next {health : PlaybackHealth} {looks : List Watch.Look} {call : Call}
    (hs : health.sessionId = some call.sessionId)
    (hlooks : health.lossWatch = Watch.ofLooks looks) :
    (health.next call).lossWatch = Watch.ofLooks (looks ++ health.evaluation call) := by
  cases call <;> dsimp only [Call.sessionId] at hs
  case markStatus =>
    rw [evaluation, List.append_nil, ← hlooks, next, markStatus, resetSession_of_eq hs]
    rfl
  case markLocalStatusForPublish =>
    rw [evaluation, List.append_nil, ← hlooks, next, markLocalStatusForPublish,
      resetSession_of_eq hs]
    rfl
  case evaluate sessionId expectedPeers positionMs now lossGrace staleAfter =>
    rw [evaluation, resetSession_of_eq hs, evaluate_isMajorityLost hs, next, evaluate_eq hs,
      ← lossSample_eq, hlooks, ← Watch.look_ofLooks_snd]
    rfl

/-- Over a whole session the watch has seen its evaluations. -/
theorem lossWatch_foldl_next {s : String} {calls : List Call}
    (hcalls : ∀ c ∈ calls, c.sessionId = s) :
    (calls.foldl next (ofSession s)).lossWatch =
      Watch.ofLooks ((ofSession s).evaluations calls) := by
  induction calls using List.reverseRecOn with
  | nil => rfl
  | append_singleton calls last ih =>
    obtain ⟨hbefore, hsession⟩ := sessionId_before_last hcalls
    rw [List.foldl_concat, evaluations_concat]
    exact lossWatch_next hsession (ih hbefore)

/-- In any sequence of calls of one session, an evaluation finds the majority lost if and only if
it is unhealthy, the first evaluation of the present unbroken run of unhealthy ones is as long ago
as the grace period, and no earlier one of the run has found the majority lost. -/
theorem evaluate_majorityLost_iff {health : PlaybackHealth} {s : String} {earlier : List Call}
    (hfresh : health.sessionId ≠ some s) (hearlier : ∀ c ∈ earlier, c.sessionId = s)
    (expectedPeers : Finset PeerId) (positionMs : Nat) (now lossGrace staleAfter : Instant) :
    let held := (earlier.foldl next health).resetSession s
    let unhealthy := held.isUnhealthy expectedPeers positionMs now staleAfter
    let run := (health.evaluations earlier).rtakeWhile (·.sample.bad)
    (∃ healthy threshold, ((earlier.foldl next health).evaluate s expectedPeers positionMs now
        lossGrace staleAfter).1 = .majorityLost healthy threshold) ↔
      unhealthy = true ∧
        (∃ t₀ ∈ (run.map (·.sample.now) ++ [now]).head?, lossGrace ≤ now - t₀) ∧
        ∀ evaluation ∈ run, evaluation.fired = false := by
  intro held unhealthy run
  have hheld : held = earlier.foldl next (ofSession s) := by
    rw [← resetSession_of_ne hfresh]
    exact foldl_next_resetSession hearlier health
  have hsession : held.sessionId = some s := by
    rw [hheld]
    exact foldl_next_sessionId (ofSession_sessionId s) hearlier
  have hrun : run = Watch.stretch ((ofSession s).evaluations earlier) := by
    rw [← resetSession_of_ne hfresh, evaluations_resetSession hearlier]
    rfl
  have hsame : (earlier.foldl next health).evaluate s expectedPeers positionMs now lossGrace
      staleAfter = held.evaluate s expectedPeers positionMs now lossGrace staleAfter := by
    simp only [PlaybackHealth.evaluate, held, resetSession_resetSession]
  have hlost : (∃ healthy threshold, (held.evaluate s expectedPeers positionMs now lossGrace
      staleAfter).1 = .majorityLost healthy threshold) ↔
      (held.evaluate s expectedPeers positionMs now lossGrace staleAfter).1.isMajorityLost =
        true := by
    cases (held.evaluate s expectedPeers positionMs now lossGrace staleAfter).1 <;>
      simp [PlaybackHealthDecision.isMajorityLost]
  have hfirst : (∃ t₀ ∈ (run.map (·.sample.now) ++ [now]).head?, lossGrace ≤ now - t₀) ↔
      ∃ first ∈ (run.map (·.sample) ++ [Sample.mk unhealthy now]).head?,
        lossGrace ≤ now - first.now := by
    cases run <;> simp
  rw [hsame, hlost, evaluate_isMajorityLost hsession, hheld, lossWatch_foldl_next hearlier,
    ← hheld, lossSample_eq, Watch.look_ofLooks_fst_iff, ← hrun, hfirst]

/-- A peer that has never reported is unhealthy, and the majority is lost at the end of the grace
period. -/
theorem evaluate_majorityLost_iff_silent :
    ∃ healthy threshold, (PlaybackHealth.evaluate (List.foldl next new
        [.markStatus "s" "other" .ready (some 60000) 0,
          .evaluate "s" {"me"} 0 (millis 1) bufferHealthLossGrace bufferHealthStaleAfter])
      "s" {"me"} 500 (millis 1 + bufferHealthLossGrace) bufferHealthLossGrace
      bufferHealthStaleAfter).1 = .majorityLost healthy threshold := by
  have hcalls : ∀ c ∈ ([.markStatus "s" "other" .ready (some 60000) 0,
      .evaluate "s" {"me"} 0 (millis 1) bufferHealthLossGrace bufferHealthStaleAfter] : List Call),
      c.sessionId = "s" := by
    simp [Call.sessionId]
  have hfresh : new.sessionId ≠ some "s" := by decide
  refine (evaluate_majorityLost_iff hfresh hcalls {"me"} 500 (millis 1 + bufferHealthLossGrace)
    bufferHealthLossGrace bufferHealthStaleAfter).2 ⟨?_, ?_, ?_⟩
  · decide
  · exact ⟨millis 1, by decide, by decide⟩
  · decide

/-! ## Publishing -/

/-- A published report, and the interval that was asked for. -/
structure Published where
  /-- What was published. -/
  report : PlaybackHealthStatus
  /-- The interval to the report published before. -/
  minInterval : Instant
  deriving DecidableEq, Repr

/-- The second of two reports is of another kind, or comes after the interval and says that more is
loaded, if both say how much. -/
def Published.Follows (first second : Published) : Prop :=
  first.report.status ≠ second.report.status ∨
    first.report.updatedAt + second.minInterval ≤ second.report.updatedAt ∧
      ∀ before ∈ first.report.bufferedUntilMs, ∀ after ∈ second.report.bufferedUntilMs,
        before < after

/-- The report of a peer that a call asks to publish. -/
def publishedBy (peerId : PeerId) (health : PlaybackHealth) : Call → List Published
  | .markLocalStatusForPublish sessionId localPeerId status bufferedUntilMs now minInterval =>
    if localPeerId = peerId ∧ (health.markLocalStatusForPublish sessionId localPeerId status
        bufferedUntilMs now minInterval).1 = true then
      [⟨⟨status, bufferedUntilMs, now⟩, minInterval⟩]
    else []
  | .markStatus _ _ _ _ _ | .evaluate _ _ _ _ _ _ => []

/-- The reports of a peer that a sequence of calls asks to publish, first to last. -/
def published (peerId : PeerId) : PlaybackHealth → List Call → List Published
  | _, [] => []
  | health, call :: calls =>
    health.publishedBy peerId call ++ published peerId (health.next call) calls

/-- The kind of the local status of a peer that a call brings. -/
def localStatus (peerId : PeerId) : Call → Option PlaybackBufferStatusKind
  | .markLocalStatusForPublish _ localPeerId status _ _ _ =>
    if localPeerId = peerId then some status else none
  | .markStatus _ _ _ _ _ | .evaluate _ _ _ _ _ _ => none

theorem published_concat (peerId : PeerId) (health : PlaybackHealth) (calls : List Call)
    (last : Call) :
    published peerId health (calls ++ [last]) =
      published peerId health calls ++ (calls.foldl next health).publishedBy peerId last := by
  induction calls generalizing health with
  | nil => exact List.append_nil _
  | cons call calls ih =>
    rw [List.cons_append, published, published, ih, List.append_assoc, List.foldl_cons]

/-- Resetting to the session first makes no difference to what is published. -/
theorem published_resetSession {s : String} {calls : List Call}
    (hcalls : ∀ c ∈ calls, c.sessionId = s) (peerId : PeerId) (health : PlaybackHealth) :
    published peerId (health.resetSession s) calls = published peerId health calls := by
  cases calls with
  | nil => rfl
  | cons call calls =>
    obtain rfl : call.sessionId = s := hcalls call List.mem_cons_self
    have hsame : (health.resetSession call.sessionId).publishedBy peerId call =
        health.publishedBy peerId call := by
      cases call <;> dsimp only [Call.sessionId]
      case markStatus => rfl
      case evaluate => rfl
      case markLocalStatusForPublish sessionId peerId status bufferedUntilMs now minInterval =>
        have hmark : (health.resetSession sessionId).markLocalStatusForPublish sessionId peerId
            status bufferedUntilMs now minInterval =
            health.markLocalStatusForPublish sessionId peerId status bufferedUntilMs now
              minInterval := by
          unfold PlaybackHealth.markLocalStatusForPublish
          rw [resetSession_resetSession]
        rw [publishedBy, publishedBy, hmark]
    rw [published, published, hsame, next_resetSession]

/-- What has been published for a peer: each report follows the one before, the last one is what
the tracker holds, and it is of the same kind as the latest local status. -/
structure PublishedSoFar (peerId : PeerId) (health : PlaybackHealth) (reports : List Published)
    (latest : Option PlaybackBufferStatusKind) : Prop where
  /-- Each report follows the one before. -/
  follows : reports.IsChain Published.Follows
  /-- The tracker holds the last one. -/
  last : health.publishedStatuses.lookup peerId = reports.getLast?.map (·.report)
  /-- It is of the same kind as the latest local status. -/
  status : reports.getLast?.map (·.report.status) = latest

theorem PublishedSoFar.start (peerId : PeerId) (s : String) :
    PublishedSoFar peerId (ofSession s) [] none :=
  ⟨.nil, rfl, rfl⟩

/-- A report that is to be published, after the last one, follows it. -/
theorem follows_of_shouldPublish {previous report : Published}
    (htime : previous.report.updatedAt ≤ report.report.updatedAt)
    (h : shouldPublish previous.report report.report report.report.updatedAt report.minInterval =
      true) : previous.Follows report := by
  unfold shouldPublish at h
  rw [Bool.or_eq_true, Bool.and_eq_true, bne_iff_ne, decide_eq_true_eq] at h
  rcases h with hstatus | ⟨helapsed, hadvanced⟩
  · exact .inl hstatus
  · refine .inr ⟨?_, fun before hbefore after hafter => ?_⟩
    · calc previous.report.updatedAt + report.minInterval
        _ ≤ previous.report.updatedAt + (report.report.updatedAt - previous.report.updatedAt) :=
          Nat.add_le_add_left helapsed _
        _ = report.report.updatedAt := Nat.add_sub_of_le htime
    · rw [Option.mem_def.1 hbefore, Option.mem_def.1 hafter] at hadvanced
      exact of_decide_eq_true hadvanced

/-- A report of the kind that was published last need not be published. -/
theorem status_eq_of_not_shouldPublish {previous next : PlaybackHealthStatus}
    {now minInterval : Instant} (h : ¬ shouldPublish previous next now minInterval = true) :
    previous.status = next.status := by
  unfold shouldPublish at h
  rw [Bool.or_eq_true, not_or, bne_iff_ne, not_not] at h
  exact h.1

/-- One call at the session of the tracker, not before what has been published. -/
theorem PublishedSoFar.next {peerId : PeerId} {health : PlaybackHealth} {reports : List Published}
    {latest : Option PlaybackBufferStatusKind} (h : PublishedSoFar peerId health reports latest)
    {call : Call} (hs : health.sessionId = some call.sessionId)
    (htime : ∀ published ∈ reports, published.report.updatedAt ≤ call.now) :
    PublishedSoFar peerId (health.next call) (reports ++ health.publishedBy peerId call)
      ((localStatus peerId call).or latest) := by
  cases call <;> dsimp only [Call.sessionId, Call.now] at hs htime
  case markStatus =>
    rw [publishedBy, List.append_nil, localStatus, Option.none_or]
    refine ⟨h.follows, ?_, h.status⟩
    rw [PlaybackHealth.next, markStatus, resetSession_of_eq hs]
    exact h.last
  case evaluate =>
    rw [publishedBy, List.append_nil, localStatus, Option.none_or]
    refine ⟨h.follows, ?_, h.status⟩
    rw [PlaybackHealth.next, evaluate_eq hs]
    exact h.last
  case markLocalStatusForPublish sessionId localPeerId status bufferedUntilMs now minInterval =>
    rw [publishedBy, localStatus, PlaybackHealth.next]
    unfold markLocalStatusForPublish
    rw [resetSession_of_eq hs]
    dsimp only
    by_cases hpeer : localPeerId = peerId
    · subst hpeer
      simp only [true_and, if_true, Option.some_or]
      rw [h.last]
      cases hlast : reports.getLast? with
      | none =>
        obtain rfl := List.getLast?_eq_none_iff.1 hlast
        exact ⟨.singleton _, AList.lookup_insert _, rfl⟩
      | some previous =>
        rw [Option.map_some]
        dsimp only
        split
        · rename_i hpublish
          refine ⟨List.isChain_append.2 ⟨h.follows, .singleton _, fun first hfirst second hsecond =>
            ?_⟩, ?_, ?_⟩
          · rw [hlast] at hfirst
            obtain rfl := Option.mem_some_iff.1 hfirst
            obtain rfl := Option.mem_some_iff.1 hsecond
            exact follows_of_shouldPublish (htime _ (List.mem_of_getLast? hlast)) hpublish
          · rw [List.getLast?_concat]
            exact AList.lookup_insert _
          · rw [List.getLast?_concat]
            rfl
        · rename_i hsilent
          rw [List.append_nil]
          refine ⟨h.follows, h.last, ?_⟩
          rw [hlast, Option.map_some]
          exact congrArg some (status_eq_of_not_shouldPublish hsilent)
    · simp only [hpeer, false_and, if_false, List.append_nil, Option.none_or]
      refine ⟨h.follows, ?_, h.status⟩
      dsimp only
      split_ifs
      · rw [AList.lookup_insert_ne (Ne.symm hpeer)]
        exact h.last
      · exact h.last

/-- A report that is published is as old as the call that brought it. -/
theorem exists_call_of_mem_published {peerId : PeerId} {health : PlaybackHealth}
    {calls : List Call} {report : Published} (h : report ∈ published peerId health calls) :
    ∃ call ∈ calls, report.report.updatedAt = call.now := by
  induction calls generalizing health with
  | nil => cases h
  | cons call calls ih =>
    rcases List.mem_append.1 h with hfirst | hrest
    · refine ⟨call, List.mem_cons_self, ?_⟩
      cases call with
      | markStatus => cases hfirst
      | evaluate => cases hfirst
      | markLocalStatusForPublish =>
        rw [publishedBy] at hfirst
        split at hfirst
        · rw [List.mem_singleton.1 hfirst]
          rfl
        · cases hfirst
    · obtain ⟨later, hlater, hage⟩ := ih hrest
      exact ⟨later, List.mem_cons_of_mem _ hlater, hage⟩

/-- Any sequence of calls of the session, in order of time. -/
theorem publishedSoFar_foldl_next {s : String} {calls : List Call}
    (hcalls : ∀ c ∈ calls, c.sessionId = s) (htimes : (calls.map Call.now).Pairwise (· ≤ ·))
    (peerId : PeerId) :
    PublishedSoFar peerId (calls.foldl PlaybackHealth.next (ofSession s))
      (published peerId (ofSession s) calls) (calls.filterMap (localStatus peerId)).getLast? := by
  induction calls using List.reverseRecOn with
  | nil => exact .start peerId s
  | append_singleton calls last ih =>
    obtain ⟨hbefore, hsession⟩ := sessionId_before_last hcalls
    rw [List.map_append, List.pairwise_append] at htimes
    have htime : ∀ report ∈ published peerId (ofSession s) calls,
        report.report.updatedAt ≤ last.now := by
      intro report hreport
      obtain ⟨call, hcall, hage⟩ := exists_call_of_mem_published hreport
      rw [hage]
      exact htimes.2.2 _ (List.mem_map_of_mem hcall) _ (List.mem_singleton_self _)
    have hlatest : ((calls ++ [last]).filterMap (localStatus peerId)).getLast? =
        (localStatus peerId last).or (calls.filterMap (localStatus peerId)).getLast? := by
      rw [List.filterMap_append, List.getLast?_append]
      cases hstatus : localStatus peerId last <;> simp [hstatus]
    rw [List.foldl_concat, published_concat, hlatest]
    exact (ih hbefore htimes.1).next hsession htime

/-- In any sequence of calls of one session, in order of time: of two reports of a peer that are
published one after the other, the second is of another kind, or comes after the interval and says
that more is loaded; and after every call the last published report is of the kind of the latest
local status. -/
theorem published_rate_limited {health : PlaybackHealth} {s : String} {calls : List Call}
    (hfresh : health.sessionId ≠ some s) (hcalls : ∀ c ∈ calls, c.sessionId = s)
    (htimes : (calls.map Call.now).Pairwise (· ≤ ·)) (peerId : PeerId) :
    (published peerId health calls).IsChain Published.Follows ∧
    ∀ sofar, sofar <+: calls →
      (published peerId health sofar).getLast?.map (·.report.status) =
        (sofar.filterMap (localStatus peerId)).getLast? := by
  have hparts : ∀ sofar, sofar <+: calls →
      PublishedSoFar peerId (sofar.foldl PlaybackHealth.next (ofSession s))
        (published peerId health sofar) (sofar.filterMap (localStatus peerId)).getLast? := by
    intro sofar hsofar
    have hsession : ∀ c ∈ sofar, c.sessionId = s := fun c hc => hcalls c (hsofar.subset hc)
    rw [← published_resetSession hsession, resetSession_of_ne hfresh]
    exact publishedSoFar_foldl_next hsession
      (htimes.sublist (hsofar.sublist.map Call.now)) peerId
  exact ⟨(hparts calls (List.prefix_refl calls)).follows,
    fun sofar hsofar => (hparts sofar hsofar).status⟩

/-- Ready, buffering and ready again within the interval is published each time. -/
theorem published_rate_limited_flapping :
    ((published "me" new
      [.markLocalStatusForPublish "s" "me" .ready (some 5000) 0 (millis 1000),
        .markLocalStatusForPublish "s" "me" .ready (some 6000) (millis 10) (millis 1000),
        .markLocalStatusForPublish "s" "me" .buffering (some 6000) (millis 20) (millis 1000),
        .markLocalStatusForPublish "s" "me" .ready (some 6000) (millis 30)
          (millis 1000)]).getLast?.map (·.report.status)) = some .ready := by
  have hcalls : ∀ c ∈ ([.markLocalStatusForPublish "s" "me" .ready (some 5000) 0 (millis 1000),
      .markLocalStatusForPublish "s" "me" .ready (some 6000) (millis 10) (millis 1000),
      .markLocalStatusForPublish "s" "me" .buffering (some 6000) (millis 20) (millis 1000),
      .markLocalStatusForPublish "s" "me" .ready (some 6000) (millis 30) (millis 1000)] :
      List Call), c.sessionId = "s" := by
    simp [Call.sessionId]
  have hfresh : new.sessionId ≠ some "s" := by decide
  exact (published_rate_limited hfresh hcalls (by decide) "me").2 _ (List.prefix_refl _)

end PlaybackHealth

end LightEar
