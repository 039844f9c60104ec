import LightEar.BufferState

/-!
# Health of the current playback

While a track plays, the peers report how far they have loaded.  The leader looks at the last
report of every peer and pauses for a new buffer operation when a strict majority has been
unhealthy for a grace period.
-/

namespace LightEar

/-- A report, and when it came. -/
structure PlaybackHealthStatus where
  /-- The kind of report. -/
  status : PlaybackBufferStatusKind
  /-- How far the peer has loaded. -/
  bufferedUntilMs : Option Nat
  /-- When the report came. -/
  updatedAt : Instant
  deriving DecidableEq, Repr

/-- The reports of one session. -/
structure PlaybackHealth where
  /-- The session the reports are about. -/
  sessionId : Option String
  /-- The last report of each peer. -/
  statuses : AList fun _ : PeerId => PlaybackHealthStatus
  /-- The last report that was published for each peer. -/
  publishedStatuses : AList fun _ : PeerId => PlaybackHealthStatus
  /-- Since when the majority is unhealthy. -/
  lossSince : Option Instant
  /-- Whether the present loss has been acted on. -/
  pausedForLoss : Bool

/-- What an evaluation finds. -/
inductive PlaybackHealthDecision where
  | stable (healthy threshold : Nat)
  | majorityLost (healthy threshold : Nat)
  deriving DecidableEq, Repr

/-- Whether a report covers a position, and is recent or far enough ahead. -/
def PlaybackHealthStatus.isHealthy (report : PlaybackHealthStatus) (positionMs : Nat)
    (now staleAfter : Instant) : Bool :=
  report.status == .ready &&
    match report.bufferedUntilMs with
    | none => false
    | some bufferedUntil =>
      positionMs ≤ bufferedUntil &&
        (now - report.updatedAt ≤ staleAfter ||
          satAdd positionMs (staleAfter / 1000000) ≤ bufferedUntil)

namespace PlaybackHealth

/-- No session, no reports. -/
def new : PlaybackHealth where
  sessionId := none
  statuses := ∅
  publishedStatuses := ∅
  lossSince := none
  pausedForLoss := false

/-- Forgets everything. -/
def clear (_health : PlaybackHealth) : PlaybackHealth := new

/-- Forgets everything about another session. -/
def resetSession (health : PlaybackHealth) (sessionId : String) : PlaybackHealth :=
  if health.sessionId = some sessionId then health
  else { new with sessionId := some sessionId }

/-- Records a report from the wire. -/
def markStatus (health : PlaybackHealth) (sessionId : String) (peerId : PeerId)
    (status : PlaybackBufferStatusKind) (bufferedUntilMs : Option Nat) (now : Instant) :
    PlaybackHealth :=
  let health := health.resetSession sessionId
  { health with statuses := health.statuses.insert peerId ⟨status, bufferedUntilMs, now⟩ }

/-- Whether a report says something that the last published one does not. -/
def shouldPublish (previous next : PlaybackHealthStatus) (now minInterval : Instant) : Bool :=
  let intervalElapsed := minInterval ≤ now - previous.updatedAt
  let bufferAdvanced :=
    match previous.bufferedUntilMs, next.bufferedUntilMs with
    | some previous, some next => previous < next
    | _, _ => true
  previous.status != next.status || (intervalElapsed && bufferAdvanced)

/-- Records a report of the local peer; says whether it is to be published. -/
def markLocalStatusForPublish (health : PlaybackHealth) (sessionId : String) (peerId : PeerId)
    (status : PlaybackBufferStatusKind) (bufferedUntilMs : Option Nat)
    (now minInterval : Instant) : Bool × PlaybackHealth :=
  let health := health.resetSession sessionId
  let next : PlaybackHealthStatus := ⟨status, bufferedUntilMs, now⟩
  let publish : Bool :=
    match health.publishedStatuses.lookup peerId with
    | none => true
    | some previous => shouldPublish previous next now minInterval
  (publish, { health with
    statuses := health.statuses.insert peerId next
    publishedStatuses :=
      if publish then health.publishedStatuses.insert peerId next
      else health.publishedStatuses })

/-- Counts the healthy peers and keeps track of a lost majority. -/
def evaluate (health : PlaybackHealth) (sessionId : String) (expectedPeers : Finset PeerId)
    (positionMs : Nat) (now lossGrace staleAfter : Instant) :
    PlaybackHealthDecision × PlaybackHealth :=
  let health := health.resetSession sessionId
  let threshold := majorityThreshold expectedPeers.card
  let healthy := (expectedPeers.filter fun peerId =>
    (health.statuses.lookup peerId).any (·.isHealthy positionMs now staleAfter)).card
  if threshold ≤ healthy then
    (.stable healthy threshold, { health with lossSince := none, pausedForLoss := false })
  else
    let lossSince := health.lossSince.getD now
    let health := { health with lossSince := some lossSince }
    if health.pausedForLoss || now - lossSince < lossGrace then (.stable healthy threshold, health)
    else (.majorityLost healthy threshold, { health with pausedForLoss := true })

end PlaybackHealth

end LightEar
