import LightEar.Foundation.Spacing
import LightEar.MediaRanges
import LightEar.RangeProbe

/-!
# Asking a web server for a file

The downloader asks for parts of a media file one after the other.  A request that fails is made
again up to two times, after a wait that depends on what went wrong; a server that does not want to
be asked so often is given ten seconds, once.  All requests of a download share one pacer, which
keeps them three quarters of a second apart.

While it waits the downloader looks from time to time whether the stream has been given up.
However these looks, the replies and the clock come out, the requests keep their distance
(`requests_paced`).
-/

namespace LightEar

open Foundation

universe u v

variable {α : Type u} {β : Type v}

/-- How often a request is made at most. -/
def mediaRangeFetchAttempts : Nat := 3

/-- The distance between two requests. -/
def streamRangeRequestSpacing : Instant := millis 750

/-- How long a server is left alone that does not want to be asked. -/
def streamThrottleRetryDelay : Instant := millis 10000

/-- How long to wait at first after an error that may pass. -/
def streamTransientRetryBaseMs : Nat := 750

/-! ## Replies -/

/-- The status of a reply. -/
structure StatusCode where
  /-- The number. -/
  code : Nat
  /-- The number and what it stands for, as it is shown. -/
  text : String
  deriving DecidableEq, Repr

namespace StatusCode

/-- The server has done what it was asked. -/
def isSuccess (status : StatusCode) : Bool := 200 ≤ status.code && status.code < 300

/-- Something is wrong with the server. -/
def isServerError (status : StatusCode) : Bool := 500 ≤ status.code && status.code < 600

/-- The server does not want to be asked, at least not so often. -/
def isThrottle (status : StatusCode) : Bool := status.code == 403 || status.code == 429

end StatusCode

/-- What went wrong on the way. -/
structure TransportError where
  /-- The status, if the error is about one. -/
  status : Option StatusCode
  /-- The error as it is shown. -/
  text : String
  /-- The error as it is shown with what has caused it. -/
  chain : String
  deriving DecidableEq, Repr

/-- Why a request has failed. -/
inductive MediaRangeError where
  | request (range : String) (source : TransportError)
  | httpStatus (range : String) (status : StatusCode)
  | unsupportedRange (range : String)
  | read (range : String) (source : TransportError)
  | unexpectedLength (range : String) (actual expected : Nat)
  deriving DecidableEq, Repr

namespace MediaRangeError

/-- The status that the server has answered with, if it is known. -/
def status : MediaRangeError → Option StatusCode
  | httpStatus _ status => some status
  | request _ source => source.status
  | read _ source => source.status
  | unsupportedRange _ => none
  | unexpectedLength .. => none

/-- What was asked for. -/
def range : MediaRangeError → String
  | request range _ => range
  | httpStatus range _ => range
  | unsupportedRange range => range
  | read range _ => range
  | unexpectedLength range _ _ => range

/-- The error as it is shown. -/
def text : MediaRangeError → String
  | request range source => "media range request " ++ range ++ " failed: " ++ source.text
  | httpStatus range status =>
    "media range request " ++ range ++ " failed with HTTP " ++ status.text
  | unsupportedRange range =>
    "media range request " ++ range ++ " did not return byte-range support"
  | read range source => "failed to read media range " ++ range ++ ": " ++ source.text
  | unexpectedLength range actual expected => "media range " ++ range ++ " returned " ++
      toString actual ++ " bytes, expected " ++ toString expected

/-- The error as it is shown with what has caused it. -/
def chain (error : MediaRangeError) : String :=
  match error with
  | request _ source => error.text ++ ": " ++ source.chain
  | read _ source => error.text ++ ": " ++ source.chain
  | httpStatus .. | unsupportedRange _ | unexpectedLength .. => error.text

end MediaRangeError

/-- A reply: its status, its headers, and the body, which may break off. -/
structure Response (α : Type u) where
  /-- The status. -/
  status : StatusCode
  /-- The headers. -/
  headers : HeaderMap
  /-- The body. -/
  body : Except TransportError (List α)

/-- What comes of a request. -/
abbrev Reply (α : Type u) := Except TransportError (Response α)

/-- How a range is asked for. -/
def ByteRange.headerValue (range : ByteRange) : String :=
  "bytes=" ++ toString range.start ++ "-" ++ toString range.endInclusive

/-- Whether parts of the file can be asked for, and how long it is. -/
def probeRangeSupport (reply : Reply α) : Except MediaRangeError RangeProbe :=
  let range := "bytes=0-0"
  match reply with
  | .error source => .error (.request range source)
  | .ok response =>
    if !response.status.isSuccess then .error (.httpStatus range response.status)
    else
      let probe := parseRangeProbe response.headers
      if !probe.supportsRanges then .error (.unsupportedRange range) else .ok probe

/-- The bytes of a range. -/
def fetchRangeBytes (range : ByteRange) (reply : Reply α) :
    Except MediaRangeError (List α × RangeProbe) :=
  let rangeHeader := range.headerValue
  match reply with
  | .error source => .error (.request rangeHeader source)
  | .ok response =>
    if !response.status.isSuccess then .error (.httpStatus rangeHeader response.status)
    else
      let probe := parseRangeProbe response.headers
      if !probe.supportsRanges then .error (.unsupportedRange rangeHeader)
      else
        match response.body with
        | .error source => .error (.read rangeHeader source)
        | .ok bytes =>
          if bytes.length ≠ range.len then
            .error (.unexpectedLength rangeHeader bytes.length range.len)
          else .ok (bytes, probe)

/-- The bytes of the whole file. -/
def fetchFullMediaBytes (reply : Reply α) : Except MediaRangeError (List α) :=
  let range := "full media"
  match reply with
  | .error source => .error (.request range source)
  | .ok response =>
    if !response.status.isSuccess then .error (.httpStatus range response.status)
    else
      match response.body with
      | .error source => .error (.read range source)
      | .ok bytes => .ok bytes

/-! ## Waiting -/

/-- How long to wait after an error that may pass: twice as long each time. -/
def transientRangeRetryDelay (attempt : Nat) : Instant :=
  millis (satMul streamTransientRetryBaseMs (2 ^ min attempt 4))

/-- How long to wait before a request is made again, if it is.  `attempt` counts the requests
before. -/
def mediaRangeRetryDelay (error : MediaRangeError) (attempt : Nat) : Option Instant :=
  match error.status with
  | some status =>
    if status.isThrottle then if attempt = 0 then some streamThrottleRetryDelay else none
    else if status.isServerError then
      if attempt + 1 < mediaRangeFetchAttempts then some (transientRangeRetryDelay attempt)
      else none
    else none
  | none =>
    match error with
    | .request .. | .read .. =>
      if attempt + 1 < mediaRangeFetchAttempts then some (transientRangeRetryDelay attempt)
      else none
    | .unsupportedRange _ | .unexpectedLength .. | .httpStatus .. => none

/-- A duration as it is shown. -/
def describeRetryDelay (delay : Instant) : String :=
  if 0 < delay / millis 1000 ∧ delay / millis 1 % 1000 = 0 then
    toString (delay / millis 1000) ++ "s"
  else toString (delay / millis 1) ++ "ms"

/-- What is said before a request is made again. -/
def mediaRetryStatus (error : MediaRangeError) (delay : Instant) : String :=
  let status := (error.status.map fun status => "HTTP " ++ status.text).getD "transport error"
  "media range " ++ error.range ++ " " ++ status ++ "; retrying in " ++ describeRetryDelay delay

/-- One look of the downloader while it waits. -/
structure Look where
  /-- Whether the stream has been given up. -/
  canceled : Bool
  /-- The time. -/
  now : Instant
  deriving DecidableEq, Repr

/-- Waits for a deadline, or until the stream is given up.  Says which, once there is an end. -/
def sleepStreamingDownload (deadline : Instant) : List Look → Option Bool
  | [] => none
  | look :: looks =>
    if look.canceled then some false
    else if deadline ≤ look.now then some true
    else sleepStreamingDownload deadline looks

/-- The distance between requests. -/
structure StreamRequestPacer where
  /-- When the last request was made. -/
  lastStartedAt : Option Instant
  deriving DecidableEq, Repr

/-- What the downloader sees while it waits for its turn. -/
structure Turn where
  /-- When it asks how long ago the last request was. -/
  asked : Instant
  /-- When it goes to sleep, if it has to. -/
  sleeps : Instant
  /-- Its looks while it sleeps. -/
  looks : List Look
  /-- Whether the stream has been given up in the end. -/
  canceled : Bool
  /-- When the request is made. -/
  started : Instant
  deriving DecidableEq, Repr

/-- Sleeps until the last request is long enough ago. -/
def StreamRequestPacer.sleepForSpacing (pacer : StreamRequestPacer) (turn : Turn) : Option Bool :=
  match pacer.lastStartedAt with
  | none => some true
  | some lastStartedAt =>
    let elapsed := turn.asked - lastStartedAt
    if elapsed < streamRangeRequestSpacing then
      sleepStreamingDownload (turn.sleeps + (streamRangeRequestSpacing - elapsed)) turn.looks
    else some true

/-- Waits until a request may be made. -/
def StreamRequestPacer.waitForTurn (pacer : StreamRequestPacer) (turn : Turn) :
    Option Bool × StreamRequestPacer :=
  match pacer.sleepForSpacing turn with
  | none => (none, pacer)
  | some false => (some false, pacer)
  | some true =>
    if turn.canceled then (some false, pacer)
    else (some true, { lastStartedAt := some turn.started })

/-! ## Requests that are made again -/

/-- One request with the waits around it. -/
structure Attempt (α : Type u) where
  /-- The wait before it. -/
  turn : Turn
  /-- What comes of it. -/
  reply : Reply α
  /-- When the wait after it begins, if it is to be made again. -/
  delayed : Instant
  /-- The looks while it lasts. -/
  looks : List Look

/-- The readings of the clock in their order.  One that is not taken may be anything in between. -/
def Attempt.readings (attempt : Attempt α) : List Instant :=
  [attempt.turn.asked, attempt.turn.sleeps] ++ attempt.turn.looks.map Look.now ++
    [attempt.turn.started, attempt.delayed] ++ attempt.looks.map Look.now

/-- What becomes of a request. -/
inductive FetchOutcome (β : Type v) where
  | fetched (value : β)
  | failed (error : MediaRangeError) (context : String)
  | canceled
  | waits
  deriving DecidableEq, Repr

/-- What the downloader is given in the end. -/
def FetchOutcome.answer? : FetchOutcome β → Option (Except String β)
  | fetched value => some (.ok value)
  | failed error context => some (.error (context ++ ": " ++ error.chain))
  | canceled => some (.error "stream canceled")
  | waits => none

/-- A request that was made. -/
structure SentRequest where
  /-- When. -/
  started : Instant
  /-- Why it has failed, if it has. -/
  error : Option MediaRangeError
  deriving DecidableEq, Repr

/-- What becomes of a request that may be made again. -/
structure FetchResult (β : Type v) where
  /-- The end. -/
  outcome : FetchOutcome β
  /-- The pacer after it. -/
  pacer : StreamRequestPacer
  /-- The requests that were made. -/
  sent : List SentRequest
  /-- What was said. -/
  statuses : List String
  deriving DecidableEq, Repr

/-- Makes a request, again if need be.  `attempt` counts the requests before. -/
def fetchWithRetry (answer : Reply α → Except MediaRangeError β) (context : Nat → String)
    (pacer : StreamRequestPacer) (attempt : Nat) : List (Attempt α) → FetchResult β
  | [] => { outcome := .waits, pacer, sent := [], statuses := [] }
  | made :: later =>
    match pacer.waitForTurn made.turn with
    | (none, pacer) => { outcome := .waits, pacer, sent := [], statuses := [] }
    | (some false, pacer) => { outcome := .canceled, pacer, sent := [], statuses := [] }
    | (some true, pacer) =>
      match answer made.reply with
      | .ok value =>
        { outcome := .fetched value, pacer, sent := [⟨made.turn.started, none⟩], statuses := [] }
      | .error error =>
        let sent : SentRequest := ⟨made.turn.started, some error⟩
        match mediaRangeRetryDelay error attempt with
        | none =>
          { outcome := .failed error (context (attempt + 1)), pacer, sent := [sent]
            statuses := [] }
        | some delay =>
          let status := mediaRetryStatus error delay
          match sleepStreamingDownload (made.delayed + delay) made.looks with
          | none => { outcome := .waits, pacer, sent := [sent], statuses := [status] }
          | some false => { outcome := .canceled, pacer, sent := [sent], statuses := [status] }
          | some true =>
            let result := fetchWithRetry answer context pacer (attempt + 1) later
            { result with
              sent := sent :: result.sent
              statuses := status :: result.statuses }

/-- Asks whether parts of the file can be asked for. -/
def probeStreamRangeWithRetry (pacer : StreamRequestPacer) (attempts : List (Attempt α)) :
    FetchResult RangeProbe :=
  fetchWithRetry probeRangeSupport (fun _ => "failed to probe media range") pacer 0 attempts

/-- Asks for a range. -/
def fetchStreamRangeWithRetry (range : ByteRange) (pacer : StreamRequestPacer)
    (attempts : List (Attempt α)) : FetchResult (List α × RangeProbe) :=
  fetchWithRetry (fetchRangeBytes range) (fun count => "failed to read media range " ++
    range.headerValue ++ " after " ++ toString count ++ " attempt(s)") pacer 0 attempts

/-- Asks for the whole file. -/
def fetchFullMediaWithRetry (pacer : StreamRequestPacer) (attempts : List (Attempt α)) :
    FetchResult (List α) :=
  fetchWithRetry fetchFullMediaBytes (fun _ => "failed to download full media") pacer 0 attempts

/-! ## The requests keep their distance -/

/-- A wait that ends at its deadline ends at a look that is not earlier. -/
theorem exists_look_of_slept {deadline : Instant} {looks : List Look}
    (h : sleepStreamingDownload deadline looks = some true) :
    ∃ look ∈ looks, deadline ≤ look.now := by
  induction looks with
  | nil => cases h
  | cons look looks ih =>
    unfold sleepStreamingDownload at h
    split at h
    · cases h
    · split at h
      · rename_i hpassed
        exact ⟨look, List.mem_cons_self, hpassed⟩
      · obtain ⟨later, hlater, hpassed⟩ := ih h
        exact ⟨later, List.mem_cons_of_mem _ hlater, hpassed⟩

/-- The clock does not go back during a request and the waits around it. -/
structure Attempt.Ordered (attempt : Attempt α) : Prop where
  /-- From the question to the sleep. -/
  sleeps : attempt.turn.asked ≤ attempt.turn.sleeps
  /-- While asleep. -/
  asleep : ∀ look ∈ attempt.turn.looks, attempt.turn.sleeps ≤ look.now ∧
    look.now ≤ attempt.turn.started
  /-- From the question to the request. -/
  started : attempt.turn.asked ≤ attempt.turn.started
  /-- From the request to the next wait. -/
  delayed : attempt.turn.started ≤ attempt.delayed
  /-- During that wait. -/
  waits : ∀ look ∈ attempt.looks, attempt.delayed ≤ look.now

/-- So it is if the readings are in order. -/
theorem Attempt.ordered_of_readings {attempt : Attempt α}
    (h : attempt.readings.Pairwise (· ≤ ·)) : attempt.Ordered := by
  unfold readings at h
  simp only [List.pairwise_append, List.pairwise_cons, List.mem_append, List.mem_cons,
    List.mem_map, List.not_mem_nil, or_false, forall_eq] at h
  obtain ⟨⟨⟨⟨hasked, -⟩, -, hlooks⟩, ⟨hdelayed, -⟩, hstarted⟩, -, hlater⟩ := h
  constructor
  · exact hasked
  · intro look hlook
    refine ⟨hlooks _ (.inr rfl) _ ⟨look, hlook, rfl⟩, ?_⟩
    exact hstarted _ (.inr ⟨look, hlook, rfl⟩) _ (.inl rfl)
  · exact hstarted _ (.inl (.inl rfl)) _ (.inl rfl)
  · exact hdelayed
  · intro look hlook
    exact hlater _ (.inr (.inr rfl)) _ ⟨look, hlook, rfl⟩

/-- After the sleep the last request is long enough ago. -/
theorem StreamRequestPacer.spaced_of_slept {pacer : StreamRequestPacer} {attempt : Attempt α}
    (h : attempt.Ordered) (hslept : pacer.sleepForSpacing attempt.turn = some true)
    {last : Instant} (hlast : last ∈ pacer.lastStartedAt) (hasked : last ≤ attempt.turn.asked) :
    last + streamRangeRequestSpacing ≤ attempt.turn.started := by
  unfold sleepForSpacing at hslept
  rw [Option.mem_def.1 hlast] at hslept
  dsimp only at hslept
  split at hslept
  · obtain ⟨look, hlook, hpassed⟩ := exists_look_of_slept hslept
    exact (add_le_of_slept hasked h.sleeps hpassed).trans (h.asleep look hlook).2
  · rename_i hlong
    exact (add_le_of_waited hasked hlong).trans h.started

/-- A request is made only if the last one was long enough ago, and is noted. -/
theorem StreamRequestPacer.waitForTurn_cases {pacer : StreamRequestPacer} {attempt : Attempt α}
    (h : attempt.Ordered) (hlast : ∀ last ∈ pacer.lastStartedAt, last ≤ attempt.turn.asked) :
    pacer.waitForTurn attempt.turn = (none, pacer) ∨
    pacer.waitForTurn attempt.turn = (some false, pacer) ∨
    (pacer.waitForTurn attempt.turn = (some true, ⟨some attempt.turn.started⟩) ∧
      ∀ last ∈ pacer.lastStartedAt,
        last + streamRangeRequestSpacing ≤ attempt.turn.started) := by
  have hspaced := fun hslept (last : Instant) (hmem : last ∈ pacer.lastStartedAt) =>
    pacer.spaced_of_slept h hslept hmem (hlast last hmem)
  unfold waitForTurn
  cases hslept : pacer.sleepForSpacing attempt.turn with
  | none => exact .inl rfl
  | some slept =>
    cases slept with
    | false => exact .inr (.inl rfl)
    | true =>
      dsimp only
      split
      · exact .inr (.inl rfl)
      · exact .inr (.inr ⟨rfl, hspaced hslept⟩)

/-- A delay is given only before the last request. -/
theorem lt_of_mediaRangeRetryDelay {error : MediaRangeError} {attempt : Nat} {delay : Instant}
    (h : mediaRangeRetryDelay error attempt = some delay) :
    attempt + 1 < mediaRangeFetchAttempts := by
  have hlast : ∀ {delay delay' : Instant},
      (if attempt + 1 < mediaRangeFetchAttempts then some delay' else none) = some delay →
        attempt + 1 < mediaRangeFetchAttempts := by
    intro delay delay' hdelay
    split at hdelay
    · assumption
    · cases hdelay
  unfold mediaRangeRetryDelay at h
  cases hstatus : error.status with
  | some status =>
    rw [hstatus] at h
    dsimp only at h
    split at h
    · split at h
      · rename_i hfirst
        rw [hfirst]
        decide
      · cases h
    · split at h
      · exact hlast h
      · cases h
  | none =>
    rw [hstatus] at h
    cases error with
    | request range source => exact hlast h
    | read range source => exact hlast h
    | httpStatus range status => cases h
    | unsupportedRange range => cases h
    | unexpectedLength range actual expected => cases h

/-- The readings of the clock during some requests. -/
def readingsOf (attempts : List (Attempt α)) : List Instant := attempts.flatMap Attempt.readings

/-- What is right about the requests that are made, with some before them. -/
structure FetchResult.Paced (result : FetchResult β) (pacer : StreamRequestPacer) (attempt : Nat)
    (readings : List Instant) : Prop where
  /-- They keep the distance to each other and to the last one before them. -/
  spaced : Spaced streamRangeRequestSpacing
    (pacer.lastStartedAt.toList ++ result.sent.map SentRequest.started)
  /-- The pacer knows the last one. -/
  last : result.pacer.lastStartedAt =
    (pacer.lastStartedAt.toList ++ result.sent.map SentRequest.started).getLast?
  /-- They are made while the request lasts. -/
  times : ∀ sent ∈ result.sent, sent.started ∈ readings
  /-- There are no more than there may be. -/
  few : attempt < mediaRangeFetchAttempts →
    attempt + result.sent.length ≤ mediaRangeFetchAttempts
  /-- Between two of them is the delay for the error of the first. -/
  delayed : ∀ i earlier later, result.sent[i]? = some earlier →
    result.sent[i + 1]? = some later → ∃ error delay, earlier.error = some error ∧
      mediaRangeRetryDelay error (attempt + i) = some delay ∧
      earlier.started + delay ≤ later.started

/-- No request. -/
theorem FetchResult.paced_nil {result : FetchResult β} {pacer : StreamRequestPacer}
    {attempt : Nat} {readings : List Instant} (hsent : result.sent = [])
    (hpacer : result.pacer = pacer) : result.Paced pacer attempt readings := by
  constructor
  · rw [hsent]
    cases pacer.lastStartedAt with
    | none => exact .nil
    | some last => exact .cons (by simp) .nil
  · rw [hsent, hpacer]
    cases pacer.lastStartedAt with
    | none => rfl
    | some last => rfl
  · simp [hsent]
  · intro hattempt
    rw [hsent]
    exact hattempt.le
  · simp [hsent]

/-- One request, the last one. -/
theorem FetchResult.paced_singleton {result : FetchResult β} {pacer : StreamRequestPacer}
    {attempt : Nat} {readings : List Instant} {sent : SentRequest} (hsent : result.sent = [sent])
    (hpacer : result.pacer = ⟨some sent.started⟩) (hmem : sent.started ∈ readings)
    (hspaced : ∀ last ∈ pacer.lastStartedAt, last + streamRangeRequestSpacing ≤ sent.started) :
    result.Paced pacer attempt readings := by
  constructor
  · rw [hsent]
    cases hlast : pacer.lastStartedAt with
    | none => exact .cons (by simp) .nil
    | some last =>
      have hlong := hspaced last hlast
      exact .cons (by simpa using hlong) (.cons (by simp) .nil)
  · rw [hsent, hpacer]
    exact (List.getLast?_concat ..).symm
  · rw [hsent]
    exact List.forall_mem_singleton.2 hmem
  · intro hattempt
    rw [hsent]
    exact hattempt
  · simp [hsent]

/-- A request before others, which are made when the delay is over. -/
theorem FetchResult.Paced.cons {result later : FetchResult β} {pacer : StreamRequestPacer}
    {attempt : Nat} {readings rest : List Instant} {sent : SentRequest}
    (h : later.Paced ⟨some sent.started⟩ (attempt + 1) rest)
    (hsent : result.sent = sent :: later.sent) (hpacer : result.pacer = later.pacer)
    (hmem : sent.started ∈ readings) (hrest : rest ⊆ readings)
    (hspaced : ∀ last ∈ pacer.lastStartedAt, last + streamRangeRequestSpacing ≤ sent.started)
    {error : MediaRangeError} {delay : Instant} (herror : sent.error = some error)
    (hdelay : mediaRangeRetryDelay error attempt = some delay)
    (hwaited : ∀ time ∈ rest, sent.started + delay ≤ time) :
    result.Paced pacer attempt readings := by
  constructor
  · rw [hsent, List.map_cons]
    have hbefore : Spaced streamRangeRequestSpacing
        (pacer.lastStartedAt.toList ++ [sent.started]) := by
      cases hlast : pacer.lastStartedAt with
      | none => exact .cons (by simp) .nil
      | some last =>
        have hlong := hspaced last hlast
        exact .cons (by simpa using hlong) (.cons (by simp) .nil)
    have hafter : Spaced streamRangeRequestSpacing
        ((pacer.lastStartedAt.toList ++ [sent.started]) ++
          later.sent.map SentRequest.started) := by
      refine hbefore.append ?_
      rw [List.getLast?_concat]
      exact h.spaced
    rwa [List.append_assoc] at hafter
  · rw [hsent, hpacer, h.last, List.map_cons,
      List.getLast?_append_of_ne_nil _ (List.cons_ne_nil _ _)]
    rfl
  · rw [hsent]
    exact List.forall_mem_cons.2 ⟨hmem, fun other hother => hrest (h.times other hother)⟩
  · intro _
    have hfew := h.few (lt_of_mediaRangeRetryDelay hdelay)
    rw [hsent, List.length_cons]
    omega
  · intro i first second hfirst hsecond
    rw [hsent] at hfirst hsecond
    cases i with
    | zero =>
      obtain rfl := Option.some.inj hfirst
      have hmem : second ∈ later.sent := List.mem_of_getElem? hsecond
      exact ⟨error, delay, herror, hdelay, hwaited _ (h.times second hmem)⟩
    | succ i =>
      obtain ⟨error', delay', herror', hdelay', hlong⟩ := h.delayed i first second hfirst hsecond
      refine ⟨error', delay', herror', ?_, hlong⟩
      rwa [Nat.add_right_comm, Nat.add_assoc] at hdelay'

/-- A request that may be made again keeps the distances. -/
theorem fetchWithRetry_paced (answer : Reply α → Except MediaRangeError β)
    (context : Nat → String) (pacer : StreamRequestPacer) (attempt : Nat)
    {attempts : List (Attempt α)} (htime : (readingsOf attempts).Pairwise (· ≤ ·))
    (hlast : ∀ last ∈ pacer.lastStartedAt, ∀ time ∈ readingsOf attempts, last ≤ time) :
    (fetchWithRetry answer context pacer attempt attempts).Paced pacer attempt
      (readingsOf attempts) := by
  induction attempts generalizing pacer attempt with
  | nil => exact FetchResult.paced_nil rfl rfl
  | cons made later ih =>
    have hreadings : readingsOf (made :: later) = made.readings ++ readingsOf later :=
      List.flatMap_cons ..
    rw [hreadings] at htime hlast
    obtain ⟨hthis, hrest, hbetween⟩ := List.pairwise_append.1 htime
    have hordered := Attempt.ordered_of_readings hthis
    have hasked : made.turn.asked ∈ made.readings := by simp [Attempt.readings]
    have hstarted : made.turn.started ∈ made.readings := by simp [Attempt.readings]
    unfold fetchWithRetry
    rcases StreamRequestPacer.waitForTurn_cases hordered
      (fun last hmem => hlast last hmem _ (List.mem_append_left _ hasked)) with
      hwait | hwait | ⟨hwait, hspaced⟩
    · rw [hwait]
      exact FetchResult.paced_nil rfl rfl
    · rw [hwait]
      exact FetchResult.paced_nil rfl rfl
    · rw [hwait, hreadings]
      dsimp only
      cases hanswer : answer made.reply with
      | ok value =>
        exact FetchResult.paced_singleton rfl rfl (List.mem_append_left _ hstarted) hspaced
      | error error =>
        dsimp only
        cases hdelay : mediaRangeRetryDelay error attempt with
        | none =>
          exact FetchResult.paced_singleton rfl rfl (List.mem_append_left _ hstarted) hspaced
        | some delay =>
          dsimp only
          cases hslept : sleepStreamingDownload (made.delayed + delay) made.looks with
          | none =>
            exact FetchResult.paced_singleton rfl rfl (List.mem_append_left _ hstarted) hspaced
          | some slept =>
            cases slept with
            | false =>
              exact FetchResult.paced_singleton rfl rfl (List.mem_append_left _ hstarted) hspaced
            | true =>
              obtain ⟨look, hlook, hpassed⟩ := exists_look_of_slept hslept
              have hnow : look.now ∈ made.readings := by
                unfold Attempt.readings
                exact List.mem_append_right _ (List.mem_map_of_mem hlook)
              have hlater := ih ⟨some made.turn.started⟩ (attempt + 1) hrest ?_
              · refine hlater.cons rfl rfl (List.mem_append_left _ hstarted)
                  (List.subset_append_right _ _) hspaced rfl hdelay fun time htime => ?_
                have hdelayed := Nat.add_le_add_right hordered.delayed delay
                exact hdelayed.trans (hpassed.trans (hbetween _ hnow time htime))
              · intro last hmem time htime
                obtain rfl := Option.mem_some.1 hmem
                exact hbetween _ hstarted time htime

/-! ## All requests of a download -/

/-- What is asked for. -/
inductive StreamRequest where
  | probe
  | part (range : ByteRange)
  | full
  deriving DecidableEq, Repr

/-- Something that is asked for, as often as need be. -/
structure Exchange (α : Type u) where
  /-- What. -/
  request : StreamRequest
  /-- The requests with the waits around them. -/
  attempts : List (Attempt α)

/-- The requests that are made for it, and the pacer after them. -/
def Exchange.run (exchange : Exchange α) (pacer : StreamRequestPacer) :
    List SentRequest × StreamRequestPacer :=
  match exchange.request with
  | .probe =>
    let result := probeStreamRangeWithRetry pacer exchange.attempts
    (result.sent, result.pacer)
  | .part range =>
    let result := fetchStreamRangeWithRetry range pacer exchange.attempts
    (result.sent, result.pacer)
  | .full =>
    let result := fetchFullMediaWithRetry pacer exchange.attempts
    (result.sent, result.pacer)

/-- The requests that are made for one thing after the other. -/
def sentRequests (pacer : StreamRequestPacer) : List (Exchange α) → List (List SentRequest)
  | [] => []
  | exchange :: later => (exchange.run pacer).1 :: sentRequests (exchange.run pacer).2 later

/-- The readings of the clock meanwhile. -/
def exchangeReadings (exchanges : List (Exchange α)) : List Instant :=
  exchanges.flatMap fun exchange => readingsOf exchange.attempts

/-- Of the requests made for one thing there are at most three, and between two of them is the
delay for the error of the first. -/
def KeepsDelays (sent : List SentRequest) : Prop :=
  sent.length ≤ mediaRangeFetchAttempts ∧
    ∀ i earlier later, sent[i]? = some earlier → sent[i + 1]? = some later →
      ∃ error delay, earlier.error = some error ∧ mediaRangeRetryDelay error i = some delay ∧
        earlier.started + delay ≤ later.started

theorem FetchResult.Paced.keepsDelays {result : FetchResult β} {pacer : StreamRequestPacer}
    {readings : List Instant} (h : result.Paced pacer 0 readings) : KeepsDelays result.sent := by
  constructor
  · have hfew := h.few (by decide)
    rwa [Nat.zero_add] at hfew
  · intro i earlier later hearlier hlater
    have hdelayed := h.delayed i earlier later hearlier hlater
    rwa [Nat.zero_add] at hdelayed

/-- One thing that is asked for keeps the distances. -/
theorem Exchange.run_spec (exchange : Exchange α) (pacer : StreamRequestPacer)
    (htime : (readingsOf exchange.attempts).Pairwise (· ≤ ·))
    (hlast : ∀ last ∈ pacer.lastStartedAt, ∀ time ∈ readingsOf exchange.attempts, last ≤ time) :
    let starts := pacer.lastStartedAt.toList ++ (exchange.run pacer).1.map SentRequest.started
    Spaced streamRangeRequestSpacing starts ∧
      (exchange.run pacer).2.lastStartedAt = starts.getLast? ∧
      (∀ sent ∈ (exchange.run pacer).1, sent.started ∈ readingsOf exchange.attempts) ∧
      KeepsDelays (exchange.run pacer).1 := by
  obtain ⟨request, attempts⟩ := exchange
  cases request with
  | probe =>
    have h := fetchWithRetry_paced probeRangeSupport (fun _ => "failed to probe media range")
      pacer 0 htime hlast
    exact ⟨h.spaced, h.last, h.times, h.keepsDelays⟩
  | part range =>
    have h := fetchWithRetry_paced (fetchRangeBytes range) (fun count =>
      "failed to read media range " ++ range.headerValue ++ " after " ++ toString count ++
        " attempt(s)") pacer 0 htime hlast
    exact ⟨h.spaced, h.last, h.times, h.keepsDelays⟩
  | full =>
    have h := fetchWithRetry_paced fetchFullMediaBytes (fun _ => "failed to download full media")
      pacer 0 htime hlast
    exact ⟨h.spaced, h.last, h.times, h.keepsDelays⟩

/-- So do several, one after the other. -/
theorem sentRequests_spec (pacer : StreamRequestPacer) {exchanges : List (Exchange α)}
    (htime : (exchangeReadings exchanges).Pairwise (· ≤ ·))
    (hlast : ∀ last ∈ pacer.lastStartedAt, ∀ time ∈ exchangeReadings exchanges, last ≤ time) :
    Spaced streamRangeRequestSpacing (pacer.lastStartedAt.toList ++
      (sentRequests pacer exchanges).flatten.map SentRequest.started) ∧
    ∀ sent ∈ sentRequests pacer exchanges, KeepsDelays sent := by
  induction exchanges generalizing pacer with
  | nil =>
    refine ⟨?_, by simp [sentRequests]⟩
    cases pacer.lastStartedAt with
    | none => exact .nil
    | some last => exact .cons (by simp [sentRequests]) .nil
  | cons exchange exchanges ih =>
    have hreadings : exchangeReadings (exchange :: exchanges) =
        readingsOf exchange.attempts ++ exchangeReadings exchanges := List.flatMap_cons ..
    rw [hreadings] at htime hlast
    obtain ⟨hthis, hrest, hbetween⟩ := List.pairwise_append.1 htime
    obtain ⟨hspaced, hpacer, htimes, hdelays⟩ := exchange.run_spec pacer hthis
      fun last hmem time htime => hlast last hmem time (List.mem_append_left _ htime)
    have hpast : ∀ last ∈ (exchange.run pacer).2.lastStartedAt,
        ∀ time ∈ exchangeReadings exchanges, last ≤ time := by
      intro last hmem time htime
      rw [hpacer] at hmem
      rcases List.mem_append.1 (List.mem_of_getLast? hmem) with hbefore | hsent
      · exact hlast last (Option.mem_toList.1 hbefore) time (List.mem_append_right _ htime)
      · obtain ⟨sent, hmade, rfl⟩ := List.mem_map.1 hsent
        exact hbetween _ (htimes sent hmade) time htime
    obtain ⟨hlater, hothers⟩ := ih (exchange.run pacer).2 hrest hpast
    refine ⟨?_, List.forall_mem_cons.2 ⟨hdelays, hothers⟩⟩
    rw [sentRequests, List.flatten_cons, List.map_append, ← List.append_assoc]
    refine hspaced.append ?_
    rwa [← hpacer]

/-- Whatever is asked for, whatever the replies, and whenever the stream is given up: as long as the
clock does not go back, any two requests of a download are three quarters of a second apart, for
each thing there are at most three, and between two of these is the delay for the error of the
first. -/
theorem requests_paced {exchanges : List (Exchange α)}
    (htime : (exchangeReadings exchanges).Pairwise (· ≤ ·)) :
    Spaced streamRangeRequestSpacing
      ((sentRequests ⟨none⟩ exchanges).flatten.map SentRequest.started) ∧
    ∀ sent ∈ sentRequests ⟨none⟩ exchanges, KeepsDelays sent :=
  sentRequests_spec ⟨none⟩ htime (by simp)

/-- A server that wants to be left alone at first, and then tells the length of the file. -/
def throttled : List (Exchange Nat) := [{
  request := .probe
  attempts := [
    { turn := ⟨0, 0, [], false, 0⟩
      reply := .ok ⟨⟨429, "429 Too Many Requests"⟩, .ofTexts [], .ok []⟩
      delayed := millis 1000
      looks := [⟨false, millis 1250⟩, ⟨false, millis 11000⟩] },
    { turn := ⟨millis 11000, millis 11000, [], false, millis 11000⟩
      reply := .ok ⟨⟨206, "206 Partial Content"⟩,
        .ofTexts [("content-range", "bytes 0-0/4")], .ok [10]⟩
      delayed := millis 11000
      looks := [] }] }]

/-- The requests to that server keep their distance. -/
theorem requests_paced_throttled :
    Spaced streamRangeRequestSpacing
      ((sentRequests ⟨none⟩ throttled).flatten.map SentRequest.started) ∧
    ∀ sent ∈ sentRequests ⟨none⟩ throttled, KeepsDelays sent :=
  requests_paced (by decide)

/-- It is asked again after ten seconds. -/
example : (sentRequests ⟨none⟩ throttled).map (List.map SentRequest.started) =
    [[0, millis 11000]] := by decide

end LightEar
