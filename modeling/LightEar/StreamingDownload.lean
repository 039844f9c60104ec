import LightEar.Backend.Playback
import LightEar.StreamingBytes

/-!
# Downloading a stream

The downloader probes the length of the file, then goes round a loop: it drops what is not near
the playback, takes a request of the decoder or else the first byte missing ahead of the playback,
fetches the chunk, and drops again what is not near the playback.  Decoder and player may act
between any two of these steps.

A run is any list of actions of the three.  What is not due in a phase does nothing.
-/

namespace LightEar

open Foundation

universe u

variable {α : Type u}

/-- What is downloaded, and for what. -/
structure DownloadJob where
  /-- The operation that waits for it, if any. -/
  operationId : Option String
  /-- The session. -/
  sessionId : String
  /-- The track. -/
  track : StreamedTrack
  /-- The position from which it is to be played. -/
  positionMs : Nat

/-- Where the downloader stands. -/
inductive DownloadPhase where
  | probing
  | fetchingMedia (total : Nat)
  | looping (total : Nat)
  | choosing (total positionMs : Nat)
  | fetching (total : Nat) (range : ByteRange)
  | appended (total : Nat)
  | returned
  deriving DecidableEq, Repr

/-- The downloader and what it shares. -/
structure DownloadState (α : Type u) where
  /-- The bytes. -/
  shared : StreamingBytesState α
  /-- Where the downloader stands. -/
  phase : DownloadPhase
  /-- Whether enough had been downloaded ahead. -/
  prefetchPaused : Bool
  /-- The reports so far. -/
  events : List AudioPlayerEvent

/-- What downloader, decoder and player do.  An answer is what the last attempt to fetch has
brought and, if bytes, what has been written to the cache. -/
inductive DownloadAction (α : Type u) where
  | probed (answer : Except String (Option UInt64))
  | mediaFetched (answer : Except String (List α))
  | looks (positionMs : Nat)
  | chooses
  | fetched (answer : Except String (List α))
  | retains (positionMs : Nat)
  | reads (offset len : Nat) (decoderCanceled : Bool)
  | restarts (positionMs : Nat)
  | cancels

/-- Drops what is not near the playback. -/
def retainStreamingByteWindow (shared : StreamingBytesState α)
    (positionMs durationMs totalBytes : Nat) : StreamingBytesState α :=
  if totalBytes = 0 then shared
  else
    let anchor := streamByteOffsetForPosition positionMs durationMs totalBytes
    let target := streamByteRangeForWindow positionMs streamBufferTargetMs durationMs totalBytes
    shared.retainWindow (anchor - streamByteRetainBehindBytes)
      (min (satAdd target.endInclusive streamChunkBytes) (totalBytes - 1))

namespace DownloadState

/-- The download ends with an error, which is noted and reported unless the stream has been given
up. -/
def fails (job : DownloadJob) (s : DownloadState α) (error : String) : DownloadState α :=
  if s.shared.canceled then { s with phase := .returned }
  else
    { s with
      shared := s.shared.fail error
      phase := .returned
      events := s.events ++
        [.failed job.operationId job.sessionId job.track.trackId error] }

/-- The loop is entered, with the place of the requested position first. -/
def entersLoop (job : DownloadJob) (s : DownloadState α) (total : Nat) : DownloadState α :=
  let initialWindow := streamByteRangeForWindow job.positionMs streamBufferTargetMs
    job.track.durationMs total
  { s with
    shared := s.shared.prioritizeOffset initialWindow.start
    phase := .looping total
    prefetchPaused := false }

/-- The length of the file is known. -/
def probed (job : DownloadJob) (s : DownloadState α) (total : Nat) : DownloadState α :=
  let s := { s with shared := s.shared.setTotal (some total) }
  let metadata := metadataRanges job.track total
  if shouldFullFetchMissingMetadata metadata total then { s with phase := .fetchingMedia total }
  else
    match streamMetadataPrefetchRanges metadata total with
    | .error error => s.fails job error
    | .ok prefetchRanges =>
      let shared := prefetchRanges.foldl (fun shared range => shared.requestOffset range.start)
        (s.shared.pinRanges prefetchRanges)
      { s with shared }.entersLoop job total

/-- The probe has been answered. -/
def probeAnswered (job : DownloadJob) (s : DownloadState α) :
    Except String (Option UInt64) → DownloadState α
  | .ok (some total) => s.probed job total.toNat
  | .ok none => s.fails job "media range probe did not report total length"
  | .error error => s.fails job error

/-- The whole file has come. -/
def mediaFetched (job : DownloadJob) (s : DownloadState α) (total : Nat) (bytes : List α) :
    DownloadState α :=
  if bytes.length ≠ total then
    s.fails job ("full media download returned " ++ toString bytes.length ++
      " bytes, expected " ++ toString total)
  else
    match ByteRange.new 0 (total - 1) with
    | .error error => s.fails job error
    | .ok fullRange =>
      { s with shared := (s.shared.pinRanges [fullRange]).append bytes fullRange }.entersLoop
        job total

/-- The loop starts again, unless the stream has been given up. -/
def looks (job : DownloadJob) (s : DownloadState α) (total positionMs : Nat) : DownloadState α :=
  if s.shared.canceled then { s with phase := .returned }
  else
    let currentPositionMs := min positionMs job.track.durationMs
    { s with
      shared := retainStreamingByteWindow s.shared currentPositionMs job.track.durationMs total
      phase := .choosing total currentPositionMs }

/-- A range is fetched, unless it is there. -/
def fetchesRange (job : DownloadJob) (s : DownloadState α) (total : Nat) :
    Except String ByteRange → DownloadState α
  | .error error => s.fails job error
  | .ok range =>
    { s with phase := if s.shared.covers range then .looping total else .fetching total range }

/-- The chunk of a place is fetched. -/
def fetches (job : DownloadJob) (s : DownloadState α) (total start : Nat) : DownloadState α :=
  s.fetchesRange job total (streamFetchRange start total)

/-- A request is taken, or else the first byte that is missing ahead of the playback. -/
def chooses (job : DownloadJob) (s : DownloadState α) (total currentPositionMs : Nat) :
    DownloadState α :=
  let targetWindow := streamByteRangeForWindow currentPositionMs streamBufferTargetMs
    job.track.durationMs total
  let resumeWindow := streamByteRangeForWindow currentPositionMs streamBufferResumeMs
    job.track.durationMs total
  match s.shared.takeRequestedOffset total with
  | (some requested, shared) =>
    { s with shared, prefetchPaused := false }.fetches job total (min requested (total - 1))
  | (none, shared) =>
    let s := { s with shared }
    if s.prefetchPaused && s.shared.covers resumeWindow then { s with phase := .looping total }
    else if s.shared.covers targetWindow then
      { s with phase := .looping total, prefetchPaused := true }
    else
      match s.shared.firstMissingOffset targetWindow with
      | none => { s with phase := .looping total, prefetchPaused := false }
      | some missing =>
        { s with prefetchPaused := false }.fetches job total (min missing (total - 1))

/-- A chunk has come. -/
def fetched (s : DownloadState α) (total : Nat) (range : ByteRange) (bytes : List α) :
    DownloadState α :=
  { s with shared := s.shared.append bytes range, phase := .appended total }

/-- What is not near the playback is dropped again. -/
def retains (job : DownloadJob) (s : DownloadState α) (total positionMs : Nat) :
    DownloadState α :=
  { s with
    shared := retainStreamingByteWindow s.shared (min positionMs job.track.durationMs)
      job.track.durationMs total
    phase := .looping total }

/-- The player has a new decoder start at a position. -/
def restarts (job : DownloadJob) (s : DownloadState α) (positionMs : Nat) : DownloadState α :=
  match s.shared.totalBytes with
  | none => s
  | some total =>
    let seekWindow := rangeForWindow positionMs job.track.durationMs total
    { s with shared := s.shared.prioritizeOffset seekWindow.start }

/-- Before the probe. -/
def new : DownloadState α where
  shared := .new
  phase := .probing
  prefetchPaused := false
  events := []

/-- One action.  What is not due in a phase does nothing. -/
def step (job : DownloadJob) (s : DownloadState α) : DownloadAction α → DownloadState α
  | .probed answer =>
    match s.phase with
    | .probing => s.probeAnswered job answer
    | _ => s
  | .mediaFetched answer =>
    match s.phase, answer with
    | .fetchingMedia total, .ok bytes => s.mediaFetched job total bytes
    | .fetchingMedia _, .error error => s.fails job error
    | _, _ => s
  | .looks positionMs =>
    match s.phase with
    | .looping total => s.looks job total positionMs
    | _ => s
  | .chooses =>
    match s.phase with
    | .choosing total currentPositionMs => s.chooses job total currentPositionMs
    | _ => s
  | .fetched answer =>
    match s.phase, answer with
    | .fetching total range, .ok bytes =>
      -- bytes of another length than asked for are an error of the attempt
      if bytes.length = range.len then s.fetched total range bytes else s
    | .fetching _ _, .error error => s.fails job error
    | _, _ => s
  | .retains positionMs =>
    match s.phase with
    | .appended total => s.retains job total positionMs
    | _ => s
  | .reads offset len decoderCanceled =>
    { s with shared := (s.shared.readAt offset len decoderCanceled).2 }
  | .restarts positionMs => s.restarts job positionMs
  | .cancels => { s with shared := s.shared.cancel }

/-- A run. -/
def run (job : DownloadJob) (s : DownloadState α) (actions : List (DownloadAction α)) :
    DownloadState α :=
  actions.foldl (step job) s

end DownloadState

end LightEar
