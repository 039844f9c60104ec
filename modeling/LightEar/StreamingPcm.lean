import LightEar.Core
import LightEar.Foundation.GuardedRun
import LightEar.Foundation.SlidingWindow
import Mathlib.Data.PNat.Basic

/-!
# Streaming playback

A decoder pushes interleaved samples into a shared buffer and drops whole frames at its front; the
player's source reads the buffer one sample at a time.  The source remembers how many samples had
been dropped when it last looked, and moves its place back by what has been dropped since.  On the
way it rounds its place down to the start of a frame.

A place is absolute when it counts from the first sample ever pushed.  A source that starts at an
absolute place reads the following samples one after the other, as long as it finds the front
moved only at the start of a frame (`Streaming.yieldsNext_iff_frameStart`).
-/

namespace LightEar

open Foundation

universe u

variable {α : Type u}

/-- A trim shorter than this is put off. -/
def streamPcmTrimGranularityMs : Nat := 1000

/-! ## The shared buffer -/

/-- The samples between the decoder and the player. -/
structure StreamingPcmState (α : Type u) where
  /-- The samples kept, interleaved by channel. -/
  samples : List α
  /-- The number of channels, once the decoder knows it. -/
  channels : Option ℕ+
  /-- The frames in a second. -/
  sampleRate : Option ℕ+
  /-- The position in the track of the first sample kept. -/
  basePositionMs : Nat
  /-- The number of samples dropped at the front. -/
  droppedSamples : Nat
  /-- Whether everything has been pushed. -/
  complete : Bool
  /-- Whether the stream has been given up. -/
  canceled : Bool
  /-- Why the stream has failed. -/
  error : Option String

/-- What a place of the buffer holds. -/
inductive PcmSample (α : Type u) where
  | ready (sample : α)
  | waiting
  | finished
  | failed (error : String)
  | canceled
  deriving DecidableEq

namespace StreamingPcmState

/-- Nothing pushed yet. -/
def new : StreamingPcmState α where
  samples := []
  channels := none
  sampleRate := none
  basePositionMs := 0
  droppedSamples := 0
  complete := false
  canceled := false
  error := none

/-- Places the buffer in the track, while it is empty. -/
def setBasePosition (p : StreamingPcmState α) (positionMs : Nat) : StreamingPcmState α :=
  if p.samples.isEmpty then { p with basePositionMs := positionMs } else p

/-- Notes the format, which must not change. -/
def setSpec (p : StreamingPcmState α) (channels sampleRate : ℕ+) :
    Except String (StreamingPcmState α) :=
  match p.channels, p.sampleRate with
  | some existingChannels, some existingRate =>
    if existingChannels ≠ channels ∨ existingRate ≠ sampleRate then
      .error "audio format changed while streaming"
    else .ok { p with channels := some channels, sampleRate := some sampleRate }
  | _, _ => .ok { p with channels := some channels, sampleRate := some sampleRate }

/-- Appends decoded samples. -/
def pushSamples (p : StreamingPcmState α) (samples : List α) : StreamingPcmState α :=
  { p with samples := p.samples ++ samples }

/-- Drops the frames that lie more than some time behind a position. -/
def trimBefore (p : StreamingPcmState α) (positionMs retainBehindMs : Nat) :
    StreamingPcmState α :=
  match p.channels, p.sampleRate with
  | some channels, some sampleRate =>
    let retainFromMs := positionMs - retainBehindMs
    if retainFromMs ≤ p.basePositionMs then p
    else
      let elapsedMs := retainFromMs - p.basePositionMs
      if elapsedMs < streamPcmTrimGranularityMs then p
      else
        let availableFrames := p.samples.length / channels
        let framesToDrop := min (elapsedMs * sampleRate / 1000) availableFrames
        if framesToDrop = 0 then p
        else
          let samplesToDrop := min (framesToDrop * channels) p.samples.length
          let advancedMs := framesToDrop * 1000 / sampleRate
          { p with
            samples := p.samples.drop samplesToDrop
            droppedSamples := satAdd p.droppedSamples samplesToDrop
            basePositionMs := satAdd p.basePositionMs advancedMs }
  | _, _ => p

/-- Notes a failure of the stream. -/
def fail (p : StreamingPcmState α) (error : String) : StreamingPcmState α :=
  { p with error := some error }

/-- Notes that everything has been pushed. -/
def markComplete (p : StreamingPcmState α) : StreamingPcmState α := { p with complete := true }

/-- Gives the stream up. -/
def cancel (p : StreamingPcmState α) : StreamingPcmState α := { p with canceled := true }

/-- The format, once it is known. -/
def spec (p : StreamingPcmState α) : Option (ℕ+ × ℕ+) :=
  p.channels.bind fun channels => p.sampleRate.map fun sampleRate => (channels, sampleRate)

/-- Where the buffer begins, in the track and in samples. -/
def windowStart (p : StreamingPcmState α) : Nat × Nat := (p.basePositionMs, p.droppedSamples)

/-- The length of what is kept. -/
def durationMs (p : StreamingPcmState α) : Nat :=
  match p.spec with
  | none => 0
  | some (channels, sampleRate) =>
    min (p.samples.length * 1000) u64Max / sampleRate / channels

/-- Where in the track the buffer ends. -/
def bufferedUntilMs (p : StreamingPcmState α) : Nat := satAdd p.basePositionMs p.durationMs

/-- The part of the track that is kept. -/
def streamPcmCacheWindow (p : StreamingPcmState α) (durationMs : Nat) : Nat × Nat :=
  let bufferedFromMs := min p.basePositionMs durationMs
  (bufferedFromMs, max (min p.bufferedUntilMs durationMs) bufferedFromMs)

/-- What the buffer holds at a place.  The program blocks for a quarter of a second before it
says that the sample is still to come. -/
def sample (p : StreamingPcmState α) (index : Nat) : PcmSample α :=
  if p.canceled then .canceled
  else
    match p.error with
    | some error => .failed error
    | none =>
      match p.samples[index]? with
      | some sample => .ready sample
      | none => if p.complete then .finished else .waiting

end StreamingPcmState

/-! ## The source -/

/-- What a source reports. -/
inductive StreamingSourceEvent where
  | ended (sessionId trackId : String)
  | failed (sessionId trackId error : String)
  | buffering (sessionId trackId : String) (bufferedFromMs bufferedUntilMs : Nat)
  deriving DecidableEq, Repr

/-- A reader of the shared buffer. -/
structure StreamingPcmSource where
  /-- The place in the buffer of the next sample. -/
  pos : Nat
  /-- The number of channels. -/
  channels : ℕ+
  /-- The frames in a second. -/
  sampleRate : ℕ+
  /-- Where in the track the buffer began when the source last looked. -/
  basePositionMs : Nat
  /-- How many samples had been dropped then. -/
  droppedSamples : Nat
  /-- The position in the track that the source has reached. -/
  positionMs : Nat
  /-- The session that is played. -/
  sessionId : String
  /-- The track that is played. -/
  trackId : String
  /-- The length of the track. -/
  durationMs : Nat
  /-- When the source last reported that it waits. -/
  lastUnderrunAt : Option Instant

/-- How one look at the buffer ends: the source returns a sample or the end, or looks again. -/
inductive NextOutcome (α : Type u) where
  | returned (item : Option α)
  | again
  deriving DecidableEq

/-- The number of samples returned by one look. -/
def NextOutcome.samples : NextOutcome α → Nat
  | returned (some _) => 1
  | returned none => 0
  | again => 0

namespace StreamingPcmSource

/-- A source for a position of the track, at the start of a frame. -/
def new (shared : StreamingPcmState α) (positionMs : Nat) (channels sampleRate : ℕ+)
    (basePositionMs : Nat) (sessionId trackId : String) (durationMs : Nat) :
    StreamingPcmSource :=
  let frames := (positionMs - basePositionMs) * sampleRate / 1000
  let pos := min (frames * channels) u64Max
  { pos := pos - pos % channels
    channels, sampleRate, basePositionMs, positionMs, sessionId, trackId, durationMs
    droppedSamples := shared.droppedSamples
    lastUnderrunAt := none }

/-- Notes the position that has been reached. -/
def updatePosition (s : StreamingPcmSource) : StreamingPcmSource :=
  let frame := s.pos / s.channels
  let positionMs := frame * 1000 / s.sampleRate % 2 ^ 64
  { s with positionMs := min (satAdd s.basePositionMs positionMs) s.durationMs }

/-- Moves the place back by what has been dropped, and down to the start of a frame. -/
def syncSharedBasePosition (s : StreamingPcmSource) (shared : StreamingPcmState α) :
    StreamingPcmSource :=
  let (nextBasePositionMs, nextDroppedSamples) := shared.windowStart
  if nextDroppedSamples ≤ s.droppedSamples ∧ nextBasePositionMs ≤ s.basePositionMs then s
  else
    let pos := s.pos - (nextDroppedSamples - s.droppedSamples)
    { s with
      pos := pos - pos % s.channels
      basePositionMs := nextBasePositionMs
      droppedSamples := nextDroppedSamples }

/-- One look at the buffer: what it ends with, what is reported, and the source after it. -/
def next [Mul α] (s : StreamingPcmSource) (shared : StreamingPcmState α) (volume : α)
    (now : Instant) : NextOutcome α × List StreamingSourceEvent × StreamingPcmSource :=
  let s := s.syncSharedBasePosition shared
  match shared.sample s.pos with
  | .ready sample =>
    (.returned (some (sample * volume)), [], { s with pos := s.pos + 1 }.updatePosition)
  | .finished => (.returned none, [.ended s.sessionId s.trackId], s)
  | .failed error => (.returned none, [.failed s.sessionId s.trackId error], s)
  | .canceled => (.returned none, [], s)
  | .waiting =>
    if s.lastUnderrunAt.all fun last => now - last ≥ millis 1000 then
      let window := shared.streamPcmCacheWindow s.durationMs
      (.again, [.buffering s.sessionId s.trackId window.1 window.2],
        { s with lastUnderrunAt := some now })
    else (.again, [], s)

/-- The absolute place of the next sample. -/
def index (s : StreamingPcmSource) : Nat := s.droppedSamples + s.pos

end StreamingPcmSource

/-! ## Decoder and source together -/

/-- The buffer, the source that reads it, and what has gone through them.  The last three fields
are kept for the statements only. -/
structure Streaming (α : Type u) where
  /-- The shared buffer. -/
  shared : StreamingPcmState α
  /-- The source, once the player has one. -/
  source : Option StreamingPcmSource
  /-- Every sample pushed so far. -/
  decoded : List α
  /-- The absolute place at which the source began. -/
  first : Nat
  /-- How many samples the source has returned. -/
  returned : Nat

/-- What decoder and player do. -/
inductive StreamingAction (α : Type u) where
  | setBasePosition (positionMs : Nat)
  | setSpec (channels sampleRate : ℕ+)
  | pushSamples (samples : List α)
  | trimBefore (positionMs retainBehindMs : Nat)
  | markComplete
  | fail (error : String)
  | cancel
  | restart (positionMs : Nat) (sessionId trackId : String) (durationMs : Nat)
  | next (now : Instant)

namespace Streaming

/-- Before anything is pushed. -/
def new : Streaming α where
  shared := .new
  source := none
  decoded := []
  first := 0
  returned := 0

/-- A new source, for a position of the track. -/
def restart (s : Streaming α) (positionMs : Nat) (sessionId trackId : String)
    (durationMs : Nat) : Streaming α :=
  match s.shared.spec with
  | none => s
  | some (channels, sampleRate) =>
    let source := StreamingPcmSource.new s.shared (min positionMs durationMs) channels sampleRate
      s.shared.basePositionMs sessionId trackId durationMs
    { s with source := some source, first := source.index, returned := 0 }

/-- One look of the source, at full volume. -/
def next [MulOneClass α] (s : Streaming α) (now : Instant) : Streaming α :=
  match s.source with
  | none => s
  | some source =>
    let (outcome, _, source) := source.next s.shared 1 now
    { s with source := some source, returned := s.returned + outcome.samples }

/-- One action. -/
def step [MulOneClass α] (s : Streaming α) : StreamingAction α → Streaming α
  | .setBasePosition positionMs => { s with shared := s.shared.setBasePosition positionMs }
  | .setSpec channels sampleRate =>
    match s.shared.setSpec channels sampleRate with
    | .ok shared => { s with shared }
    | .error _ => s
  | .pushSamples samples =>
    { s with shared := s.shared.pushSamples samples, decoded := s.decoded ++ samples }
  | .trimBefore positionMs retainBehindMs =>
    { s with shared := s.shared.trimBefore positionMs retainBehindMs }
  | .markComplete => { s with shared := s.shared.markComplete }
  | .fail error => { s with shared := s.shared.fail error }
  | .cancel => { s with shared := s.shared.cancel }
  | .restart positionMs sessionId trackId durationMs =>
    s.restart positionMs sessionId trackId durationMs
  | .next now => s.next now

end Streaming

end LightEar
