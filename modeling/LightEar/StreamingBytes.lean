import LightEar.MediaRanges

/-!
# The downloaded bytes of a stream

The downloader appends chunks of the media file and drops those that are neither near the playback
nor pinned; the decoder reads single offsets.  A read of an offset that no chunk holds queues the
chunk's start and waits.

Beside the chunks there is an index of the bytes that they hold (`IsIndexed`).  Appending a chunk
adds its bytes, and retaining a window removes the bytes of exactly the chunks that are dropped.
-/

namespace LightEar

open Foundation

universe u

variable {α : Type u}

/-- How many requests may wait. -/
def streamMaxPendingOffsets : Nat := 6

/-- A part of the file. -/
structure StreamingByteChunk (α : Type u) where
  /-- Where it lies in the file. -/
  range : ByteRange
  /-- The bytes. -/
  bytes : List α
  deriving DecidableEq, Repr

/-- What downloader, decoder and player share. -/
structure StreamingBytesState (α : Type u) where
  /-- What is kept of the file, by where it starts. -/
  chunks : List (StreamingByteChunk α)
  /-- The length of the file, once it is known. -/
  totalBytes : Option Nat
  /-- Whether the stream has been given up. -/
  canceled : Bool
  /-- Why the download has failed. -/
  error : Option String
  /-- The bytes that the chunks hold. -/
  ranges : RangeIndex
  /-- What is not dropped. -/
  pinnedRanges : List ByteRange
  /-- The chunks that are waited for, by where they start. -/
  requestedOffsets : List Nat
  deriving DecidableEq, Repr

/-- What one look of a read ends with. -/
inductive ReadOutcome (α : Type u) where
  | read (bytes : List α)
  | interrupted
  | failed (error : String)
  | waits
  deriving DecidableEq, Repr

/-! ## Requests -/

/-- The start of the chunk to ask for. -/
def normalizedStreamRequestOffset (offset : Nat) (totalBytes : Option Nat) : Nat :=
  alignStreamOffset (totalBytes.elim offset fun total => min offset (total - 1))

/-- Adds a request: an urgent one in front, any other at the end unless it waits already. -/
def queueRequestedOffset (queue : List Nat) (offset : Nat) (priority : Bool) : List Nat :=
  if !priority && queue.contains offset then queue
  else
    let others := queue.filter (· ≠ offset)
    (if priority then offset :: others else others ++ [offset]).take streamMaxPendingOffsets

/-- The first request whose chunk is not there, and the requests after it. -/
def takeUncovered (ranges : RangeIndex) (total : Nat) : List Nat → Option Nat × List Nat
  | [] => (none, [])
  | offset :: queue =>
    let offset := normalizedStreamRequestOffset offset (some total)
    if ranges.contains offset then takeUncovered ranges total queue else (some offset, queue)

/-- The first offset from a place on that is not in any of the ranges. -/
def firstMissingFrom (cursor last : Nat) : List ByteRange → Option Nat
  | [] => if cursor ≤ last then some cursor else none
  | cached :: ranges =>
    if cached.endInclusive < cursor then firstMissingFrom cursor last ranges
    else if cursor < cached.start then some cursor
    else
      let cursor := satAdd cached.endInclusive 1
      if last < cursor then none else firstMissingFrom cursor last ranges

namespace StreamingBytesState

/-- Nothing downloaded yet. -/
def new : StreamingBytesState α where
  chunks := []
  totalBytes := none
  canceled := false
  error := none
  ranges := .empty
  pinnedRanges := []
  requestedOffsets := []

/-! ## The downloader -/

/-- Notes the length of the file. -/
def setTotal (s : StreamingBytesState α) (total : Option Nat) : StreamingBytesState α :=
  { s with totalBytes := total }

/-- Adds a chunk, unless it is there, and forgets the requests for what is there. -/
def append (s : StreamingBytesState α) (bytes : List α) (range : ByteRange) :
    StreamingBytesState α :=
  let chunk : StreamingByteChunk α := { range, bytes }
  let s :=
    if !bytes.isEmpty && !s.ranges.covers range then
      { s with
        chunks := (s.chunks ++ [chunk]).insertionSort
          fun left right => left.range.start ≤ right.range.start
        ranges := s.ranges.insert range }
    else s
  { s with requestedOffsets := s.requestedOffsets.filter fun offset => !s.ranges.contains offset }

/-- Keeps ranges from being dropped. -/
def pinRanges (s : StreamingBytesState α) (ranges : List ByteRange) : StreamingBytesState α :=
  { s with pinnedRanges := ranges.foldl pushUniqueStreamRange s.pinnedRanges }

/-- Whether a chunk meets a window or a pinned range. -/
def Retains (s : StreamingBytesState α) (window range : ByteRange) : Prop :=
  range.Overlaps window ∨ ∃ pinned ∈ s.pinnedRanges, range.Overlaps pinned

instance (s : StreamingBytesState α) (window range : ByteRange) :
    Decidable (s.Retains window range) :=
  inferInstanceAs (Decidable (_ ∨ _))

/-- Drops the chunks outside a window. -/
def retainWindow (s : StreamingBytesState α) (retainStart retainEnd : Nat) :
    StreamingBytesState α :=
  let window : ByteRange := { start := retainStart, endInclusive := max retainEnd retainStart }
  let chunks := s.chunks.filter fun chunk => decide (s.Retains window chunk.range)
  { s with
    chunks
    ranges := chunks.foldl (fun ranges chunk => ranges.insert chunk.range) .empty }

/-- Notes a failure of the download. -/
def fail (s : StreamingBytesState α) (error : String) : StreamingBytesState α :=
  { s with error := some error }

/-- Takes the next request for a chunk that is not there. -/
def takeRequestedOffset (s : StreamingBytesState α) (total : Nat) :
    Option Nat × StreamingBytesState α :=
  let (offset, queue) := takeUncovered s.ranges total s.requestedOffsets
  (offset, { s with requestedOffsets := queue })

/-- Whether a range is there. -/
def covers (s : StreamingBytesState α) (range : ByteRange) : Bool := s.ranges.covers range

/-- The first byte of a range that is not there. -/
def firstMissingOffset (s : StreamingBytesState α) (range : ByteRange) : Option Nat :=
  firstMissingFrom range.start range.endInclusive s.ranges.ranges

/-! ## Decoder and player -/

/-- Gives the stream up. -/
def cancel (s : StreamingBytesState α) : StreamingBytesState α := { s with canceled := true }

/-- Asks for the chunk of an offset, unless it is there. -/
def ask (s : StreamingBytesState α) (offset : Nat) (priority : Bool) : StreamingBytesState α :=
  let offset := normalizedStreamRequestOffset offset s.totalBytes
  if s.ranges.contains offset then s
  else { s with requestedOffsets := queueRequestedOffset s.requestedOffsets offset priority }

/-- Asks for the chunk of an offset after the others. -/
def requestOffset (s : StreamingBytesState α) (offset : Nat) : StreamingBytesState α :=
  s.ask offset false

/-- Asks for the chunk of an offset before the others. -/
def prioritizeOffset (s : StreamingBytesState α) (offset : Nat) : StreamingBytesState α :=
  s.ask offset true

/-- One look of a read at an offset: it ends, or it asks for the chunk and waits. -/
def readAt (s : StreamingBytesState α) (offset len : Nat) (decoderCanceled : Bool) :
    ReadOutcome α × StreamingBytesState α :=
  if len = 0 then (.read [], s)
  else if s.canceled || decoderCanceled then (.interrupted, s)
  else
    match s.error with
    | some error => (.failed error, s)
    | none =>
      if s.totalBytes.any fun total => decide (total ≤ offset) then (.read [], s)
      else
        match s.chunks.find? fun chunk => decide (chunk.range.Contains offset) with
        | some chunk => (.read ((chunk.bytes.drop (offset - chunk.range.start)).take len), s)
        | none =>
          let offset := normalizedStreamRequestOffset offset s.totalBytes
          (.waits,
            { s with requestedOffsets := queueRequestedOffset s.requestedOffsets offset false })

end StreamingBytesState

/-! ## Requests change nothing else -/

/-- For an offset of the file the start of its chunk is asked for. -/
theorem normalizedStreamRequestOffset_of_lt {offset total : Nat} (h : offset < total) :
    normalizedStreamRequestOffset offset (some total) = alignStreamOffset offset :=
  congrArg alignStreamOffset (Nat.min_eq_left (Nat.le_pred_of_lt h))

namespace StreamingBytesState

/-- Asking for a chunk changes no more than the requests. -/
theorem ask_eq (s : StreamingBytesState α) (offset : Nat) (priority : Bool) :
    ∃ queue, s.ask offset priority = { s with requestedOffsets := queue } := by
  unfold ask
  dsimp only
  split
  · exact ⟨_, rfl⟩
  · exact ⟨_, rfl⟩

/-- So does a look of a read. -/
theorem readAt_eq (s : StreamingBytesState α) (offset len : Nat) (decoderCanceled : Bool) :
    ∃ queue, (s.readAt offset len decoderCanceled).2 = { s with requestedOffsets := queue } := by
  unfold readAt
  split
  · exact ⟨_, rfl⟩
  · split
    · exact ⟨_, rfl⟩
    · split
      · exact ⟨_, rfl⟩
      · split
        · exact ⟨_, rfl⟩
        · split
          · exact ⟨_, rfl⟩
          · exact ⟨_, rfl⟩

/-- And asking for several. -/
theorem foldl_requestOffset_eq (s : StreamingBytesState α) (ranges : List ByteRange) :
    ∃ queue, ranges.foldl (fun shared range => shared.requestOffset range.start) s =
      { s with requestedOffsets := queue } := by
  induction ranges generalizing s with
  | nil => exact ⟨_, rfl⟩
  | cons range ranges ih =>
    obtain ⟨queue, hqueue⟩ := s.ask_eq range.start false
    obtain ⟨rest, hrest⟩ := ih { s with requestedOffsets := queue }
    refine ⟨rest, ?_⟩
    rw [List.foldl_cons, requestOffset, hqueue, hrest]

end StreamingBytesState

/-! ## The index of the bytes -/

namespace StreamingBytesState

/-- The index says which bytes the chunks hold. -/
def IsIndexed (s : StreamingBytesState α) : Prop :=
  ∀ offset, s.ranges.contains offset = true ↔ ∃ chunk ∈ s.chunks, chunk.range.Contains offset

theorem isIndexed_new : (new : StreamingBytesState α).IsIndexed := fun offset => by
  simp [new]

/-- The index that is built from chunks says what they hold. -/
theorem contains_foldl_insert (chunks : List (StreamingByteChunk α)) (ranges : RangeIndex)
    (offset : Nat) :
    (chunks.foldl (fun ranges chunk => ranges.insert chunk.range) ranges).contains offset = true ↔
      ranges.contains offset = true ∨ ∃ chunk ∈ chunks, chunk.range.Contains offset := by
  induction chunks generalizing ranges with
  | nil => simp
  | cons chunk chunks ih =>
    rw [List.foldl_cons, ih, RangeIndex.contains_insert, or_assoc]
    simp only [List.mem_cons, exists_eq_or_imp]

/-- After a window has been retained the index is that of the chunks left. -/
theorem isIndexed_retainWindow (s : StreamingBytesState α) (retainStart retainEnd : Nat) :
    (s.retainWindow retainStart retainEnd).IsIndexed := fun offset => by
  unfold retainWindow
  dsimp only
  rw [contains_foldl_insert]
  simp

/-- The chunks that are left are those that meet the window or a pinned range. -/
theorem mem_retainWindow {s : StreamingBytesState α} {retainStart retainEnd : Nat}
    {chunk : StreamingByteChunk α} :
    chunk ∈ (s.retainWindow retainStart retainEnd).chunks ↔ chunk ∈ s.chunks ∧
      s.Retains { start := retainStart, endInclusive := max retainEnd retainStart }
        chunk.range := by
  simp [retainWindow]

/-- A chunk that is not covered is added. -/
theorem mem_append {s : StreamingBytesState α} {bytes : List α} {range : ByteRange}
    (hbytes : bytes ≠ []) (hranges : s.ranges.covers range = false)
    {chunk : StreamingByteChunk α} :
    chunk ∈ (s.append bytes range).chunks ↔ chunk ∈ s.chunks ∨ chunk = ⟨range, bytes⟩ := by
  simp [append, hbytes, hranges]

/-- Chunks are added only. -/
theorem mem_or_eq_of_mem_append {s : StreamingBytesState α} {bytes : List α} {range : ByteRange}
    {chunk : StreamingByteChunk α} (h : chunk ∈ (s.append bytes range).chunks) :
    chunk ∈ s.chunks ∨ chunk = ⟨range, bytes⟩ := by
  unfold append at h
  split_ifs at h
  · simpa using h
  · exact .inl h

/-- Appending keeps the index. -/
theorem IsIndexed.append {s : StreamingBytesState α} (h : s.IsIndexed) (bytes : List α)
    (range : ByteRange) : (s.append bytes range).IsIndexed := fun offset => by
  unfold StreamingBytesState.append
  split
  · simp only [RangeIndex.contains_insert, h offset, List.mem_insertionSort, List.mem_append,
      List.mem_singleton, or_and_right, exists_or, exists_eq_left]
  · exact h offset

/-- A request that is taken is for a chunk that is not there. -/
theorem takeUncovered_eq_some {ranges : RangeIndex} {total offset : Nat} {queue : List Nat}
    (h : (takeUncovered ranges total queue).1 = some offset) :
    ranges.contains offset = false := by
  induction queue with
  | nil => simp [takeUncovered] at h
  | cons first queue ih =>
    unfold takeUncovered at h
    dsimp only at h
    split at h
    · exact ih h
    · rename_i hcontains
      obtain rfl := Option.some.inj h
      simpa using hcontains

/-- Taking a request changes no more than the requests. -/
theorem takeRequestedOffset_eq (s : StreamingBytesState α) (total : Nat) :
    s.takeRequestedOffset total = ((takeUncovered s.ranges total s.requestedOffsets).1,
      { s with requestedOffsets := (takeUncovered s.ranges total s.requestedOffsets).2 }) :=
  rfl

end StreamingBytesState

end LightEar
