import LightEar.Core
import LightEar.Foundation.Coalesce

/-!
# Byte ranges of a media file

A file is fetched in chunks that start at multiples of `streamChunkBytes`; the last one ends with
the file.  An offset lies in the chunk that it is aligned to (`contains_chunkRange_iff`), which is
the range that the player fetches for it (`streamFetchRange_eq`).

A position of a track is taken for a place of its file as if all of it took the same space.
-/

namespace LightEar

open Foundation

/-- The size of a chunk. -/
def streamChunkBytes : Nat := 2 * 1024 * 1024

/-- How far the player downloads ahead. -/
def streamBufferTargetMs : Nat := 15000 * 2

/-- How much has to be left ahead before it downloads again. -/
def streamBufferResumeMs : Nat := 15000

/-- How much of the file is kept behind the playback. -/
def streamByteRetainBehindBytes : Nat := streamChunkBytes * 4

/-- Files up to this size may be fetched at once. -/
def streamSmallFullFetchLimitBytes : Nat := 8 * 1024 * 1024

/-- `u64::saturating_mul`. -/
def satMul (a b : Nat) : Nat := min (a * b) u64Max

/-! ## Ranges -/

/-- Consecutive bytes of a file. -/
abbrev ByteRange := ClosedInterval Nat

namespace ByteRange

/-- A range that is not empty. -/
def new (start endInclusive : Nat) : Except String ByteRange :=
  if endInclusive < start then .error "invalid byte range" else .ok { start, endInclusive }

/-- The number of bytes. -/
def len (range : ByteRange) : Nat := range.endInclusive - range.start + 1

theorem eq_of_new {start endInclusive : Nat} {range : ByteRange}
    (h : new start endInclusive = .ok range) : range = { start, endInclusive } := by
  unfold new at h
  split_ifs at h
  exact (Except.ok.inj h).symm

end ByteRange

/-- The bytes that are there. -/
structure RangeIndex where
  /-- Ranges with gaps in between, sorted. -/
  ranges : List ByteRange
  deriving DecidableEq, Repr

namespace RangeIndex

/-- No bytes. -/
def empty : RangeIndex where
  ranges := []

/-- Adds a range; ranges that meet or touch are joined. -/
def insert (index : RangeIndex) (range : ByteRange) : RangeIndex where
  ranges := ClosedInterval.coalesce (fun last => satAdd last 1)
    (ClosedInterval.sortByStart (index.ranges ++ [range]))

/-- Whether all bytes of a range are there, in one piece. -/
def covers (index : RangeIndex) (range : ByteRange) : Bool :=
  index.ranges.any fun cached =>
    decide (cached.start ≤ range.start) && decide (range.endInclusive ≤ cached.endInclusive)

/-- How far the ranges of a sorted list reach from a byte on without a gap; `reached` is how far
it has come so far. -/
def contiguousFrom (cursor : Nat) (reached : Option Nat) : List ByteRange → Option Nat
  | [] => reached
  | range :: ranges =>
    if range.endInclusive < cursor then contiguousFrom cursor reached ranges
    else if cursor < range.start then reached
    else contiguousFrom (satAdd range.endInclusive 1) (some range.endInclusive) ranges

/-- The last byte of the piece that a byte is in. -/
def contiguousUntil (index : RangeIndex) (start : Nat) : Option Nat :=
  contiguousFrom start none index.ranges

/-- Whether a byte is there. -/
def contains (index : RangeIndex) (offset : Nat) : Bool :=
  index.ranges.any fun range => decide (range.Contains offset)

theorem contains_iff {index : RangeIndex} {offset : Nat} :
    index.contains offset = true ↔ ∃ range ∈ index.ranges, range.Contains offset := by
  simp [contains]

@[simp] theorem contains_empty (offset : Nat) : empty.contains offset = false := rfl

/-- Adding a range adds its bytes. -/
theorem contains_insert (index : RangeIndex) (range : ByteRange) (offset : Nat) :
    (index.insert range).contains offset = true ↔
      index.contains offset = true ∨ range.Contains offset := by
  have hnext : NothingBetween fun last => satAdd last 1 := fun x y z hy hz =>
    (hy.trans (min_le_left _ _)).trans hz
  rw [contains_iff, contains_iff, insert, ClosedInterval.mem_coalesce_sortByStart hnext]
  simp only [List.mem_append, List.mem_singleton, or_and_right, exists_or, exists_eq_left]

/-- What is there in one piece is there from its first byte on. -/
theorem contains_of_covers {index : RangeIndex} {range : ByteRange}
    (h : index.covers range = true) (hrange : range.start ≤ range.endInclusive) :
    index.contains range.start = true := by
  unfold covers at h
  obtain ⟨cached, hcached, hcovers⟩ := List.any_eq_true.1 h
  simp only [Bool.and_eq_true, decide_eq_true_eq] at hcovers
  exact contains_iff.2 ⟨cached, hcached, hcovers.1, hrange.trans hcovers.2⟩

end RangeIndex

/-! ## The metadata of a track -/

/-- A track with the ranges of its metadata, which only the player reads. -/
structure StreamedTrack extends PlaybackTrack where
  /-- The initialisation segment. -/
  mediaInitRange : Option ByteRange
  /-- The index of the segments. -/
  mediaIndexRange : Option ByteRange

/-- The part of a range that lies in the file. -/
def clampTrackRange (range : ByteRange) (totalBytes : Nat) : Option ByteRange :=
  if totalBytes = 0 ∨ totalBytes ≤ range.start then none
  else
    let clamped : ByteRange :=
      { start := range.start, endInclusive := min range.endInclusive (totalBytes - 1) }
    if clamped.start ≤ clamped.endInclusive then some clamped else none

/-- The ranges of the metadata in the file. -/
def metadataRanges (track : StreamedTrack) (totalBytes : Nat) : List ByteRange :=
  [track.mediaInitRange, track.mediaIndexRange].reduceOption.filterMap
    fun range => clampTrackRange range totalBytes

/-! ## Places of the file -/

/-- The place of a position. -/
def streamByteOffsetForPosition (positionMs durationMs totalBytes : Nat) : Nat :=
  if durationMs = 0 ∨ totalBytes = 0 then 0
  else min (satMul (min positionMs durationMs) totalBytes / durationMs) (totalBytes - 1)

/-- What is played in the time after a position, and some more. -/
def streamByteRangeForWindow (positionMs windowMs durationMs totalBytes : Nat) : ByteRange :=
  if totalBytes = 0 then { start := 0, endInclusive := 0 }
  else
    let start := streamByteOffsetForPosition positionMs durationMs totalBytes
    let endPositionMs := min (satAdd positionMs windowMs) durationMs
    let last := min
      (satAdd (streamByteOffsetForPosition endPositionMs durationMs totalBytes) (256 * 1024))
      (totalBytes - 1)
    { start, endInclusive := max last start }

/-- The same for a seek. -/
def rangeForWindow (positionMs durationMs totalBytes : Nat) : ByteRange :=
  if durationMs = 0 ∨ totalBytes = 0 then { start := 0, endInclusive := 0 }
  else
    let start := min (satMul positionMs totalBytes / durationMs) (totalBytes - 1)
    let windowEndMs := min (satAdd positionMs 15000) durationMs
    let last := min (satAdd (satMul windowEndMs totalBytes / durationMs) (256 * 1024))
      (totalBytes - 1)
    { start, endInclusive := max last start }

/-! ## Chunks -/

/-- The start of the chunk of an offset. -/
def alignStreamOffset (offset : Nat) : Nat := offset - offset % streamChunkBytes

/-- What is fetched for an offset. -/
def streamFetchRange (start totalBytes : Nat) : Except String ByteRange :=
  let start := alignStreamOffset (min start (totalBytes - 1))
  let last := min (satAdd start streamChunkBytes - 1) (totalBytes - 1)
  ByteRange.new start last

/-- Whether to fetch the whole file, as nothing is known about its metadata and it is small. -/
def shouldFullFetchMissingMetadata (metadataRanges : List ByteRange) (totalBytes : Nat) : Bool :=
  metadataRanges.isEmpty && decide (0 < totalBytes) &&
    decide (totalBytes ≤ streamSmallFullFetchLimitBytes)

/-- Adds a range once. -/
def pushUniqueStreamRange (ranges : List ByteRange) (range : ByteRange) : List ByteRange :=
  if range ∈ ranges then ranges else ranges ++ [range]

/-- Where the metadata is or may be: at the front, or in the last two chunks. -/
def streamMetadataPrefetchRanges (metadataRanges : List ByteRange) (totalBytes : Nat) :
    Except String (List ByteRange) :=
  if totalBytes = 0 then .ok []
  else if !metadataRanges.isEmpty then .ok metadataRanges
  else do
    let ranges := pushUniqueStreamRange [] (← streamFetchRange 0 totalBytes)
    if streamChunkBytes < totalBytes then
      let finalChunkStart := alignStreamOffset (totalBytes - 1)
      let ranges ←
        if 0 < finalChunkStart then do
          let range ← streamFetchRange (finalChunkStart - streamChunkBytes) totalBytes
          pure (pushUniqueStreamRange ranges range)
        else pure ranges
      let range ← streamFetchRange finalChunkStart totalBytes
      pure (pushUniqueStreamRange ranges range)
    else pure ranges

/-- The chunk of an offset. -/
def chunkRange (offset totalBytes : Nat) : ByteRange where
  start := alignStreamOffset offset
  endInclusive := min (alignStreamOffset offset + streamChunkBytes - 1) (totalBytes - 1)

section Chunks

variable {offset totalBytes : Nat}

theorem alignStreamOffset_le (offset : Nat) : alignStreamOffset offset ≤ offset :=
  Nat.sub_le _ _

/-- An offset lies less than a chunk behind the start of its chunk. -/
theorem lt_alignStreamOffset_add (offset : Nat) :
    offset < alignStreamOffset offset + streamChunkBytes := by
  have hmod : offset % streamChunkBytes < streamChunkBytes := Nat.mod_lt _ (by decide)
  have hle : offset % streamChunkBytes ≤ offset := Nat.mod_le _ _
  unfold alignStreamOffset
  omega

/-- Offsets have the same chunk exactly if one of them lies in the chunk of the other. -/
theorem alignStreamOffset_eq_iff {offset offset' : Nat} :
    alignStreamOffset offset = alignStreamOffset offset' ↔
      alignStreamOffset offset' ≤ offset ∧
        offset < alignStreamOffset offset' + streamChunkBytes := by
  have hdiv : ∀ n, alignStreamOffset n = n / streamChunkBytes * streamChunkBytes := fun n => by
    unfold alignStreamOffset
    rw [Nat.sub_eq_iff_eq_add (Nat.mod_le _ _), Nat.div_add_mod']
  constructor
  · intro h
    rw [← h]
    exact ⟨alignStreamOffset_le offset, lt_alignStreamOffset_add offset⟩
  · rintro ⟨hfirst, hlast⟩
    rw [hdiv offset'] at hfirst hlast ⊢
    rw [← Nat.succ_mul] at hlast
    rw [hdiv offset, Nat.div_eq_of_lt_le hfirst hlast]

/-- An aligned offset is aligned. -/
theorem alignStreamOffset_align (offset : Nat) :
    alignStreamOffset (alignStreamOffset offset) = alignStreamOffset offset :=
  alignStreamOffset_eq_iff.2 ⟨le_rfl, Nat.lt_add_of_pos_right (by decide)⟩

/-- The start of a chunk has the same chunk. -/
theorem chunkRange_align (offset totalBytes : Nat) :
    chunkRange (alignStreamOffset offset) totalBytes = chunkRange offset totalBytes := by
  unfold chunkRange
  rw [alignStreamOffset_align]

/-- The bytes of a chunk are those that are aligned to its start. -/
theorem contains_chunkRange_iff {offset offset' : Nat} (h : offset' < totalBytes) :
    (chunkRange offset totalBytes).Contains offset' ↔
      alignStreamOffset offset' = alignStreamOffset offset := by
  have hpos : 0 < streamChunkBytes := by decide
  rw [alignStreamOffset_eq_iff]
  refine and_congr_right fun _ => ?_
  simp only [chunkRange]
  omega

/-- An offset lies in its chunk. -/
theorem contains_chunkRange (h : offset < totalBytes) :
    (chunkRange offset totalBytes).Contains offset :=
  (contains_chunkRange_iff h).2 rfl

/-- What is fetched for a place is the chunk of the place, or of the end of the file. -/
theorem streamFetchRange_eq_new (start : Nat) (htotal : totalBytes ≤ u64Max) :
    streamFetchRange start totalBytes =
      ByteRange.new (chunkRange (min start (totalBytes - 1)) totalBytes).start
        (chunkRange (min start (totalBytes - 1)) totalBytes).endInclusive := by
  unfold streamFetchRange chunkRange satAdd
  dsimp only
  generalize alignStreamOffset (min start (totalBytes - 1)) = first
  generalize streamChunkBytes = chunkBytes, u64Max = largest at htotal
  congr 1
  omega

/-- What is fetched for an offset is its chunk. -/
theorem streamFetchRange_eq (h : offset < totalBytes) (htotal : totalBytes ≤ u64Max) :
    streamFetchRange offset totalBytes = .ok (chunkRange offset totalBytes) := by
  have hmin : min offset (totalBytes - 1) = offset := Nat.min_eq_left (Nat.le_pred_of_lt h)
  have hnonempty : (chunkRange offset totalBytes).start ≤
      (chunkRange offset totalBytes).endInclusive :=
    (contains_chunkRange h).1.trans (contains_chunkRange h).2
  rw [streamFetchRange_eq_new offset htotal, hmin, ByteRange.new, if_neg hnonempty.not_gt]

end Chunks

end LightEar
