import LightEar.MediaReads
import LightEar.ServedRequests

/-!
# The requests for chunks

The decoder and the player ask for chunks, each request at the end of a queue or in front of it;
the downloader takes them from the front and forgets those that are there already.  Whatever the
order of these steps, the queue stays short, names every chunk once, and names starts of chunks
only (`IsRequestQueue`).

Whether a chunk is there is looked up for its first byte.  That is enough, as what is fetched are
chunks or the whole file, and chunks are kept or dropped as a whole: if the first byte is there,
then so is the chunk (`StreamingBytesState.HoldsOnly.holdsChunk`).
-/

namespace LightEar

open Foundation

universe u

variable {α : Type u}

/-! ## The queue -/

/-- Few requests, each of them for the start of another chunk. -/
structure IsRequestQueue (queue : List Nat) : Prop where
  /-- No chunk is asked for twice. -/
  nodup : queue.Nodup
  /-- There are not too many. -/
  length_le : queue.length ≤ streamMaxPendingOffsets
  /-- Chunks start at multiples of their size. -/
  aligned : ∀ offset ∈ queue, offset % streamChunkBytes = 0

namespace IsRequestQueue

variable {queue : List Nat}

theorem nil : IsRequestQueue [] := ⟨List.nodup_nil, Nat.zero_le _, nofun⟩

/-- Requests may be left out. -/
theorem sublist (h : IsRequestQueue queue) {rest : List Nat} (hrest : rest.Sublist queue) :
    IsRequestQueue rest where
  nodup := h.nodup.sublist hrest
  length_le := hrest.length_le.trans h.length_le
  aligned := fun offset hoffset => h.aligned offset (hrest.subset hoffset)

/-- A request may be added at either end. -/
theorem request (h : IsRequestQueue queue) {offset : Nat}
    (hoffset : offset % streamChunkBytes = 0) (priority : Bool) :
    IsRequestQueue (queueRequestedOffset queue offset priority) := by
  have hothers : (queue.filter (· ≠ offset)).Nodup := h.nodup.filter _
  have hnew : offset ∉ queue.filter (· ≠ offset) := by simp
  unfold queueRequestedOffset
  split
  · exact h
  · dsimp only
    refine ⟨?_, List.length_take_le _ _, ?_⟩
    · refine List.Nodup.sublist (List.take_sublist _ _) ?_
      cases priority with
      | false =>
        rw [if_neg Bool.false_ne_true, ← List.concat_eq_append]
        exact hothers.concat hnew
      | true => exact List.nodup_cons.2 ⟨hnew, hothers⟩
    · intro other hother
      have hmem := List.mem_of_mem_take hother
      have hcases : other = offset ∨ other ∈ queue := by
        cases priority with
        | false =>
          rcases List.mem_append.1 hmem with hold | hlast
          · exact .inr (List.mem_of_mem_filter hold)
          · exact .inl (List.mem_singleton.1 hlast)
        | true =>
          rcases List.mem_cons.1 hmem with hfirst | hold
          · exact .inl hfirst
          · exact .inr (List.mem_of_mem_filter hold)
      rcases hcases with rfl | hold
      · exact hoffset
      · exact h.aligned other hold

end IsRequestQueue

/-- An urgent request is the first one. -/
theorem head?_queueRequestedOffset (queue : List Nat) (offset : Nat) :
    (queueRequestedOffset queue offset true).head? = some offset := by
  simp [queueRequestedOffset, streamMaxPendingOffsets]

/-- What is left when a request has been taken are the last ones. -/
theorem takeUncovered_suffix (ranges : RangeIndex) (total : Nat) (queue : List Nat) :
    (takeUncovered ranges total queue).2 <:+ queue := by
  induction queue with
  | nil => exact List.suffix_rfl
  | cons first queue ih =>
    unfold takeUncovered
    dsimp only
    split
    · exact ih.trans (List.suffix_cons _ _)
    · exact List.suffix_cons _ _

/-- A request is left, or it is the one that is taken, or its chunk is there. -/
theorem mem_takeUncovered (ranges : RangeIndex) (total : Nat) {queue : List Nat} {offset : Nat}
    (h : offset ∈ queue) :
    offset ∈ (takeUncovered ranges total queue).2 ∨
      (takeUncovered ranges total queue).1 =
        some (normalizedStreamRequestOffset offset (some total)) ∨
      ranges.contains (normalizedStreamRequestOffset offset (some total)) = true := by
  induction queue with
  | nil => exact absurd h List.not_mem_nil
  | cons first queue ih =>
    unfold takeUncovered
    dsimp only
    split
    · rename_i hcontains
      rcases List.mem_cons.1 h with rfl | hrest
      · exact .inr (.inr hcontains)
      · exact ih hrest
    · rcases List.mem_cons.1 h with rfl | hrest
      · exact .inr (.inl rfl)
      · exact .inl hrest

/-! ## Whole chunks -/

/-- What is asked for is the start of a chunk. -/
theorem normalizedStreamRequestOffset_mod (offset : Nat) (totalBytes : Option Nat) :
    normalizedStreamRequestOffset offset totalBytes % streamChunkBytes = 0 :=
  alignStreamOffset_mod _

/-- For an offset of the file the start of its chunk is asked for, also if no length is noted. -/
theorem normalizedStreamRequestOffset_of_total_le {total offset : Nat} {totalBytes : Option Nat}
    (hoffset : offset < total) (htotal : ∀ known ∈ totalBytes, total ≤ known) :
    normalizedStreamRequestOffset offset totalBytes = alignStreamOffset offset := by
  cases totalBytes with
  | none => rfl
  | some known => exact normalizedStreamRequestOffset_of_lt (hoffset.trans_le (htotal known rfl))

/-- The start of a chunk is aligned. -/
theorem alignStreamOffset_of_mod {offset : Nat} (h : offset % streamChunkBytes = 0) :
    alignStreamOffset offset = offset := by
  rw [alignStreamOffset, h, Nat.sub_zero]

/-- With the start of a chunk, the whole of it is fetched. -/
theorem IsFetched.contains_of_contains_start {total offset byte : Nat} {range : ByteRange}
    (h : IsFetched total range) (hoffset : offset % streamChunkBytes = 0)
    (hcontains : range.Contains offset) (hbyte : (chunkRange offset total).Contains byte) :
    range.Contains byte := by
  have halign : alignStreamOffset offset = offset := alignStreamOffset_of_mod hoffset
  rcases h with rfl | ⟨k, rfl⟩
  · exact ⟨Nat.zero_le _, hbyte.2.trans (min_le_right _ _)⟩
  · have hpos : 0 < streamChunkBytes := by decide
    have hlast : offset ≤ alignStreamOffset k + streamChunkBytes - 1 :=
      hcontains.2.trans (min_le_left _ _)
    have hsame : alignStreamOffset offset = alignStreamOffset k :=
      alignStreamOffset_eq_iff.2 ⟨hcontains.1, by omega⟩
    unfold chunkRange at hbyte ⊢
    rwa [← hsame]

/-- An offset that is cut off at a length that is noted has the same chunk, unless the file is
longer than that. -/
theorem contains_chunkRange_normalized {total offset byte : Nat} {totalBytes : Option Nat}
    (htotal : ∀ known ∈ totalBytes, total ≤ known)
    (hbyte : (chunkRange offset total).Contains byte) :
    (chunkRange (normalizedStreamRequestOffset offset totalBytes) total).Contains byte := by
  unfold normalizedStreamRequestOffset
  rw [chunkRange_align]
  cases totalBytes with
  | none => exact hbyte
  | some known =>
    have hknown : total ≤ known := htotal known rfl
    have hfirst : alignStreamOffset offset ≤ byte := hbyte.1
    have hlast : byte ≤ total - 1 := hbyte.2.trans (min_le_right _ _)
    rcases le_or_gt offset (known - 1) with hinside | hbehind
    · rwa [Option.elim_some, min_eq_left hinside]
    · -- the chunk reaches into the file and beyond its end
      have hbefore : known - 1 < alignStreamOffset offset + streamChunkBytes :=
        hbehind.trans (lt_alignStreamOffset_add offset)
      have hsame : alignStreamOffset (known - 1) = alignStreamOffset offset :=
        alignStreamOffset_eq_iff.2 ⟨by omega, hbefore⟩
      rw [Option.elim_some, min_eq_right hbehind.le]
      unfold chunkRange at hbyte ⊢
      rwa [hsame]

/-! ## The shared bytes -/

/-- What is appended has been fetched: the whole file, or the chunk of a place. -/
def BytesAction.IsFetch (total : Nat) : BytesAction α → Prop
  | append _ range =>
    range = { start := 0, endInclusive := total - 1 } ∨
      ∃ start, streamFetchRange start total = .ok range
  | _ => True

/-- What is appended are chunks or the whole file. -/
theorem BytesAction.IsFetch.appendsOnly {total : Nat} (htotal : total ≤ u64Max)
    {action : BytesAction α} (h : action.IsFetch total) :
    action.AppendsOnly fun chunk => IsFetched total chunk.range := by
  cases action with
  | append bytes range =>
    rcases h with rfl | ⟨start, hstart⟩
    · exact .inl rfl
    · exact isFetched_of_streamFetchRange htotal hstart
  | _ => exact h

namespace StreamingBytesState

/-- All bytes of the chunk of an offset are there. -/
def HoldsChunk (s : StreamingBytesState α) (total offset : Nat) : Prop :=
  ∀ byte, (chunkRange offset total).Contains byte → s.ranges.contains byte = true

/-- If the chunk of an offset as it is asked for is there, then so is the chunk of the offset. -/
theorem HoldsChunk.of_normalized {s : StreamingBytesState α} {total offset : Nat}
    {totalBytes : Option Nat}
    (h : s.HoldsChunk total (normalizedStreamRequestOffset offset totalBytes))
    (htotal : ∀ known ∈ totalBytes, total ≤ known) : s.HoldsChunk total offset :=
  fun byte hbyte => h byte (contains_chunkRange_normalized htotal hbyte)

/-- If what has been fetched are chunks, then with its first byte the whole of a chunk is there. -/
theorem HoldsOnly.holdsChunk {s : StreamingBytesState α} {total offset : Nat}
    (h : s.HoldsOnly fun chunk => IsFetched total chunk.range)
    (hoffset : offset % streamChunkBytes = 0) (hcontains : s.ranges.contains offset = true) :
    s.HoldsChunk total offset := by
  intro byte hbyte
  obtain ⟨chunk, hchunk, hrange⟩ := (h.indexed offset).1 hcontains
  have hfetched : IsFetched total chunk.range := h.chunks chunk hchunk
  exact (h.indexed byte).2
    ⟨chunk, hchunk, hfetched.contains_of_contains_start hoffset hrange hbyte⟩

section Requests

variable (s : StreamingBytesState α)

/-- A chunk that is there is not asked for. -/
theorem ask_requestedOffsets (offset : Nat) (priority : Bool) :
    (s.ask offset priority).requestedOffsets =
      if s.ranges.contains (normalizedStreamRequestOffset offset s.totalBytes) then
        s.requestedOffsets
      else
        queueRequestedOffset s.requestedOffsets
          (normalizedStreamRequestOffset offset s.totalBytes) priority := by
  unfold ask
  dsimp only
  split
  · rfl
  · rfl

/-- A read that has to wait asks for its chunk. -/
theorem readAt_requestedOffsets (offset len : Nat) (decoderCanceled : Bool) :
    (s.readAt offset len decoderCanceled).2.requestedOffsets = s.requestedOffsets ∨
      (s.readAt offset len decoderCanceled).2.requestedOffsets =
        queueRequestedOffset s.requestedOffsets
          (normalizedStreamRequestOffset offset s.totalBytes) false := by
  unfold readAt
  split
  · exact .inl rfl
  · split
    · exact .inl rfl
    · split
      · exact .inl rfl
      · split
        · exact .inl rfl
        · split
          · exact .inl rfl
          · exact .inr rfl

/-- The requests for what is there are forgotten. -/
theorem append_requestedOffsets (bytes : List α) (range : ByteRange) :
    (s.append bytes range).requestedOffsets =
      s.requestedOffsets.filter fun offset => !(s.append bytes range).ranges.contains offset := by
  unfold append
  split
  · rfl
  · rfl

variable {s}

theorem isRequestQueue_ask (h : IsRequestQueue s.requestedOffsets) (offset : Nat)
    (priority : Bool) : IsRequestQueue (s.ask offset priority).requestedOffsets := by
  rw [ask_requestedOffsets]
  split
  · exact h
  · exact h.request (normalizedStreamRequestOffset_mod _ _) priority

/-- Every action leaves a queue of requests. -/
theorem isRequestQueue_perform (h : IsRequestQueue s.requestedOffsets) (action : BytesAction α) :
    IsRequestQueue (s.perform action).requestedOffsets := by
  cases action with
  | setTotal total => exact h
  | append bytes range =>
    change IsRequestQueue (s.append bytes range).requestedOffsets
    rw [append_requestedOffsets]
    exact h.sublist List.filter_sublist
  | pinRanges ranges => exact h
  | retainWindow retainStart retainEnd => exact h
  | fail error => exact h
  | cancel => exact h
  | requestOffset offset => exact isRequestQueue_ask h offset false
  | prioritizeOffset offset => exact isRequestQueue_ask h offset true
  | takeRequestedOffset total =>
    exact h.sublist (takeUncovered_suffix s.ranges total s.requestedOffsets).sublist
  | readAt offset len decoderCanceled =>
    change IsRequestQueue (s.readAt offset len decoderCanceled).2.requestedOffsets
    rcases s.readAt_requestedOffsets offset len decoderCanceled with hsame | hqueued
    · rw [hsame]
      exact h
    · rw [hqueued]
      exact h.request (normalizedStreamRequestOffset_mod _ _) false

/-- So do all actions together. -/
theorem isRequestQueue_performAll (actions : List (BytesAction α)) :
    IsRequestQueue ((new : StreamingBytesState α).performAll actions).requestedOffsets :=
  performAll_induction (P := fun s => IsRequestQueue s.requestedOffsets) .nil
    (fun _ action hbefore _ => isRequestQueue_perform hbefore action)
    fun action (_ : action ∈ actions) => trivial

/-- A chunk that is prioritised and not there is asked for first. -/
theorem head?_prioritizeOffset {offset : Nat}
    (hmissing : s.ranges.contains (normalizedStreamRequestOffset offset s.totalBytes) = false) :
    (s.prioritizeOffset offset).requestedOffsets.head? =
      some (normalizedStreamRequestOffset offset s.totalBytes) := by
  rw [prioritizeOffset, ask_requestedOffsets, if_neg (Bool.eq_false_iff.1 hmissing)]
  exact head?_queueRequestedOffset _ _

/-- If a byte is missing, then so is a part of its chunk. -/
theorem not_holdsChunk {total byte : Nat} (hbyte : byte < total)
    (hmissing : s.ranges.contains byte = false) : ¬ s.HoldsChunk total byte := by
  intro hchunk
  have hcontains : s.ranges.contains byte = true := hchunk byte (contains_chunkRange hbyte)
  rw [hmissing] at hcontains
  cases hcontains

end Requests

/-! ## Requests that are given up -/

namespace HoldsOnly

variable {s : StreamingBytesState α} {total : Nat}

/-- A request is queued unless its chunk is there. -/
theorem ask_or_holdsChunk (h : s.HoldsOnly fun chunk => IsFetched total chunk.range)
    (offset : Nat) (priority : Bool) :
    (s.ask offset priority).requestedOffsets = queueRequestedOffset s.requestedOffsets
        (normalizedStreamRequestOffset offset s.totalBytes) priority ∨
      s.HoldsChunk total (normalizedStreamRequestOffset offset s.totalBytes) := by
  rw [ask_requestedOffsets]
  split
  · rename_i hcontains
    exact .inr (h.holdsChunk (normalizedStreamRequestOffset_mod _ _) hcontains)
  · exact .inl rfl

/-- When something is appended, a request stays unless its chunk is there. -/
theorem mem_append_or_holdsChunk (h : s.HoldsOnly fun chunk => IsFetched total chunk.range)
    {bytes : List α} {range : ByteRange} (hrange : IsFetched total range) {offset : Nat}
    (haligned : offset % streamChunkBytes = 0) (hoffset : offset ∈ s.requestedOffsets) :
    offset ∈ (s.append bytes range).requestedOffsets ∨
      (s.append bytes range).HoldsChunk total offset := by
  have happended : (s.append bytes range).HoldsOnly fun chunk => IsFetched total chunk.range :=
    h.append hrange
  by_cases hcontains : (s.append bytes range).ranges.contains offset = true
  · exact .inr (happended.holdsChunk haligned hcontains)
  · rw [append_requestedOffsets]
    exact .inl (List.mem_filter.2 ⟨hoffset, by simpa using hcontains⟩)

/-- When a request is taken, any other stays unless its chunk is there. -/
theorem mem_takeRequestedOffset_or_holdsChunk
    (h : s.HoldsOnly fun chunk => IsFetched total chunk.range) (known : Nat) {offset : Nat}
    (hoffset : offset ∈ s.requestedOffsets) :
    offset ∈ (s.takeRequestedOffset known).2.requestedOffsets ∨
      (s.takeRequestedOffset known).1 =
        some (normalizedStreamRequestOffset offset (some known)) ∨
      s.HoldsChunk total (normalizedStreamRequestOffset offset (some known)) := by
  rcases mem_takeUncovered s.ranges known hoffset with hleft | htaken | hcontains
  · exact .inl hleft
  · exact .inr (.inl htaken)
  · exact .inr (.inr (h.holdsChunk (normalizedStreamRequestOffset_mod _ _) hcontains))

end HoldsOnly

/-- Where what is appended are chunks or the whole file: the requests are few, each for the start
of another chunk; a chunk that is prioritised and not there is the first one; what is taken is not
there; and a request is not queued, or given up, as one for bytes that are there only if the whole
of its chunk is there, so that no byte of the chunk is missing. -/
theorem requestedOffsets_sound {total : Nat} (htotal : total ≤ u64Max)
    {actions : List (BytesAction α)} (hactions : ∀ a ∈ actions, a.IsFetch total) :
    let s := (new : StreamingBytesState α).performAll actions
    s.requestedOffsets.Nodup ∧ s.requestedOffsets.length ≤ streamMaxPendingOffsets ∧
    (∀ offset ∈ s.requestedOffsets, offset % streamChunkBytes = 0) ∧
    (∀ offset, s.ranges.contains (normalizedStreamRequestOffset offset s.totalBytes) = false →
      (s.prioritizeOffset offset).requestedOffsets.head? =
        some (normalizedStreamRequestOffset offset s.totalBytes)) ∧
    (∀ offset < total, (∀ known ∈ s.totalBytes, total ≤ known) →
      s.ranges.contains offset = false →
        (s.prioritizeOffset offset).requestedOffsets.head? = some (alignStreamOffset offset)) ∧
    (∀ known offset, (s.takeRequestedOffset known).1 = some offset →
      s.ranges.contains offset = false) ∧
    (∀ offset,
      (s.requestOffset offset).requestedOffsets = queueRequestedOffset s.requestedOffsets
        (normalizedStreamRequestOffset offset s.totalBytes) false ∨
      s.HoldsChunk total (normalizedStreamRequestOffset offset s.totalBytes)) ∧
    (∀ offset,
      (s.prioritizeOffset offset).requestedOffsets = queueRequestedOffset s.requestedOffsets
        (normalizedStreamRequestOffset offset s.totalBytes) true ∨
      s.HoldsChunk total (normalizedStreamRequestOffset offset s.totalBytes)) ∧
    (∀ bytes range, (BytesAction.append bytes range).IsFetch total →
      ∀ offset ∈ s.requestedOffsets, offset ∈ (s.append bytes range).requestedOffsets ∨
        (s.append bytes range).HoldsChunk total offset) ∧
    (∀ known, ∀ offset ∈ s.requestedOffsets,
      offset ∈ (s.takeRequestedOffset known).2.requestedOffsets ∨
      (s.takeRequestedOffset known).1 =
        some (normalizedStreamRequestOffset offset (some known)) ∨
      s.HoldsChunk total (normalizedStreamRequestOffset offset (some known))) ∧
    (∀ offset totalBytes, (∀ known ∈ totalBytes, total ≤ known) →
      s.HoldsChunk total (normalizedStreamRequestOffset offset totalBytes) →
        s.HoldsChunk total offset) ∧
    ∀ byte < total, s.ranges.contains byte = false → ¬ s.HoldsChunk total byte := by
  intro s
  have hqueue : IsRequestQueue s.requestedOffsets := isRequestQueue_performAll actions
  have happends : ∀ a ∈ actions, a.AppendsOnly fun chunk => IsFetched total chunk.range :=
    fun a ha => (hactions a ha).appendsOnly htotal
  have hholds : s.HoldsOnly fun chunk => IsFetched total chunk.range := .performAll happends
  refine ⟨hqueue.nodup, hqueue.length_le, hqueue.aligned, fun offset => head?_prioritizeOffset, ?_,
    fun known offset => takeUncovered_eq_some, fun offset => hholds.ask_or_holdsChunk offset false,
    fun offset => hholds.ask_or_holdsChunk offset true, ?_, ?_, ?_, fun byte => not_holdsChunk⟩
  · intro offset hoffset hknown hmissing
    have hunheld : ¬ s.HoldsChunk total offset := not_holdsChunk hoffset hmissing
    rcases hholds.ask_or_holdsChunk offset true with hqueued | hchunk
    · rw [prioritizeOffset, hqueued, head?_queueRequestedOffset,
        normalizedStreamRequestOffset_of_total_le hoffset hknown]
    · exact absurd (hchunk.of_normalized hknown) hunheld
  · intro bytes range hfetch offset hoffset
    have hfetched : IsFetched total range := hfetch.appendsOnly htotal
    exact hholds.mem_append_or_holdsChunk hfetched (hqueue.aligned offset hoffset) hoffset
  · intro known offset hoffset
    exact hholds.mem_takeRequestedOffset_or_holdsChunk known hoffset
  · intro offset totalBytes hknown hchunk
    exact hchunk.of_normalized hknown

/-- Two requests, and the first of two chunks. -/
def firstChunkActions : List (BytesAction Nat) := [
  .setTotal (some 4000000), .requestOffset 5, .readAt 3000000 16 false,
  .append [0] ⟨0, 2097151⟩]

/-- The main result for the two requests: the first one is forgotten with its chunk, and the other
stays in front when it is made again. -/
theorem requestedOffsets_sound_firstChunk :
    ((new : StreamingBytesState Nat).performAll firstChunkActions).requestedOffsets = [2097152] ∧
    (((new : StreamingBytesState Nat).performAll firstChunkActions).prioritizeOffset
      3000000).requestedOffsets.head? = some 2097152 := by
  have hactions : ∀ a ∈ firstChunkActions, a.IsFetch 4000000 := by
    simp only [firstChunkActions, List.forall_mem_cons]
    exact ⟨trivial, trivial, trivial, .inr ⟨5, rfl⟩, nofun⟩
  exact ⟨rfl, (requestedOffsets_sound (by decide) hactions).2.2.2.1 3000000 rfl⟩

end StreamingBytesState

end LightEar
