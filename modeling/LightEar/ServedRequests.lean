import LightEar.ByteWindows
import LightEar.Foundation.GuardedRun
import LightEar.StreamingDownload

/-!
# Chunks that are fetched for the decoder

What is near the playback does not depend on what the decoder asks for.  So a chunk that has been
fetched for the decoder is there for it when the loop starts again exactly if the chunk is near the
playback or meets a pinned range (`DownloadState.served_iff_keeps`); any other is dropped at once,
and asked for again.

Until the download ends, the chunks are what has been fetched at once, and the index says which
bytes they hold (`IsLoading`).
-/

namespace LightEar

open Foundation

universe u

variable {α : Type u}

/-! ## What is kept -/

/-- Whether a chunk is near the playback: it ends less than `streamByteRetainBehindBytes` before
the place that is played, and starts no more than a chunk after what is downloaded ahead. -/
def IsNearPlayback (positionMs durationMs total : Nat) (chunk : ByteRange) : Prop :=
  streamByteOffsetForPosition positionMs durationMs total ≤
      chunk.endInclusive + streamByteRetainBehindBytes ∧
    chunk.start ≤ (streamByteRangeForWindow positionMs streamBufferTargetMs durationMs
      total).endInclusive + streamChunkBytes

instance (positionMs durationMs total : Nat) (chunk : ByteRange) :
    Decidable (IsNearPlayback positionMs durationMs total chunk) :=
  inferInstanceAs (Decidable (_ ∧ _))

/-- Whether the chunk of an offset is kept: it is near the playback or meets a pinned range. -/
def KeepsChunk (pinnedRanges : List ByteRange) (positionMs durationMs total offset : Nat) : Prop :=
  IsNearPlayback positionMs durationMs total (chunkRange offset total) ∨
    ∃ pinned ∈ pinnedRanges, (chunkRange offset total).Overlaps pinned

instance (pinnedRanges : List ByteRange) (positionMs durationMs total offset : Nat) :
    Decidable (KeepsChunk pinnedRanges positionMs durationMs total offset) :=
  inferInstanceAs (Decidable (_ ∨ _))

section Window

variable (positionMs durationMs : Nat) {total : Nat}

/-- The window that is retained meets the chunks near the playback. -/
theorem overlaps_window_iff (htotal : total ≤ u64Max) {offset : Nat} (hoffset : offset < total) :
    (chunkRange offset total).Overlaps
        { start := streamByteOffsetForPosition positionMs durationMs total -
            streamByteRetainBehindBytes
          endInclusive := max
            (min (satAdd (streamByteRangeForWindow positionMs streamBufferTargetMs durationMs
              total).endInclusive streamChunkBytes) (total - 1))
            (streamByteOffsetForPosition positionMs durationMs total -
              streamByteRetainBehindBytes) } ↔
      IsNearPlayback positionMs durationMs total (chunkRange offset total) := by
  obtain ⟨hfirst, hlast⟩ := streamByteRangeForWindow_bounds positionMs durationMs
    streamBufferTargetMs (Nat.zero_lt_of_lt hoffset)
  have hchunk : (chunkRange offset total).start ≤ total - 1 :=
    (alignStreamOffset_le offset).trans (Nat.le_pred_of_lt hoffset)
  unfold ClosedInterval.Overlaps IsNearPlayback satAdd
  dsimp only
  generalize streamByteOffsetForPosition positionMs durationMs total = anchor at *
  generalize (streamByteRangeForWindow positionMs streamBufferTargetMs durationMs
    total).endInclusive = last at *
  generalize chunkRange offset total = chunk at *
  generalize streamChunkBytes = chunkBytes, streamByteRetainBehindBytes = behind,
    u64Max = largest at *
  omega

end Window

/-! ## What is fetched -/

theorem toNat_le_u64Max (n : UInt64) : n.toNat ≤ u64Max := by
  have hlt := n.toNat_lt
  unfold u64Max
  omega

/-- Whether a range is fetched at once: the whole file or a chunk. -/
def IsFetched (total : Nat) (range : ByteRange) : Prop :=
  range = { start := 0, endInclusive := total - 1 } ∨ ∃ offset, range = chunkRange offset total

/-- What is fetched for an offset is a chunk. -/
theorem isFetched_of_streamFetchRange {total start : Nat} (htotal : total ≤ u64Max)
    {range : ByteRange} (h : streamFetchRange start total = .ok range) :
    IsFetched total range := by
  rw [streamFetchRange_eq_new start htotal] at h
  exact .inr ⟨_, ByteRange.eq_of_new h⟩

/-- With an offset the start of its chunk is fetched. -/
theorem IsFetched.contains_align {total : Nat} {range : ByteRange} (h : IsFetched total range)
    {offset : Nat} (hoffset : offset < total) (hcontains : range.Contains offset) :
    range.Contains (alignStreamOffset offset) := by
  have hle : alignStreamOffset offset ≤ offset := alignStreamOffset_le offset
  rcases h with rfl | ⟨k, rfl⟩
  · exact ⟨Nat.zero_le _, hle.trans hcontains.2⟩
  · rw [contains_chunkRange_iff (hle.trans_lt hoffset), alignStreamOffset_align]
    exact (contains_chunkRange_iff hoffset).1 hcontains

/-- What holds of the bytes once the length of the file is known, until the download ends. -/
structure IsLoading (total : Nat) (shared : StreamingBytesState α) : Prop where
  /-- The length is a `u64`. -/
  le : total ≤ u64Max
  /-- It is known to the others. -/
  totalBytes : shared.totalBytes = some total
  /-- Nothing has failed. -/
  error : shared.error = none
  /-- The index is right. -/
  indexed : shared.IsIndexed
  /-- Chunks are what has been fetched at once. -/
  chunks : ∀ chunk ∈ shared.chunks, IsFetched total chunk.range

namespace IsLoading

variable {total : Nat} {shared : StreamingBytesState α}

/-- Requests, pinned ranges and giving up do not matter. -/
theorem of_others (h : IsLoading total shared) (canceled : Bool) (pinnedRanges : List ByteRange)
    (requestedOffsets : List Nat) :
    IsLoading total { shared with canceled, pinnedRanges, requestedOffsets } :=
  ⟨h.le, h.totalBytes, h.error, h.indexed, h.chunks⟩

theorem ask (h : IsLoading total shared) (offset : Nat) (priority : Bool) :
    IsLoading total (shared.ask offset priority) := by
  obtain ⟨queue, hqueue⟩ := shared.ask_eq offset priority
  rw [hqueue]
  exact h.of_others _ _ queue

theorem append (h : IsLoading total shared) (bytes : List α) {range : ByteRange}
    (hrange : IsFetched total range) : IsLoading total (shared.append bytes range) where
  le := h.le
  totalBytes := by
    unfold StreamingBytesState.append
    split_ifs <;> exact h.totalBytes
  error := by
    unfold StreamingBytesState.append
    split_ifs <;> exact h.error
  indexed := h.indexed.append bytes range
  chunks := by
    intro chunk hchunk
    rcases StreamingBytesState.mem_or_eq_of_mem_append hchunk with hold | rfl
    · exact h.chunks chunk hold
    · exact hrange

theorem retainWindow (h : IsLoading total shared) (retainStart retainEnd : Nat) :
    IsLoading total (shared.retainWindow retainStart retainEnd) :=
  ⟨h.le, h.totalBytes, h.error, shared.isIndexed_retainWindow retainStart retainEnd,
    fun chunk hchunk => h.chunks chunk (StreamingBytesState.mem_retainWindow.1 hchunk).1⟩

theorem retainStreamingByteWindow (h : IsLoading total shared)
    (positionMs durationMs totalBytes : Nat) :
    IsLoading total (retainStreamingByteWindow shared positionMs durationMs totalBytes) := by
  unfold LightEar.retainStreamingByteWindow
  split
  · exact h
  · exact h.retainWindow _ _

/-- With an offset the start of its chunk is there. -/
theorem contains_align (h : IsLoading total shared) {offset : Nat} (hoffset : offset < total)
    (hcontains : shared.ranges.contains offset = true) :
    shared.ranges.contains (alignStreamOffset offset) = true := by
  obtain ⟨chunk, hchunk, hoff⟩ := (h.indexed offset).1 hcontains
  exact (h.indexed _).2 ⟨chunk, hchunk, (h.chunks chunk hchunk).contains_align hoffset hoff⟩

end IsLoading

/-! ## Decoder and player -/

/-- What decoder and player do. -/
def DownloadAction.IsOutside : DownloadAction α → Prop
  | .reads _ _ _ => True
  | .restarts _ => True
  | .cancels => True
  | _ => False

namespace DownloadState

variable (job : DownloadJob) {s : DownloadState α}

/-- Decoder and player change no more than the requests, and whether the stream has been given
up. -/
theorem step_outside {a : DownloadAction α} (h : a.IsOutside) :
    ∃ canceled requestedOffsets,
      s.step job a = { s with shared := { s.shared with canceled, requestedOffsets } } := by
  cases a with
  | reads offset len decoderCanceled =>
    obtain ⟨queue, hqueue⟩ := s.shared.readAt_eq offset len decoderCanceled
    refine ⟨s.shared.canceled, queue, ?_⟩
    unfold step
    dsimp only
    rw [hqueue]
  | restarts positionMs =>
    unfold step restarts
    dsimp only
    split
    · exact ⟨s.shared.canceled, s.shared.requestedOffsets, rfl⟩
    · obtain ⟨queue, hqueue⟩ := s.shared.ask_eq _ true
      refine ⟨s.shared.canceled, queue, ?_⟩
      rw [StreamingBytesState.prioritizeOffset, hqueue]
  | cancels => exact ⟨true, s.shared.requestedOffsets, rfl⟩
  | _ => exact h.elim

/-! ## In every state -/

/-- What holds in every state that is reached. -/
def Invariant (s : DownloadState α) : Prop :=
  match s.phase with
  | .probing => s.shared.chunks = [] ∧ s.shared.error = none ∧ s.shared.IsIndexed
  | .fetchingMedia total => IsLoading total s.shared
  | .looping total => IsLoading total s.shared
  | .choosing total _ => IsLoading total s.shared
  | .fetching total range => IsLoading total s.shared ∧ IsFetched total range
  | .appended total => IsLoading total s.shared
  | .returned => True

theorem invariant_fails (s : DownloadState α) (error : String) :
    (s.fails job error).Invariant := by
  unfold fails
  split <;> trivial

theorem invariant_entersLoop {total : Nat} (h : IsLoading total s.shared) :
    (s.entersLoop job total).Invariant :=
  h.ask _ true

/-- The length of the file is taken on before anything has been fetched. -/
theorem invariant_probed (hchunks : s.shared.chunks = []) (herror : s.shared.error = none)
    (hindexed : s.shared.IsIndexed) {total : Nat} (htotal : total ≤ u64Max) :
    (s.probed job total).Invariant := by
  have hloading : IsLoading total (s.shared.setTotal (some total)) := by
    refine ⟨htotal, rfl, herror, hindexed, fun chunk hchunk => ?_⟩
    rw [show (s.shared.setTotal (some total)).chunks = [] from hchunks] at hchunk
    cases hchunk
  unfold probed
  dsimp only
  split
  · exact hloading
  · split
    · exact invariant_fails job _ _
    · rename_i prefetchRanges _
      obtain ⟨queue, hqueue⟩ := StreamingBytesState.foldl_requestOffset_eq
        ((s.shared.setTotal (some total)).pinRanges prefetchRanges) prefetchRanges
      refine invariant_entersLoop job ?_
      dsimp only
      rw [hqueue]
      exact hloading.of_others _ _ queue

/-- The whole file is one chunk. -/
theorem invariant_mediaFetched {total : Nat} (h : IsLoading total s.shared) (bytes : List α) :
    (s.mediaFetched job total bytes).Invariant := by
  unfold mediaFetched
  split
  · exact invariant_fails job _ _
  · split
    · exact invariant_fails job _ _
    · rename_i fullRange hfull
      exact invariant_entersLoop job
        ((h.of_others _ _ _).append bytes (.inl (ByteRange.eq_of_new hfull)))

/-- What is fetched is a chunk. -/
theorem invariant_fetches {total : Nat} (h : IsLoading total s.shared) (start : Nat) :
    (s.fetches job total start).Invariant := by
  unfold fetches
  cases hrange : streamFetchRange start total with
  | error error => exact invariant_fails job _ _
  | ok range =>
    have hfetched : IsFetched total range := isFetched_of_streamFetchRange h.le hrange
    unfold fetchesRange
    dsimp only
    by_cases hcovers : s.shared.covers range = true
    · rw [if_pos hcovers]
      exact h
    · rw [if_neg hcovers]
      exact ⟨h, hfetched⟩

/-- Whatever is chosen, the bytes stay as they are. -/
theorem invariant_chooses {total : Nat} (h : IsLoading total s.shared) (currentPositionMs : Nat) :
    (s.chooses job total currentPositionMs).Invariant := by
  have htaken : IsLoading total (s.shared.takeRequestedOffset total).2 := h.of_others _ _ _
  unfold chooses
  cases htake : s.shared.takeRequestedOffset total with
  | mk requested shared =>
    rw [htake] at htaken
    cases requested with
    | some requested =>
      exact invariant_fetches job (s := { s with shared, prefetchPaused := false }) htaken _
    | none =>
      dsimp only
      split
      · exact htaken
      · split
        · exact htaken
        · split
          · exact htaken
          · exact invariant_fetches job (s := { s with shared, prefetchPaused := false }) htaken _

/-- What decoder and player do keeps the invariant. -/
theorem Invariant.of_shared (h : s.Invariant) {shared : StreamingBytesState α}
    (hloading : ∀ total, IsLoading total s.shared → IsLoading total shared)
    (hchunks : shared.chunks = s.shared.chunks) (herror : shared.error = s.shared.error)
    (hindexed : s.shared.IsIndexed → shared.IsIndexed) :
    ({ s with shared } : DownloadState α).Invariant := by
  unfold Invariant at h ⊢
  dsimp only at h ⊢
  cases hphase : s.phase with
  | probing =>
    rw [hphase] at h
    exact ⟨hchunks.trans h.1, herror.trans h.2.1, hindexed h.2.2⟩
  | fetching total range =>
    rw [hphase] at h
    exact ⟨hloading total h.1, h.2⟩
  | returned => trivial
  | fetchingMedia total | looping total | choosing total _ | appended total =>
    rw [hphase] at h
    exact hloading total h

theorem Invariant.outside (h : s.Invariant) {a : DownloadAction α} (ha : a.IsOutside) :
    (s.step job a).Invariant := by
  obtain ⟨canceled, requestedOffsets, hstep⟩ := step_outside job (s := s) ha
  rw [hstep]
  exact h.of_shared (fun _ hloading => hloading.of_others canceled _ requestedOffsets) rfl rfl id

/-- Every action keeps the invariant. -/
theorem Invariant.step (h : s.Invariant) (a : DownloadAction α) : (s.step job a).Invariant := by
  have hsame := h
  unfold Invariant at h
  cases a with
  | probed answer =>
    unfold DownloadState.step
    dsimp only
    split
    · rename_i hphase
      rw [hphase] at h
      obtain ⟨hchunks, herror, hindexed⟩ := h
      rcases answer with error | _ | total
      · exact invariant_fails job _ _
      · exact invariant_fails job _ _
      · exact invariant_probed job hchunks herror hindexed (toNat_le_u64Max total)
    · exact hsame
  | mediaFetched answer =>
    unfold DownloadState.step
    dsimp only
    split
    · rename_i total bytes hphase
      rw [hphase] at h
      exact invariant_mediaFetched job h bytes
    · exact invariant_fails job _ _
    · exact hsame
  | looks positionMs =>
    unfold DownloadState.step
    dsimp only
    split
    · rename_i total hphase
      rw [hphase] at h
      unfold DownloadState.looks
      split
      · trivial
      · exact h.retainStreamingByteWindow _ _ _
    · exact hsame
  | chooses =>
    unfold DownloadState.step
    dsimp only
    split
    · rename_i total currentPositionMs hphase
      rw [hphase] at h
      exact invariant_chooses job h currentPositionMs
    · exact hsame
  | fetched answer =>
    unfold DownloadState.step
    dsimp only
    split
    · rename_i total range bytes hphase
      rw [hphase] at h
      split
      · exact h.1.append bytes h.2
      · exact hsame
    · exact invariant_fails job _ _
    · exact hsame
  | retains positionMs =>
    unfold DownloadState.step
    dsimp only
    split
    · rename_i total hphase
      rw [hphase] at h
      exact h.retainStreamingByteWindow _ _ _
    · exact hsame
  | reads offset len decoderCanceled => exact hsame.outside job trivial
  | restarts positionMs => exact hsame.outside job trivial
  | cancels => exact hsame.outside job trivial

/-- The invariant holds in every state that is reached. -/
theorem invariant_run (actions : List (DownloadAction α)) : (run job new actions).Invariant := by
  have hnew : (new : DownloadState α).Invariant :=
    ⟨rfl, rfl, StreamingBytesState.isIndexed_new⟩
  exact (Along.of_forall (C := fun _ _ => True) (fun _ _ => trivial) new actions).invariant hnew
    fun _ a hs _ => hs.step job a

end DownloadState

/-! ## One round of the loop -/

/-- From a choice until the loop starts again, with what decoder and player do meanwhile. -/
def DownloadAction.round (bytes : List α) (meanwhile afterwards : List (DownloadAction α))
    (positionMs : Nat) : List (DownloadAction α) :=
  .chooses :: meanwhile ++ .fetched (.ok bytes) :: afterwards ++ [.retains positionMs]

namespace DownloadState

variable (job : DownloadJob) {s : DownloadState α}

theorem run_append (actions later : List (DownloadAction α)) :
    run job s (actions ++ later) = run job (run job s actions) later :=
  List.foldl_append ..

/-- Whatever decoder and player do, they change no more than that. -/
theorem run_outside {actions : List (DownloadAction α)} (h : ∀ a ∈ actions, a.IsOutside) :
    ∃ canceled requestedOffsets,
      run job s actions = { s with shared := { s.shared with canceled, requestedOffsets } } := by
  induction actions generalizing s with
  | nil => exact ⟨s.shared.canceled, s.shared.requestedOffsets, rfl⟩
  | cons a actions ih =>
    obtain ⟨hfirst, hrest⟩ := List.forall_mem_cons.1 h
    obtain ⟨canceled, requestedOffsets, hstep⟩ := step_outside job (s := s) hfirst
    obtain ⟨canceled', requestedOffsets', hrun⟩ := ih (s := s.step job a) hrest
    refine ⟨canceled', requestedOffsets', ?_⟩
    rw [show run job s (a :: actions) = run job (s.step job a) actions from rfl, hrun, hstep]

section Round

variable {total lookedAtMs offset : Nat}

/-- What has been fetched is appended. -/
theorem step_fetched {range : ByteRange} (hphase : s.phase = .fetching total range)
    {bytes : List α} (hbytes : bytes.length = range.len) :
    s.step job (.fetched (.ok bytes)) = s.fetched total range bytes := by
  unfold step
  rw [hphase]
  exact if_pos hbytes

theorem run_cons_fetched {range : ByteRange} (hphase : s.phase = .fetching total range)
    {bytes : List α} (hbytes : bytes.length = range.len) (actions : List (DownloadAction α)) :
    run job s (.fetched (.ok bytes) :: actions) = run job (s.fetched total range bytes) actions :=
  congrArg (fun s => run job s actions) (step_fetched job hphase hbytes)

variable (hloading : IsLoading total s.shared) (hphase : s.phase = .choosing total lookedAtMs)
  (hoffset : offset < total)
  (htaken : (s.shared.takeRequestedOffset total).1 =
    some (normalizedStreamRequestOffset offset (some total)))

include hloading hphase hoffset htaken

/-- If the request for an offset is taken then its chunk is fetched. -/
theorem step_chooses_of_taken :
    s.shared.ranges.contains (alignStreamOffset offset) = false ∧
      s.shared.ranges.covers (chunkRange offset total) = false ∧
      ∃ requestedOffsets, s.step job .chooses =
        { s with
          shared := { s.shared with requestedOffsets }
          phase := .fetching total (chunkRange offset total)
          prefetchPaused := false } := by
  rw [normalizedStreamRequestOffset_of_lt hoffset, StreamingBytesState.takeRequestedOffset_eq]
    at htaken
  dsimp only at htaken
  have halign : alignStreamOffset offset < total := (alignStreamOffset_le offset).trans_lt hoffset
  have hmissing : s.shared.ranges.contains (alignStreamOffset offset) = false :=
    StreamingBytesState.takeUncovered_eq_some htaken
  have hrange : streamFetchRange (min (alignStreamOffset offset) (total - 1)) total =
      .ok (chunkRange offset total) := by
    rw [Nat.min_eq_left (Nat.le_sub_one_of_lt halign), streamFetchRange_eq halign hloading.le,
      chunkRange_align]
  have hcovers : s.shared.ranges.covers (chunkRange offset total) = false := by
    have hchunk := contains_chunkRange hoffset
    refine Bool.eq_false_iff.2 fun hcovers => ?_
    have hthere := RangeIndex.contains_of_covers hcovers (hchunk.1.trans hchunk.2)
    exact Bool.false_ne_true (hmissing.symm.trans hthere)
  refine ⟨hmissing, hcovers, (takeUncovered s.shared.ranges total s.shared.requestedOffsets).2, ?_⟩
  unfold step
  rw [hphase]
  dsimp only
  unfold chooses
  rw [StreamingBytesState.takeRequestedOffset_eq, htaken]
  dsimp only
  unfold fetches
  rw [hrange]
  unfold fetchesRange StreamingBytesState.covers
  dsimp only
  rw [hcovers]
  rfl

variable {bytes : List α} (hbytes : bytes.length = (chunkRange offset total).len)
  {meanwhile afterwards : List (DownloadAction α)} (hmeanwhile : ∀ a ∈ meanwhile, a.IsOutside)
  (hafterwards : ∀ a ∈ afterwards, a.IsOutside) (positionMs : Nat)

include hbytes hmeanwhile hafterwards

/-- After a round the chunks that were there before and the one that has been fetched are there, as
far as they are retained. -/
theorem run_round :
    ∃ shared : StreamingBytesState α,
      (∀ chunk, chunk ∈ shared.chunks ↔
        chunk ∈ s.shared.chunks ∨ chunk = ⟨chunkRange offset total, bytes⟩) ∧
      shared.pinnedRanges = s.shared.pinnedRanges ∧
      (run job s (DownloadAction.round bytes meanwhile afterwards positionMs)).phase =
        .looping total ∧
      (run job s (DownloadAction.round bytes meanwhile afterwards positionMs)).shared =
        retainStreamingByteWindow shared (min positionMs job.track.durationMs)
          job.track.durationMs total := by
  obtain ⟨-, hcovers, queue, hchooses⟩ :=
    step_chooses_of_taken job hloading hphase hoffset htaken
  -- decoder and player ask for other chunks at most
  obtain ⟨canceled₁, queue₁, hmeanwhile⟩ := run_outside job
    (s := s.step job .chooses) hmeanwhile
  have hfetching : (run job (s.step job .chooses) meanwhile).phase =
      .fetching total (chunkRange offset total) := by
    rw [hmeanwhile, hchooses]
  have hfetched := step_fetched job (s := run job (s.step job .chooses) meanwhile)
    hfetching hbytes
  obtain ⟨canceled₂, queue₂, hafterwards⟩ := run_outside job
    (s := (run job (s.step job .chooses) meanwhile).step job (.fetched (.ok bytes))) hafterwards
  have hrun : run job s (DownloadAction.round bytes meanwhile afterwards positionMs) =
      (run job ((run job (s.step job .chooses) meanwhile).step job (.fetched (.ok bytes)))
        afterwards).step job (.retains positionMs) := by
    rw [DownloadAction.round, run_append, run_append]
    rfl
  have hnonempty : bytes ≠ [] := by
    rintro rfl
    exact absurd hbytes (Nat.succ_ne_zero _).symm
  rw [hrun, hafterwards, hfetched, hmeanwhile, hchooses]
  refine ⟨_, fun chunk => ?_, ?_, rfl, rfl⟩
  · exact StreamingBytesState.mem_append
      (s := { s.shared with canceled := canceled₁, requestedOffsets := queue₁ }) hnonempty hcovers
  · unfold fetched StreamingBytesState.append
    dsimp only
    split_ifs <;> rfl

/-- After a round exactly the fetched chunk holds the offset, if it is kept. -/
theorem exists_chunk_round_iff (chunk : StreamingByteChunk α) :
    (chunk ∈ (run job s
          (DownloadAction.round bytes meanwhile afterwards positionMs)).shared.chunks ∧
        chunk.range.Contains offset) ↔
      chunk = ⟨chunkRange offset total, bytes⟩ ∧
        KeepsChunk s.shared.pinnedRanges (min positionMs job.track.durationMs)
          job.track.durationMs total offset := by
  obtain ⟨shared, hchunks, hpinned, -, hshared⟩ := run_round job hloading hphase hoffset htaken
    hbytes hmeanwhile hafterwards positionMs
  obtain ⟨hmissing, -⟩ := step_chooses_of_taken job hloading hphase hoffset htaken
  have hold : ∀ chunk ∈ s.shared.chunks, ¬ chunk.range.Contains offset := by
    intro chunk hchunk hcontains
    have hthere := hloading.contains_align hoffset
      ((hloading.indexed offset).2 ⟨chunk, hchunk, hcontains⟩)
    exact Bool.false_ne_true (hmissing.symm.trans hthere)
  have hretains : ∀ window : ByteRange, shared.Retains window (chunkRange offset total) ↔
      (chunkRange offset total).Overlaps window ∨
        ∃ pinned ∈ s.shared.pinnedRanges, (chunkRange offset total).Overlaps pinned := by
    intro window
    rw [StreamingBytesState.Retains, hpinned]
  rw [hshared, retainStreamingByteWindow, if_neg (Nat.ne_zero_of_lt hoffset)]
  dsimp only
  rw [StreamingBytesState.mem_retainWindow, hchunks]
  constructor
  · rintro ⟨⟨hchunk | rfl, hretained⟩, hcontains⟩
    · exact (hold chunk hchunk hcontains).elim
    · refine ⟨rfl, ?_⟩
      rw [hretains, overlaps_window_iff _ _ hloading.le hoffset] at hretained
      exact hretained
  · rintro ⟨rfl, hkeeps⟩
    refine ⟨⟨.inr rfl, ?_⟩, contains_chunkRange hoffset⟩
    rw [hretains, overlaps_window_iff _ _ hloading.le hoffset]
    exact hkeeps

end Round

/-- The byte of an offset is there, and unless the stream has been given up a read of the offset
gets it, and what follows in its chunk. -/
def IsServed (shared : StreamingBytesState α) (offset : Nat) (bytes : List α) : Prop :=
  shared.ranges.contains offset = true ∧
    (shared.canceled = false →
      ∀ len, (shared.readAt offset len false).1 = .read (bytes.take len))

/-- A read of an offset that one chunk holds gets its bytes. -/
theorem readAt_of_unique {shared : StreamingBytesState α} {total offset : Nat}
    (hloading : IsLoading total shared) (hoffset : offset < total)
    (hcanceled : shared.canceled = false) {chunk : StreamingByteChunk α}
    (hchunk : ∀ other, (other ∈ shared.chunks ∧ other.range.Contains offset) ↔ other = chunk)
    (len : Nat) :
    (shared.readAt offset len false).1 =
      .read ((chunk.bytes.drop (offset - chunk.range.start)).take len) := by
  obtain ⟨hmem, hcontains⟩ := (hchunk chunk).2 rfl
  have hfind : shared.chunks.find? (fun other => decide (other.range.Contains offset)) =
      some chunk := by
    cases hfound : shared.chunks.find? fun other => decide (other.range.Contains offset) with
    | none =>
      have hnone := List.find?_eq_none.1 hfound chunk hmem
      simp [hcontains] at hnone
    | some other =>
      have hother : other.range.Contains offset := by simpa using List.find?_some hfound
      exact congrArg some ((hchunk other).1 ⟨List.mem_of_find?_eq_some hfound, hother⟩)
  unfold StreamingBytesState.readAt
  rw [hcanceled, hloading.error, hloading.totalBytes, hfind]
  by_cases hlen : len = 0
  · rw [if_pos hlen, hlen, List.take_zero]
  · rw [if_neg hlen]
    simp [hoffset.not_ge]

section Run

variable (before : List (DownloadAction α)) {total positionMs offset : Nat}
  (hphase : (run job new before).phase = .choosing total (min positionMs job.track.durationMs))

include hphase

theorem isLoading_of_choosing :
    IsLoading total (run job new before).shared := by
  have hinv := invariant_run job before
  rwa [Invariant, hphase] at hinv

variable (hoffset : offset < total)
  (htaken : ((run job new before).shared.takeRequestedOffset total).1 =
    some (normalizedStreamRequestOffset offset (some total)))
  {bytes : List α} (hbytes : bytes.length = (chunkRange offset total).len)
  {meanwhile afterwards : List (DownloadAction α)} (hmeanwhile : ∀ a ∈ meanwhile, a.IsOutside)
  (hafterwards : ∀ a ∈ afterwards, a.IsOutside)

include hoffset htaken hbytes hmeanwhile hafterwards

/-- After a round in any run the bytes are as they should be. -/
theorem isLoading_round :
    IsLoading total
      (run job new
        (before ++ DownloadAction.round bytes meanwhile afterwards positionMs)).shared := by
  obtain ⟨-, -, -, hlooping, -⟩ := run_round job
    (isLoading_of_choosing job before hphase) hphase hoffset htaken hbytes hmeanwhile hafterwards
    positionMs
  rw [← run_append] at hlooping
  have hinv := invariant_run job
    (before ++ DownloadAction.round bytes meanwhile afterwards positionMs)
  rwa [Invariant, hlooping] at hinv

/-- After a round in any run the byte of the offset is there exactly if its chunk is kept. -/
theorem contains_round_iff :
    (run job new (before ++ DownloadAction.round bytes meanwhile afterwards
        positionMs)).shared.ranges.contains offset = true ↔
      KeepsChunk (run job new before).shared.pinnedRanges (min positionMs job.track.durationMs)
        job.track.durationMs total offset := by
  have hround := isLoading_round job before hphase hoffset htaken hbytes hmeanwhile hafterwards
  have hchunk := exists_chunk_round_iff job (isLoading_of_choosing job before hphase)
    hphase hoffset htaken hbytes hmeanwhile hafterwards positionMs
  rw [hround.indexed offset, run_append]
  constructor
  · rintro ⟨chunk, hmem, hcontains⟩
    exact ((hchunk chunk).1 ⟨hmem, hcontains⟩).2
  · exact fun hkeeps => ⟨_, (hchunk ⟨chunkRange offset total, bytes⟩).2 ⟨rfl, hkeeps⟩⟩

end Run

/-- The loop takes the request of a decoder for an offset and fetches its chunk; the playback
position is the same until the loop starts again.  Then the decoder gets its bytes exactly if the
chunk is near the playback or meets a pinned range. -/
theorem served_iff_keeps (job : DownloadJob) (before : List (DownloadAction α))
    {total positionMs offset : Nat}
    (hphase : (run job new before).phase =
      .choosing total (min positionMs job.track.durationMs))
    (hoffset : offset < total)
    (htaken : ((run job new before).shared.takeRequestedOffset total).1 =
      some (normalizedStreamRequestOffset offset (some total)))
    {bytes : List α} (hbytes : bytes.length = (chunkRange offset total).len)
    {meanwhile afterwards : List (DownloadAction α)} (hmeanwhile : ∀ a ∈ meanwhile, a.IsOutside)
    (hafterwards : ∀ a ∈ afterwards, a.IsOutside) :
    IsServed
        (run job new (before ++ DownloadAction.round bytes meanwhile afterwards positionMs)).shared
        offset (bytes.drop (offset - alignStreamOffset offset)) ↔
      KeepsChunk (run job new before).shared.pinnedRanges (min positionMs job.track.durationMs)
        job.track.durationMs total offset := by
  have hcontains := contains_round_iff job before hphase hoffset htaken hbytes hmeanwhile
    hafterwards
  constructor
  · exact fun hserved => hcontains.1 hserved.1
  · intro hkeeps
    refine ⟨hcontains.2 hkeeps, fun hcanceled len => ?_⟩
    have hchunk := exists_chunk_round_iff job (isLoading_of_choosing job before hphase)
      hphase hoffset htaken hbytes hmeanwhile hafterwards positionMs
    rw [← run_append] at hchunk
    exact readAt_of_unique
      (isLoading_round job before hphase hoffset htaken hbytes hmeanwhile hafterwards) hoffset
      hcanceled (fun other => (hchunk other).trans (and_iff_left hkeeps)) len

/-- A listener has moved to the middle of a track of one hour and a hundred mebibytes.  Its
metadata is at the front. -/
def halfway : DownloadJob where
  operationId := some "seek"
  sessionId := "session"
  track :=
    { trackId := "track", sourceKind := "bilibili", bvid := "bv", part := 1, durationMs := 3600000
      mediaInitRange := some { start := 0, endInclusive := 817 }
      mediaIndexRange := some { start := 818, endInclusive := 24417 } }
  positionMs := 1800000

/-- A whole chunk. -/
def wholeChunk : List Nat := List.replicate streamChunkBytes 0

theorem length_wholeChunk : wholeChunk.length = streamChunkBytes := List.length_replicate ..

/-- The decoder reads at the place that is played. -/
def playing : List (DownloadAction Nat) :=
  [.probed (.ok (some 104857600)), .reads 52428810 1 false, .looks 1800000]

/-- It gets the bytes. -/
theorem playing_served :
    IsServed (run halfway new
      (playing ++ DownloadAction.round wholeChunk [] [.reads 52428810 1 false] 1800000)).shared
      52428810 (wholeChunk.drop 10) := by
  have hphase : (run halfway new playing).phase =
      .choosing 104857600 (min 1800000 halfway.track.durationMs) := by decide +kernel
  have htaken : ((run halfway new playing).shared.takeRequestedOffset 104857600).1 =
      some (normalizedStreamRequestOffset 52428810 (some 104857600)) := by decide +kernel
  have hlength : wholeChunk.length = (chunkRange 52428810 104857600).len :=
    length_wholeChunk.trans (by decide +kernel)
  exact (served_iff_keeps halfway playing hphase (by decide) htaken hlength (by simp)
    (by simp [DownloadAction.IsOutside])).2 (by decide +kernel)

/-- The decoder begins to read the file while its length is probed; the place that is played is
fetched first. -/
def untilPlayed : List (DownloadAction Nat) :=
  [.reads 0 1 false, .probed (.ok (some 104857600)), .looks 1800000, .chooses]

/-- On its way to that place the decoder reads from the front of the file; it has got the first
chunk and waits for the second. -/
def scanning : List (DownloadAction Nat) :=
  untilPlayed ++ .fetched (.ok wholeChunk) :: ([.retains 1800000, .looks 1800000, .chooses] ++
    .fetched (.ok wholeChunk) :: [.retains 1800000, .reads 2097152 1 false, .looks 1800000])

/-- The place that is played has been fetched, and then the first chunk. -/
theorem run_scanning : run halfway new scanning =
    run halfway ((run halfway ((run halfway new untilPlayed).fetched
        104857600 { start := 52428800, endInclusive := 54525951 } wholeChunk)
      [.retains 1800000, .looks 1800000, .chooses]).fetched
        104857600 { start := 0, endInclusive := 2097151 } wholeChunk)
      [.retains 1800000, .reads 2097152 1 false, .looks 1800000] := by
  have hplayed : (run halfway new untilPlayed).phase =
      .fetching 104857600 { start := 52428800, endInclusive := 54525951 } := by decide +kernel
  have hfront : (run halfway ((run halfway new untilPlayed).fetched
        104857600 { start := 52428800, endInclusive := 54525951 } wholeChunk)
      [.retains 1800000, .looks 1800000, .chooses]).phase =
      .fetching 104857600 { start := 0, endInclusive := 2097151 } := by decide +kernel
  rw [scanning, run_append,
    run_cons_fetched halfway hplayed (length_wholeChunk.trans (by decide +kernel)), run_append,
    run_cons_fetched halfway hfront (length_wholeChunk.trans (by decide +kernel))]

/-- The round in which the second chunk has been fetched. -/
theorem run_scanning_round (later : List (DownloadAction Nat)) :
    run halfway new (scanning ++ DownloadAction.round wholeChunk [] [] 1800000 ++ later) =
      run halfway ((run halfway (run halfway new scanning) [.chooses]).fetched
        104857600 (chunkRange 2097152 104857600) wholeChunk) (.retains 1800000 :: later) := by
  have hround : scanning ++ DownloadAction.round wholeChunk [] [] 1800000 ++ later =
      scanning ++ ([.chooses] ++ .fetched (.ok wholeChunk) :: .retains 1800000 :: later) :=
    List.append_assoc ..
  have hfetching : (run halfway (run halfway new scanning) [.chooses]).phase =
      .fetching 104857600 (chunkRange 2097152 104857600) := by
    rw [run_scanning]
    decide +kernel
  rw [hround, run_append, run_append,
    run_cons_fetched halfway hfetching (length_wholeChunk.trans (by decide +kernel))]

/-- The second chunk is fetched and dropped at once; when the decoder looks again, it is fetched
again. -/
theorem scanning_not_served :
    ((run halfway new scanning).phase = .choosing 104857600 1800000 ∧
      ((run halfway new scanning).shared.takeRequestedOffset 104857600).1 =
        some (normalizedStreamRequestOffset 2097152 (some 104857600)) ∧
      wholeChunk.length = (chunkRange 2097152 104857600).len) ∧
    ¬ IsServed (run halfway new
      (scanning ++ DownloadAction.round wholeChunk [] [] 1800000)).shared 2097152 wholeChunk ∧
    (run halfway new (scanning ++ DownloadAction.round wholeChunk [] [] 1800000 ++
      [.reads 2097152 1 false, .looks 1800000, .chooses])).phase =
        .fetching 104857600 (chunkRange 2097152 104857600) := by
  have hdropped : (run halfway new (scanning ++
      DownloadAction.round wholeChunk [] [] 1800000)).shared.ranges.contains 2097152 = false := by
    rw [← List.append_nil (scanning ++ _), run_scanning_round, run_scanning]
    decide +kernel
  refine ⟨⟨?_, ?_, length_wholeChunk.trans (by decide +kernel)⟩, fun hserved => ?_, ?_⟩
  · rw [run_scanning]
    decide +kernel
  · rw [run_scanning]
    decide +kernel
  · exact Bool.false_ne_true (hdropped.symm.trans hserved.1)
  · rw [run_scanning_round, run_scanning]
    decide +kernel

end DownloadState

end LightEar
