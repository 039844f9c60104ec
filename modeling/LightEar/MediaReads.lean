import LightEar.StreamingBytes

/-!
# Reading the downloaded bytes

Downloader, decoder and player share the bytes of a stream and change them in any order.  If every
chunk that is appended is a part of one media file, then the chunks stay parts of that file, and
the index stays that of the chunks (`StreamingBytesState.HoldsMedia`); so a read of an offset that
the index has ends at once and returns bytes of the file from there on
(`StreamingBytesState.reads_media`).

Chunks may overlap, lie in each other or come twice.
-/

namespace LightEar

open Foundation

universe u

variable {α : Type u}

/-- What downloader, decoder and player do with the shared bytes. -/
inductive BytesAction (α : Type u) where
  | setTotal (total : Option Nat)
  | append (bytes : List α) (range : ByteRange)
  | pinRanges (ranges : List ByteRange)
  | retainWindow (retainStart retainEnd : Nat)
  | fail (error : String)
  | cancel
  | requestOffset (offset : Nat)
  | prioritizeOffset (offset : Nat)
  | takeRequestedOffset (total : Nat)
  | readAt (offset len : Nat) (decoderCanceled : Bool)
  deriving DecidableEq, Repr

/-- A chunk is a part of the media file. -/
structure StreamingByteChunk.IsPartOf (chunk : StreamingByteChunk α) (media : List α) :
    Prop where
  /-- The range is not empty. -/
  valid : chunk.range.start ≤ chunk.range.endInclusive
  /-- There is one byte for each offset of the range. -/
  length : chunk.bytes.length = chunk.range.len
  /-- They are the bytes of the file. -/
  agrees : chunk.bytes <+: media.drop chunk.range.start

namespace StreamingByteChunk.IsPartOf

variable {chunk : StreamingByteChunk α} {media : List α} {offset : Nat}

/-- The offsets of a part of the file lie in the file. -/
theorem lt_length (h : chunk.IsPartOf media) (hoffset : chunk.range.Contains offset) :
    offset < media.length := by
  have hvalid := h.valid
  have hlength := h.length
  have hle := h.agrees.length_le
  have hlast := hoffset.2
  rw [List.length_drop, hlength] at hle
  unfold ByteRange.len at hle
  omega

/-- From any of its offsets on, a part of the file reads as the file does. -/
theorem read (h : chunk.IsPartOf media) {len : Nat} (hlen : len ≠ 0)
    (hoffset : chunk.range.Contains offset) :
    (chunk.bytes.drop (offset - chunk.range.start)).take len ≠ [] ∧
      (chunk.bytes.drop (offset - chunk.range.start)).take len <+: media.drop offset := by
  have hfirst := hoffset.1
  have hlast := hoffset.2
  have hlength := h.length
  unfold ByteRange.len at hlength
  constructor
  · intro hnil
    have hzero := congrArg List.length hnil
    rw [List.length_take, List.length_drop, List.length_nil] at hzero
    omega
  · have hdrop := h.agrees.drop (offset - chunk.range.start)
    rw [List.drop_drop, Nat.add_sub_cancel' hfirst] at hdrop
    exact (List.take_prefix _ _).trans hdrop

end StreamingByteChunk.IsPartOf

/-- What is appended is a part of the media file. -/
def BytesAction.IsFrom (media : List α) : BytesAction α → Prop
  | append bytes range => StreamingByteChunk.IsPartOf ⟨range, bytes⟩ media
  | _ => True

/-- What is appended has a property. -/
def BytesAction.AppendsOnly (P : StreamingByteChunk α → Prop) : BytesAction α → Prop
  | append bytes range => P ⟨range, bytes⟩
  | _ => True

namespace StreamingBytesState

/-- The state after an action. -/
def perform (s : StreamingBytesState α) : BytesAction α → StreamingBytesState α
  | .setTotal total => s.setTotal total
  | .append bytes range => s.append bytes range
  | .pinRanges ranges => s.pinRanges ranges
  | .retainWindow retainStart retainEnd => s.retainWindow retainStart retainEnd
  | .fail error => s.fail error
  | .cancel => s.cancel
  | .requestOffset offset => s.requestOffset offset
  | .prioritizeOffset offset => s.prioritizeOffset offset
  | .takeRequestedOffset total => (s.takeRequestedOffset total).2
  | .readAt offset len decoderCanceled => (s.readAt offset len decoderCanceled).2

/-- The state after a list of actions. -/
def performAll (s : StreamingBytesState α) (actions : List (BytesAction α)) :
    StreamingBytesState α :=
  actions.foldl perform s

theorem performAll_concat (s : StreamingBytesState α) (actions : List (BytesAction α))
    (action : BytesAction α) :
    s.performAll (actions ++ [action]) = (s.performAll actions).perform action :=
  List.foldl_concat _ _ _ _

/-- What holds before the first action and is kept by each holds after all of them. -/
theorem performAll_induction {P : StreamingBytesState α → Prop} {allowed : BytesAction α → Prop}
    (hnew : P new) (hperform : ∀ s action, P s → allowed action → P (s.perform action))
    {actions : List (BytesAction α)} (hactions : ∀ a ∈ actions, allowed a) :
    P ((new : StreamingBytesState α).performAll actions) := by
  induction actions using List.reverseRecOn with
  | nil => exact hnew
  | append_singleton actions action ih =>
    have hbefore := ih fun a ha => hactions a (List.mem_append_left _ ha)
    have hlast : allowed action :=
      hactions action (List.mem_append_right _ (List.mem_singleton_self action))
    rw [performAll_concat]
    exact hperform _ action hbefore hlast

/-- Every chunk has a property, and the index is that of the chunks. -/
structure HoldsOnly (s : StreamingBytesState α) (P : StreamingByteChunk α → Prop) : Prop where
  /-- The index says which bytes the chunks hold. -/
  indexed : s.IsIndexed
  /-- Every chunk has the property. -/
  chunks : ∀ chunk ∈ s.chunks, P chunk

namespace HoldsOnly

variable {s : StreamingBytesState α} {P : StreamingByteChunk α → Prop}

theorem new (P : StreamingByteChunk α → Prop) : (new : StreamingBytesState α).HoldsOnly P where
  indexed := isIndexed_new
  chunks := nofun

/-- Only chunks and index matter. -/
theorem congr (h : s.HoldsOnly P) {s' : StreamingBytesState α} (hchunks : s'.chunks = s.chunks)
    (hranges : s'.ranges = s.ranges) : s'.HoldsOnly P where
  indexed := fun offset => by
    rw [hchunks, hranges]
    exact h.indexed offset
  chunks := fun chunk hchunk => h.chunks chunk (hchunks ▸ hchunk)

theorem append (h : s.HoldsOnly P) {bytes : List α} {range : ByteRange} (hnew : P ⟨range, bytes⟩) :
    (s.append bytes range).HoldsOnly P where
  indexed := h.indexed.append bytes range
  chunks := by
    intro chunk hchunk
    rcases mem_or_eq_of_mem_append hchunk with hold | rfl
    · exact h.chunks chunk hold
    · exact hnew

theorem retainWindow (h : s.HoldsOnly P) (retainStart retainEnd : Nat) :
    (s.retainWindow retainStart retainEnd).HoldsOnly P where
  indexed := s.isIndexed_retainWindow retainStart retainEnd
  chunks := fun chunk hchunk => h.chunks chunk (mem_retainWindow.1 hchunk).1

/-- Every action leaves only chunks with the property, if it appends only such. -/
theorem perform (h : s.HoldsOnly P) {action : BytesAction α} (haction : action.AppendsOnly P) :
    (s.perform action).HoldsOnly P := by
  cases action with
  | setTotal total => exact h.congr rfl rfl
  | append bytes range => exact h.append haction
  | pinRanges ranges => exact h.congr rfl rfl
  | retainWindow retainStart retainEnd => exact h.retainWindow retainStart retainEnd
  | fail error => exact h.congr rfl rfl
  | cancel => exact h.congr rfl rfl
  | requestOffset offset =>
    obtain ⟨queue, hqueue⟩ := s.ask_eq offset false
    change (s.ask offset false).HoldsOnly P
    rw [hqueue]
    exact h.congr rfl rfl
  | prioritizeOffset offset =>
    obtain ⟨queue, hqueue⟩ := s.ask_eq offset true
    change (s.ask offset true).HoldsOnly P
    rw [hqueue]
    exact h.congr rfl rfl
  | takeRequestedOffset total => exact h.congr rfl rfl
  | readAt offset len decoderCanceled =>
    obtain ⟨queue, hqueue⟩ := s.readAt_eq offset len decoderCanceled
    change (s.readAt offset len decoderCanceled).2.HoldsOnly P
    rw [hqueue]
    exact h.congr rfl rfl

/-- So do all actions together. -/
theorem performAll {actions : List (BytesAction α)} (hactions : ∀ a ∈ actions, a.AppendsOnly P) :
    ((StreamingBytesState.new : StreamingBytesState α).performAll actions).HoldsOnly P :=
  performAll_induction (P := fun s => s.HoldsOnly P) (.new P)
    (fun _ _ hbefore haction => hbefore.perform haction) hactions

end HoldsOnly

/-- The chunks are parts of the media file, and the index is theirs. -/
structure HoldsMedia (s : StreamingBytesState α) (media : List α) : Prop where
  /-- The index says which bytes the chunks hold. -/
  indexed : s.IsIndexed
  /-- Every chunk is a part of the file. -/
  parts : ∀ chunk ∈ s.chunks, chunk.IsPartOf media

/-- The shared bytes stay parts of the media file. -/
theorem HoldsMedia.performAll {media : List α} {actions : List (BytesAction α)}
    (hactions : ∀ a ∈ actions, a.IsFrom media) :
    ((StreamingBytesState.new : StreamingBytesState α).performAll actions).HoldsMedia media := by
  have hparts : ∀ a ∈ actions, a.AppendsOnly (·.IsPartOf media) := by
    intro a ha
    have hfrom := hactions a ha
    cases a <;> exact hfrom
  have hholds := HoldsOnly.performAll hparts
  exact ⟨hholds.indexed, hholds.chunks⟩

/-! ## Reads -/

/-- What a read on a live stream finds before the end of the file. -/
theorem readAt_live (s : StreamingBytesState α) {offset len : Nat} (hcanceled : s.canceled = false)
    (herror : s.error = none) (hlen : len ≠ 0) (htotal : ∀ total ∈ s.totalBytes, offset < total)
    {chunk : StreamingByteChunk α}
    (hchunk : s.chunks.find? (fun chunk => decide (chunk.range.Contains offset)) = some chunk) :
    (s.readAt offset len false).1 =
      .read ((chunk.bytes.drop (offset - chunk.range.start)).take len) := by
  have hinside : (s.totalBytes.any fun total => decide (total ≤ offset)) = false := by
    rw [Option.any_eq_false]
    intro total hknown
    simpa using htotal total hknown
  unfold readAt
  rw [if_neg hlen, hcanceled, herror, hinside, hchunk]
  rfl

/-- A read returns nothing for an empty buffer and at the end of the file only, where every chunk
is a part of the file. -/
theorem HoldsMedia.of_read_nil {s : StreamingBytesState α} {media : List α}
    (h : s.HoldsMedia media) {offset len : Nat} {decoderCanceled : Bool}
    (hread : (s.readAt offset len decoderCanceled).1 = .read []) :
    len = 0 ∨ ∃ total ∈ s.totalBytes, total ≤ offset := by
  by_cases hlen : len = 0
  · exact .inl hlen
  · right
    unfold readAt at hread
    rw [if_neg hlen] at hread
    split at hread
    · cases hread
    · split at hread
      · cases hread
      · split at hread
        · rename_i hend
          simpa [Option.any_eq_true] using hend
        · split at hread
          · rename_i chunk hchunk
            have hpart := h.parts chunk (List.mem_of_find?_eq_some hchunk)
            have hcontains : chunk.range.Contains offset := by
              simpa using List.find?_some hchunk
            exact absurd (ReadOutcome.read.inj hread) (hpart.read hlen hcontains).1
          · cases hread

/-- If every chunk that has been appended is a part of the media file, then the index has exactly
the offsets of the chunks; retaining a window drops no chunk that meets it or a pinned range; a
read on a live stream of an offset that the index has returns at least one byte, and bytes of the
file from there on, unless it lies past a length noted for the file that is not the file's; and no
bytes are returned only for an empty buffer, or at or past the length noted. -/
theorem reads_media {media : List α} {actions : List (BytesAction α)}
    (hactions : ∀ a ∈ actions, a.IsFrom media) :
    let s := (new : StreamingBytesState α).performAll actions
    (∀ offset, s.ranges.contains offset = true ↔
      ∃ chunk ∈ s.chunks, chunk.range.Contains offset) ∧
    (∀ retainStart retainEnd, ∀ chunk ∈ s.chunks,
      chunk.range.Overlaps ⟨retainStart, max retainEnd retainStart⟩ ∨
          (∃ pinned ∈ s.pinnedRanges, chunk.range.Overlaps pinned) →
        chunk ∈ (s.perform (.retainWindow retainStart retainEnd)).chunks) ∧
    (∀ offset len, s.canceled = false → s.error = none → s.ranges.contains offset = true →
      len ≠ 0 →
        (∃ total ∈ s.totalBytes, total ≤ offset ∧ total ≠ media.length) ∨
        ∃ bytes, (s.readAt offset len false).1 = .read bytes ∧ bytes ≠ [] ∧
          bytes.length ≤ len ∧ bytes <+: media.drop offset) ∧
    ∀ offset len decoderCanceled, (s.readAt offset len decoderCanceled).1 = .read [] →
      len = 0 ∨ ∃ total ∈ s.totalBytes, total ≤ offset := by
  intro s
  have hmedia : s.HoldsMedia media := .performAll hactions
  refine ⟨hmedia.indexed, ?_, ?_, fun offset len decoderCanceled => hmedia.of_read_nil⟩
  · intro retainStart retainEnd chunk hchunk hretains
    exact mem_retainWindow.2 ⟨hchunk, hretains⟩
  · intro offset len hcanceled herror hcovered hlen
    by_cases hpast : ∃ total ∈ s.totalBytes, total ≤ offset ∧ total ≠ media.length
    · exact .inl hpast
    · right
      obtain ⟨held, hheld, hcontains⟩ := (hmedia.indexed offset).1 hcovered
      have hinside : offset < media.length := (hmedia.parts held hheld).lt_length hcontains
      have htotal : ∀ total ∈ s.totalBytes, offset < total := by
        intro total hknown
        by_contra hend
        have hlength : total = media.length := by
          by_contra hother
          exact hpast ⟨total, hknown, not_lt.1 hend, hother⟩
        omega
      have hfound : (s.chunks.find? fun chunk => decide (chunk.range.Contains offset)).isSome =
          true := List.find?_isSome.2 ⟨held, hheld, by simpa using hcontains⟩
      obtain ⟨chunk, hchunk⟩ := Option.isSome_iff_exists.1 hfound
      have hpart := hmedia.parts chunk (List.mem_of_find?_eq_some hchunk)
      have hchunkContains : chunk.range.Contains offset := by
        simpa using List.find?_some hchunk
      obtain ⟨hnonempty, hread⟩ := hpart.read hlen hchunkContains
      refine ⟨_, s.readAt_live hcanceled herror hlen htotal hchunk, hnonempty, ?_, hread⟩
      exact List.length_take_le _ _

/-- Two chunks that overlap, and a window that meets one of them. -/
def overlappingActions : List (BytesAction Nat) := [
  .append [0, 1, 2, 3] ⟨0, 3⟩, .append [2, 3, 4, 5] ⟨2, 5⟩, .retainWindow 5 9]

/-- The main result for the overlapping chunks: byte 2 is still there, from the second one. -/
theorem reads_media_overlapping :
    (∃ total ∈ ((new : StreamingBytesState Nat).performAll overlappingActions).totalBytes,
      total ≤ 2 ∧ total ≠ [0, 1, 2, 3, 4, 5, 6].length) ∨
    ∃ bytes, ((new : StreamingBytesState Nat).performAll overlappingActions |>.readAt 2 8
        false).1 = .read bytes ∧ bytes ≠ [] ∧ bytes.length ≤ 8 ∧
      bytes <+: [0, 1, 2, 3, 4, 5, 6].drop 2 := by
  have hactions : ∀ a ∈ overlappingActions, a.IsFrom [0, 1, 2, 3, 4, 5, 6] := by
    simp only [overlappingActions, List.forall_mem_cons]
    exact ⟨⟨by decide, by decide, by decide⟩, ⟨by decide, by decide, by decide⟩, trivial, nofun⟩
  exact (reads_media hactions).2.2.1 2 8 rfl rfl (by decide) (by decide)

end StreamingBytesState

end LightEar
