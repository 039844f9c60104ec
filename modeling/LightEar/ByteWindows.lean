import LightEar.MediaRanges

/-!
# Windows of a media file

A position of a track stands for a place of its file, a window for the bytes from the place of its
start to a little behind that of its end.  The player and the cache each work this out on their
own, and clamp at other places; the range is the same (`rangeForWindow_eq`), and always one of the
file (`streamByteRangeForWindow_bounds`).
-/

namespace LightEar

open Foundation

/-- How much is to be played before the player is content. -/
def highWatermarkMs : Nat := 15000

section Window

variable (positionMs durationMs : Nat) {total : Nat}

/-- A place lies in the file. -/
theorem streamByteOffsetForPosition_lt (htotal : 0 < total) :
    streamByteOffsetForPosition positionMs durationMs total < total := by
  unfold streamByteOffsetForPosition
  split
  · exact htotal
  · exact (min_le_right _ _).trans_lt (Nat.sub_lt htotal Nat.one_pos)

/-- What is downloaded ahead begins at the place that is played and ends in the file. -/
theorem streamByteRangeForWindow_bounds (windowMs : Nat) (htotal : 0 < total) :
    streamByteOffsetForPosition positionMs durationMs total ≤
        (streamByteRangeForWindow positionMs windowMs durationMs total).endInclusive ∧
      (streamByteRangeForWindow positionMs windowMs durationMs total).endInclusive < total := by
  have hstart := streamByteOffsetForPosition_lt positionMs durationMs htotal
  unfold streamByteRangeForWindow
  rw [if_neg htotal.ne']
  exact ⟨le_max_right _ _, max_lt ((min_le_right _ _).trans_lt (Nat.sub_lt htotal Nat.one_pos))
    hstart⟩

/-- A product that is small enough does not saturate. -/
theorem satMul_eq {a b : Nat} (h : a * b < 2 ^ 64) : satMul a b = a * b := by
  refine min_eq_left ?_
  unfold u64Max
  omega

/-- A place behind the end of the file may be clamped before the extra bytes as well. -/
theorem min_satAdd_min (place extra last : Nat) :
    min (satAdd place extra) last = min (satAdd (min place last) extra) last := by
  unfold satAdd
  generalize u64Max = largest
  omega

variable {positionMs durationMs}

/-- The place of a position is a share of the file, or its last byte. -/
theorem streamByteOffsetForPosition_eq (hduration : 0 < durationMs) (htotal : 0 < total)
    (hbound : durationMs * total < 2 ^ 64) (positionMs : Nat) :
    streamByteOffsetForPosition positionMs durationMs total =
      min (positionMs * total / durationMs) (total - 1) := by
  have hproduct : min positionMs durationMs * total < 2 ^ 64 :=
    (Nat.mul_le_mul_right total (min_le_right _ _)).trans_lt hbound
  unfold streamByteOffsetForPosition
  rw [if_neg (not_or.2 ⟨hduration.ne', htotal.ne'⟩), satMul_eq hproduct]
  rcases le_total positionMs durationMs with hle | hge
  · rw [min_eq_left hle]
  · -- behind the end of the track both are the last byte
    have hend : total ≤ positionMs * total / durationMs := by
      rw [Nat.le_div_iff_mul_le hduration, Nat.mul_comm total]
      exact Nat.mul_le_mul_right total hge
    rw [min_eq_right hge, Nat.mul_div_cancel_left _ hduration, min_eq_right (Nat.sub_le _ _),
      min_eq_right ((Nat.sub_le _ _).trans hend)]

/-- A later position has a later place, or the same. -/
theorem streamByteOffsetForPosition_mono (durationMs total : Nat) :
    Monotone fun positionMs => streamByteOffsetForPosition positionMs durationMs total := by
  intro earlier later hle
  dsimp only
  unfold streamByteOffsetForPosition satMul
  split_ifs
  · exact le_rfl
  · have hproduct : min earlier durationMs * total ≤ min later durationMs * total :=
      Nat.mul_le_mul_right total (min_le_min_right _ hle)
    exact min_le_min_right _ (Nat.div_le_div_right (min_le_min_right _ hproduct))

/-- The player and the cache find the same range. -/
theorem rangeForWindow_eq (hduration : 0 < durationMs) (htotal : 0 < total)
    (hbound : (positionMs + durationMs) * total < 2 ^ 64) :
    rangeForWindow positionMs durationMs total =
      streamByteRangeForWindow positionMs highWatermarkMs durationMs total := by
  rw [Nat.add_mul] at hbound
  have hposition : positionMs * total < 2 ^ 64 := by omega
  have hduration' : durationMs * total < 2 ^ 64 := by omega
  have hend : min (satAdd positionMs 15000) durationMs * total < 2 ^ 64 :=
    (Nat.mul_le_mul_right total (min_le_right _ _)).trans_lt hduration'
  unfold rangeForWindow streamByteRangeForWindow highWatermarkMs
  rw [if_neg (not_or.2 ⟨hduration.ne', htotal.ne'⟩), if_neg htotal.ne']
  simp only [streamByteOffsetForPosition_eq hduration htotal hduration', satMul_eq hposition,
    satMul_eq hend]
  rw [min_satAdd_min]

end Window

/-! ## Ranges of the file -/

/-- A range of a file: not empty, and not behind its last byte. -/
def ByteRange.IsWithin (range : ByteRange) (total : Nat) : Prop :=
  range.start ≤ range.endInclusive ∧ range.endInclusive ≤ total - 1

/-- What is downloaded ahead is a range of the file that begins at the place of the position. -/
theorem isWithin_streamByteRangeForWindow (positionMs windowMs durationMs : Nat) {total : Nat}
    (htotal : 0 < total) :
    (streamByteRangeForWindow positionMs windowMs durationMs total).IsWithin total ∧
      (streamByteRangeForWindow positionMs windowMs durationMs total).Contains
        (streamByteOffsetForPosition positionMs durationMs total) := by
  obtain ⟨hfirst, hlast⟩ := streamByteRangeForWindow_bounds positionMs durationMs windowMs htotal
  have hstart : (streamByteRangeForWindow positionMs windowMs durationMs total).start =
      streamByteOffsetForPosition positionMs durationMs total := by
    rw [streamByteRangeForWindow, if_neg htotal.ne']
  exact ⟨⟨hstart.trans_le hfirst, Nat.le_pred_of_lt hlast⟩, hstart.le, hfirst⟩

/-- A chunk of an offset is one of the file. -/
theorem isWithin_chunkRange {offset total : Nat} (h : offset < total) :
    (chunkRange offset total).IsWithin total :=
  ⟨(contains_chunkRange h).1.trans (contains_chunkRange h).2, min_le_right _ _⟩

/-- A chunk has at most the size of one. -/
theorem len_chunkRange_le {offset total : Nat} (h : offset < total) :
    (chunkRange offset total).len ≤ streamChunkBytes := by
  have hpos : 0 < streamChunkBytes := by decide
  have hwithin := (isWithin_chunkRange h).1
  have hend : (chunkRange offset total).endInclusive ≤
      (chunkRange offset total).start + streamChunkBytes - 1 := min_le_left _ _
  unfold ByteRange.len
  omega

/-- A chunk begins at a multiple of the size. -/
theorem alignStreamOffset_mod (offset : Nat) : alignStreamOffset offset % streamChunkBytes = 0 := by
  unfold alignStreamOffset
  exact Nat.sub_mod_eq_zero_of_mod_eq (Nat.mod_mod _ _).symm

/-- A range is added once. -/
theorem mem_pushUniqueStreamRange {ranges : List ByteRange} {range other : ByteRange} :
    other ∈ pushUniqueStreamRange ranges range ↔ other ∈ ranges ∨ other = range := by
  unfold pushUniqueStreamRange
  split_ifs with hmem
  · refine ⟨.inl, ?_⟩
    rintro (hother | rfl)
    · exact hother
    · exact hmem
  · rw [List.mem_append, List.mem_singleton]

theorem nodup_pushUniqueStreamRange {ranges : List ByteRange} (h : ranges.Nodup)
    (range : ByteRange) : (pushUniqueStreamRange ranges range).Nodup := by
  unfold pushUniqueStreamRange
  split_ifs with hmem
  · exact h
  · exact List.nodup_append.2 ⟨h, List.nodup_singleton _, by
      rintro other hother _ hrange rfl
      exact hmem (List.mem_singleton.1 hrange ▸ hother)⟩

/-- Without hints, the first chunk and the last two are fetched, or the only one. -/
theorem streamMetadataPrefetchRanges_nil {total : Nat} (htotal : 0 < total)
    (hlargest : total ≤ u64Max) :
    streamMetadataPrefetchRanges [] total =
      .ok (if streamChunkBytes < total then
        pushUniqueStreamRange (pushUniqueStreamRange (pushUniqueStreamRange []
          (chunkRange 0 total))
            (chunkRange (alignStreamOffset (total - 1) - streamChunkBytes) total))
              (chunkRange (total - 1) total)
      else pushUniqueStreamRange [] (chunkRange 0 total)) := by
  have hbind : ∀ range (next : ByteRange → Except String (List ByteRange)),
      (Except.ok range >>= next) = next range := fun _ _ => rfl
  have hhints : ¬ (!([] : List ByteRange).isEmpty) = true := by simp
  unfold streamMetadataPrefetchRanges
  rw [if_neg htotal.ne', if_neg hhints, streamFetchRange_eq htotal hlargest, hbind]
  dsimp only
  by_cases hlong : streamChunkBytes < total
  · have hfinal := alignStreamOffset_le (total - 1)
    have hbehind := lt_alignStreamOffset_add (total - 1)
    have hpos : 0 < alignStreamOffset (total - 1) := by omega
    have hbeforeLt : alignStreamOffset (total - 1) - streamChunkBytes < total := by omega
    have hendLt : alignStreamOffset (total - 1) < total := by omega
    rw [if_pos hlong, if_pos hlong, if_pos hpos, streamFetchRange_eq hbeforeLt hlargest, hbind,
      pure_bind, streamFetchRange_eq hendLt hlargest, hbind, chunkRange_align]
    rfl
  · rw [if_neg hlong, if_neg hlong]
    rfl

/-- A file of one chunk has its last byte in the first one. -/
theorem chunkRange_last_of_short {total : Nat} (htotal : 0 < total)
    (hshort : ¬ streamChunkBytes < total) : chunkRange (total - 1) total = chunkRange 0 total := by
  have hzero : alignStreamOffset 0 = 0 := Nat.zero_sub _
  have hsame : alignStreamOffset (total - 1) = alignStreamOffset 0 := by
    refine alignStreamOffset_eq_iff.2 ⟨?_, ?_⟩
    · rw [hzero]
      exact Nat.zero_le _
    · rw [hzero]
      omega
  unfold chunkRange
  rw [hsame]

/-- Without hints, what is fetched first are chunks of the file without repetition, among them the
first one and the last one. -/
theorem streamMetadataPrefetchRanges_spec {total : Nat} (htotal : 0 < total)
    (hlargest : total ≤ u64Max) :
    ∃ ranges, streamMetadataPrefetchRanges [] total = .ok ranges ∧ ranges.Nodup ∧
      (∀ range ∈ ranges, ∃ offset < total, range = chunkRange offset total) ∧
      chunkRange 0 total ∈ ranges ∧ chunkRange (total - 1) total ∈ ranges := by
  have hlast : total - 1 < total := Nat.sub_lt htotal Nat.one_pos
  have hbeforeLt : alignStreamOffset (total - 1) - streamChunkBytes < total :=
    (Nat.sub_le _ _).trans_lt ((alignStreamOffset_le _).trans_lt hlast)
  have hnodup : (pushUniqueStreamRange [] (chunkRange 0 total)).Nodup :=
    nodup_pushUniqueStreamRange List.nodup_nil _
  rw [streamMetadataPrefetchRanges_nil htotal hlargest]
  split_ifs with hlong
  · refine ⟨_, rfl, nodup_pushUniqueStreamRange (nodup_pushUniqueStreamRange hnodup _) _, ?_, ?_,
      ?_⟩
    · intro range hrange
      simp only [mem_pushUniqueStreamRange, List.not_mem_nil, false_or] at hrange
      rcases hrange with (rfl | rfl) | rfl
      · exact ⟨0, htotal, rfl⟩
      · exact ⟨_, hbeforeLt, rfl⟩
      · exact ⟨_, hlast, rfl⟩
    · simp [mem_pushUniqueStreamRange]
    · simp [mem_pushUniqueStreamRange]
  · refine ⟨_, rfl, hnodup, ?_, ?_, ?_⟩
    · intro range hrange
      rw [mem_pushUniqueStreamRange] at hrange
      exact ⟨0, htotal, hrange.resolve_left List.not_mem_nil⟩
    · simp [mem_pushUniqueStreamRange]
    · rw [chunkRange_last_of_short htotal hlong]
      simp [mem_pushUniqueStreamRange]

/-- What is to be expected of the windows of a position: they are ranges of the file with the place
of the position, and so are the chunks. -/
structure ByteWindowsAgree (positionMs windowMs durationMs total : Nat) : Prop where
  /-- A position has a place in the file. -/
  place : streamByteOffsetForPosition positionMs durationMs total ≤ total - 1
  /-- A later position has a later one, or the same. -/
  mono : Monotone fun position => streamByteOffsetForPosition position durationMs total
  /-- The window of the player is a range of the file. -/
  player : (streamByteRangeForWindow positionMs windowMs durationMs total).IsWithin total
  /-- The place is in it. -/
  player_place : (streamByteRangeForWindow positionMs windowMs durationMs total).Contains
    (streamByteOffsetForPosition positionMs durationMs total)
  /-- The window of the cache is a range of the file. -/
  cache : (rangeForWindow positionMs durationMs total).IsWithin total
  /-- The place is in it. -/
  cache_place : (rangeForWindow positionMs durationMs total).Contains
    (streamByteOffsetForPosition positionMs durationMs total)
  /-- The windows of the same length are the same. -/
  agree : rangeForWindow positionMs durationMs total =
    streamByteRangeForWindow positionMs highWatermarkMs durationMs total
  /-- Without hints, different ranges of the file are fetched first, with its first byte and its
  last one among them. -/
  prefetch : ∃ ranges, streamMetadataPrefetchRanges [] total = .ok ranges ∧ ranges.Nodup ∧
    (∀ range ∈ ranges, range.IsWithin total) ∧ (∃ range ∈ ranges, range.Contains 0) ∧
      ∃ range ∈ ranges, range.Contains (total - 1)
  /-- For an offset, no more than a chunk of the file is fetched, from the start of a chunk on, and
  the offset is in it. -/
  fetch : ∀ offset < total, ∃ range, streamFetchRange offset total = .ok range ∧
    range.start % streamChunkBytes = 0 ∧ range.Contains offset ∧ range.endInclusive < total ∧
      range.len ≤ streamChunkBytes

/-- The windows of a position are those to be expected, as long as no product is too large. -/
theorem byteWindows_agree {positionMs durationMs total : Nat} (windowMs : Nat)
    (htotal : 1 ≤ total) (hduration : 0 < durationMs)
    (hbound : (positionMs + durationMs) * total < 2 ^ 64) :
    ByteWindowsAgree positionMs windowMs durationMs total := by
  have hlast : total - 1 < total := Nat.sub_lt htotal Nat.one_pos
  have hlargest : total ≤ u64Max := by
    have hle : total ≤ (positionMs + durationMs) * total :=
      Nat.le_mul_of_pos_left total (Nat.add_pos_right positionMs hduration)
    unfold u64Max
    omega
  have hagree := rangeForWindow_eq hduration htotal hbound
  obtain ⟨hplayer, hplayerPlace⟩ :=
    isWithin_streamByteRangeForWindow positionMs windowMs durationMs htotal
  obtain ⟨hcache, hcachePlace⟩ :=
    isWithin_streamByteRangeForWindow positionMs highWatermarkMs durationMs htotal
  refine ⟨?_, streamByteOffsetForPosition_mono durationMs total, hplayer, hplayerPlace, ?_, ?_,
    hagree, ?_, ?_⟩
  · exact Nat.le_pred_of_lt (streamByteOffsetForPosition_lt positionMs durationMs htotal)
  · rw [hagree]
    exact hcache
  · rw [hagree]
    exact hcachePlace
  · obtain ⟨ranges, hranges, hnodup, hchunks, hfirst, hfinal⟩ :=
      streamMetadataPrefetchRanges_spec htotal hlargest
    refine ⟨ranges, hranges, hnodup, fun range hrange => ?_, ⟨_, hfirst, ?_⟩, ⟨_, hfinal, ?_⟩⟩
    · obtain ⟨offset, hoffset, rfl⟩ := hchunks range hrange
      exact isWithin_chunkRange hoffset
    · exact contains_chunkRange htotal
    · exact contains_chunkRange hlast
  · intro offset hoffset
    refine ⟨_, streamFetchRange_eq hoffset hlargest, alignStreamOffset_mod offset,
      contains_chunkRange hoffset, ?_, len_chunkRange_le hoffset⟩
    exact (isWithin_chunkRange hoffset).2.trans_lt hlast

/-- The main result behind the end of a track. -/
theorem byteWindows_agree_behind : ByteWindowsAgree 4000 30000 3000 100000 :=
  byteWindows_agree 30000 (by decide) (by decide) (by decide)

end LightEar
