import LightEar.StreamingBytes
import Mathlib.Order.Bounds.Basic

/-!
# What the range index says

The ranges of the index are kept in a normal form: sorted, none empty, and with a gap between any
two (`RangeIndex.IsNormal`).  Adding a range keeps it, as long as no range reaches the largest
`u64`, after which there would be no gap to see.

The queries look at single ranges, or go through them once.  In the normal form they say what is
true of the bytes: whether all bytes of a range are there, how far they go on from a place, and
which is the first one missing (`RangeIndex.says_bytes`).
-/

namespace LightEar

open Foundation

universe u

variable {α : Type u}

namespace RangeIndex

/-! ## The normal form -/

/-- Sorted ranges with gaps between them, none of which is empty or reaches the largest `u64`. -/
structure IsNormal (ranges : List ByteRange) : Prop where
  /-- No range is empty. -/
  nonempty : ∀ range ∈ ranges, range.start ≤ range.endInclusive
  /-- There is a byte behind each range. -/
  bounded : ∀ range ∈ ranges, range.endInclusive < u64Max
  /-- At least one byte is missing between two ranges. -/
  gapped : ranges.Pairwise fun range later => range.endInclusive + 1 < later.start

/-- A byte lies in one of the ranges. -/
def Covered (ranges : List ByteRange) (offset : Nat) : Prop :=
  ∃ range ∈ ranges, range.Contains offset

/-- The successor of a byte, but for the largest. -/
theorem satAdd_one_of_lt {offset : Nat} (h : offset < u64Max) : satAdd offset 1 = offset + 1 :=
  Nat.min_eq_left h

/-- Nothing lies between a byte and its successor. -/
theorem nothingBetween_satAdd_one : NothingBetween fun last => satAdd last 1 :=
  fun _ _ _ hy hz => (hy.trans (min_le_left _ _)).trans hz

/-- Where no range reaches the largest `u64`, a gap is a byte that is missing. -/
theorem gapped_iff {ranges : List ByteRange}
    (hbounded : ∀ range ∈ ranges, range.endInclusive < u64Max) :
    ClosedInterval.Gapped (fun last => satAdd last 1) ranges ↔
      ranges.Pairwise fun range later => range.endInclusive + 1 < later.start := by
  refine List.Pairwise.iff_of_mem ?_
  intro range later hrange _
  simp only [satAdd_one_of_lt (hbounded range hrange)]

namespace IsNormal

variable {range : ByteRange} {ranges : List ByteRange} {cursor offset : Nat}

theorem nil : IsNormal [] where
  nonempty := by simp
  bounded := by simp
  gapped := List.Pairwise.nil

theorem tail (h : IsNormal (range :: ranges)) : IsNormal ranges where
  nonempty := fun r hr => h.nonempty r (List.mem_cons_of_mem _ hr)
  bounded := fun r hr => h.bounded r (List.mem_cons_of_mem _ hr)
  gapped := (List.pairwise_cons.1 h.gapped).2

/-- Adding a range keeps the normal form. -/
theorem insert {index : RangeIndex} (h : IsNormal index.ranges)
    (hnonempty : range.start ≤ range.endInclusive) (hbounded : range.endInclusive < u64Max) :
    IsNormal (index.insert range).ranges := by
  have hall : ∀ r ∈ ClosedInterval.sortByStart (index.ranges ++ [range]),
      r.start ≤ r.endInclusive ∧ r.endInclusive < u64Max := by
    intro r hr
    rw [ClosedInterval.sortByStart, List.mem_insertionSort, List.mem_append,
      List.mem_singleton] at hr
    rcases hr with hr | rfl
    · exact ⟨h.nonempty r hr, h.bounded r hr⟩
    · exact ⟨hnonempty, hbounded⟩
  have hbounds : ∀ r ∈ (index.insert range).ranges,
      r.start ≤ r.endInclusive ∧ r.endInclusive < u64Max := by
    intro r hr
    obtain ⟨⟨first, hfirst, hstart, hlonger⟩, last, hlast, hend⟩ :=
      ClosedInterval.bounds_of_mem_coalesce hr
    have hfirst := (hall first hfirst).1
    have hlast := (hall last hlast).2
    exact ⟨hstart.trans_le (hfirst.trans hlonger), hend.trans_lt hlast⟩
  refine ⟨fun r hr => (hbounds r hr).1, fun r hr => (hbounds r hr).2, ?_⟩
  have hgapped := ClosedInterval.gapped_coalesce (fun last => satAdd last 1)
    (ClosedInterval.pairwise_sortByStart (index.ranges ++ [range]))
  exact (gapped_iff fun r hr => (hbounds r hr).2).1 hgapped

/-- A range is covered in one piece exactly if all of its bytes are there. -/
theorem covers_iff {index : RangeIndex} (h : IsNormal index.ranges)
    (hrange : range.start ≤ range.endInclusive) :
    index.covers range = true ↔ ∀ offset, range.Contains offset → Covered index.ranges offset := by
  have hgapped := (gapped_iff h.bounded).2 h.gapped
  have hnext : ∀ r ∈ index.ranges, r.endInclusive < satAdd r.endInclusive 1 := by
    intro r hr
    exact lt_satAdd_one_iff.2 (h.bounded r hr)
  have hcovered := hgapped.covered_iff nothingBetween_satAdd_one hnext hrange
  simp only [covers, List.any_eq_true, Bool.and_eq_true, decide_eq_true_eq]
  exact hcovered

/-! ## Going through the ranges -/

/-- Bytes behind the first range are looked for in the others. -/
theorem covered_cons_of_lt (hpast : range.endInclusive < offset) :
    Covered (range :: ranges) offset ↔ Covered ranges offset := by
  unfold Covered
  rw [List.exists_mem_cons_iff]
  refine or_iff_right ?_
  intro hcontains
  exact hpast.not_ge hcontains.2

/-- Bytes up to the gap behind the first range are not in the others. -/
theorem not_covered_tail (h : IsNormal (range :: ranges))
    (hbefore : offset ≤ range.endInclusive + 1) : ¬ Covered ranges offset := by
  rintro ⟨later, hlater, hcontains⟩
  have hgap := (List.pairwise_cons.1 h.gapped).1 later hlater
  have hstart := hcontains.1
  omega

/-- Bytes before the first range are not there. -/
theorem not_covered_of_lt (h : IsNormal (range :: ranges)) (hbefore : offset < range.start) :
    ¬ Covered (range :: ranges) offset := by
  have hnonempty := h.nonempty range List.mem_cons_self
  have hrest : ¬ Covered ranges offset := h.not_covered_tail (by omega)
  rintro ⟨r, hr, hcontains⟩
  rcases List.mem_cons.1 hr with rfl | hr
  · exact hbefore.not_ge hcontains.1
  · exact hrest ⟨r, hr, hcontains⟩

/-- The byte behind a range is missing. -/
theorem not_covered_succ (h : IsNormal (range :: ranges)) :
    ¬ Covered (range :: ranges) (range.endInclusive + 1) := by
  rw [covered_cons_of_lt (Nat.lt_succ_self _)]
  exact h.not_covered_tail le_rfl

/-- A scan for the end of a piece stops at the range that it meets. -/
theorem contiguousFrom_cons (h : IsNormal (range :: ranges)) :
    contiguousFrom cursor none (range :: ranges) =
      if range.endInclusive < cursor then contiguousFrom cursor none ranges
      else if cursor < range.start then none
      else some range.endInclusive := by
  have hstops : contiguousFrom (satAdd range.endInclusive 1) (some range.endInclusive) ranges =
      some range.endInclusive := by
    rw [satAdd_one_of_lt (h.bounded range List.mem_cons_self)]
    cases ranges with
    | nil => rfl
    | cons later ranges =>
      have hgap := (List.pairwise_cons.1 h.gapped).1 later List.mem_cons_self
      have hnonempty := h.nonempty later (List.mem_cons_of_mem _ List.mem_cons_self)
      unfold contiguousFrom
      rw [if_neg (by omega), if_pos hgap]
  rw [contiguousFrom, hstops]

/-- From a byte that is there, the scan comes to the last one before a gap. -/
theorem contiguousFrom_eq_some_iff (h : IsNormal ranges) {last : Nat} :
    contiguousFrom cursor none ranges = some last ↔
      cursor ≤ last ∧ (∀ offset, cursor ≤ offset → offset ≤ last → Covered ranges offset) ∧
        ¬ Covered ranges (last + 1) := by
  induction ranges with
  | nil =>
    refine ⟨nofun, ?_⟩
    rintro ⟨hle, hcovered, -⟩
    obtain ⟨range, hrange, -⟩ := hcovered cursor le_rfl hle
    cases hrange
  | cons range ranges ih =>
    rw [h.contiguousFrom_cons]
    split_ifs with hpast hbefore
    · rw [ih h.tail]
      refine and_congr_right fun hle => and_congr ?_ (not_congr ?_)
      · refine forall_congr' fun offset => imp_congr_right fun hoffset => ?_
        rw [covered_cons_of_lt (hpast.trans_le hoffset)]
      · rw [covered_cons_of_lt (by omega)]
    · refine ⟨nofun, ?_⟩
      rintro ⟨hle, hcovered, -⟩
      exact absurd (hcovered cursor le_rfl hle) (h.not_covered_of_lt hbefore)
    · have hinside : ∀ offset, cursor ≤ offset → offset ≤ range.endInclusive →
          Covered (range :: ranges) offset := by
        intro offset hfirst hlast
        exact ⟨range, List.mem_cons_self, (not_lt.1 hbefore).trans hfirst, hlast⟩
      constructor
      · intro hlast
        obtain rfl := Option.some.inj hlast
        exact ⟨not_lt.1 hpast, hinside, h.not_covered_succ⟩
      · rintro ⟨hle, hcovered, hmissing⟩
        rcases lt_trichotomy last range.endInclusive with hshort | rfl | hlong
        · exact absurd (hinside (last + 1) (by omega) hshort) hmissing
        · rfl
        · exact absurd (hcovered (range.endInclusive + 1) (by omega) hlong) h.not_covered_succ

/-- A scan comes to nothing exactly if the byte is not there. -/
theorem contiguousFrom_eq_none_iff (h : IsNormal ranges) :
    contiguousFrom cursor none ranges = none ↔ ¬ Covered ranges cursor := by
  induction ranges with
  | nil => simp [contiguousFrom, Covered]
  | cons range ranges ih =>
    rw [h.contiguousFrom_cons]
    split_ifs with hpast hbefore
    · rw [ih h.tail, covered_cons_of_lt hpast]
    · exact iff_of_true rfl (h.not_covered_of_lt hbefore)
    · have hcontains : Covered (range :: ranges) cursor :=
        ⟨range, List.mem_cons_self, not_lt.1 hbefore, not_lt.1 hpast⟩
      simp [hcontains]

/-- The scan for a missing byte finds the first one. -/
theorem isLeast_firstMissingFrom (h : IsNormal ranges) {last : Nat} (hle : cursor ≤ last)
    (hfound : firstMissingFrom cursor last ranges = some offset) :
    IsLeast { x | cursor ≤ x ∧ x ≤ last ∧ ¬ Covered ranges x } offset := by
  induction ranges generalizing cursor with
  | nil =>
    rw [firstMissingFrom, if_pos hle] at hfound
    obtain rfl := Option.some.inj hfound
    exact ⟨⟨le_rfl, hle, by simp [Covered]⟩, fun x hx => hx.1⟩
  | cons range ranges ih =>
    rw [firstMissingFrom] at hfound
    dsimp only at hfound
    split_ifs at hfound with hpast hbefore hdone
    · have hrest := ih h.tail hle hfound
      refine ⟨⟨hrest.1.1, hrest.1.2.1, ?_⟩, fun x hx => hrest.2 ⟨hx.1, hx.2.1, ?_⟩⟩
      · rw [covered_cons_of_lt (hpast.trans_le hrest.1.1)]
        exact hrest.1.2.2
      · rw [← covered_cons_of_lt (hpast.trans_le hx.1)]
        exact hx.2.2
    · obtain rfl := Option.some.inj hfound
      exact ⟨⟨le_rfl, hle, h.not_covered_of_lt hbefore⟩, fun x hx => hx.1⟩
    · rw [satAdd_one_of_lt (h.bounded range List.mem_cons_self)] at hfound hdone
      have hrest := ih h.tail (not_lt.1 hdone) hfound
      have hfirst := hrest.1.1
      refine ⟨⟨by omega, hrest.1.2.1, ?_⟩, ?_⟩
      · rw [covered_cons_of_lt hfirst]
        exact hrest.1.2.2
      · rintro x ⟨hx, hxlast, hmissing⟩
        have hpastx : range.endInclusive < x := by
          by_contra hinside
          exact hmissing
            ⟨range, List.mem_cons_self, (not_lt.1 hbefore).trans hx, not_lt.1 hinside⟩
        rw [covered_cons_of_lt hpastx] at hmissing
        exact hrest.2 ⟨hpastx, hxlast, hmissing⟩

/-- The scan finds no missing byte exactly if all bytes are there. -/
theorem firstMissingFrom_eq_none_iff (h : IsNormal ranges) {last : Nat} (hle : cursor ≤ last) :
    firstMissingFrom cursor last ranges = none ↔
      ∀ x, cursor ≤ x → x ≤ last → Covered ranges x := by
  constructor
  · intro hnone x hx hxlast
    induction ranges generalizing cursor with
    | nil =>
      rw [firstMissingFrom, if_pos hle] at hnone
      cases hnone
    | cons range ranges ih =>
      rw [firstMissingFrom] at hnone
      dsimp only at hnone
      split_ifs at hnone with hpast hbefore hdone
      · rw [covered_cons_of_lt (hpast.trans_le hx)]
        exact ih h.tail hle hnone hx
      · rw [satAdd_one_of_lt (h.bounded range List.mem_cons_self)] at hdone
        exact ⟨range, List.mem_cons_self, (not_lt.1 hbefore).trans hx, by omega⟩
      · rw [satAdd_one_of_lt (h.bounded range List.mem_cons_self)] at hnone hdone
        rcases le_or_gt x range.endInclusive with hinside | hpastx
        · exact ⟨range, List.mem_cons_self, (not_lt.1 hbefore).trans hx, hinside⟩
        · rw [covered_cons_of_lt hpastx]
          exact ih h.tail (not_lt.1 hdone) hnone hpastx
  · intro hcovered
    by_contra hfound
    obtain ⟨offset, hoffset⟩ := Option.ne_none_iff_exists'.1 hfound
    obtain ⟨hfirst, hlast, hmissing⟩ := (h.isLeast_firstMissingFrom hle hoffset).1
    exact hmissing (hcovered offset hfirst hlast)

end IsNormal

/-! ## Main result -/

/-- The index after ranges have been added one after the other. -/
def insertAll (inserted : List ByteRange) : RangeIndex := inserted.foldl insert empty

theorem insertAll_concat (inserted : List ByteRange) (range : ByteRange) :
    insertAll (inserted ++ [range]) = (insertAll inserted).insert range :=
  List.foldl_concat _ _ _ _

/-- The bytes of the index are those that have been added. -/
theorem covered_insertAll (inserted : List ByteRange) (offset : Nat) :
    Covered (insertAll inserted).ranges offset ↔ Covered inserted offset := by
  induction inserted using List.reverseRecOn with
  | nil => rfl
  | append_singleton inserted range ih =>
    have hinsert := contains_insert (insertAll inserted) range offset
    rw [contains_iff, contains_iff] at hinsert
    have happend : Covered (inserted ++ [range]) offset ↔
        Covered inserted offset ∨ range.Contains offset := by
      simp [Covered, or_and_right, exists_or]
    rw [insertAll_concat, happend, ← ih]
    exact hinsert

/-- Adding ranges leads to the normal form. -/
theorem isNormal_insertAll {inserted : List ByteRange}
    (hinserted : ∀ range ∈ inserted,
      range.start ≤ range.endInclusive ∧ range.endInclusive < u64Max) :
    IsNormal (insertAll inserted).ranges := by
  induction inserted using List.reverseRecOn with
  | nil => exact .nil
  | append_singleton inserted range ih =>
    rw [insertAll_concat]
    obtain ⟨hnonempty, hbounded⟩ := hinserted range (by simp)
    have hbefore : IsNormal (insertAll inserted).ranges :=
      ih fun r hr => hinserted r (List.mem_append_left _ hr)
    exact hbefore.insert hnonempty hbounded

/-- Whatever ranges have been added, the index is in normal form and holds their bytes, and its
queries are about those: a range is covered if all of its bytes have been added, a piece goes on
as far as all bytes have been, and the first missing byte is the first one that has not. -/
theorem says_bytes {inserted : List ByteRange}
    (hinserted : ∀ range ∈ inserted,
      range.start ≤ range.endInclusive ∧ range.endInclusive < u64Max) :
    IsNormal (insertAll inserted).ranges ∧
    (∀ offset, Covered (insertAll inserted).ranges offset ↔ Covered inserted offset) ∧
    (∀ range : ByteRange, range.start ≤ range.endInclusive →
      ((insertAll inserted).covers range = true ↔
        ∀ offset, range.Contains offset → Covered inserted offset)) ∧
    (∀ start,
      (∀ last, (insertAll inserted).contiguousUntil start = some last →
        IsGreatest { last | start ≤ last ∧
          ∀ offset, start ≤ offset → offset ≤ last → Covered inserted offset } last) ∧
      ((insertAll inserted).contiguousUntil start = none ↔ ¬ Covered inserted start)) ∧
    ∀ (s : StreamingBytesState α) (range : ByteRange), s.ranges = insertAll inserted →
      range.start ≤ range.endInclusive →
      (∀ offset, s.firstMissingOffset range = some offset →
        IsLeast { offset | range.Contains offset ∧ ¬ Covered inserted offset } offset) ∧
      (s.firstMissingOffset range = none ↔ s.covers range = true) := by
  have hnormal : IsNormal (insertAll inserted).ranges := isNormal_insertAll hinserted
  refine ⟨hnormal, covered_insertAll inserted, ?_, ?_, ?_⟩
  · intro range hrange
    simp only [hnormal.covers_iff hrange, covered_insertAll]
  · intro start
    refine ⟨?_, ?_⟩
    · intro last hlast
      obtain ⟨hle, hcovered, hmissing⟩ := hnormal.contiguousFrom_eq_some_iff.1 hlast
      simp only [covered_insertAll] at hcovered hmissing
      refine ⟨⟨hle, hcovered⟩, ?_⟩
      rintro further ⟨hfurther, hall⟩
      by_contra hlonger
      exact hmissing (hall (last + 1) (by omega) (by omega))
    · rw [contiguousUntil, hnormal.contiguousFrom_eq_none_iff, covered_insertAll]
  · intro s range hs hrange
    unfold StreamingBytesState.firstMissingOffset StreamingBytesState.covers
    rw [hs]
    refine ⟨?_, ?_⟩
    · intro offset hoffset
      have hleast := hnormal.isLeast_firstMissingFrom hrange hoffset
      simpa only [covered_insertAll, ClosedInterval.Contains, and_assoc] using hleast
    · rw [hnormal.firstMissingFrom_eq_none_iff hrange, hnormal.covers_iff hrange]
      simp only [ClosedInterval.Contains, and_imp]

/-- The main result for two ranges that touch and one behind a gap. -/
theorem says_bytes_pieces :
    IsNormal (insertAll [⟨20, 29⟩, ⟨0, 9⟩, ⟨10, 19⟩, ⟨40, 49⟩]).ranges := by
  have hinserted : ∀ range ∈ ([⟨20, 29⟩, ⟨0, 9⟩, ⟨10, 19⟩, ⟨40, 49⟩] : List ByteRange),
      range.start ≤ range.endInclusive ∧ range.endInclusive < u64Max := by decide
  exact (says_bytes (α := Nat) hinserted).1

end RangeIndex

end LightEar
