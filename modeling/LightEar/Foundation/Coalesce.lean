import Mathlib.Data.List.Pairwise
import Mathlib.Data.List.Sort
import Mathlib.Order.MinMax

/-!
# Lists of intervals

A set of points is kept as a list of intervals.  To add an interval, the list is sorted by where
its intervals start, and intervals that meet or touch are joined from the left to the right
(`coalesce`).  This loses no point and adds none (`mem_coalesce`).

Two intervals touch if the second starts no later than the successor of the first one's end.  All
that is used of the successor is that nothing lies before it and past the end
(`NothingBetween`), so that it may be a bounded one.

What comes out has gaps in between (`gapped_coalesce`).  Where every end has a proper successor,
whatever is covered in a list with gaps is covered by one of its intervals
(`Gapped.covered_iff`).
-/

namespace Foundation

universe u

variable {α : Type u}

/-- The points from one to another, both included. -/
structure ClosedInterval (α : Type u) where
  /-- The first point. -/
  start : α
  /-- The last point. -/
  endInclusive : α
  deriving DecidableEq, Repr

/-- Whatever lies past a point is not before the successor. -/
def NothingBetween [LinearOrder α] (next : α → α) : Prop :=
  ∀ x y z, y ≤ next x → x < z → y ≤ z

namespace ClosedInterval

variable [LinearOrder α]

/-- Whether a point lies in an interval. -/
def Contains (i : ClosedInterval α) (x : α) : Prop := i.start ≤ x ∧ x ≤ i.endInclusive

instance (i : ClosedInterval α) (x : α) : Decidable (i.Contains x) :=
  inferInstanceAs (Decidable (_ ∧ _))

/-- Whether two intervals meet, if neither is empty. -/
def Overlaps (i j : ClosedInterval α) : Prop := i.start ≤ j.endInclusive ∧ j.start ≤ i.endInclusive

instance (i j : ClosedInterval α) : Decidable (i.Overlaps j) :=
  inferInstanceAs (Decidable (_ ∧ _))

/-- An interval that starts in another, or right behind it, may be joined to it. -/
theorem contains_join_iff {next : α → α} (hnext : NothingBetween next) {i j : ClosedInterval α}
    (hstart : i.start ≤ j.start) (htouch : j.start ≤ next i.endInclusive) (x : α) :
    ({ i with endInclusive := max i.endInclusive j.endInclusive } : ClosedInterval α).Contains x ↔
      i.Contains x ∨ j.Contains x := by
  constructor
  · rintro ⟨hfirst, hlast⟩
    rcases le_or_gt x i.endInclusive with hinside | hpast
    · exact .inl ⟨hfirst, hinside⟩
    · have hj : x ≤ j.endInclusive := (le_max_iff.1 hlast).resolve_left hpast.not_ge
      exact .inr ⟨hnext _ _ _ htouch hpast, hj⟩
  · rintro (hi | hj)
    · exact ⟨hi.1, hi.2.trans (le_max_left _ _)⟩
    · exact ⟨hstart.trans hj.1, hj.2.trans (le_max_right _ _)⟩

/-! ## Joining from the left -/

/-- Joins to an interval what touches it, and so on. -/
def coalesceFrom (next : α → α) :
    ClosedInterval α → List (ClosedInterval α) → List (ClosedInterval α)
  | i, [] => [i]
  | i, j :: l =>
    if j.start ≤ next i.endInclusive then
      coalesceFrom next { i with endInclusive := max i.endInclusive j.endInclusive } l
    else i :: coalesceFrom next j l

/-- Joins the intervals of a sorted list that meet or touch. -/
def coalesce (next : α → α) : List (ClosedInterval α) → List (ClosedInterval α)
  | [] => []
  | i :: l => coalesceFrom next i l

/-- Sorts intervals by where they start; those that start together keep their order. -/
def sortByStart (l : List (ClosedInterval α)) : List (ClosedInterval α) :=
  l.insertionSort fun i j => i.start ≤ j.start

/-- A sorted list of intervals starts where its first interval does. -/
theorem pairwise_sortByStart (l : List (ClosedInterval α)) :
    (sortByStart l).Pairwise fun i j => i.start ≤ j.start := by
  have : Std.Total fun i j : ClosedInterval α => i.start ≤ j.start := ⟨fun _ _ => le_total _ _⟩
  have : IsTrans (ClosedInterval α) fun i j => i.start ≤ j.start := ⟨fun _ _ _ => le_trans⟩
  exact List.pairwise_insertionSort _ l

/-- Joining keeps the points, from an interval that starts first. -/
theorem mem_coalesceFrom {next : α → α} (hnext : NothingBetween next) {i : ClosedInterval α}
    {l : List (ClosedInterval α)} (hsorted : (i :: l).Pairwise fun i j => i.start ≤ j.start)
    (x : α) :
    (∃ k ∈ coalesceFrom next i l, k.Contains x) ↔ ∃ k ∈ i :: l, k.Contains x := by
  induction l generalizing i with
  | nil => rfl
  | cons j l ih =>
    obtain ⟨hfirst, hrest⟩ := List.pairwise_cons.1 hsorted
    have hj : i.start ≤ j.start := hfirst j List.mem_cons_self
    unfold coalesceFrom
    split
    · rename_i htouch
      have hjoined : ({ i with endInclusive := max i.endInclusive j.endInclusive } ::
          l).Pairwise fun i j : ClosedInterval α => i.start ≤ j.start :=
        List.pairwise_cons.2
          ⟨fun k hk => hfirst k (List.mem_cons_of_mem _ hk), (List.pairwise_cons.1 hrest).2⟩
      rw [ih hjoined]
      simp only [List.mem_cons, exists_eq_or_imp, contains_join_iff hnext hj htouch, or_assoc]
    · simp only [List.mem_cons, exists_eq_or_imp, ih hrest]

/-- Joining the intervals of a sorted list keeps the points. -/
theorem mem_coalesce {next : α → α} (hnext : NothingBetween next) {l : List (ClosedInterval α)}
    (hsorted : l.Pairwise fun i j => i.start ≤ j.start) (x : α) :
    (∃ k ∈ coalesce next l, k.Contains x) ↔ ∃ k ∈ l, k.Contains x := by
  cases l with
  | nil => rfl
  | cons i l => exact mem_coalesceFrom hnext hsorted x

/-- Sorting first, any list may be joined. -/
theorem mem_coalesce_sortByStart {next : α → α} (hnext : NothingBetween next)
    (l : List (ClosedInterval α)) (x : α) :
    (∃ k ∈ coalesce next (sortByStart l), k.Contains x) ↔ ∃ k ∈ l, k.Contains x := by
  rw [mem_coalesce hnext (pairwise_sortByStart l)]
  simp only [sortByStart, List.mem_insertionSort]

/-! ## Gaps -/

/-- The intervals are sorted, and none starts before the one before it has ended and a gap has
followed. -/
def Gapped (next : α → α) (l : List (ClosedInterval α)) : Prop :=
  l.Pairwise fun i j => next i.endInclusive < j.start

/-- Joining from an interval on changes no start to an earlier one. -/
theorem start_le_of_mem_coalesceFrom {next : α → α} {i : ClosedInterval α}
    {l : List (ClosedInterval α)} (hsorted : (i :: l).Pairwise fun i j => i.start ≤ j.start)
    {k : ClosedInterval α} (hk : k ∈ coalesceFrom next i l) : i.start ≤ k.start := by
  induction l generalizing i with
  | nil =>
    have hki : k = i := List.mem_singleton.1 hk
    rw [hki]
  | cons j l ih =>
    obtain ⟨hfirst, hrest⟩ := List.pairwise_cons.1 hsorted
    unfold coalesceFrom at hk
    split at hk
    · refine ih (i := { i with endInclusive := max i.endInclusive j.endInclusive })
        (List.pairwise_cons.2 ⟨?_, (List.pairwise_cons.1 hrest).2⟩) hk
      exact fun k hk => hfirst k (List.mem_cons_of_mem _ hk)
    · rcases List.mem_cons.1 hk with rfl | hk
      · exact le_rfl
      · have hj : i.start ≤ j.start := hfirst j List.mem_cons_self
        exact hj.trans (ih hrest hk)

/-- Joining from an interval on leaves gaps. -/
theorem gapped_coalesceFrom (next : α → α) {i : ClosedInterval α} {l : List (ClosedInterval α)}
    (hsorted : (i :: l).Pairwise fun i j => i.start ≤ j.start) :
    Gapped next (coalesceFrom next i l) := by
  induction l generalizing i with
  | nil => exact List.pairwise_singleton _ _
  | cons j l ih =>
    obtain ⟨hfirst, hrest⟩ := List.pairwise_cons.1 hsorted
    unfold coalesceFrom
    split
    · refine ih (List.pairwise_cons.2 ⟨?_, (List.pairwise_cons.1 hrest).2⟩)
      exact fun k hk => hfirst k (List.mem_cons_of_mem _ hk)
    · rename_i hgap
      refine List.pairwise_cons.2 ⟨?_, ih hrest⟩
      intro k hk
      have hj : j.start ≤ k.start := start_le_of_mem_coalesceFrom hrest hk
      exact (not_le.1 hgap).trans_le hj

/-- Joining the intervals of a sorted list leaves gaps. -/
theorem gapped_coalesce (next : α → α) {l : List (ClosedInterval α)}
    (hsorted : l.Pairwise fun i j => i.start ≤ j.start) : Gapped next (coalesce next l) := by
  cases l with
  | nil => exact List.Pairwise.nil
  | cons i l => exact gapped_coalesceFrom next hsorted

/-- What joining makes of intervals starts and ends where some of them do. -/
theorem bounds_of_mem_coalesceFrom {next : α → α} {i : ClosedInterval α}
    {l : List (ClosedInterval α)} {k : ClosedInterval α} (hk : k ∈ coalesceFrom next i l) :
    (∃ j ∈ i :: l, k.start = j.start ∧ j.endInclusive ≤ k.endInclusive) ∧
      ∃ j ∈ i :: l, k.endInclusive = j.endInclusive := by
  induction l generalizing i with
  | nil =>
    have hki : k = i := List.mem_singleton.1 hk
    exact ⟨⟨i, List.mem_cons_self, by rw [hki], by rw [hki]⟩, i, List.mem_cons_self, by rw [hki]⟩
  | cons j l ih =>
    unfold coalesceFrom at hk
    split at hk
    · obtain ⟨⟨first, hfirst, hstart, hlonger⟩, last, hlast, hend⟩ := ih hk
      constructor
      · rcases List.mem_cons.1 hfirst with rfl | hfirst
        · exact ⟨i, List.mem_cons_self, hstart, (le_max_left _ _).trans hlonger⟩
        · exact ⟨first, List.mem_cons_of_mem _ (List.mem_cons_of_mem _ hfirst), hstart, hlonger⟩
      · rcases List.mem_cons.1 hlast with rfl | hlast
        · rcases max_choice i.endInclusive j.endInclusive with hmax | hmax
          · exact ⟨i, List.mem_cons_self, hend.trans hmax⟩
          · exact ⟨j, List.mem_cons_of_mem _ List.mem_cons_self, hend.trans hmax⟩
        · exact ⟨last, List.mem_cons_of_mem _ (List.mem_cons_of_mem _ hlast), hend⟩
    · rcases List.mem_cons.1 hk with rfl | hk
      · exact ⟨⟨k, List.mem_cons_self, rfl, le_rfl⟩, k, List.mem_cons_self, rfl⟩
      · obtain ⟨⟨first, hfirst, hstart, hlonger⟩, last, hlast, hend⟩ := ih hk
        exact ⟨⟨first, List.mem_cons_of_mem _ hfirst, hstart, hlonger⟩, last,
          List.mem_cons_of_mem _ hlast, hend⟩

/-- What joining makes of the intervals of a list starts and ends where some of them do. -/
theorem bounds_of_mem_coalesce {next : α → α} {l : List (ClosedInterval α)}
    {k : ClosedInterval α} (hk : k ∈ coalesce next l) :
    (∃ j ∈ l, k.start = j.start ∧ j.endInclusive ≤ k.endInclusive) ∧
      ∃ j ∈ l, k.endInclusive = j.endInclusive := by
  cases l with
  | nil => cases hk
  | cons i l => exact bounds_of_mem_coalesceFrom hk

/-- Of two intervals one ends before the other one starts. -/
theorem Gapped.apart {next : α → α} {l : List (ClosedInterval α)} (hl : Gapped next l)
    {i j : ClosedInterval α} (hi : i ∈ l) (hj : j ∈ l) (hne : i ≠ j) :
    next i.endInclusive < j.start ∨ next j.endInclusive < i.start := by
  have hsymm : Std.Symm fun i j : ClosedInterval α =>
      next i.endInclusive < j.start ∨ next j.endInclusive < i.start := ⟨fun _ _ => Or.symm⟩
  have hor : l.Pairwise fun i j =>
      next i.endInclusive < j.start ∨ next j.endInclusive < i.start :=
    hl.imp fun hgap => .inl hgap
  exact hor.forall hi hj hne

/-- An interval is covered exactly if it lies in one of the intervals. -/
theorem Gapped.covered_iff {next : α → α} (hbetween : NothingBetween next)
    {l : List (ClosedInterval α)} (hl : Gapped next l)
    (hnext : ∀ i ∈ l, i.endInclusive < next i.endInclusive) {i : ClosedInterval α}
    (hi : i.start ≤ i.endInclusive) :
    (∃ j ∈ l, j.start ≤ i.start ∧ i.endInclusive ≤ j.endInclusive) ↔
      ∀ x, i.Contains x → ∃ j ∈ l, j.Contains x := by
  constructor
  · rintro ⟨j, hj, hstart, hend⟩ x hx
    exact ⟨j, hj, hstart.trans hx.1, hx.2.trans hend⟩
  · intro hcovered
    obtain ⟨j, hj, hstart⟩ := hcovered i.start ⟨le_rfl, hi⟩
    refine ⟨j, hj, hstart.1, ?_⟩
    by_contra hshort
    rw [not_le] at hshort
    -- the successor of the end would have to be covered as well
    have hpast : j.endInclusive < next j.endInclusive := hnext j hj
    have hsucc : i.Contains (next j.endInclusive) :=
      ⟨hstart.2.trans hpast.le, hbetween _ _ _ le_rfl hshort⟩
    obtain ⟨k, hk, hcontains⟩ := hcovered _ hsucc
    have hne : j ≠ k := by
      rintro rfl
      exact hpast.not_ge hcontains.2
    rcases hl.apart hj hk hne with hgap | hgap
    · exact hgap.not_ge hcontains.1
    · have hbefore : k.endInclusive < j.start := (hnext k hk).trans hgap
      have hinside : j.start ≤ next j.endInclusive := (hstart.1.trans hstart.2).trans hpast.le
      exact hbefore.not_ge (hinside.trans hcontains.2)

end ClosedInterval

end Foundation
