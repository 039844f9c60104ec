import Mathlib.Data.List.Find
import Mathlib.Data.List.Sort
import Mathlib.Order.Defs.LinearOrder

/-!
# The first of the greatest

A stable sort in descending order of a key brings the first element to the front that no other
one exceeds (`head?_sortDesc`).
-/

namespace Foundation

universe u v

variable {α : Type u} {κ : Type v} [LinearOrder κ]

/-- The elements in descending order of their keys; those with equal keys stay in their order. -/
def sortDesc (key : α → κ) (l : List α) : List α :=
  l.mergeSort fun a b => decide (key b ≤ key a)

/-- The first element that no other one exceeds. -/
def firstGreatest (key : α → κ) (l : List α) : Option α :=
  l.find? fun a => l.all fun b => decide (key b ≤ key a)

/-- It is one of the elements. -/
theorem mem_of_firstGreatest {key : α → κ} {l : List α} {a : α}
    (h : firstGreatest key l = some a) : a ∈ l := List.mem_of_find?_eq_some h

/-- No element exceeds it. -/
theorem le_of_firstGreatest {key : α → κ} {l : List α} {a : α} (h : firstGreatest key l = some a) :
    ∀ b ∈ l, key b ≤ key a := by
  have hall := List.find?_some h
  simpa using hall

/-- A new first element is that element exactly if it exceeds or equals all others. -/
theorem firstGreatest_cons (key : α → κ) (a : α) (l : List α) :
    firstGreatest key (a :: l) =
      if ∀ b ∈ l, key b ≤ key a then some a else firstGreatest key l := by
  unfold firstGreatest
  split_ifs with h
  · rw [List.find?_cons_of_pos]
    simpa using h
  · push Not at h
    obtain ⟨b, hb, hlt⟩ := h
    rw [List.find?_cons_of_neg]
    · refine List.find?_congr fun c _ => ?_
      rw [List.all_cons, Bool.and_eq_right_iff_imp]
      intro hc
      have hle := List.all_eq_true.1 hc b hb
      simp only [decide_eq_true_eq] at hle ⊢
      exact hlt.le.trans hle
    · simp only [List.all_eq_true, List.mem_cons, decide_eq_true_eq]
      exact fun hall => absurd (hall b (.inr hb)) (not_le.2 hlt)

/-- The sort brings it to the front. -/
theorem head?_sortDesc (key : α → κ) (l : List α) :
    (sortDesc key l).head? = firstGreatest key l := by
  have htrans : ∀ a b c : α, decide (key b ≤ key a) = true → decide (key c ≤ key b) = true →
      decide (key c ≤ key a) = true := by
    simp only [decide_eq_true_eq]
    exact fun a b c hab hbc => hbc.trans hab
  have htotal : ∀ a b : α, (decide (key b ≤ key a) || decide (key a ≤ key b)) = true := by
    simp only [Bool.or_eq_true, decide_eq_true_eq]
    exact fun a b => le_total _ _
  induction l with
  | nil => simp [sortDesc, firstGreatest]
  | cons a l ih =>
    obtain ⟨front, back, hsort, hrest, hfront⟩ := List.mergeSort_cons htrans htotal a l
    rw [firstGreatest_cons]
    unfold sortDesc at ih ⊢
    rw [hsort]
    have hmem : ∀ b, b ∈ l ↔ b ∈ front ++ back := by
      intro b
      rw [← hrest, List.mem_mergeSort]
    cases front with
    | nil =>
      -- the new element comes first, so it exceeds or equals all others
      have hsorted := List.pairwise_mergeSort htrans htotal (a :: l)
      rw [hsort, List.nil_append, List.pairwise_cons] at hsorted
      rw [if_pos]
      · rfl
      · intro b hb
        exact of_decide_eq_true (hsorted.1 b ((hmem b).1 hb))
    | cons first front =>
      have hlt : ¬ ∀ b ∈ l, key b ≤ key a := by
        intro hall
        have hnot := hfront first List.mem_cons_self
        rw [decide_eq_true (hall first ((hmem first).2 List.mem_cons_self))] at hnot
        cases hnot
      rw [if_neg hlt, ← ih, hrest]
      rfl

/-- Among what elements stand for, it is what the first of the greatest stands for. -/
theorem firstGreatest_map {β : Type u} (key : β → κ) (f : α → β) (l : List α) :
    firstGreatest key (l.map f) = (firstGreatest (key ∘ f) l).map f := by
  unfold firstGreatest
  rw [List.find?_map]
  simp only [List.all_map, Function.comp_def]

/-- There is one unless there are no elements. -/
theorem firstGreatest_eq_none_iff {key : α → κ} {l : List α} :
    firstGreatest key l = none ↔ l = [] := by
  rw [← head?_sortDesc, List.head?_eq_none_iff, sortDesc, ← List.length_eq_zero_iff,
    List.length_mergeSort, List.length_eq_zero_iff]

end Foundation
