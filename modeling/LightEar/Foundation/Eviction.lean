import Mathlib.Algebra.BigOperators.Group.List.Basic
import Mathlib.Algebra.Order.Ring.Nat
import Mathlib.Data.List.Infix
import Mathlib.Tactic.SplitIfs

/-!
# Giving things up until there is room

Things are given up one after the other as long as they take up too much room together (`evict`).
Some of them may refuse to go.  Those that are given up are the first of those that go
(`isPrefix_evict`); there is room afterwards, or nothing is left that goes (`evict_enough`); and
before the last of them went there was not (`evict_needed`).
-/

namespace Foundation

universe u

variable {α : Type u} (size : α → Nat) (goes : α → Bool) (limit : Nat)

/-- The things that are given up, if all there is takes up some room. -/
def evict : Nat → List α → List α
  | _, [] => []
  | total, a :: l =>
    if total ≤ limit then []
    else if goes a then a :: evict (total - size a) l
    else evict total l

/-- Nothing is given up if there is room. -/
theorem evict_of_le {total : Nat} (h : total ≤ limit) (l : List α) :
    evict size goes limit total l = [] := by
  cases l with
  | nil => rfl
  | cons a l => rw [evict, if_pos h]

/-- They are the first of those that go. -/
theorem isPrefix_evict (total : Nat) (l : List α) :
    evict size goes limit total l <+: l.filter goes := by
  induction l generalizing total with
  | nil => exact List.prefix_refl _
  | cons a l ih =>
    rw [evict]
    split_ifs with hroom hgoes
    · exact List.nil_prefix
    · rw [List.filter_cons_of_pos hgoes]
      exact (List.prefix_cons_inj a).2 (ih (total - size a))
    · rw [List.filter_cons_of_neg hgoes]
      exact ih total

/-- Afterwards there is room, or nothing is left that goes. -/
theorem evict_enough (total : Nat) (l : List α) :
    total - ((evict size goes limit total l).map size).sum ≤ limit ∨
      evict size goes limit total l = l.filter goes := by
  induction l generalizing total with
  | nil => exact .inr rfl
  | cons a l ih =>
    rw [evict]
    split_ifs with hroom hgoes
    · exact .inl hroom
    · rw [List.map_cons, List.sum_cons, ← Nat.sub_sub, List.filter_cons_of_pos hgoes]
      rcases ih (total - size a) with henough | hall
      · exact .inl henough
      · exact .inr (congrArg (a :: ·) hall)
    · rw [List.filter_cons_of_neg hgoes]
      exact ih total

/-- Before the last of them was given up there was no room. -/
theorem evict_needed {total : Nat} {l earlier : List α} {last : α}
    (h : evict size goes limit total l = earlier ++ [last]) :
    limit < total - (earlier.map size).sum := by
  induction l generalizing total earlier with
  | nil =>
    rw [evict] at h
    exact absurd h.symm (List.append_ne_nil_of_right_ne_nil _ (List.cons_ne_nil _ _))
  | cons a l ih =>
    rw [evict] at h
    split_ifs at h with hroom hgoes
    · exact absurd h.symm (List.append_ne_nil_of_right_ne_nil _ (List.cons_ne_nil _ _))
    · cases earlier with
      | nil => exact Nat.lt_of_not_le hroom
      | cons b earlier =>
        obtain ⟨rfl, hlater⟩ := List.cons.inj h
        rw [List.map_cons, List.sum_cons, ← Nat.sub_sub]
        exact ih hlater
    · exact ih h

end Foundation
