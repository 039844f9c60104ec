import Mathlib.Order.Lattice
import Mathlib.Data.List.Infix

/-!
# Deadlines that pass

A list of deadlines, the next one first.  Those that have passed are taken off the front one after
the other; if the list is sorted, then all that are left lie ahead (`lt_of_mem_popDue`).
-/

namespace Foundation

universe u

variable {τ : Type u} [LinearOrder τ]

/-- Takes the deadlines that have passed off the front; says whether there were any. -/
def popDue (now : τ) : List τ → Bool × List τ
  | [] => (false, [])
  | deadline :: deadlines =>
    if deadline ≤ now then (true, (popDue now deadlines).2) else (false, deadline :: deadlines)

variable {now : τ} {deadlines : List τ}

/-- What is left are the last ones. -/
theorem popDue_suffix (now : τ) (deadlines : List τ) : (popDue now deadlines).2 <:+ deadlines := by
  induction deadlines with
  | nil => exact List.suffix_rfl
  | cons deadline deadlines ih =>
    unfold popDue
    split
    · exact ih.trans (List.suffix_cons _ _)
    · exact List.suffix_rfl

/-- If none has passed, then all are left. -/
theorem popDue_of_not_due (h : (popDue now deadlines).1 = false) :
    (popDue now deadlines).2 = deadlines := by
  cases deadlines with
  | nil => rfl
  | cons deadline deadlines =>
    unfold popDue at h ⊢
    split at h
    · cases h
    · rename_i hahead
      rw [if_neg hahead]

/-- In a sorted list those that are left lie ahead. -/
theorem lt_of_mem_popDue (hsorted : deadlines.Pairwise (· ≤ ·)) {deadline : τ}
    (h : deadline ∈ (popDue now deadlines).2) : now < deadline := by
  induction deadlines with
  | nil => exact absurd h List.not_mem_nil
  | cons first deadlines ih =>
    obtain ⟨hfirst, hrest⟩ := List.pairwise_cons.1 hsorted
    unfold popDue at h
    split at h
    · exact ih hrest h
    · rename_i hahead
      rcases List.mem_cons.1 h with rfl | hlater
      · exact not_le.1 hahead
      · exact (not_le.1 hahead).trans_le (hfirst deadline hlater)

/-- In a sorted list there is one that has passed exactly if one is taken off. -/
theorem popDue_fst_iff (hsorted : deadlines.Pairwise (· ≤ ·)) :
    (popDue now deadlines).1 = true ↔ ∃ deadline ∈ deadlines, deadline ≤ now := by
  cases deadlines with
  | nil => simp [popDue]
  | cons first deadlines =>
    obtain ⟨hfirst, -⟩ := List.pairwise_cons.1 hsorted
    unfold popDue
    split
    · rename_i hpassed
      exact iff_of_true rfl ⟨first, List.mem_cons_self, hpassed⟩
    · rename_i hahead
      refine iff_of_false Bool.false_ne_true ?_
      rintro ⟨deadline, hdeadline, hpassed⟩
      rcases List.mem_cons.1 hdeadline with rfl | hlater
      · exact hahead hpassed
      · exact hahead ((hfirst deadline hlater).trans hpassed)

end Foundation
