import Mathlib.Data.Finset.Card
import Mathlib.Data.Set.Function
import Mathlib.Order.Lattice

/-!
# The greatest elements of what has come by

A bounded store keeps the `k` elements of a stream with the greatest keys.  `IsTop key k D kept`
says that `kept` holds the `k` greatest elements of `D`, or all of them if there are no more.

The store is filled one element at a time: while there is room, the new element is kept
(`IsTop.insert`), and when there is none, the least of the kept and the new one is dropped
(`IsTop.insert_erase`).  An element that was dropped before may come by again.
-/

namespace Foundation

universe u v

variable {α : Type u} {β : Type v} [LinearOrder β]

/-- The `k` elements of a set with the greatest keys, or all if there are no more. -/
structure IsTop (key : α → β) (k : Nat) (D kept : Finset α) : Prop where
  /-- Nothing else is kept. -/
  subset : kept ⊆ D
  /-- As many are kept as may be. -/
  card : kept.card = min k D.card
  /-- What is kept is above what is not. -/
  above : ∀ a ∈ kept, ∀ b ∈ D, b ∉ kept → key b < key a

namespace IsTop

variable {key : α → β} {k : Nat} {D kept : Finset α}

theorem empty : IsTop key k ∅ ∅ := ⟨subset_rfl, by simp, by simp⟩

/-- While there is room, everything is kept. -/
theorem eq_of_card_lt (h : IsTop key k D kept) (hroom : kept.card < k) : kept = D := by
  refine Finset.eq_of_subset_of_card_le h.subset ?_
  have hcard := h.card
  omega

variable [DecidableEq α]

/-- While there is room, a new element is kept. -/
theorem insert (h : IsTop key k D kept) {x : α} (hx : x ∉ kept) (hroom : kept.card < k) :
    IsTop key k (insert x D) (insert x kept) := by
  have hall := h.eq_of_card_lt hroom
  subst hall
  refine ⟨subset_rfl, ?_, fun a _ b hb hnot => absurd hb hnot⟩
  rw [Finset.card_insert_of_notMem hx]
  omega

/-- When there is no room, the least of the kept and the new one is dropped. -/
theorem insert_erase (h : IsTop key k D kept) {x m : α} (hx : x ∉ kept)
    (hkey : Set.InjOn key (Insert.insert x D : Finset α)) (hfull : kept.card = k)
    (hm : m ∈ Insert.insert x kept) (hleast : ∀ a ∈ Insert.insert x kept, key m ≤ key a) :
    IsTop key k (Insert.insert x D) ((Insert.insert x kept).erase m) := by
  have hsubset : Insert.insert x kept ⊆ Insert.insert x D := Finset.insert_subset_insert x h.subset
  have hcard := Finset.card_insert_of_notMem hx
  refine ⟨(Finset.erase_subset _ _).trans hsubset, ?_, fun a ha b hb hdropped => ?_⟩
  · have hle := Finset.card_le_card hsubset
    rw [Finset.card_erase_of_mem hm]
    omega
  · obtain ⟨hne, hkept⟩ := Finset.mem_erase.1 ha
    rw [Finset.mem_erase, not_and] at hdropped
    by_cases hleft : b = m
    · subst hleft
      refine lt_of_le_of_ne (hleast a hkept) fun heq => hne ?_
      exact hkey (hsubset hkept) hb heq.symm
    · have hold : b ∉ Insert.insert x kept := hdropped hleft
      obtain ⟨hnew, hnot⟩ := not_or.1 (mt Finset.mem_insert.2 hold)
      have hcame : b ∈ D := Finset.mem_of_mem_insert_of_ne hb hnew
      rcases Finset.mem_insert.1 hkept with rfl | hkept
      · -- the new element stays, so the least one was kept before, above what was dropped then
        have hbefore : m ∈ kept := Finset.mem_of_mem_insert_of_ne hm hne.symm
        exact (h.above m hbefore b hcame hnot).trans_le (hleast a (Finset.mem_insert_self a kept))
      · exact h.above a hkept b hcame hnot

end IsTop

end Foundation
