import Mathlib.Data.Finset.Card
import Mathlib.Data.List.Perm.Basic

/-!
# First words

A list of pairs `(voter, word)` records in order who has said what; of each voter only the first
word counts.  `sayers said word` is the set of those whose first word it is: no voter is in two of
these sets, and all of them together are those who have been heard.  If nobody speaks twice, the
order of the list does not matter.
-/

namespace Foundation

variable {α : Type*} {β : Type*} [DecidableEq α]

/-! ## The first word of a voter -/

/-- A voter has a first word exactly when he has been heard. -/
theorem lookup_isSome_iff_mem {said : List (α × β)} {a : α} :
    (said.lookup a).isSome ↔ a ∈ said.map Prod.fst := by
  rw [List.lookup_isSome_iff]
  simp only [List.mem_map, beq_iff_eq]
  exact ⟨fun ⟨entry, hentry, heq⟩ => ⟨entry, hentry, heq.symm⟩,
    fun ⟨entry, hentry, heq⟩ => ⟨entry, hentry, heq.symm⟩⟩

/-- What is said last is the first word of somebody who has not been heard. -/
theorem lookup_concat (said : List (α × β)) (a : α) (word : β) (c : α) :
    (said ++ [(a, word)]).lookup c =
      (said.lookup c).or (if c = a then some word else none) := by
  rw [List.lookup_append, List.lookup_cons, List.lookup_nil]
  by_cases hc : c = a
  · rw [if_pos hc, beq_iff_eq.2 hc]
  · rw [if_neg hc, beq_false_of_ne hc]

/-- When nobody speaks twice, the first word of a voter is the one he has said. -/
theorem lookup_eq_some_iff_mem {said : List (α × β)} (h : (said.map Prod.fst).Nodup) {a : α}
    {word : β} : said.lookup a = some word ↔ (a, word) ∈ said := by
  induction said with
  | nil => simp
  | cons entry said ih =>
    obtain ⟨c, spoken⟩ := entry
    rw [List.map_cons, List.nodup_cons] at h
    rw [List.lookup_cons, List.mem_cons]
    by_cases hc : a = c
    · subst hc
      have hnot : (a, word) ∉ said := fun hmem => h.1 (List.mem_map.2 ⟨_, hmem, rfl⟩)
      simp [hnot, eq_comm]
    · have hne : (a == c) = false := beq_false_of_ne hc
      simp [hne, hc, ih h.2]

/-- When nobody speaks twice, it does not matter in which order they speak. -/
theorem lookup_perm {said said' : List (α × β)} (h : (said.map Prod.fst).Nodup)
    (hperm : said.Perm said') (a : α) : said.lookup a = said'.lookup a := by
  refine Option.ext fun word => ?_
  rw [lookup_eq_some_iff_mem h,
    lookup_eq_some_iff_mem ((hperm.map Prod.fst).nodup_iff.1 h)]
  exact hperm.mem_iff

/-! ## Those who say the same -/

variable [DecidableEq β]

/-- The voters whose first word is the given one. -/
def sayers (said : List (α × β)) (word : β) : Finset α :=
  (said.map Prod.fst).toFinset.filter fun a => said.lookup a = some word

@[simp] theorem mem_sayers {said : List (α × β)} {word : β} {a : α} :
    a ∈ sayers said word ↔ said.lookup a = some word := by
  refine ⟨fun h => (Finset.mem_filter.1 h).2, fun h => Finset.mem_filter.2 ⟨?_, h⟩⟩
  obtain ⟨before, after, rfl, -⟩ := List.lookup_eq_some_iff.1 h
  simp

/-- Nobody has two first words. -/
theorem disjoint_sayers (said : List (α × β)) {word word' : β} (h : word ≠ word') :
    Disjoint (sayers said word) (sayers said word') := by
  rw [Finset.disjoint_left]
  intro a ha ha'
  rw [mem_sayers] at ha ha'
  exact h (Option.some.inj (ha.symm.trans ha'))

/-- A voter who has been heard changes nothing by speaking again. -/
theorem sayers_concat_of_heard {said : List (α × β)} {a : α} (h : a ∈ said.map Prod.fst)
    (word word' : β) : sayers (said ++ [(a, word)]) word' = sayers said word' := by
  ext c
  rw [mem_sayers, mem_sayers, lookup_concat]
  by_cases hc : c = a
  · subst hc
    obtain ⟨first, hfirst⟩ := Option.isSome_iff_exists.1 (lookup_isSome_iff_mem.2 h)
    rw [hfirst, Option.some_or]
  · rw [if_neg hc, Option.or_none]

/-- A voter who has not been heard joins those who say his word. -/
theorem sayers_concat_of_new {said : List (α × β)} {a : α} (h : a ∉ said.map Prod.fst)
    (word : β) : sayers (said ++ [(a, word)]) word = insert a (sayers said word) := by
  have hnone : said.lookup a = none := by
    rwa [← Option.not_isSome_iff_eq_none, lookup_isSome_iff_mem]
  ext c
  rw [mem_sayers, Finset.mem_insert, mem_sayers, lookup_concat]
  by_cases hc : c = a
  · subst hc
    simp [hnone]
  · rw [if_neg hc, Option.or_none]
    simp [hc]

/-- He joins nobody else. -/
theorem sayers_concat_of_ne {said : List (α × β)} {word word' : β} (h : word ≠ word') (a : α) :
    sayers (said ++ [(a, word)]) word' = sayers said word' := by
  ext c
  rw [mem_sayers, mem_sayers, lookup_concat]
  by_cases hc : c = a
  · subst hc
    cases said.lookup c with
    | some _ => rfl
    | none => simp [h]
  · rw [if_neg hc, Option.or_none]

/-- Whoever has said a word first has said it first whatever comes later. -/
theorem sayers_subset_append (said later : List (α × β)) (word : β) :
    sayers said word ⊆ sayers (said ++ later) word := by
  intro a ha
  rw [mem_sayers] at ha ⊢
  rw [List.lookup_append, ha, Option.some_or]

/-- When nobody speaks twice after the first speaker, it does not matter in which order the others
speak. -/
theorem sayers_cons_perm {said said' : List (α × β)} (h : (said.map Prod.fst).Nodup)
    (hperm : said.Perm said') (first : α × β) (word : β) :
    sayers (first :: said) word = sayers (first :: said') word := by
  ext a
  rw [mem_sayers, mem_sayers, List.lookup_cons, List.lookup_cons, lookup_perm h hperm]

/-- Those who say different words are together no more than all voters. -/
theorem card_sayers_add_le {said : List (α × β)} {room : Finset α}
    (h : ∀ a ∈ said.map Prod.fst, a ∈ room) {word word' : β} (hne : word ≠ word') :
    (sayers said word).card + (sayers said word').card ≤ room.card := by
  rw [← Finset.card_union_of_disjoint (disjoint_sayers said hne)]
  refine Finset.card_le_card fun a ha => h a (lookup_isSome_iff_mem.1 ?_)
  rcases Finset.mem_union.1 ha with ha | ha
  · rw [mem_sayers.1 ha]
    rfl
  · rw [mem_sayers.1 ha]
    rfl

end Foundation
