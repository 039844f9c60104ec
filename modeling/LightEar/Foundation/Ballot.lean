import Mathlib.Data.Finset.Card
import Mathlib.Data.List.AList

/-!
# Counting the entries of a finite map

An association list with distinct keys is a ballot: each key has cast at most one value.
Counting the values with a property is the same as counting the keys, inside any set that
contains them all, whose value has the property.
-/

namespace Foundation

variable {α : Type*} {β : Type*}

/-- The keys of the entries with a property are pairwise distinct. -/
theorem nodup_keys_filter (s : AList fun _ : α => β) (q : (Σ _ : α, β) → Bool) :
    ((s.entries.filter q).map Sigma.fst).Nodup :=
  s.keys_nodup.sublist (List.filter_sublist.map _)

variable [DecidableEq α]

/-- A value is held by a key exactly when the pair is an entry. -/
theorem mem_keys_filter_iff {s : AList fun _ : α => β} {q : β → Prop} [DecidablePred q] {a : α} :
    a ∈ (s.entries.filter fun e => q e.2).map Sigma.fst ↔ ∃ b ∈ s.lookup a, q b := by
  simp only [List.mem_map, List.mem_filter, decide_eq_true_eq]
  constructor
  · rintro ⟨⟨a, b⟩, ⟨hmem, hq⟩, rfl⟩
    exact ⟨b, AList.mem_lookup_iff.2 hmem, hq⟩
  · rintro ⟨b, hlookup, hq⟩
    exact ⟨⟨a, b⟩, ⟨AList.mem_lookup_iff.1 hlookup, hq⟩, rfl⟩

/-- Counting entries by their values is counting the keys that hold such a value. -/
theorem countP_entries_eq_card (s : AList fun _ : α => β) (q : β → Prop) [DecidablePred q]
    {S : Finset α} (hS : ∀ a, ∀ b ∈ s.lookup a, a ∈ S)
    [DecidablePred fun a => ∃ b ∈ s.lookup a, q b] :
    (s.entries.countP fun e => q e.2) = (S.filter fun a => ∃ b ∈ s.lookup a, q b).card := by
  have hset : S.filter (fun a => ∃ b ∈ s.lookup a, q b) =
      ((s.entries.filter fun e => q e.2).map Sigma.fst).toFinset := by
    ext a
    rw [Finset.mem_filter, List.mem_toFinset, mem_keys_filter_iff]
    constructor
    · exact fun h => h.2
    · rintro ⟨b, hlookup, hq⟩
      exact ⟨hS a b hlookup, b, hlookup, hq⟩
  rw [hset, List.toFinset_card_of_nodup (nodup_keys_filter s _), List.length_map,
    List.countP_eq_length_filter]

end Foundation
