import Mathlib.Data.Finset.Max
import Mathlib.Data.List.Sort
import Mathlib.Logic.Relation

/-!
# Sorting by layers

A list is sorted along a dependency relation layer by layer: the elements that depend on nothing
that is left form the next layer, in a fallback order.  If nothing is free, because the relation
has a cycle, the first element in the fallback order is taken instead.

The result is a permutation of the list (`layeredSort_perm`).  If dependencies go down along a
rank, nothing in the result depends on anything behind it (`layeredSort_pairwise`); without a cycle
there is such a rank (`exists_rank`).  If the fallback order is a linear one on the
list, the result does not depend on the order in which the elements are given
(`layeredSort_eq_of_perm`), and the first element is the least of what is free, or of everything if
nothing is free (`exists_layeredSort_eq_cons_of_ne_nil`).
-/

namespace Foundation

universe u

variable {α : Type u}

section Rank

variable {dependsOn : α → α → Prop}

/-- The dependencies between the elements of a list. -/
def DependsWithin (dependsOn : α → α → Prop) (l : List α) (a b : α) : Prop :=
  a ∈ l ∧ b ∈ l ∧ dependsOn a b

/-- Without a cycle dependencies go down along a rank: the number of elements that an element
depends on, directly or not. -/
theorem exists_rank {l : List α}
    (h : ∀ a, ¬ Relation.TransGen (DependsWithin dependsOn l) a a) :
    ∃ rank : α → Nat, ∀ b ∈ l, ∀ c ∈ l, dependsOn b c → rank c < rank b := by
  classical
  refine ⟨fun b => (l.toFinset.filter (Relation.TransGen (DependsWithin dependsOn l) b)).card,
    fun b hb c hc hdepends => Finset.card_lt_card ?_⟩
  have hstep : DependsWithin dependsOn l b c := ⟨hb, hc, hdepends⟩
  refine Finset.ssubset_iff_of_subset (fun d hd => ?_) |>.2 ⟨c, ?_, ?_⟩
  · obtain ⟨hmem, hbelow⟩ := Finset.mem_filter.1 hd
    exact Finset.mem_filter.2 ⟨hmem, .head hstep hbelow⟩
  · exact Finset.mem_filter.2 ⟨List.mem_toFinset.2 hc, .single hstep⟩
  · exact fun hself => h c (Finset.mem_filter.1 hself).2

end Rank

section LayeredSort

variable (dependsOn le : α → α → Prop) [DecidableRel dependsOn] [DecidableRel le]

/-- Depends on nothing in the list. -/
def IsFree (remaining : List α) (a : α) : Prop := ∀ b ∈ remaining, ¬ dependsOn a b

instance (remaining : List α) : DecidablePred (IsFree dependsOn remaining) :=
  fun _ => inferInstanceAs (Decidable (∀ _ ∈ _, _))

/-- May come first: is free, unless nothing in the list is. -/
def IsNext (l : List α) (a : α) : Prop := (∃ b ∈ l, IsFree dependsOn l b) → IsFree dependsOn l a

/-- The first of the least elements in the fallback order, starting from a given one. -/
def firstLeast (a : α) (l : List α) : α :=
  l.foldl (fun least b => if le least b then least else b) a

/-- The sort, for as many layers as there is fuel. -/
def layeredSort [DecidableEq α] : Nat → List α → List α
  | 0, _ => []
  | _ + 1, [] => []
  | fuel + 1, a :: l =>
    let layer := (a :: l).filter (IsFree dependsOn (a :: l))
    if layer = [] then
      firstLeast le a l :: layeredSort fuel ((a :: l).erase (firstLeast le a l))
    else
      layer.insertionSort le ++
        layeredSort fuel ((a :: l).filter fun b => ¬ IsFree dependsOn (a :: l) b)

variable {dependsOn le}

theorem firstLeast_mem (a : α) (l : List α) : firstLeast le a l ∈ a :: l := by
  unfold firstLeast
  induction l generalizing a with
  | nil => exact List.mem_singleton_self a
  | cons b l ih =>
    rw [List.foldl_cons]
    split
    · rcases List.mem_cons.1 (ih a) with h | h
      · rw [h]
        exact List.mem_cons_self
      · exact List.mem_cons_of_mem _ (List.mem_cons_of_mem _ h)
    · exact List.mem_cons_of_mem _ (ih b)

/-- With a layer for each element the sort loses nothing and adds nothing. -/
theorem layeredSort_perm [DecidableEq α] {fuel : Nat} {l : List α} (h : l.length ≤ fuel) :
    (layeredSort dependsOn le fuel l).Perm l := by
  induction fuel generalizing l with
  | zero =>
    rw [List.length_eq_zero_iff.1 (Nat.le_zero.1 h)]
    exact .refl _
  | succ fuel ih =>
    cases l with
    | nil => exact .refl _
    | cons a l =>
      unfold layeredSort
      dsimp only
      split
      · have hmem : firstLeast le a l ∈ a :: l := firstLeast_mem a l
        have hlength := List.length_erase_of_mem hmem
        rw [List.length_cons] at h hlength
        exact ((ih (by omega)).cons _).trans (List.perm_cons_erase hmem).symm
      · rename_i hlayer
        have hpos : 0 < ((a :: l).filter (IsFree dependsOn (a :: l))).length :=
          List.length_pos_iff.2 hlayer
        have hsplit := List.filter_append_perm (IsFree dependsOn (a :: l)) (a :: l)
        have hlength := hsplit.length_eq
        rw [List.length_append] at hlength
        refine ((List.perm_insertionSort le _).append (ih ?_)).trans ?_
        · simp only [decide_not] at hlength ⊢
          omega
        · simpa using hsplit

/-- With a layer for each element more fuel changes nothing. -/
theorem layeredSort_eq_of_length_le [DecidableEq α] {fuel more : Nat} {l : List α}
    (h : l.length ≤ fuel) (hmore : l.length ≤ more) :
    layeredSort dependsOn le more l = layeredSort dependsOn le fuel l := by
  induction fuel generalizing more l with
  | zero =>
    rw [List.length_eq_zero_iff.1 (Nat.le_zero.1 h)]
    cases more <;> rfl
  | succ fuel ih =>
    cases l with
    | nil => cases more <;> rfl
    | cons a l =>
      cases more with
      | zero => exact absurd hmore (Nat.not_succ_le_zero _)
      | succ more =>
        rw [List.length_cons] at h hmore
        unfold layeredSort
        dsimp only
        split
        · have hmem : firstLeast le a l ∈ a :: l := firstLeast_mem a l
          have hlength := List.length_erase_of_mem hmem
          rw [List.length_cons] at hlength
          rw [ih (by omega) (by omega)]
        · rename_i hlayer
          have hpos : 0 < ((a :: l).filter (IsFree dependsOn (a :: l))).length :=
            List.length_pos_iff.2 hlayer
          have hlength := (List.filter_append_perm (IsFree dependsOn (a :: l)) (a :: l)).length_eq
          simp only [List.length_append, List.length_cons, ← decide_not] at hlength
          rw [ih (by omega) (by omega)]

/-- The sort invents no element, with any fuel. -/
theorem layeredSort_subset [DecidableEq α] (fuel : Nat) (l : List α) :
    layeredSort dependsOn le fuel l ⊆ l := by
  induction fuel generalizing l with
  | zero => exact List.nil_subset l
  | succ fuel ih =>
    cases l with
    | nil => exact List.nil_subset []
    | cons a l =>
      unfold layeredSort
      dsimp only
      split
      · refine List.cons_subset.2 ⟨firstLeast_mem a l, ?_⟩
        exact List.Subset.trans (ih _) List.erase_subset
      · refine List.append_subset.2 ⟨?_, List.Subset.trans (ih _) ?_⟩
        · intro b hb
          exact List.mem_of_mem_filter ((List.mem_insertionSort le).1 hb)
        · intro b hb
          exact List.mem_of_mem_filter hb

/-- If dependencies go down along a rank, something is free. -/
theorem exists_isFree [DecidableEq α] {rank : α → Nat} {a : α} {l : List α}
    (hrank : ∀ b ∈ a :: l, ∀ c ∈ a :: l, dependsOn b c → rank c < rank b) :
    (a :: l).filter (IsFree dependsOn (a :: l)) ≠ [] := by
  obtain ⟨b, hb, hleast⟩ :=
    (a :: l).toFinset.exists_min_image rank ⟨a, List.mem_toFinset.2 List.mem_cons_self⟩
  rw [List.mem_toFinset] at hb
  have hfree : IsFree dependsOn (a :: l) b := by
    intro c hc hdepends
    exact (hleast c (List.mem_toFinset.2 hc)).not_gt (hrank b hb c hc hdepends)
  have hmem : b ∈ (a :: l).filter (IsFree dependsOn (a :: l)) :=
    List.mem_filter.2 ⟨hb, decide_eq_true hfree⟩
  exact List.ne_nil_of_mem hmem

/-- If dependencies go down along a rank, nothing depends on anything behind it. -/
theorem layeredSort_pairwise [DecidableEq α] {rank : α → Nat} (fuel : Nat) {l : List α}
    (hrank : ∀ b ∈ l, ∀ c ∈ l, dependsOn b c → rank c < rank b) :
    (layeredSort dependsOn le fuel l).Pairwise fun b c => ¬ dependsOn b c := by
  induction fuel generalizing l with
  | zero => exact .nil
  | succ fuel ih =>
    cases l with
    | nil => exact .nil
    | cons a l =>
      unfold layeredSort
      dsimp only
      rw [if_neg (exists_isFree hrank)]
      -- what a layer holds depends on nothing of its own layer and on nothing that is left
      have hfree : ∀ b ∈ ((a :: l).filter (IsFree dependsOn (a :: l))).insertionSort le,
          IsFree dependsOn (a :: l) b := by
        intro b hb
        exact of_decide_eq_true (List.mem_filter.1 ((List.mem_insertionSort le).1 hb)).2
      have hmem : ∀ b ∈ ((a :: l).filter (IsFree dependsOn (a :: l))).insertionSort le,
          b ∈ a :: l := by
        intro b hb
        exact List.mem_of_mem_filter ((List.mem_insertionSort le).1 hb)
      refine List.pairwise_append.2 ⟨?_, ih ?_, ?_⟩
      · refine List.pairwise_iff_forall_sublist.2 ?_
        intro b c hsublist
        have hb : b ∈ [b, c] := List.mem_cons_self
        have hc : c ∈ [b, c] := List.mem_cons_of_mem _ (List.mem_singleton_self c)
        exact hfree b (hsublist.subset hb) c (hmem c (hsublist.subset hc))
      · intro b hb c hc
        exact hrank b (List.mem_of_mem_filter hb) c (List.mem_of_mem_filter hc)
      · intro b hb c hc
        exact hfree b hb c (List.mem_of_mem_filter (layeredSort_subset _ _ hc))

section Order

variable [Std.Total le] [IsTrans α le]

/-- The first of the least elements is least. -/
theorem firstLeast_le (a : α) (l : List α) : ∀ b ∈ a :: l, le (firstLeast le a l) b := by
  unfold firstLeast
  induction l generalizing a with
  | nil =>
    intro b hb
    rw [List.mem_singleton.1 hb]
    exact (Std.Total.total a a).elim id id
  | cons c l ih =>
    intro b hb
    rw [List.foldl_cons]
    -- the lesser of the first two is least, so whatever is below it is below both
    have hbelow : ∀ {d}, (d = a ∨ d = c) → le (if le a c then a else c) d := by
      rintro d (rfl | rfl)
      · split
        · exact (Std.Total.total d d).elim id id
        · rename_i h
          exact (Std.Total.total d c).resolve_left h
      · split
        · assumption
        · exact (Std.Total.total d d).elim id id
    rcases List.mem_cons.1 hb with rfl | hb
    · exact IsTrans.trans _ _ _ (ih _ _ List.mem_cons_self) (hbelow (.inl rfl))
    · rcases List.mem_cons.1 hb with rfl | hb
      · exact IsTrans.trans _ _ _ (ih _ _ List.mem_cons_self) (hbelow (.inr rfl))
      · exact ih _ _ (List.mem_cons_of_mem _ hb)

/-- What is free does not depend on the order in which the elements are given. -/
theorem filter_isFree_perm {l l' : List α} (h : l.Perm l') :
    (l.filter (IsFree dependsOn l)).Perm (l'.filter (IsFree dependsOn l')) := by
  have hsame : ∀ b, IsFree dependsOn l b ↔ IsFree dependsOn l' b := fun b =>
    ⟨fun hfree c hc => hfree c (h.mem_iff.2 hc), fun hfree c hc => hfree c (h.mem_iff.1 hc)⟩
  simp only [hsame]
  exact h.filter _

/-- Nor does what is left. -/
theorem filter_not_isFree_perm {l l' : List α} (h : l.Perm l') :
    (l.filter fun b => ¬ IsFree dependsOn l b).Perm
      (l'.filter fun b => ¬ IsFree dependsOn l' b) := by
  have hsame : ∀ b, IsFree dependsOn l b ↔ IsFree dependsOn l' b := fun b =>
    ⟨fun hfree c hc => hfree c (h.mem_iff.2 hc), fun hfree c hc => hfree c (h.mem_iff.1 hc)⟩
  simp only [hsame]
  exact h.filter _

/-- If the fallback order is antisymmetric on the elements, the sort does not depend on the order
in which they are given. -/
theorem layeredSort_eq_of_perm [DecidableEq α] {fuel : Nat} {l l' : List α} (h : l.Perm l')
    (hanti : ∀ a ∈ l, ∀ b ∈ l, le a b → le b a → a = b) :
    layeredSort dependsOn le fuel l = layeredSort dependsOn le fuel l' := by
  induction fuel generalizing l l' with
  | zero => rfl
  | succ fuel ih =>
    cases l with
    | nil => rw [List.nil_perm.1 h]
    | cons a l =>
      cases l' with
      | nil => exact absurd h.length_eq (Nat.succ_ne_zero _)
      | cons a' l' =>
        have hlayer : ((a :: l).filter (IsFree dependsOn (a :: l))).Perm
            ((a' :: l').filter (IsFree dependsOn (a' :: l'))) := filter_isFree_perm h
        unfold layeredSort
        dsimp only
        by_cases hnone : (a :: l).filter (IsFree dependsOn (a :: l)) = []
        · have hnone' : (a' :: l').filter (IsFree dependsOn (a' :: l')) = [] := by
            rw [hnone] at hlayer
            exact List.nil_perm.1 hlayer
          rw [if_pos hnone, if_pos hnone']
          have hmem := h.mem_iff.2 (firstLeast_mem a' l' : firstLeast le a' l' ∈ _)
          have hleast : firstLeast le a l = firstLeast le a' l' :=
            hanti _ (firstLeast_mem a l) _ hmem (firstLeast_le a l _ hmem)
              (firstLeast_le a' l' _ (h.mem_iff.1 (firstLeast_mem a l)))
          rw [hleast]
          refine congrArg _ (ih (h.erase _) fun b hb c hc => ?_)
          exact hanti b (List.mem_of_mem_erase hb) c (List.mem_of_mem_erase hc)
        · have hsome' : (a' :: l').filter (IsFree dependsOn (a' :: l')) ≠ [] := by
            intro hnone'
            rw [hnone'] at hlayer
            exact hnone (List.perm_nil.1 hlayer)
          rw [if_neg hnone, if_neg hsome']
          have hsorted : ((a :: l).filter (IsFree dependsOn (a :: l))).insertionSort le =
              ((a' :: l').filter (IsFree dependsOn (a' :: l'))).insertionSort le := by
            refine List.Perm.eq_of_pairwise (fun b c hb hc => ?_)
              (List.pairwise_insertionSort le _) (List.pairwise_insertionSort le _)
              (((List.perm_insertionSort le _).trans hlayer).trans
                (List.perm_insertionSort le _).symm)
            have hb := List.mem_of_mem_filter ((List.mem_insertionSort le).1 hb)
            have hc := List.mem_of_mem_filter ((List.mem_insertionSort le).1 hc)
            exact hanti b hb c (h.mem_iff.2 hc)
          rw [hsorted]
          refine congrArg _ (ih (filter_not_isFree_perm h) fun b hb c hc => ?_)
          exact hanti b (List.mem_of_mem_filter hb) c (List.mem_of_mem_filter hc)

/-- The first element is one that may come first, and the least of these. -/
theorem exists_layeredSort_eq_cons_of_ne_nil [DecidableEq α] (fuel : Nat) {l : List α}
    (hl : l ≠ []) :
    ∃ b rest, layeredSort dependsOn le (fuel + 1) l = b :: rest ∧ b ∈ l ∧
      IsNext dependsOn l b ∧ ∀ d ∈ l, IsNext dependsOn l d → le b d := by
  cases l with
  | nil => exact absurd rfl hl
  | cons a l =>
    unfold layeredSort
    dsimp only
    split
    · rename_i hnone
      have hnext : IsNext dependsOn (a :: l) (firstLeast le a l) := by
        rintro ⟨b, hb, hfree⟩
        rw [List.filter_eq_nil_iff] at hnone
        exact absurd (decide_eq_true hfree) (hnone b hb)
      exact ⟨firstLeast le a l, _, rfl, firstLeast_mem a l, hnext,
        fun d hd _ => firstLeast_le a l d hd⟩
    · rename_i hlayer
      have hsorted := List.pairwise_insertionSort le
        ((a :: l).filter (IsFree dependsOn (a :: l)))
      have hmem : ∀ d, d ∈ ((a :: l).filter (IsFree dependsOn (a :: l))).insertionSort le ↔
          d ∈ a :: l ∧ IsFree dependsOn (a :: l) d := by
        intro d
        rw [List.mem_insertionSort, List.mem_filter, decide_eq_true_eq]
      cases hfirst : ((a :: l).filter (IsFree dependsOn (a :: l))).insertionSort le with
      | nil =>
        have hnone := (List.perm_insertionSort le ((a :: l).filter (IsFree dependsOn (a :: l))))
        rw [hfirst, List.nil_perm] at hnone
        exact absurd hnone hlayer
      | cons b rest =>
        rw [hfirst] at hsorted hmem
        obtain ⟨hb, hbfree⟩ := (hmem b).1 List.mem_cons_self
        refine ⟨b, _, rfl, hb, fun _ => hbfree, fun d hd hdnext => ?_⟩
        rcases List.mem_cons.1 ((hmem d).2 ⟨hd, hdnext ⟨b, hb, hbfree⟩⟩) with rfl | hd
        · exact (Std.Total.total d d).elim id id
        · exact List.rel_of_pairwise_cons hsorted hd

/-- Where something is free, the first element is free and the least that is. -/
theorem exists_layeredSort_eq_cons [DecidableEq α] (fuel : Nat) {l : List α} {c : α} (hc : c ∈ l)
    (hfree : IsFree dependsOn l c) :
    ∃ b rest, layeredSort dependsOn le (fuel + 1) l = b :: rest ∧ b ∈ l ∧
      IsFree dependsOn l b ∧ ∀ d ∈ l, IsFree dependsOn l d → le b d := by
  obtain ⟨b, rest, hsorted, hb, hnext, hleast⟩ :
      ∃ b rest, layeredSort dependsOn le (fuel + 1) l = b :: rest ∧ b ∈ l ∧
        IsNext dependsOn l b ∧ ∀ d ∈ l, IsNext dependsOn l d → le b d :=
    exists_layeredSort_eq_cons_of_ne_nil fuel (List.ne_nil_of_mem hc)
  exact ⟨b, rest, hsorted, hb, hnext ⟨c, hc, hfree⟩, fun d hd hdfree => hleast d hd fun _ => hdfree⟩

/-- If the fallback order is antisymmetric on the elements, an element comes first exactly if it is
the least of those that may. -/
theorem head?_layeredSort_eq_some_iff [DecidableEq α] {fuel : Nat} {l : List α} {a : α}
    (hfuel : l.length ≤ fuel) (ha : a ∈ l)
    (hanti : ∀ b ∈ l, ∀ c ∈ l, le b c → le c b → b = c) :
    (layeredSort dependsOn le fuel l).head? = some a ↔
      IsNext dependsOn l a ∧ ∀ d ∈ l, IsNext dependsOn l d → le a d := by
  obtain ⟨fuel, rfl⟩ := Nat.exists_eq_succ_of_ne_zero
    ((List.length_pos_of_mem ha).trans_le hfuel).ne'
  obtain ⟨b, rest, hsorted, hb, hnext, hleast⟩ :
      ∃ b rest, layeredSort dependsOn le (fuel + 1) l = b :: rest ∧ b ∈ l ∧
        IsNext dependsOn l b ∧ ∀ d ∈ l, IsNext dependsOn l d → le b d :=
    exists_layeredSort_eq_cons_of_ne_nil fuel (List.ne_nil_of_mem ha)
  rw [Nat.succ_eq_add_one, hsorted, List.head?_cons, Option.some.injEq]
  constructor
  · rintro rfl
    exact ⟨hnext, hleast⟩
  · rintro ⟨hanext, haleast⟩
    exact hanti b hb a ha (hleast a ha hanext) (haleast b hb hnext)

end Order

end LayeredSort

end Foundation
