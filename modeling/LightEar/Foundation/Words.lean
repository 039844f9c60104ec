import LightEar.Foundation.Text
import Mathlib.Data.List.TakeWhile

/-!
# Words of a text

A text is cut at separators, and what is left between them are its words (`words`).  They are
exactly the parts of the text without a separator that cannot be made longer (`mem_words_iff`), and
they come one text after the other (`words_append_cons`).

The first place of a pattern in a text (`findFirst`) is the one where it was put in, if it does not
occur before and if it cannot overlap itself (`Unbordered`).
-/

namespace Foundation

namespace Text

universe u

variable {α : Type u}

/-! ## Words -/

/-- What lies between the separators. -/
def words (p : α → Bool) (l : List α) : List (List α) :=
  (l.splitOnP p).filter fun word => !word.isEmpty

/-- A separator ends a word. -/
theorem words_append_cons {p : α → Bool} (l : List α) {separator : α} (h : p separator = true)
    (l' : List α) : words p (l ++ separator :: l') = words p l ++ words p l' := by
  unfold words
  rw [List.splitOnP_append_cons l l' h, List.filter_append]

/-- A text without separators is a word, or empty. -/
theorem words_of_forall_not {p : α → Bool} {l : List α} (h : ∀ a ∈ l, p a = false) :
    words p l = if l = [] then [] else [l] := by
  unfold words
  rw [List.splitOnP_eq_singleton h]
  cases l <;> rfl

/-- A word of a text, and what is around it. -/
structure WordAt (p : α → Bool) (before word after : List α) : Prop where
  /-- There is a separator before it, or nothing. -/
  before : ∀ a ∈ before.getLast?, p a = true
  /-- It is not empty. -/
  ne_nil : word ≠ []
  /-- There is no separator in it. -/
  word : ∀ a ∈ word, p a = false
  /-- There is a separator after it, or nothing. -/
  after : ∀ a ∈ after.head?, p a = true

/-- A text has no separator, or a first one. -/
theorem exists_first_separator (p : α → Bool) (l : List α) :
    (∀ a ∈ l, p a = false) ∨ ∃ first separator rest, l = first ++ separator :: rest ∧
      p separator = true ∧ ∀ a ∈ first, p a = false := by
  induction l with
  | nil => exact .inl fun a ha => absurd ha List.not_mem_nil
  | cons b l ih =>
    cases hb : p b with
    | true => exact .inr ⟨[], b, l, rfl, hb, fun a ha => absurd ha List.not_mem_nil⟩
    | false =>
      rcases ih with hall | ⟨first, separator, rest, rfl, hseparator, hfirst⟩
      · exact .inl (List.forall_mem_cons.2 ⟨hb, hall⟩)
      · exact .inr ⟨b :: first, separator, rest, rfl, hseparator,
          List.forall_mem_cons.2 ⟨hb, hfirst⟩⟩

/-- The words of a text are exactly its longest parts without separators. -/
theorem mem_words_iff {p : α → Bool} {l word : List α} :
    word ∈ words p l ↔
      ∃ before after, l = before ++ (word ++ after) ∧ WordAt p before word after := by
  constructor
  · intro h
    induction hn : l.length using Nat.strong_induction_on generalizing l with
    | _ n ih =>
      rcases exists_first_separator p l with
        hall | ⟨first, separator, rest, rfl, hseparator, hfirst⟩
      · rw [words_of_forall_not hall] at h
        split_ifs at h with hnil
        · cases h
        · rw [List.mem_singleton] at h
          subst h
          exact ⟨[], [], (List.append_nil _).symm, by simp, hnil, hall, by simp⟩
      · rw [words_append_cons first hseparator, words_of_forall_not hfirst, List.mem_append] at h
        rcases h with h | h
        · split_ifs at h with hnil
          · cases h
          · rw [List.mem_singleton] at h
            subst h
            refine ⟨[], separator :: rest, rfl, by simp, hnil, hfirst, ?_⟩
            intro a ha
            rw [List.head?_cons, Option.mem_some_iff] at ha
            exact ha ▸ hseparator
        · obtain ⟨before, after, hrest, hword⟩ := ih _ (by rw [← hn]; simp; omega) h rfl
          refine ⟨first ++ separator :: before, after, by rw [hrest]; simp, ?_, hword.ne_nil,
            hword.word, hword.after⟩
          intro a ha
          rw [List.getLast?_append, List.getLast?_cons] at ha
          simp only [Option.some_or, Option.mem_some_iff] at ha
          cases hlast : before.getLast? with
          | none => rw [hlast] at ha; exact ha ▸ hseparator
          | some b => rw [hlast] at ha; exact ha ▸ hword.before b hlast
  · rintro ⟨before, after, rfl, hword⟩
    have hself : word ∈ words p (word ++ after) := by
      cases after with
      | nil =>
        rw [List.append_nil, words_of_forall_not hword.word, if_neg hword.ne_nil]
        exact List.mem_singleton_self _
      | cons separator rest =>
        rw [words_append_cons word (hword.after separator rfl), words_of_forall_not hword.word,
          if_neg hword.ne_nil]
        exact List.mem_append_left _ (List.mem_singleton_self _)
    rcases List.eq_nil_or_concat' before with rfl | ⟨first, separator, rfl⟩
    · exact hself
    · have hseparator : p separator = true := hword.before separator (by simp)
      rw [List.append_assoc, List.singleton_append, words_append_cons first hseparator]
      exact List.mem_append_right _ hself

/-! ## Trimming around a part with clean ends -/

/-- What is cut off at the end of a text ends at a character that does not match. -/
theorem rdropWhile_append_of_clean {p : α → Bool} {l : List α}
    (hlast : ∀ a ∈ l.getLast?, p a = false) (after : List α) :
    (l ++ after).rdropWhile p = l ++ after.rdropWhile p := by
  induction after using List.reverseRecOn with
  | nil =>
    rw [List.append_nil, List.rdropWhile_nil, List.append_nil]
    refine List.rdropWhile_eq_self_iff.2 fun hl => Bool.eq_false_iff.1 (hlast _ ?_)
    exact List.getLast?_eq_some_getLast hl
  | append_singleton after a ih =>
    rw [← List.append_assoc]
    cases ha : p a with
    | true => rw [List.rdropWhile_concat_pos _ _ _ ha, List.rdropWhile_concat_pos _ _ _ ha, ih]
    | false =>
      have hnot : ¬ p a = true := Bool.eq_false_iff.1 ha
      rw [List.rdropWhile_concat_neg _ _ _ hnot, List.rdropWhile_concat_neg _ _ _ hnot,
        List.append_assoc]

/-- What is cut off at the front of a text ends there, too. -/
theorem dropWhile_append_of_clean {p : α → Bool} {l : List α} (hfirst : ∀ a ∈ l.head?, p a = false)
    (before : List α) : (before ++ l).dropWhile p = before.dropWhile p ++ l := by
  have hself : l.dropWhile p = l := by
    cases l with
    | nil => rfl
    | cons a l => exact List.dropWhile_cons_of_neg (Bool.eq_false_iff.1 (hfirst a rfl))
  rw [List.dropWhile_append]
  split_ifs with hempty
  · rw [List.isEmpty_iff.1 hempty, hself, List.nil_append]
  · rfl

/-- What is kept of a text at its front gets no shorter when the text gets longer. -/
theorem takeWhile_prefix_of_prefix {p : α → Bool} {l l' : List α} (h : l <+: l') :
    l.takeWhile p <+: l'.takeWhile p := by
  obtain ⟨rest, rfl⟩ := h
  rw [List.takeWhile_append]
  split_ifs with hall
  · exact (List.takeWhile_prefix p).trans (List.prefix_append l _)
  · exact List.prefix_refl _

/-- Only what is around a part with clean ends is cut off. -/
theorem trimMatches_append {p : α → Bool} {middle : List α} (hclean : CleanEnds p middle)
    (hne : middle ≠ []) (before after : List α) :
    trimMatches p (before ++ (middle ++ after)) =
      before.dropWhile p ++ (middle ++ after.rdropWhile p) := by
  have hlast : ∀ a ∈ (before.dropWhile p ++ middle).getLast?, p a = false := by
    intro a ha
    rw [List.getLast?_append, List.getLast?_eq_some_getLast hne] at ha
    exact hclean.last a ((List.getLast?_eq_some_getLast hne).trans ha)
  have hfirst : ∀ a ∈ (middle ++ after).head?, p a = false := by
    intro a ha
    rw [List.head?_append_of_ne_nil _ hne] at ha
    exact hclean.first a ha
  unfold trimMatches
  rw [dropWhile_append_of_clean hfirst,
    ← List.append_assoc, rdropWhile_append_of_clean hlast, List.append_assoc]

/-! ## The first place of a pattern -/

/-- The text from the first place of a pattern on. -/
def findFirst [DecidableEq α] (pattern : List α) : List α → Option (List α)
  | [] => if pattern = [] then some [] else none
  | a :: l => if pattern <+: a :: l then some (a :: l) else findFirst pattern l

/-- No end of the pattern is also its beginning. -/
def Unbordered (pattern : List α) : Prop :=
  ∀ n, 0 < n → n < pattern.length → ¬ pattern.drop n <+: pattern

/-- The text has the pattern there, and not before. -/
theorem findFirst_eq_some [DecidableEq α] {pattern l found : List α} (hne : pattern ≠ [])
    (h : findFirst pattern l = some found) :
    ∃ before after, l = before ++ (pattern ++ after) ∧ found = pattern ++ after ∧
      ¬ pattern <:+: before := by
  have hnil : ¬ pattern <:+: [] := fun hinside => hne (List.infix_nil.1 hinside)
  induction l with
  | nil =>
    rw [findFirst, if_neg hne] at h
    cases h
  | cons a l ih =>
    rw [findFirst] at h
    split_ifs at h with hbegins
    · obtain ⟨after, hafter⟩ := hbegins
      exact ⟨[], after, hafter.symm, (Option.some.inj h).symm.trans hafter.symm, hnil⟩
    · obtain ⟨before, after, rfl, hfound, hnot⟩ := ih h
      refine ⟨a :: before, after, rfl, hfound, fun hinside => ?_⟩
      rcases List.infix_cons_iff.1 hinside with hfirst | hlater
      · exact hbegins (hfirst.trans (List.prefix_append (a :: before) _))
      · exact hnot hlater

/-- The text does not have the pattern if it is not found. -/
theorem findFirst_eq_none_iff [DecidableEq α] {pattern l : List α} (hne : pattern ≠ []) :
    findFirst pattern l = none ↔ ¬ pattern <:+: l := by
  induction l with
  | nil => simp [findFirst, hne]
  | cons a l ih =>
    rw [findFirst, List.infix_cons_iff]
    split_ifs with hbegins
    · simp [hbegins]
    · simp [hbegins, ih]

/-- A pattern that cannot overlap itself is found where it was put in. -/
theorem findFirst_append [DecidableEq α] {pattern before : List α} (hne : pattern ≠ [])
    (hborder : Unbordered pattern) (h : ¬ pattern <:+: before) (after : List α) :
    findFirst pattern (before ++ (pattern ++ after)) = some (pattern ++ after) := by
  induction before with
  | nil =>
    obtain ⟨a, rest, hrest⟩ :=
      List.exists_cons_of_ne_nil (List.append_ne_nil_of_left_ne_nil hne after)
    rw [List.nil_append, hrest, findFirst, if_pos (hrest ▸ List.prefix_append pattern after)]
  | cons a before ih =>
    have hlater : ¬ pattern <:+: before := fun hinside =>
      h (hinside.trans (List.suffix_cons a before).isInfix)
    have hnot : ¬ pattern <+: (a :: before) ++ (pattern ++ after) := by
      intro hbegins
      rcases List.prefix_or_prefix_of_prefix hbegins (List.prefix_append _ _) with hwhole | hpart
      · exact h hwhole.isInfix
      · -- what of the pattern goes beyond the front is also its beginning
        obtain ⟨rest, hrest⟩ := hpart
        have hdrop : pattern.drop (a :: before).length = rest := by
          rw [← hrest, List.drop_left]
        have hlength : rest.length < pattern.length := by
          rw [← hrest, List.length_append, List.length_cons]
          omega
        have hover : rest <+: pattern ++ after := by
          rw [← List.prefix_append_right_inj (a :: before), hrest]
          exact hbegins
        have hbegin : rest <+: pattern :=
          List.prefix_of_prefix_length_le hover (List.prefix_append _ _) hlength.le
        rcases Nat.lt_or_ge (a :: before).length pattern.length with hlt | hge
        · exact hborder _ (Nat.succ_pos _) hlt (hdrop ▸ hbegin)
        · have hnil : rest = [] := by
            rw [← hdrop]
            exact List.drop_eq_nil_of_le hge
          rw [hnil, List.append_nil] at hrest
          exact h (hrest ▸ List.infix_refl _)
    rw [List.cons_append] at hnot ⊢
    rw [findFirst, if_neg hnot, ih hlater]

end Text

end Foundation
