import Mathlib.Data.List.DropRight
import Mathlib.Data.List.Infix

/-!
# Texts

Texts are lists of characters.  This is what the usual operations on them do: cutting at the first
separator (`splitOnce`), cutting off at both ends (`trimMatches`), joining doubled characters
(`squeeze`) and reading a decimal number (`parseUnsigned`).  Each comes with the lemma that undoes
the writing: a text without the separator before it is cut where it was put together, a text with
clean ends or without doubled characters is left alone, and the digits of a number are read as the
number.
-/

namespace Foundation

namespace Text

universe u

variable {α : Type u}

/-! ## Cutting -/

/-- What comes before and after the first separator. -/
def splitOnce [DecidableEq α] (separator : α) : List α → Option (List α × List α)
  | [] => none
  | a :: l =>
    if a = separator then some ([], l)
    else (splitOnce separator l).map fun parts => (a :: parts.1, parts.2)

/-- The first separator is the one that was put behind a text without any. -/
theorem splitOnce_append [DecidableEq α] {separator : α} {before : List α}
    (h : separator ∉ before) (after : List α) :
    splitOnce separator (before ++ separator :: after) = some (before, after) := by
  induction before with
  | nil => simp [splitOnce]
  | cons a before ih =>
    rw [List.mem_cons, not_or] at h
    have ha : a ≠ separator := fun heq => h.1 heq.symm
    rw [List.cons_append, splitOnce, if_neg ha, ih h.2]
    rfl

/-- What lies between the matches at both ends. -/
def trimMatches (p : α → Bool) (l : List α) : List α := (l.dropWhile p).rdropWhile p

/-- Neither the first nor the last character matches. -/
structure CleanEnds (p : α → Bool) (l : List α) : Prop where
  /-- The first one does not. -/
  first : ∀ a ∈ l.head?, p a = false
  /-- The last one does not. -/
  last : ∀ a ∈ l.getLast?, p a = false

/-- What is left is a part of the text. -/
theorem trimMatches_infix (p : α → Bool) (l : List α) : trimMatches p l <:+: l :=
  (List.rdropWhile_prefix p (l.dropWhile p)).isInfix.trans (List.dropWhile_suffix p).isInfix

/-- Both of its ends are clean. -/
theorem cleanEnds_trimMatches (p : α → Bool) (l : List α) : CleanEnds p (trimMatches p l) where
  first := by
    intro a ha
    obtain ⟨rest, hrest⟩ := List.head?_eq_some_iff.1 ha
    have hpart := List.rdropWhile_prefix p (l.dropWhile p)
    rw [← trimMatches, hrest] at hpart
    have hhead : (l.dropWhile p).head? = some a := by
      obtain ⟨more, hmore⟩ := hpart
      rw [← hmore]
      rfl
    have hnot := List.head?_dropWhile_not p l
    rw [hhead] at hnot
    exact hnot
  last := by
    intro a ha
    have hne : trimMatches p l ≠ [] := by
      intro hnil
      rw [hnil] at ha
      cases ha
    have hlast : (trimMatches p l).getLast hne = a :=
      Option.some.inj ((List.getLast?_eq_some_getLast hne).symm.trans ha)
    rw [← hlast]
    exact Bool.eq_false_iff.2 (List.rdropWhile_last_not p (l.dropWhile p) hne)

/-- A text with clean ends is left alone. -/
theorem CleanEnds.trimMatches_eq {p : α → Bool} {l : List α} (h : CleanEnds p l) :
    trimMatches p l = l := by
  have hfront : l.dropWhile p = l := by
    refine List.dropWhile_eq_self_iff.2 fun hpos => Bool.eq_false_iff.1 (h.first _ ?_)
    exact List.head?_eq_getElem?.trans (List.getElem?_eq_getElem hpos)
  unfold trimMatches
  rw [hfront]
  refine List.rdropWhile_eq_self_iff.2 fun hne => Bool.eq_false_iff.1 (h.last _ ?_)
  exact List.getLast?_eq_some_getLast hne

/-- Unicode's white space. -/
def isWhiteSpace (c : Char) : Bool :=
  (0x9 ≤ c.toNat && c.toNat ≤ 0xD) || c.toNat == 0x20 || c.toNat == 0x85 || c.toNat == 0xA0 ||
    c.toNat == 0x1680 || (0x2000 ≤ c.toNat && c.toNat ≤ 0x200A) || c.toNat == 0x2028 ||
    c.toNat == 0x2029 || c.toNat == 0x202F || c.toNat == 0x205F || c.toNat == 0x3000

/-- The text without white space at its ends. -/
def trim (l : List Char) : List Char := trimMatches isWhiteSpace l

/-! ## Doubled characters -/

/-- Each pair of a character is replaced by one, from the left. -/
def replacePairs [DecidableEq α] (a : α) : List α → List α
  | x :: y :: l => if x = a ∧ y = a then a :: replacePairs a l else x :: replacePairs a (y :: l)
  | l => l

/-- Nothing else is put in. -/
theorem replacePairs_subset [DecidableEq α] (a : α) (l : List α) : replacePairs a l ⊆ l := by
  fun_induction replacePairs a l with
  | case1 x y l hpair ih =>
    intro b hb
    rcases List.mem_cons.1 hb with rfl | hb
    · exact List.mem_cons.2 (.inl hpair.1.symm)
    · exact List.mem_cons_of_mem _ (List.mem_cons_of_mem _ (ih hb))
  | case2 x y l hpair ih =>
    intro b hb
    rcases List.mem_cons.1 hb with rfl | hb
    · exact List.mem_cons_self
    · exact List.mem_cons_of_mem _ (ih hb)
  | case3 l hshort => exact List.Subset.refl l

theorem length_replacePairs_le [DecidableEq α] (a : α) (l : List α) :
    (replacePairs a l).length ≤ l.length := by
  fun_induction replacePairs a l with
  | case1 x y l hpair ih =>
    simp only [List.length_cons]
    omega
  | case2 x y l hpair ih =>
    simp only [List.length_cons] at ih ⊢
    omega
  | case3 l hshort => exact Nat.le_refl _

/-- A pair is at the front of a text or behind its first character. -/
theorem pair_infix_cons_cons {a x y : α} {l : List α} :
    [a, a] <:+: x :: y :: l ↔ (x = a ∧ y = a) ∨ [a, a] <:+: y :: l := by
  rw [List.infix_cons_iff, List.cons_prefix_cons, List.cons_prefix_cons]
  simp only [List.nil_prefix, and_true, eq_comm]

/-- The text gets shorter where there is a pair. -/
theorem length_replacePairs_lt [DecidableEq α] {a : α} {l : List α} (h : [a, a] <:+: l) :
    (replacePairs a l).length < l.length := by
  fun_induction replacePairs a l with
  | case1 x y l hpair ih =>
    have hle := length_replacePairs_le a l
    simp only [List.length_cons]
    omega
  | case2 x y l hpair ih =>
    have hlt := ih ((pair_infix_cons_cons.1 h).resolve_left hpair)
    simp only [List.length_cons] at hlt ⊢
    omega
  | case3 l hshort =>
    have hle := h.length_le
    match l with
    | [] => cases hle
    | [x] => exact absurd hle (by simp)
    | x :: y :: l => exact absurd rfl (hshort x y l)

/-- Pairs are replaced until there are none. -/
def squeeze [DecidableEq α] (a : α) (l : List α) : List α :=
  if [a, a] <:+: l then squeeze a (replacePairs a l) else l
termination_by l.length
decreasing_by exact length_replacePairs_lt ‹_›

/-- Then there are none. -/
theorem not_infix_squeeze [DecidableEq α] (a : α) (l : List α) : ¬ [a, a] <:+: squeeze a l := by
  fun_induction squeeze a l with
  | case1 l hpair ih => exact ih
  | case2 l hpair => exact hpair

/-- Nothing else is put in. -/
theorem squeeze_subset [DecidableEq α] (a : α) (l : List α) : squeeze a l ⊆ l := by
  fun_induction squeeze a l with
  | case1 l hpair ih => exact List.Subset.trans ih (replacePairs_subset a l)
  | case2 l hpair => exact List.Subset.refl l

/-- A text without pairs is left alone. -/
theorem squeeze_eq [DecidableEq α] {a : α} {l : List α} (h : ¬ [a, a] <:+: l) :
    squeeze a l = l := by
  rw [squeeze, if_neg h]

/-- Two texts without pairs are put together without one unless the first ends in one half of
it. -/
theorem not_infix_append {a : α} {l l' : List α} (h : ¬ [a, a] <:+: l) (h' : ¬ [a, a] <:+: l')
    (hlast : ∀ b ∈ l.getLast?, b ≠ a) : ¬ [a, a] <:+: l ++ l' := by
  induction l with
  | nil => exact h'
  | cons x l ih =>
    cases l with
    | nil =>
      rw [List.cons_append, List.nil_append, List.infix_cons_iff, List.cons_prefix_cons]
      rintro (⟨heq, -⟩ | hinfix)
      · exact hlast x rfl heq.symm
      · exact h' hinfix
    | cons y l =>
      rw [List.cons_append, List.cons_append, pair_infix_cons_cons]
      rintro (hpair | hinfix)
      · exact h (pair_infix_cons_cons.2 (.inl hpair))
      · exact ih (fun hlater => h (pair_infix_cons_cons.2 (.inr hlater))) hlast hinfix

/-! ## Numbers -/

/-- Reads a decimal number, with or without a plus sign, up to the largest one. -/
def parseUnsigned (largest : Nat) (l : List Char) : Option Nat :=
  let digits := if l.head? = some '+' then l.tail else l
  if !digits.isEmpty && digits.all Char.isDigit then
    let value := Nat.ofDigitChars 10 digits 0
    if value ≤ largest then some value else none
  else none

/-- Digits that write a number, perhaps with zeros in front. -/
structure IsDecimal (digits : List Char) (n : Nat) : Prop where
  /-- There is one. -/
  ne_nil : digits ≠ []
  /-- They are digits. -/
  isDigit : ∀ c ∈ digits, c.isDigit = true
  /-- Their value is the number. -/
  value : Nat.ofDigitChars 10 digits 0 = n

/-- The digits of a number are read as the number. -/
theorem IsDecimal.parseUnsigned_eq {digits : List Char} {n : Nat} (h : IsDecimal digits n)
    {largest : Nat} (hle : n ≤ largest) : parseUnsigned largest digits = some n := by
  have hplus : ¬ digits.head? = some '+' := by
    intro hhead
    have hdigit := h.isDigit '+' (List.mem_of_head? hhead)
    exact absurd hdigit (by decide)
  have hempty : digits.isEmpty = false := List.isEmpty_eq_false_iff.2 h.ne_nil
  have hall : (!digits.isEmpty && digits.all Char.isDigit) = true := by
    rw [hempty, List.all_eq_true.2 h.isDigit]
    rfl
  unfold parseUnsigned
  rw [if_neg hplus, if_pos hall]
  dsimp only
  rw [h.value, if_pos hle]

/-- A character that is no digit is not among them. -/
theorem IsDecimal.notMem {digits : List Char} {n : Nat} (h : IsDecimal digits n) {c : Char}
    (hc : c.isDigit = false) : c ∉ digits := by
  intro hmem
  have hdigit := h.isDigit c hmem
  rw [hc] at hdigit
  cases hdigit

/-- A digit is not white space. -/
theorem not_isWhiteSpace_of_isDigit {c : Char} (h : c.isDigit = true) : isWhiteSpace c = false := by
  obtain ⟨hfirst, hlast⟩ := Char.isDigit_iff_toNat.1 h
  have hzero : '0'.toNat = 48 := rfl
  have hnine : '9'.toNat = 57 := rfl
  unfold isWhiteSpace
  simp only [Bool.or_eq_false_iff, Bool.and_eq_false_iff, decide_eq_false_iff_not,
    beq_eq_false_iff_ne]
  omega

end Text

end Foundation
