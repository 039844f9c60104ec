import Mathlib.Data.List.Basic

/-!
# Named values in a row

Named values are written one after the other, each as its name, a mark and its value, with another
mark in between.  If the marks do not occur in what names and values are written as, nothing is lost
(`Clear.record_injective`), and what has been put behind the last mark can be cut off again
(`eq_of_append_mark`).
-/

namespace Foundation

namespace Fields

universe u v

variable {α : Type u} {β : Type v}

/-- How named values are written. -/
structure Writer (α : Type u) (β : Type v) where
  /-- How a name or a value is written. -/
  write : α → List β
  /-- What stands between a name and its value. -/
  equals : β
  /-- What stands between two named values. -/
  between : β

namespace Writer

variable (w : Writer α β)

/-- A named value as it is written. -/
def field (field : α × α) : List β := w.write field.1 ++ w.equals :: w.write field.2

/-- Named values as they are written. -/
def record (fields : List (α × α)) : List β := [w.between].intercalate (fields.map w.field)

/-- Names and values can be told apart, from each other and from the marks. -/
structure Clear : Prop where
  /-- Different ones are written differently. -/
  injective : Function.Injective w.write
  /-- They do not have the mark between name and value. -/
  equals : ∀ a, w.equals ∉ w.write a
  /-- They do not have the mark between two named values. -/
  between : ∀ a, w.between ∉ w.write a
  /-- The marks are different. -/
  ne : w.between ≠ w.equals

variable {w}

/-- What is written of named values is a mark, or it is written of one of them. -/
theorem mem_record {fields : List (α × α)} {b : β} (h : b ∈ w.record fields) :
    b = w.between ∨ ∃ field ∈ fields, b ∈ w.field field := by
  unfold record at h
  induction fields with
  | nil => exact absurd h List.not_mem_nil
  | cons field fields ih =>
    cases fields with
    | nil => exact .inr ⟨field, List.mem_cons_self, by simpa using h⟩
    | cons next fields =>
      rw [List.map_cons, List.map_cons, List.intercalate_cons_cons, List.mem_append,
        List.mem_append, List.mem_singleton] at h
      rcases h with (hfield | hmark) | hlater
      · exact .inr ⟨field, List.mem_cons_self, hfield⟩
      · exact .inl hmark
      · rcases ih hlater with hmark | ⟨other, hother, hb⟩
        · exact .inl hmark
        · exact .inr ⟨other, List.mem_cons_of_mem _ hother, hb⟩

/-- Different named values are written differently. -/
theorem Clear.field_injective (h : w.Clear) : Function.Injective w.field := by
  intro field other heq
  obtain ⟨hname, -, hvalue⟩ :=
    (List.append_cons_inj_of_notMem (h.equals field.1) (h.equals field.2)).1 heq
  exact Prod.ext (h.injective hname) (h.injective hvalue)

theorem Clear.between_notMem_field (h : w.Clear) (field : α × α) :
    w.between ∉ w.field field := by
  intro hmem
  rcases List.mem_append.1 hmem with hname | hrest
  · exact h.between field.1 hname
  · rcases List.mem_cons.1 hrest with hmark | hvalue
    · exact h.ne hmark
    · exact h.between field.2 hvalue

/-- So are different lists of them. -/
theorem Clear.record_injective [DecidableEq β] (h : w.Clear) : Function.Injective w.record := by
  have hcut : ∀ fields : List (α × α), fields ≠ [] →
      (w.record fields).splitOn w.between = fields.map w.field := by
    intro fields hne
    refine List.splitOn_intercalate _ (fun segment hsegment => ?_) (by simpa using hne)
    obtain ⟨field, -, rfl⟩ := List.mem_map.1 hsegment
    exact h.between_notMem_field field
  have hnil : ∀ field : α × α, ∀ fields, w.record (field :: fields) ≠ w.record [] := by
    intro field fields heq
    have hfields := hcut (field :: fields) (List.cons_ne_nil _ _)
    rw [heq] at hfields
    -- nothing is cut into one piece without a mark, and a named value has one
    have hpieces : ([] : List β) :: [] = w.field field :: fields.map w.field := hfields
    exact List.append_ne_nil_of_right_ne_nil _ (List.cons_ne_nil _ _) (List.cons.inj hpieces).1.symm
  intro fields others heq
  cases fields with
  | nil =>
    cases others with
    | nil => rfl
    | cons other others => exact absurd heq.symm (hnil other others)
  | cons field fields =>
    cases others with
    | nil => exact absurd heq (hnil field fields)
    | cons other others =>
      have hfields := hcut (field :: fields) (List.cons_ne_nil _ _)
      rw [heq, hcut (other :: others) (List.cons_ne_nil _ _)] at hfields
      exact (List.map_injective_iff.2 h.field_injective hfields).symm

end Writer

/-- A list can be cut at its last mark in one way only. -/
theorem eq_of_append_mark {mark : β} {front rest front' rest' : List β} (hrest : mark ∉ rest)
    (hrest' : mark ∉ rest') (h : front ++ mark :: rest = front' ++ mark :: rest') :
    front = front' ∧ rest = rest' := by
  have hlonger : ∀ {between front rest front' rest' : List β}, mark ∉ rest →
      front' = front ++ between → mark :: rest = between ++ mark :: rest' →
        front = front' ∧ rest = rest' := by
    intro between front rest front' rest' hrest hfront hback
    cases between with
    | nil => exact ⟨by rw [hfront, List.append_nil], (List.cons.inj hback).2⟩
    | cons b between =>
      refine absurd ?_ hrest
      rw [(List.cons.inj hback).2]
      exact List.mem_append_right _ List.mem_cons_self
  rcases List.append_eq_append_iff.1 h with ⟨between, hfront, hback⟩ | ⟨between, hfront, hback⟩
  · exact hlonger hrest hfront hback
  · obtain ⟨hsame, hsame'⟩ := hlonger hrest' hfront hback
    exact ⟨hsame.symm, hsame'.symm⟩

end Fields

end Foundation
