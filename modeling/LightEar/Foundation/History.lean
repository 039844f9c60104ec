import LightEar.Foundation.GuardedRun
import Mathlib.Data.Finset.Basic
import Mathlib.Data.List.Chain
import Mathlib.Data.List.Infix

/-!
# Reading a history

Three things that can be read off the list of what has happened so far: since when a condition has
held without interruption (`StandingSince`), who is in a set whose members come and go (`Toggle`),
and what the steps of a run have put out (`outputs`).  A log of comings and goings in which nobody
comes twice or goes twice in a row is one in which every entry changes the set, and the other way
round.  A machine that at each step puts out only what it has held or has just taken in puts
nothing out more often than it has taken it in.
-/

namespace Foundation

universe u v

variable {α : Type u} {τ : Type v}

/-! ## Standing conditions -/

/-- The condition has held without interruption since an event at the given time. -/
def StandingSince (P : List α → Prop) (time : α → τ) (past : List α) (t : τ) : Prop :=
  ∃ before event later, past = before ++ event :: later ∧ time event = t ∧
    ∀ part, part <+: later → P (before ++ event :: part)

namespace StandingSince

variable {P : List α → Prop} {time : α → τ} {past : List α} {event : α} {t : τ}

/-- A condition that holds after an event has held since that event. -/
theorem start (h : P (past ++ [event])) :
    StandingSince P time (past ++ [event]) (time event) := by
  refine ⟨past, event, [], rfl, rfl, fun part hpart => ?_⟩
  rw [List.prefix_nil.1 hpart]
  exact h

/-- A condition that still holds after another event has held for as long as before. -/
theorem extend (h : StandingSince P time past t) (hnow : P (past ++ [event])) :
    StandingSince P time (past ++ [event]) t := by
  obtain ⟨before, first, later, rfl, htime, hheld⟩ := h
  refine ⟨before, first, later ++ [event], by simp, htime, fun part hpart => ?_⟩
  rcases List.prefix_concat_iff.1 hpart with rfl | hearlier
  · rwa [List.append_assoc, List.cons_append] at hnow
  · exact hheld part hearlier

end StandingSince

/-! ## Comings and goings -/

/-- Somebody comes or goes. -/
inductive Toggle (α : Type u) where
  | add (a : α)
  | drop (a : α)
  deriving DecidableEq

namespace Toggle

variable [DecidableEq α]

/-- The set after an entry. -/
def apply (s : Finset α) : Toggle α → Finset α
  | add a => insert a s
  | drop a => s.erase a

/-- An entry changes the set: who comes was not there, who goes was. -/
def Changes (s : Finset α) : Toggle α → Prop
  | add a => a ∉ s
  | drop a => a ∈ s

/-- The set that a log leaves. -/
def replay (log : List (Toggle α)) : Finset α := log.foldl apply ∅

/-- Whether an entry says of somebody that he comes or that he goes. -/
def mark (a : α) : Toggle α → Option Bool
  | add b => if b = a then some true else none
  | drop b => if b = a then some false else none

/-- Entries about others leave somebody where he is. -/
theorem mem_foldl_apply_of_unmarked {log : List (Toggle α)} {a : α}
    (hothers : ∀ entry ∈ log, mark a entry = none) (s : Finset α) :
    a ∈ log.foldl apply s ↔ a ∈ s := by
  induction log generalizing s with
  | nil => exact Iff.rfl
  | cons entry log ih =>
    obtain ⟨hthis, hrest⟩ := List.forall_mem_cons.1 hothers
    refine (ih hrest (apply s entry)).trans ?_
    cases entry with
    | add b =>
      have hne : a ≠ b := fun heq => by simp [mark, heq] at hthis
      simp [apply, hne]
    | drop b =>
      have hne : a ≠ b := fun heq => by simp [mark, heq] at hthis
      simp [apply, hne]

/-- Who is there stays as long as he is not dropped. -/
theorem mem_foldl_apply_of_not_dropped {log : List (Toggle α)} {a : α}
    (hstays : ∀ entry ∈ log, entry ≠ drop a) {s : Finset α} (hmem : a ∈ s) :
    a ∈ log.foldl apply s := by
  induction log generalizing s with
  | nil => exact hmem
  | cons entry log ih =>
    obtain ⟨hthis, hrest⟩ := List.forall_mem_cons.1 hstays
    refine ih hrest ?_
    cases entry with
    | add b => exact Finset.mem_insert_of_mem hmem
    | drop b => exact Finset.mem_erase.2 ⟨fun heq => hthis (heq ▸ rfl), hmem⟩

/-- If every entry changes the set, comings and goings of anybody alternate, starting with the
opposite of what he was at first. -/
theorem isChain_marks {s : Finset α} {log : List (Toggle α)} (h : Along apply Changes s log)
    (a : α) : (decide (a ∈ s) :: log.filterMap (mark a)).IsChain (· ≠ ·) := by
  induction log generalizing s with
  | nil => exact .singleton _
  | cons entry log ih =>
    have hrest := ih h.2
    cases entry with
    | add b =>
      by_cases hb : b = a
      · subst hb
        have hnot : b ∉ s := h.1
        have hnow : decide (b ∈ apply s (add b)) = true := by simp [apply]
        rw [hnow] at hrest
        simpa [mark, hnot] using hrest
      · have hsame : (a ∈ apply s (add b)) = (a ∈ s) := by simp [apply, Ne.symm hb]
        simp only [hsame] at hrest
        simpa [mark, hb] using hrest
    | drop b =>
      by_cases hb : b = a
      · subst hb
        have hthere : b ∈ s := h.1
        have hnow : decide (b ∈ apply s (drop b)) = false := by simp [apply]
        rw [hnow] at hrest
        simpa [mark, hthere] using hrest
      · have hsame : (a ∈ apply s (drop b)) = (a ∈ s) := by simp [apply, Ne.symm hb]
        simp only [hsame] at hrest
        simpa [mark, hb] using hrest

end Toggle

/-! ## What a run puts out -/

section Outputs

universe w x

variable {σ : Type w} {β : Type x} {step : σ → α → σ} {put take : σ → α → Option β}

/-- What the steps of a run put out, in order. -/
def outputs (step : σ → α → σ) (put : σ → α → Option β) : σ → List α → List β
  | _, [] => []
  | s, a :: actions => (put s a).toList ++ outputs step put (step s a) actions

/-- A run in two parts puts out what the parts put out. -/
theorem outputs_append (s : σ) (actions later : List α) :
    outputs step put s (actions ++ later) =
      outputs step put s actions ++ outputs step put (actions.foldl step s) later := by
  induction actions generalizing s with
  | nil => rfl
  | cons a actions ih => simp [outputs, ih]

/-- If each step puts out or goes on holding only what was held or has just been taken in, then so
does the run. -/
theorem outputs_sublist {held : σ → List β}
    (hstep : ∀ s a, ((put s a).toList ++ held (step s a)).Sublist
      (held s ++ (take s a).toList)) (s : σ) (actions : List α) :
    (outputs step put s actions ++ held (actions.foldl step s)).Sublist
      (held s ++ outputs step take s actions) := by
  induction actions generalizing s with
  | nil => simp [outputs]
  | cons a actions ih =>
    have hrest := (List.Sublist.refl (put s a).toList).append (ih (step s a))
    have hfirst := (hstep s a).append (List.Sublist.refl (outputs step take (step s a) actions))
    simp only [List.append_assoc] at hrest hfirst
    simpa [outputs] using hrest.trans hfirst

end Outputs

end Foundation
