import Mathlib.Data.List.Basic

/-!
# Runs whose steps meet a condition

A machine with a total step function runs along any list of actions.  `Along step C s actions`
says that each action meets the condition `C` in the state in which it is taken; what every such
step preserves holds at the end of the run (`Along.invariant`), and a mark that is left by a step
without a further condition is there at the end (`Along.along_or`).  Conditions that agree
wherever a run may get are met by the same runs (`Along.iff_of_step`).
-/

namespace Foundation

universe u v

variable {σ : Type u} {α : Type v} {step : σ → α → σ} {C : σ → α → Prop}

/-- Each action meets the condition in the state in which it is taken. -/
def Along (step : σ → α → σ) (C : σ → α → Prop) : σ → List α → Prop
  | _, [] => True
  | s, a :: actions => C s a ∧ Along step C (step s a) actions

instance Along.decidable [∀ s a, Decidable (C s a)] :
    (s : σ) → (actions : List α) → Decidable (Along step C s actions)
  | _, [] => .isTrue trivial
  | s, a :: actions =>
    have := Along.decidable (step s a) actions
    inferInstanceAs (Decidable (C s a ∧ Along step C (step s a) actions))

/-- What every step under the condition preserves holds at the end of the run. -/
theorem Along.invariant {I : σ → Prop} {s : σ} {actions : List α}
    (h : Along step C s actions) (hs : I s) (hstep : ∀ s a, I s → C s a → I (step s a)) :
    I (actions.foldl step s) := by
  induction actions generalizing s with
  | nil => exact hs
  | cons a actions ih => exact ih h.2 (hstep s a hs h.1)

/-- A run in two parts meets the condition in both. -/
theorem Along.append_iff {s : σ} {actions later : List α} :
    Along step C s (actions ++ later) ↔
      Along step C s actions ∧ Along step C (actions.foldl step s) later := by
  induction actions generalizing s with
  | nil => exact ⟨fun h => ⟨trivial, h⟩, fun h => h.2⟩
  | cons a actions ih =>
    refine ⟨fun h => ?_, fun h => ⟨h.1.1, ih.2 ⟨h.1.2, h.2⟩⟩⟩
    obtain ⟨hfirst, hlater⟩ := ih.1 h.2
    exact ⟨⟨h.1, hfirst⟩, hlater⟩

/-- A run that meets two conditions meets both at once. -/
theorem Along.and {D : σ → α → Prop} {s : σ} {actions : List α} (hC : Along step C s actions)
    (hD : Along step D s actions) : Along step (fun s a => C s a ∧ D s a) s actions := by
  induction actions generalizing s with
  | nil => trivial
  | cons a actions ih => exact ⟨⟨hC.1, hD.1⟩, ih hC.2 hD.2⟩

/-- What every step meets is met all along. -/
theorem Along.of_forall (h : ∀ s a, C s a) (s : σ) (actions : List α) :
    Along step C s actions := by
  induction actions generalizing s with
  | nil => trivial
  | cons a actions ih => exact ⟨h s a, ih (step s a)⟩

/-- Two conditions that agree everywhere are met by the same runs. -/
theorem Along.congr {D : σ → α → Prop} (h : ∀ s a, C s a ↔ D s a) {s : σ} {actions : List α} :
    Along step C s actions ↔ Along step D s actions := by
  induction actions generalizing s with
  | nil => exact Iff.rfl
  | cons a actions ih => exact and_congr (h s a) ih

/-- Two conditions that agree in every state reached are met by the same runs.  That a state is
reached may use that the second condition has been met so far. -/
theorem Along.iff_of_step {D E : σ → α → Prop} {I : σ → Prop} {s : σ} {actions : List α}
    (h : Along step C s actions) (hs : I s) (hiff : ∀ s a, I s → C s a → (D s a ↔ E s a))
    (hstep : ∀ s a, I s → C s a → E s a → I (step s a)) :
    Along step D s actions ↔ Along step E s actions := by
  induction actions generalizing s with
  | nil => exact Iff.rfl
  | cons a actions ih =>
    refine ⟨fun hD => ?_, fun hE => ?_⟩
    · have hfirst : E s a := (hiff s a hs h.1).1 hD.1
      exact ⟨hfirst, (ih h.2 (hstep s a hs h.1 hfirst)).1 hD.2⟩
    · have hfirst : D s a := (hiff s a hs h.1).2 hE.1
      exact ⟨hfirst, (ih h.2 (hstep s a hs h.1 hE.1)).2 hE.2⟩

/-- If a step that misses a further condition leaves a mark, and later steps do not remove it,
then a run meets the further condition all along or ends with the mark. -/
theorem Along.along_or {D : σ → α → Prop} {I J : σ → Prop} {s : σ} {actions : List α}
    (h : Along step C s actions) (hs : I s) (hstep : ∀ s a, I s → C s a → I (step s a))
    (hmiss : ∀ s a, I s → C s a → ¬ D s a → J (step s a))
    (hkeep : ∀ s a, I s → C s a → J s → J (step s a)) :
    Along step D s actions ∨ J (actions.foldl step s) := by
  induction actions generalizing s with
  | nil => exact .inl trivial
  | cons a actions ih =>
    have hnext : I (step s a) := hstep s a hs h.1
    by_cases hD : D s a
    · exact (ih h.2 hnext).imp (fun hrest => ⟨hD, hrest⟩) id
    · have hmarked : I (step s a) ∧ J (step s a) := ⟨hnext, hmiss s a hs h.1 hD⟩
      refine .inr (h.2.invariant (I := fun t => I t ∧ J t) hmarked ?_).2
      intro t b ht hC
      exact ⟨hstep t b ht.1 hC, hkeep t b ht.1 hC ht.2⟩

end Foundation
