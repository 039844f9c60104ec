import Mathlib.Logic.Relation

/-!
# Programs with a state and early failure

An `EStateM` program runs on a state, returns a value or stops with an error, and keeps the
state it has reached in both cases.  `finalState` is that state; a run that returns is inverted
by `bind_eq_ok`.

The rest is a rule system for invariants.  `EvolvesAt r m s` says that the run of `m` from `s`
moves the state along a chain of `r`-steps, whichever branch it takes and wherever it fails;
`Evolves r m` says so for every state.  The rules follow the syntax of a program, so a program
is shown to evolve along `r` by walking over its text once.  Whatever every `r`-step preserves
is then preserved by the program (`Evolves.preserves`).

A program on part of a state (`onFst`) may be extended to the rest of it; `Projects` says that the
part does not notice.
-/

namespace Foundation

universe u

variable {ε σ α β : Type u}

/-! ## Runs -/

/-- The state in which a run stops, also when it stops with an error. -/
def finalState (m : EStateM ε σ α) (s : σ) : σ :=
  match m s with
  | .ok _ t => t
  | .error _ t => t

theorem finalState_of_ok {m : EStateM ε σ α} {s t : σ} {a : α} (h : m s = .ok a t) :
    finalState m s = t := by
  simp only [finalState, h]

theorem finalState_of_error {m : EStateM ε σ α} {s t : σ} {e : ε} (h : m s = .error e t) :
    finalState m s = t := by
  simp only [finalState, h]

/-- A sequence returns when both halves do, the second from where the first has stopped. -/
theorem bind_eq_ok {m : EStateM ε σ α} {f : α → EStateM ε σ β} {s t : σ} {b : β} :
    (m >>= f) s = .ok b t ↔ ∃ a u, m s = .ok a u ∧ f a u = .ok b t := by
  simp only [bind, EStateM.bind]
  cases h : m s with
  | ok a u =>
    refine ⟨fun hf => ⟨a, u, rfl, hf⟩, ?_⟩
    rintro ⟨a', u', heq, hf⟩
    cases heq
    exact hf
  | error e u => simp

/-- A sequence stops with an error in its first half, or in its second half after the first has
returned. -/
theorem bind_eq_error {m : EStateM ε σ α} {f : α → EStateM ε σ β} {s t : σ} {e : ε} :
    (m >>= f) s = .error e t ↔
      m s = .error e t ∨ ∃ a u, m s = .ok a u ∧ f a u = .error e t := by
  simp only [bind, EStateM.bind]
  cases h : m s with
  | ok a u =>
    constructor
    · intro hf
      exact .inr ⟨a, u, rfl, hf⟩
    · rintro (herror | ⟨a', u', heq, hf⟩)
      · cases herror
      · cases heq
        exact hf
  | error e' u => simp

/-- What holds wherever a run stops with an error, holds where it has stopped with one. -/
theorem forall_error_iff {m : EStateM ε σ α} {s t : σ} {e : ε} (h : m s = .error e t)
    {P : σ → Prop} : (∀ e' t', m s = .error e' t' → P t') ↔ P t := by
  constructor
  · intro hall
    exact hall e t h
  · intro hP e' t' herror
    cases h.symm.trans herror
    exact hP

/-- Looking at the state changes nothing. -/
theorem get_bind_apply (f : σ → EStateM ε σ β) (s : σ) : (get >>= f) s = f s s := rfl

/-- The second half of a sequence runs exactly when the first half returns. -/
theorem finalState_bind (m : EStateM ε σ α) (f : α → EStateM ε σ β) (s : σ) :
    finalState (m >>= f) s =
      match m s with
      | .ok a t => finalState (f a) t
      | .error _ t => t := by
  simp only [finalState, bind, EStateM.bind]
  cases m s <;> rfl

/-- If the first half returns, the sequence goes on from there. -/
theorem finalState_bind_of_ok {m : EStateM ε σ α} {f : α → EStateM ε σ β} {s t : σ} {a : α}
    (h : m s = .ok a t) : finalState (m >>= f) s = finalState (f a) t := by
  rw [finalState_bind, h]

@[simp] theorem finalState_get_bind (f : σ → EStateM ε σ β) (s : σ) :
    finalState (get >>= f) s = finalState (f s) s := rfl

@[simp] theorem finalState_modify_bind (g : σ → σ) (f : PUnit → EStateM ε σ β) (s : σ) :
    finalState (modify g >>= f) s = finalState (f ⟨⟩) (g s) := rfl

/-- What holds after the first half, and is turned by the second half into a weaker statement,
leaves the weaker statement after the whole, wherever the run stops. -/
theorem finalState_bind_of {I J : σ → Prop} {m : EStateM ε σ α} {f : α → EStateM ε σ β} {s : σ}
    (hm : I (finalState m s)) (hf : ∀ a t, I t → J (finalState (f a) t))
    (hweaker : ∀ t, I t → J t) : J (finalState (m >>= f) s) := by
  rw [finalState_bind]
  cases h : m s with
  | ok a t =>
    rw [finalState_of_ok h] at hm
    exact hf a t hm
  | error e t =>
    rw [finalState_of_error h] at hm
    exact hweaker t hm

/-! ## Evolution along a step relation -/

/-- The run from `s`, failing or not, moves the state along a chain of `r`-steps. -/
def EvolvesAt (r : σ → σ → Prop) (m : EStateM ε σ α) (s : σ) : Prop :=
  Relation.ReflTransGen r s (finalState m s)

/-- Every run moves the state along a chain of `r`-steps. -/
def Evolves (r : σ → σ → Prop) (m : EStateM ε σ α) : Prop :=
  ∀ s, EvolvesAt r m s

namespace EvolvesAt

variable {r : σ → σ → Prop} {s : σ}

/-- A sequence evolves when its first half does and its second half does from wherever the first
half may return. -/
theorem bind {m : EStateM ε σ α} {f : α → EStateM ε σ β} (hm : EvolvesAt r m s)
    (hf : ∀ a t, m s = .ok a t → EvolvesAt r (f a) t) : EvolvesAt r (m >>= f) s := by
  unfold EvolvesAt at hm ⊢
  rw [finalState_bind]
  cases h : m s with
  | ok a t =>
    rw [finalState_of_ok h] at hm
    exact hm.trans (hf a t h)
  | error e t =>
    rw [finalState_of_error h] at hm
    exact hm

/-- A program that first reads the state may use what it has read. -/
theorem get_bind {f : σ → EStateM ε σ β} (hf : EvolvesAt r (f s) s) :
    EvolvesAt r (get >>= f) s :=
  hf

end EvolvesAt

namespace Evolves

variable {r : σ → σ → Prop}

theorem pure (a : α) : Evolves r (Pure.pure a : EStateM ε σ α) :=
  fun _ => .refl

theorem throw (e : ε) : Evolves r (MonadExcept.throw e : EStateM ε σ α) :=
  fun _ => .refl

/-- A sequence evolves when both halves do. -/
theorem bind {m : EStateM ε σ α} {f : α → EStateM ε σ β} (hm : Evolves r m)
    (hf : ∀ a, Evolves r (f a)) : Evolves r (m >>= f) :=
  fun s => .bind (hm s) fun a t _ => hf a t

/-- Reading the state costs no step. -/
theorem get_bind {f : σ → EStateM ε σ β} (hf : ∀ s, Evolves r (f s)) :
    Evolves r (get >>= f) :=
  fun s => hf s s

/-- A change of the state is one step. -/
theorem modify {f : σ → σ} (hf : ∀ s, r s (f s)) :
    Evolves r (modify f : EStateM ε σ PUnit) :=
  fun s => .single (hf s)

theorem ite {c : Prop} [Decidable c] {m m' : EStateM ε σ α} (hm : Evolves r m)
    (hm' : Evolves r m') : Evolves r (if c then m else m') := by
  split
  · exact hm
  · exact hm'

/-- What every step preserves is preserved by the whole program. -/
theorem preserves {m : EStateM ε σ α} (h : Evolves r m) {I : σ → Prop}
    (hI : ∀ s t, r s t → I s → I t) {s : σ} (hs : I s) : I (finalState m s) := by
  have hrun := h s
  unfold EvolvesAt at hrun
  generalize finalState m s = t at hrun
  induction hrun with
  | refl => exact hs
  | tail _ hstep ih => exact hI _ _ hstep ih

end Evolves

/-! ## Invariants of programs -/

/-- The program keeps an invariant, also when it stops with an error. -/
def Keeps (I : σ → Prop) (m : EStateM ε σ α) : Prop :=
  ∀ s, I s → I (finalState m s)

namespace Keeps

variable {I : σ → Prop}

theorem pure (a : α) : Keeps I (Pure.pure a : EStateM ε σ α) :=
  fun _ hs => hs

/-- A sequence keeps what both halves keep. -/
theorem bind {m : EStateM ε σ α} {f : α → EStateM ε σ β} (hm : Keeps I m)
    (hf : ∀ a, Keeps I (f a)) : Keeps I (m >>= f) :=
  fun s hs => finalState_bind_of (hm s hs) hf fun _ ht => ht

theorem get_bind {f : σ → EStateM ε σ β} (hf : ∀ s, Keeps I (f s)) : Keeps I (get >>= f) :=
  fun s hs => hf s s hs

theorem modify {f : σ → σ} (hf : ∀ s, I s → I (f s)) :
    Keeps I (modify f : EStateM ε σ PUnit) :=
  hf

theorem ite {c : Prop} [Decidable c] {m m' : EStateM ε σ α} (hm : Keeps I m)
    (hm' : Keeps I m') : Keeps I (if c then m else m') := by
  split
  · exact hm
  · exact hm'

/-- A program that evolves by steps keeps what each step keeps. -/
theorem of_evolves {r : σ → σ → Prop} {m : EStateM ε σ α} (h : Evolves r m)
    (hI : ∀ s t, r s t → I s → I t) : Keeps I m :=
  fun _ hs => h.preserves hI hs

end Keeps

/-! ## Programs that do not fail -/

/-- The program returns from every state. -/
def Returns (m : EStateM ε σ α) : Prop :=
  ∀ s, ∃ a t, m s = .ok a t

namespace Returns

theorem pure (a : α) : Returns (Pure.pure a : EStateM ε σ α) :=
  fun s => ⟨a, s, rfl⟩

/-- A sequence returns when both halves do. -/
theorem bind {m : EStateM ε σ α} {f : α → EStateM ε σ β} (hm : Returns m)
    (hf : ∀ a, Returns (f a)) : Returns (m >>= f) := by
  intro s
  obtain ⟨a, t, ha⟩ := hm s
  obtain ⟨b, u, hb⟩ := hf a t
  exact ⟨b, u, bind_eq_ok.2 ⟨a, t, ha, hb⟩⟩

theorem get_bind {f : σ → EStateM ε σ β} (hf : ∀ s, Returns (f s)) : Returns (get >>= f) :=
  fun s => hf s s

theorem modify (f : σ → σ) : Returns (modify f : EStateM ε σ PUnit) :=
  fun s => ⟨⟨⟩, f s, rfl⟩

theorem ite {c : Prop} [Decidable c] {m m' : EStateM ε σ α} (hm : Returns m)
    (hm' : Returns m') : Returns (if c then m else m') := by
  split
  · exact hm
  · exact hm'

/-- A program that returns from every state stops with no error. -/
theorem ne_error {m : EStateM ε σ α} (h : Returns m) {s t : σ} {e : ε} : m s ≠ .error e t := by
  obtain ⟨a, u, hok⟩ := h s
  rw [hok]
  exact fun h => nomatch h

/-- What holds after a first half that returns may be used for the second half. -/
theorem finalState_bind_of {I J : σ → Prop} {m : EStateM ε σ α} {f : α → EStateM ε σ β} {s : σ}
    (h : Returns m) (hm : I (finalState m s)) (hf : ∀ a t, I t → J (finalState (f a) t)) :
    J (finalState (m >>= f) s) := by
  obtain ⟨a, t, ha⟩ := h s
  rw [finalState_of_ok ha] at hm
  rw [finalState_bind_of_ok ha]
  exact hf a t hm

end Returns

/-! ## What holds at the end -/

/-- Wherever a run stops, the invariant holds there, also where it did not hold before. -/
def Ends (I : σ → Prop) (m : EStateM ε σ α) : Prop :=
  ∀ s, I (finalState m s)

namespace Ends

variable {I : σ → Prop}

/-- What the first half establishes and the second half keeps holds at the end. -/
theorem bind_keeps {m : EStateM ε σ α} {f : α → EStateM ε σ β} (hm : Ends I m)
    (hf : ∀ a, Keeps I (f a)) : Ends I (m >>= f) :=
  fun s => finalState_bind_of (hm s) hf fun _ ht => ht

/-- What the second half establishes holds at the end if the first half returns. -/
theorem returns_bind {m : EStateM ε σ α} {f : α → EStateM ε σ β} (hm : Returns m)
    (hf : ∀ a, Ends I (f a)) : Ends I (m >>= f) :=
  fun _ => hm.finalState_bind_of (I := fun _ => True) trivial fun a t _ => hf a t

theorem get_bind {f : σ → EStateM ε σ β} (hf : ∀ s, Ends I (f s)) : Ends I (get >>= f) :=
  fun s => hf s s

theorem ite {c : Prop} [Decidable c] {m m' : EStateM ε σ α} (hm : Ends I m)
    (hm' : Ends I m') : Ends I (if c then m else m') := by
  split
  · exact hm
  · exact hm'

/-- What always holds at the end is kept. -/
theorem keeps {m : EStateM ε σ α} (hm : Ends I m) : Keeps I m :=
  fun s _ => hm s

/-- A weaker statement holds at the end as well. -/
theorem mono {J : σ → Prop} {m : EStateM ε σ α} (hm : Ends I m) (h : ∀ s, I s → J s) :
    Ends J m :=
  fun s => h _ (hm s)

end Ends

/-! ## Programs on part of a state -/

section Parts

variable {τ : Type u}

/-- Runs a program on the first part of a state, and changes the second afterwards. -/
def onFst (m : EStateM ε σ α) (after : τ → τ) : EStateM ε (σ × τ) α := fun s =>
  match m s.1 with
  | .ok a t => .ok a (t, after s.2)
  | .error e t => .error e (t, after s.2)

/-- A program does with the first part of a state what another does with that part alone. -/
def Projects (n : EStateM ε (σ × τ) α) (m : EStateM ε σ α) : Prop :=
  ∀ s, ∃ u, n s =
    match m s.1 with
    | .ok a t => .ok a (t, u)
    | .error e t => .error e (t, u)

namespace Projects

variable {n : EStateM ε (σ × τ) α} {m : EStateM ε σ α}

theorem onFst (m : EStateM ε σ α) (after : τ → τ) : Projects (onFst m after) m :=
  fun s => ⟨after s.2, rfl⟩

theorem pure (a : α) : Projects (Pure.pure a : EStateM ε (σ × τ) α) (Pure.pure a) :=
  fun s => ⟨s.2, rfl⟩

/-- Sequences project when both halves do. -/
theorem bind {f : α → EStateM ε (σ × τ) β} {g : α → EStateM ε σ β} (h : Projects n m)
    (hf : ∀ a, Projects (f a) (g a)) : Projects (n >>= f) (m >>= g) := by
  intro s
  obtain ⟨u, hn⟩ := h s
  simp only [Bind.bind, EStateM.bind, hn]
  cases m s.1 with
  | ok a t => exact hf a (t, u)
  | error e t => exact ⟨u, rfl⟩

theorem get_bind {f : σ × τ → EStateM ε (σ × τ) α} {g : σ → EStateM ε σ α}
    (h : ∀ s, Projects (f s) (g s.1)) : Projects (get >>= f) (get >>= g) :=
  fun s => h s s

/-- What is done with the second part is not seen. -/
theorem modify_bind {f : PUnit → EStateM ε (σ × τ) α} {g : σ × τ → σ × τ}
    (hg : ∀ s, (g s).1 = s.1) (h : Projects (f ⟨⟩) m) : Projects (modify g >>= f) m := by
  intro s
  obtain ⟨u, hn⟩ := h (g s)
  exact ⟨u, hg s ▸ hn⟩

theorem ite {c : Prop} [Decidable c] {n' : EStateM ε (σ × τ) α} {m' : EStateM ε σ α}
    (h : Projects n m) (h' : Projects n' m') :
    Projects (if c then n else n') (if c then m else m') := by
  split
  · exact h
  · exact h'

/-- It leaves the same first part. -/
theorem finalState_fst (h : Projects n m) (s : σ × τ) :
    (finalState n s).1 = finalState m s.1 := by
  obtain ⟨u, hn⟩ := h s
  unfold finalState
  rw [hn]
  cases m s.1 <;> rfl

end Projects

end Parts

end Foundation
