import Mathlib.Data.List.Basic

/-!
# A queue of work

Handling an item changes a state and may bring further items, which go to the end of the queue.
If what an item brings is lighter than the item itself, the queue runs empty (`Worker.drain`).

If what an item brings needs nothing to be done, the queue does to the state what its items do
one after the other (`drain_eq_foldl`).
-/

namespace Foundation

universe u v

/-- How items are handled. -/
structure Worker (α : Type u) (σ : Type v) where
  /-- What an item brings, and what it does to a state. -/
  handle : α → σ → List α × σ
  /-- How heavy an item is. -/
  weight : α → Nat
  /-- What an item brings is lighter than the item. -/
  lighter : ∀ a s, (handle a s).1.foldr (fun b load => weight b + load) 0 < weight a

namespace Worker

variable {α : Type u} {σ : Type v} (w : Worker α σ)

/-- How heavy a queue is. -/
def load (queue : List α) : Nat := queue.foldr (fun a load => w.weight a + load) 0

theorem load_append (queue later : List α) :
    w.load (queue ++ later) = w.load queue + w.load later := by
  induction queue with
  | nil => exact (Nat.zero_add _).symm
  | cons a queue ih =>
    have hcons : ∀ rest, w.load (a :: rest) = w.weight a + w.load rest := fun _ => rfl
    rw [List.cons_append, hcons, hcons, ih]
    omega

/-- Handles the items of a queue and what they bring until none is left. -/
def drain : List α → σ → σ
  | [], s => s
  | a :: queue, s => drain (queue ++ (w.handle a s).1) (w.handle a s).2
termination_by queue => w.load queue
decreasing_by
  have hlighter : w.load (w.handle a s).1 < w.weight a := w.lighter a s
  have hcons : w.load (a :: queue) = w.weight a + w.load queue := rfl
  rw [load_append, hcons]
  omega

@[simp] theorem drain_nil (s : σ) : w.drain [] s = s := by
  rw [drain]

theorem drain_cons (a : α) (queue : List α) (s : σ) :
    w.drain (a :: queue) s = w.drain (queue ++ (w.handle a s).1) (w.handle a s).2 := by
  rw [drain]

variable {w}

/-- Items that do nothing and bring nothing. -/
def Inert (w : Worker α σ) (a : α) : Prop := ∀ s, w.handle a s = ([], s)

/-- Items at the end of the queue that do nothing make no difference. -/
theorem drain_append_of_inert {inert : List α} (hinert : ∀ a ∈ inert, w.Inert a)
    (hbrings : ∀ a s, ∀ b ∈ (w.handle a s).1, w.Inert b) (queue : List α) (s : σ) :
    w.drain (queue ++ inert) s = queue.foldl (fun s a => (w.handle a s).2) s := by
  induction queue generalizing inert s with
  | nil =>
    induction inert with
    | nil => exact w.drain_nil s
    | cons a inert ih =>
      obtain ⟨hfirst, hrest⟩ := List.forall_mem_cons.1 hinert
      rw [List.nil_append, drain_cons, hfirst s, List.append_nil]
      exact ih hrest
  | cons a queue ih =>
    rw [List.cons_append, drain_cons, List.append_assoc, List.foldl_cons]
    refine ih (fun b hb => ?_) _
    rcases List.mem_append.1 hb with hold | hnew
    · exact hinert b hold
    · exact hbrings a s b hnew

/-- If what items bring does nothing, the items are handled one after the other. -/
theorem drain_eq_foldl (hbrings : ∀ a s, ∀ b ∈ (w.handle a s).1, w.Inert b) (queue : List α)
    (s : σ) : w.drain queue s = queue.foldl (fun s a => (w.handle a s).2) s := by
  have hnothing : ∀ b ∈ ([] : List α), w.Inert b := fun _ h => absurd h List.not_mem_nil
  have hnone := drain_append_of_inert hnothing hbrings queue s
  rwa [List.append_nil] at hnone

end Worker

end Foundation
