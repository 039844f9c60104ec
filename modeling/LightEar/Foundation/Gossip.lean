import Mathlib.Data.List.Basic
import Mathlib.Logic.Function.Basic

/-!
# Gossip

Replicas of one thing hear news, hand out copies of what they hold and take in copies that others
have handed out, in any order, late, more than once or never.  A `Merging` says how a replica
takes in news and copies.

What is seen of the replicas through a map that turns one way of merging into another is itself
gossip (`Gossip.map_run`).  A program that merges in a complicated way is compared in this manner
with an ideal one that merges by union, for as long as an invariant of what is merged lasts.
-/

namespace Foundation

universe u v w v' w'

/-- How a replica takes in news, and a copy of another replica. -/
structure Merging (σ : Type v) (ν : Type w) where
  /-- What it holds after some news. -/
  learn : σ → ν → σ
  /-- What it holds after a copy. -/
  merge : σ → σ → σ

/-- The replicas and the copies handed out so far. -/
structure Gossip (ι : Type u) (σ : Type v) where
  /-- What each replica holds. -/
  replica : ι → σ
  /-- The copies that each has handed out, first one first. -/
  copies : ι → List σ

/-- What may happen among replicas. -/
inductive GossipAction (ι : Type u) (ν : Type w)
  | hear (i : ι) (news : ν)
  | handOut (i : ι)
  | takeIn (i giver : ι) (copy : Nat)

/-- The news that an action brings. -/
def GossipAction.news? {ι : Type u} {ν : Type w} : GossipAction ι ν → Option ν
  | hear _ news => some news
  | handOut _ | takeIn _ _ _ => none

namespace Gossip

variable {ι : Type u} {σ : Type v} {ν : Type w} [DecidableEq ι]

/-- The replicas after one of them holds something else. -/
def put (g : Gossip ι σ) (i : ι) (held : σ) : Gossip ι σ :=
  { g with replica := Function.update g.replica i held }

/-- The replicas after one of them has handed out a copy. -/
def handOut (g : Gossip ι σ) (i : ι) : Gossip ι σ :=
  { g with copies := Function.update g.copies i (g.copies i ++ [g.replica i]) }

/-- The replicas after an action; a copy that was never handed out changes nothing. -/
def act (m : Merging σ ν) (g : Gossip ι σ) : GossipAction ι ν → Gossip ι σ
  | .hear i news => g.put i (m.learn (g.replica i) news)
  | .handOut i => g.handOut i
  | .takeIn i giver copy =>
    match (g.copies giver)[copy]? with
    | none => g
    | some given => g.put i (m.merge (g.replica i) given)

/-- The replicas after a list of actions. -/
def run (m : Merging σ ν) (g : Gossip ι σ) (actions : List (GossipAction ι ν)) : Gossip ι σ :=
  actions.foldl (act m) g

/-- The replicas seen through a map. -/
def map {τ : Type v'} (f : σ → τ) (g : Gossip ι σ) : Gossip ι τ where
  replica := f ∘ g.replica
  copies := List.map f ∘ g.copies

/-- Everything held and handed out has a property. -/
structure All (P : σ → Prop) (g : Gossip ι σ) : Prop where
  /-- What the replicas hold has it. -/
  replica : ∀ i, P (g.replica i)
  /-- The copies have it. -/
  copies : ∀ i, ∀ copy ∈ g.copies i, P copy

theorem run_append (m : Merging σ ν) (g : Gossip ι σ) (actions more : List (GossipAction ι ν)) :
    g.run m (actions ++ more) = (g.run m actions).run m more := List.foldl_append

theorem put_replica_self (g : Gossip ι σ) (i : ι) (held : σ) : (g.put i held).replica i = held :=
  Function.update_self _ _ _

theorem put_replica_of_ne (g : Gossip ι σ) {i j : ι} (h : j ≠ i) (held : σ) :
    (g.put i held).replica j = g.replica j := Function.update_of_ne h _ _

/-- Handing out some copies of one thing. -/
theorem run_handOut (m : Merging σ ν) (g : Gossip ι σ) (i : ι) (count : Nat) :
    g.run m (List.replicate count (.handOut i)) = { g with
      copies := Function.update g.copies i
        (g.copies i ++ List.replicate count (g.replica i)) } := by
  induction count generalizing g with
  | zero =>
    change g = _
    rw [List.replicate_zero, List.append_nil, Function.update_eq_self]
  | succ count ih =>
    change (g.handOut i).run m _ = _
    rw [ih]
    unfold handOut
    dsimp only
    rw [Function.update_self, Function.update_idem, List.append_assoc]
    rfl

/-! ## Invariants -/

variable {P : σ → Prop} {Q : ν → Prop} {m : Merging σ ν} {g : Gossip ι σ}

/-- A property of what is held that learning and merging keep. -/
structure Kept (m : Merging σ ν) (P : σ → Prop) (Q : ν → Prop) : Prop where
  /-- Admissible news keep it. -/
  learn : ∀ held news, P held → Q news → P (m.learn held news)
  /-- Copies keep it. -/
  merge : ∀ held copy, P held → P copy → P (m.merge held copy)

theorem All.put (h : g.All P) (i : ι) {held : σ} (hheld : P held) : (g.put i held).All P := by
  refine ⟨fun j => ?_, h.copies⟩
  change P (Function.update g.replica i held j)
  by_cases hj : j = i
  · rw [hj, Function.update_self]
    exact hheld
  · rw [Function.update_of_ne hj]
    exact h.replica j

theorem All.handOut (h : g.All P) (i : ι) : (g.handOut i).All P := by
  refine ⟨h.replica, fun j copy hcopy => ?_⟩
  change copy ∈ Function.update g.copies i _ j at hcopy
  by_cases hj : j = i
  · rw [hj, Function.update_self] at hcopy
    rcases List.mem_append.1 hcopy with hcopy | hcopy
    · exact h.copies i copy hcopy
    · rw [List.mem_singleton.1 hcopy]
      exact h.replica i
  · rw [Function.update_of_ne hj] at hcopy
    exact h.copies j copy hcopy

/-- One action keeps it everywhere. -/
theorem All.act (h : g.All P) (hkept : Kept m P Q) {action : GossipAction ι ν}
    (haction : ∀ news ∈ action.news?, Q news) : (g.act m action).All P := by
  cases action with
  | hear i news => exact h.put i (hkept.learn _ _ (h.replica i) (haction news rfl))
  | handOut i => exact h.handOut i
  | takeIn i giver copy =>
    unfold Gossip.act
    dsimp only
    split
    · exact h
    · rename_i given hgiven
      exact h.put i (hkept.merge _ _ (h.replica i)
        (h.copies giver given (List.mem_of_getElem? hgiven)))

/-- It lasts through every run. -/
theorem All.run (h : g.All P) (hkept : Kept m P Q) {actions : List (GossipAction ι ν)}
    (hactions : ∀ action ∈ actions, ∀ news ∈ action.news?, Q news) : (g.run m actions).All P := by
  induction actions generalizing g with
  | nil => exact h
  | cons action actions ih =>
    obtain ⟨haction, hactions⟩ := List.forall_mem_cons.1 hactions
    exact ih (h.act hkept haction) hactions

/-! ## Homomorphisms -/

section Homomorphism

variable {τ : Type v'} {m' : Merging τ ν} {f : σ → τ}

/-- Seen through a map, one way of merging is another. -/
structure Hom (m : Merging σ ν) (m' : Merging τ ν) (f : σ → τ) (P : σ → Prop) (Q : ν → Prop) :
    Prop where
  /-- Learning is learning. -/
  learn : ∀ held news, P held → Q news → f (m.learn held news) = m'.learn (f held) news
  /-- Merging is merging. -/
  merge : ∀ held copy, P held → P copy → f (m.merge held copy) = m'.merge (f held) (f copy)

theorem map_put (f : σ → τ) (g : Gossip ι σ) (i : ι) (held : σ) :
    (g.put i held).map f = (g.map f).put i (f held) := by
  unfold map put
  dsimp only
  rw [Function.comp_update]

theorem map_handOut (f : σ → τ) (g : Gossip ι σ) (i : ι) :
    (g.handOut i).map f = (g.map f).handOut i := by
  unfold map handOut
  dsimp only
  rw [Function.comp_update, List.map_append]
  rfl

/-- One action seen through a homomorphism. -/
theorem map_act (h : g.All P) (hhom : Hom m m' f P Q) {action : GossipAction ι ν}
    (haction : ∀ news ∈ action.news?, Q news) :
    (g.act m action).map f = (g.map f).act m' action := by
  cases action with
  | hear i news =>
    change (g.put i _).map f = (g.map f).put i _
    rw [map_put, hhom.learn _ _ (h.replica i) (haction news rfl)]
    rfl
  | handOut i => exact map_handOut f g i
  | takeIn i giver copy =>
    change _ = match ((g.copies giver).map f)[copy]? with
      | none => g.map f
      | some given => (g.map f).put i (m'.merge ((g.map f).replica i) given)
    rw [List.getElem?_map]
    unfold act
    dsimp only
    cases hgiven : (g.copies giver)[copy]? with
    | none => rfl
    | some given =>
      dsimp only [Option.map_some]
      have hcopy := h.copies giver given (List.mem_of_getElem? hgiven)
      rw [map_put, hhom.merge _ _ (h.replica i) hcopy]
      rfl

/-- A run of gossip seen through a homomorphism is a run of gossip. -/
theorem map_run (h : g.All P) (hkept : Kept m P Q) (hhom : Hom m m' f P Q)
    {actions : List (GossipAction ι ν)}
    (hactions : ∀ action ∈ actions, ∀ news ∈ action.news?, Q news) :
    (g.run m actions).map f = (g.map f).run m' actions := by
  induction actions generalizing g with
  | nil => rfl
  | cons action actions ih =>
    obtain ⟨haction, hactions⟩ := List.forall_mem_cons.1 hactions
    change ((g.act m action).run m actions).map f = ((g.map f).act m' action).run m' actions
    rw [ih (h.act hkept haction) hactions, map_act h hhom haction]

end Homomorphism

end Gossip

end Foundation
