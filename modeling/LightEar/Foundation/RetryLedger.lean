import LightEar.Foundation.GuardedRun

/-!
# Attempts that are spaced and limited

Something is attempted again and again until it succeeds.  A ledger is kept of what has happened
since the last reset: when the last attempt was made, which failures have been counted, and whether
an attempt is pending.  A failure shortly after a counted one is not counted.

A policy allows an attempt when none is pending, when fewer failures than its limit have been
counted, and when an interval that goes with their number has passed since the last attempt.  In a
log in which every attempt is allowed none is made after the limit before a reset
(`reset_mem_of_limit`).
-/

namespace Foundation

/-- What happens to the attempts. -/
inductive RetryEvent where
  | reset
  | attempt (now : Nat)
  | failed (now : Nat)
  deriving DecidableEq, Repr

/-- How attempts are spaced and limited. -/
structure RetryPolicy where
  /-- How long to wait after an attempt, by the number of failures. -/
  interval : Nat → Nat
  /-- After how many failures no more attempts are made. -/
  limit : Nat
  /-- How long failures are not counted after a counted one. -/
  window : Nat

/-- What has happened since the last reset. -/
structure RetryLedger where
  /-- When the last attempt was made. -/
  lastAttempt : Option Nat
  /-- When the counted failures came, last one first. -/
  counted : List Nat
  /-- Whether the last attempt has not failed yet. -/
  pending : Bool
  deriving DecidableEq, Repr

namespace RetryLedger

/-- Nothing has happened. -/
def new : RetryLedger where
  lastAttempt := none
  counted := []
  pending := false

variable (policy : RetryPolicy)

/-- Whether a failure comes too soon after a counted one to be counted. -/
def isRepeated (l : RetryLedger) (now : Nat) : Bool :=
  l.counted.head?.any fun last => now - last < policy.window

/-- The ledger after an event. -/
def next (l : RetryLedger) : RetryEvent → RetryLedger
  | .reset => new
  | .attempt now => { l with lastAttempt := some now, pending := true }
  | .failed now =>
    { l with
      counted := if l.isRepeated policy now then l.counted else now :: l.counted
      pending := false }

/-- An attempt is made when the policy allows it. -/
def Allows (l : RetryLedger) : RetryEvent → Prop
  | .attempt now =>
    l.pending = false ∧ l.counted.length < policy.limit ∧
      ∀ last ∈ l.lastAttempt, last + policy.interval l.counted.length ≤ now
  | .reset | .failed _ => True

/-- The ledger after some events. -/
def after (events : List RetryEvent) : RetryLedger := events.foldl (next policy) new

/-- Every attempt of a log was allowed. -/
def Respects (events : List RetryEvent) : Prop := Along (next policy) (Allows policy) new events

variable {policy}

theorem after_append (events later : List RetryEvent) :
    after policy (events ++ later) = later.foldl (next policy) (after policy events) :=
  List.foldl_append

theorem Respects.append_iff {events later : List RetryEvent} :
    Respects policy (events ++ later) ↔
      Respects policy events ∧ Along (next policy) (Allows policy) (after policy events) later :=
  Along.append_iff

/-- The counted failures are a window apart. -/
def Spaced (policy : RetryPolicy) (l : RetryLedger) : Prop :=
  l.counted.Pairwise fun later earlier => earlier + policy.window ≤ later

/-- They stay so. -/
theorem Spaced.next (hwindow : 0 < policy.window) {l : RetryLedger} (h : l.Spaced policy)
    (event : RetryEvent) : (l.next policy event).Spaced policy := by
  cases event with
  | reset => exact .nil
  | attempt now => exact h
  | failed now =>
    unfold RetryLedger.next
    dsimp only [Spaced]
    split
    · exact h
    · rename_i hfresh
      refine List.pairwise_cons.2 ⟨fun earlier hmem => ?_, h⟩
      unfold isRepeated at hfresh
      cases hcounted : l.counted with
      | nil =>
        rw [hcounted] at hmem
        cases hmem
      | cons last others =>
        -- the last one is a window before, and the others are not later than that
        have hlast : ¬ now - last < policy.window := by simpa [hcounted] using hfresh
        rw [Spaced, hcounted] at h
        rw [hcounted] at hmem
        rcases List.mem_cons.1 hmem with rfl | hmem
        · omega
        · have hearlier := List.rel_of_pairwise_cons h hmem
          omega

/-- So they are after any events. -/
theorem spaced_after (hwindow : 0 < policy.window) (events : List RetryEvent) :
    (after policy events).Spaced policy :=
  Along.invariant (C := fun _ _ => True) (I := Spaced policy)
    (.of_forall (fun _ _ => trivial) new events) .nil fun _ event h _ => h.next hwindow event

/-- Then a failure soon after any counted one is not counted. -/
theorem Spaced.counted_next_failed (hwindow : 0 < policy.window) {l : RetryLedger}
    (h : l.Spaced policy) {now last : Nat} (hmem : last ∈ l.counted)
    (hsoon : now < last + policy.window) :
    (l.next policy (.failed now)).counted = l.counted := by
  have hrepeated : l.isRepeated policy now = true := by
    unfold isRepeated
    cases hcounted : l.counted with
    | nil =>
      rw [hcounted] at hmem
      cases hmem
    | cons head others =>
      rw [Spaced, hcounted] at h
      rw [hcounted] at hmem
      have hnewer : last ≤ head := by
        rcases List.mem_cons.1 hmem with rfl | hmem
        · exact Nat.le_refl _
        · exact Nat.le_trans (Nat.le_add_right _ _) (List.rel_of_pairwise_cons h hmem)
      exact decide_eq_true (by omega)
  unfold RetryLedger.next
  dsimp only
  rw [if_pos hrepeated]

/-- No counted failure is forgotten without a reset. -/
theorem length_counted_le {l : RetryLedger} {event : RetryEvent} (h : event ≠ .reset) :
    l.counted.length ≤ (l.next policy event).counted.length := by
  cases event with
  | reset => exact absurd rfl h
  | attempt now => exact Nat.le_refl _
  | failed now =>
    unfold next
    dsimp only
    split
    · exact Nat.le_refl _
    · exact Nat.le_succ _

/-- Once as many failures have been counted as the limit, no attempt is made before a reset. -/
theorem reset_mem_of_limit {l : RetryLedger} {events : List RetryEvent} {now : Nat}
    (h : Along (next policy) (Allows policy) l (events ++ [.attempt now]))
    (hlimit : policy.limit ≤ l.counted.length) : .reset ∈ events := by
  induction events generalizing l with
  | nil => exact absurd h.1.2.1 (Nat.not_lt.2 hlimit)
  | cons event events ih =>
    by_cases hreset : event = .reset
    · rw [hreset]
      exact List.mem_cons_self
    · exact List.mem_cons_of_mem _ (ih h.2 (Nat.le_trans hlimit (length_counted_le hreset)))

end RetryLedger

end Foundation
