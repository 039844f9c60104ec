import LightEar.Core
import LightEar.Foundation.Deadlines

/-!
# Looking for peers again

When the last peer of the room has gone, the rendezvous nodes are asked for peers several times in
a row, and then again and again, until a peer has come back.  The times for this are deadlines; a
poll takes those that have passed, and sets a new one only when none is left.

At any time some deadline is pending while peers are looked for, and after a poll there is one
within the interval (`ZeroPeerRecovery.recovery_never_stalls`): however late a poll comes, and
however many deadlines it takes at once, the search goes on.
-/

namespace LightEar

open Foundation

/-- How long to wait for another search. -/
def rendezvousDiscoverInterval : Instant := millis 30000

/-- When to search at first. -/
def zeroPeerRecoveryDiscoverDelays : List Instant :=
  [millis 0, millis 5000, millis 10000, millis 20000, millis 30000]

/-- The search for peers. -/
structure ZeroPeerRecovery where
  /-- Whether peers are looked for. -/
  active : Bool
  /-- When to search. -/
  discoverDeadlines : List Instant
  deriving DecidableEq, Repr

/-- What the search is told. -/
inductive RecoveryCall where
  | start (now : Instant)
  | finish
  | popDueDiscovery (now : Instant)
  deriving DecidableEq, Repr

/-- The time of a call. -/
def RecoveryCall.time? : RecoveryCall → Option Instant
  | start now => some now
  | finish => none
  | popDueDiscovery now => some now

/-- The times of some calls. -/
def recoveryTimes (calls : List RecoveryCall) : List Instant :=
  calls.filterMap RecoveryCall.time?

namespace ZeroPeerRecovery

/-- Peers are not looked for. -/
def default : ZeroPeerRecovery where
  active := false
  discoverDeadlines := []

/-- Begins to look for peers; says whether that is new. -/
def start (recovery : ZeroPeerRecovery) (now : Instant) : Bool × ZeroPeerRecovery :=
  if recovery.active then (false, recovery)
  else
    (true,
      { active := true
        discoverDeadlines := zeroPeerRecoveryDiscoverDelays.map fun delay => now + delay })

/-- No longer looks for peers; says whether that is new. -/
def finish (recovery : ZeroPeerRecovery) : Bool × ZeroPeerRecovery :=
  if !recovery.active then (false, recovery)
  else (true, { active := false, discoverDeadlines := [] })

/-- Whether to search now.  When the last deadline has passed, another one is set. -/
def popDueDiscovery (recovery : ZeroPeerRecovery) (now : Instant) : Bool × ZeroPeerRecovery :=
  if !recovery.active then (false, recovery)
  else
    let (due, deadlines) := popDue now recovery.discoverDeadlines
    (due,
      { recovery with
        discoverDeadlines :=
          if due && recovery.active && deadlines.isEmpty then
            deadlines ++ [now + rendezvousDiscoverInterval]
          else deadlines })

/-- The answer to a call. -/
def call (recovery : ZeroPeerRecovery) : RecoveryCall → Bool × ZeroPeerRecovery
  | .start now => recovery.start now
  | .finish => recovery.finish
  | .popDueDiscovery now => recovery.popDueDiscovery now

/-- The state after some calls. -/
def callAll (recovery : ZeroPeerRecovery) (calls : List RecoveryCall) : ZeroPeerRecovery :=
  calls.foldl (fun recovery call => (recovery.call call).2) recovery

theorem callAll_concat (recovery : ZeroPeerRecovery) (calls : List RecoveryCall)
    (call : RecoveryCall) :
    recovery.callAll (calls ++ [call]) = ((recovery.callAll calls).call call).2 :=
  List.foldl_concat _ _ _ _

/-- After a start peers are looked for. -/
theorem start_active (recovery : ZeroPeerRecovery) (now : Instant) :
    (recovery.start now).2.active = true := by
  unfold start
  split
  · assumption
  · rfl

/-- After a finish they are not. -/
theorem finish_active (recovery : ZeroPeerRecovery) : recovery.finish.2.active = false := by
  unfold finish
  split
  · rename_i hidle
    exact Bool.not_eq_true' _ ▸ hidle
  · rfl

/-- A poll changes nothing about that. -/
theorem popDueDiscovery_active (recovery : ZeroPeerRecovery) (now : Instant) :
    (recovery.popDueDiscovery now).2.active = recovery.active := by
  unfold popDueDiscovery
  split <;> rfl

/-! ## Pending deadlines -/

/-- What holds after calls at some times. -/
structure Invariant (recovery : ZeroPeerRecovery) (times : List Instant) : Prop where
  /-- Deadlines are pending exactly while peers are looked for. -/
  active_iff : recovery.active = true ↔ recovery.discoverDeadlines ≠ []
  /-- The next deadline is the first one. -/
  sorted : recovery.discoverDeadlines.Pairwise (· ≤ ·)
  /-- No deadline is further away than the interval was at one of the calls. -/
  soon : ∀ deadline ∈ recovery.discoverDeadlines,
    ∃ time ∈ times, deadline ≤ time + rendezvousDiscoverInterval

theorem invariant_default : default.Invariant [] where
  active_iff := by simp [default]
  sorted := List.Pairwise.nil
  soon := nofun

/-- The delays at first are sorted, and none is longer than the interval. -/
theorem zeroPeerRecoveryDiscoverDelays_spec :
    zeroPeerRecoveryDiscoverDelays.Pairwise (· ≤ ·) ∧
      ∀ delay ∈ zeroPeerRecoveryDiscoverDelays, delay ≤ rendezvousDiscoverInterval := by
  decide

/-- While peers are looked for, another start changes nothing. -/
theorem start_of_active {recovery : ZeroPeerRecovery} (h : recovery.active = true)
    (now : Instant) : recovery.start now = (false, recovery) := if_pos h

/-- A poll of an idle search changes nothing. -/
theorem popDueDiscovery_of_not_active {recovery : ZeroPeerRecovery} (h : recovery.active = false)
    (now : Instant) : recovery.popDueDiscovery now = (false, recovery) := by
  unfold popDueDiscovery
  rw [h]
  rfl

/-- A poll takes the deadlines that have passed. -/
theorem popDueDiscovery_of_active {recovery : ZeroPeerRecovery} (h : recovery.active = true)
    (now : Instant) :
    (recovery.popDueDiscovery now).1 = (popDue now recovery.discoverDeadlines).1 ∧
    (recovery.popDueDiscovery now).2.active = true ∧
    (recovery.popDueDiscovery now).2.discoverDeadlines =
      if (popDue now recovery.discoverDeadlines).1 = true ∧
          (popDue now recovery.discoverDeadlines).2 = [] then
        [now + rendezvousDiscoverInterval]
      else (popDue now recovery.discoverDeadlines).2 := by
  unfold popDueDiscovery
  rw [h]
  refine ⟨rfl, rfl, ?_⟩
  dsimp only
  by_cases hrest : (popDue now recovery.discoverDeadlines).2 = []
  · simp [hrest]
  · simp [hrest]

/-- A poll that is not due changes nothing. -/
theorem popDueDiscovery_of_not_due {recovery : ZeroPeerRecovery} {now : Instant}
    (h : (recovery.popDueDiscovery now).1 = false) :
    (recovery.popDueDiscovery now).2 = recovery := by
  cases hactive : recovery.active with
  | false => rw [popDueDiscovery_of_not_active hactive]
  | true =>
    obtain ⟨hpop, hstill, hdeadlines⟩ := popDueDiscovery_of_active hactive now
    have hnotDue : (popDue now recovery.discoverDeadlines).1 = false := hpop.symm.trans h
    rw [popDue_of_not_due hnotDue, hnotDue, if_neg fun hboth => Bool.false_ne_true hboth.1]
      at hdeadlines
    cases recovery
    cases hactive
    exact congrArg (mk true) hdeadlines

namespace Invariant

variable {recovery : ZeroPeerRecovery} {times : List Instant}

/-- Times of other calls may be added. -/
theorem mono (h : recovery.Invariant times) {times' : List Instant} (htimes : times ⊆ times') :
    recovery.Invariant times' where
  active_iff := h.active_iff
  sorted := h.sorted
  soon := by
    intro deadline hdeadline
    obtain ⟨time, htime, hsoon⟩ := h.soon deadline hdeadline
    exact ⟨time, htimes htime, hsoon⟩

/-- An idle search has no deadlines. -/
theorem discoverDeadlines_of_not_active (h : recovery.Invariant times)
    (hidle : recovery.active = false) : recovery.discoverDeadlines = [] := by
  by_contra hpending
  have hactive := h.active_iff.2 hpending
  rw [hidle] at hactive
  cases hactive

theorem start (h : recovery.Invariant times) {now : Instant} (hnow : now ∈ times) :
    (recovery.start now).2.Invariant times := by
  unfold ZeroPeerRecovery.start
  split
  · exact h
  · obtain ⟨hsorted, hlongest⟩ := zeroPeerRecoveryDiscoverDelays_spec
    refine ⟨?_, ?_, ?_⟩
    · simp [zeroPeerRecoveryDiscoverDelays]
    · exact hsorted.map _ fun _ _ hle => Nat.add_le_add_left hle now
    · intro deadline hdeadline
      obtain ⟨delay, hdelay, rfl⟩ := List.mem_map.1 hdeadline
      exact ⟨now, hnow, Nat.add_le_add_left (hlongest delay hdelay) now⟩

theorem finish (h : recovery.Invariant times) : recovery.finish.2.Invariant times := by
  unfold ZeroPeerRecovery.finish
  split
  · exact h
  · exact ⟨by simp, List.Pairwise.nil, nofun⟩

/-- What is pending after a poll lies ahead, and was pending before or has just been set. -/
theorem mem_popDueDiscovery (h : recovery.Invariant times) {now deadline : Instant}
    (hdeadline : deadline ∈ (recovery.popDueDiscovery now).2.discoverDeadlines) :
    now < deadline ∧
      (deadline ∈ recovery.discoverDeadlines ∨ deadline = now + rendezvousDiscoverInterval) := by
  have hinterval : 0 < rendezvousDiscoverInterval := by decide
  cases hactive : recovery.active with
  | false =>
    rw [popDueDiscovery_of_not_active hactive,
      h.discoverDeadlines_of_not_active hactive] at hdeadline
    exact absurd hdeadline List.not_mem_nil
  | true =>
    rw [(popDueDiscovery_of_active hactive now).2.2] at hdeadline
    split at hdeadline
    · have hnew := List.mem_singleton.1 hdeadline
      rw [hnew]
      exact ⟨Nat.lt_add_of_pos_right hinterval, .inr rfl⟩
    · exact ⟨lt_of_mem_popDue h.sorted hdeadline,
        .inl ((popDue_suffix now recovery.discoverDeadlines).subset hdeadline)⟩

theorem popDueDiscovery (h : recovery.Invariant times) {now : Instant} (hnow : now ∈ times) :
    (recovery.popDueDiscovery now).2.Invariant times := by
  cases hactive : recovery.active with
  | false =>
    rw [popDueDiscovery_of_not_active hactive]
    exact h
  | true =>
    obtain ⟨-, hstill, hdeadlines⟩ := popDueDiscovery_of_active hactive now
    refine ⟨?_, ?_, ?_⟩
    · rw [hstill, hdeadlines]
      refine iff_of_true rfl ?_
      split
      · exact List.cons_ne_nil _ _
      · rename_i hleft
        intro hnone
        -- without a deadline that has passed the same ones are left
        have hnotDue : (popDue now recovery.discoverDeadlines).1 = false := by
          by_contra hdue
          exact hleft ⟨Bool.eq_true_of_not_eq_false hdue, hnone⟩
        rw [popDue_of_not_due hnotDue] at hnone
        exact h.active_iff.1 hactive hnone
    · rw [hdeadlines]
      split
      · exact List.pairwise_singleton _ _
      · exact h.sorted.sublist (popDue_suffix now recovery.discoverDeadlines).sublist
    · intro deadline hdeadline
      rcases (h.mem_popDueDiscovery hdeadline).2 with hold | rfl
      · exact h.soon deadline hold
      · exact ⟨now, hnow, le_rfl⟩

/-- After a poll that is not earlier than the calls before it, some deadline lies ahead, no
further than the interval. -/
theorem exists_pending (h : recovery.Invariant times) {now : Instant}
    (hnow : ∀ time ∈ times, time ≤ now) (hactive : recovery.active = true) :
    ∃ deadline ∈ (recovery.popDueDiscovery now).2.discoverDeadlines,
      now < deadline ∧ deadline ≤ now + rendezvousDiscoverInterval := by
  have hstill := (popDueDiscovery_of_active hactive now).2.1
  have hafter : (recovery.popDueDiscovery now).2.Invariant (now :: times) :=
    (h.mono (List.subset_cons_self _ _)).popDueDiscovery List.mem_cons_self
  obtain ⟨deadline, hdeadline⟩ := List.exists_mem_of_ne_nil _ (hafter.active_iff.1 hstill)
  obtain ⟨time, htime, hsoon⟩ := hafter.soon deadline hdeadline
  have hle : time ≤ now := by
    rcases List.mem_cons.1 htime with rfl | hbefore
    · exact le_rfl
    · exact hnow time hbefore
  exact ⟨deadline, hdeadline, (h.mem_popDueDiscovery hdeadline).1,
    hsoon.trans (Nat.add_le_add_right hle _)⟩

/-- Every call keeps the deadlines in order. -/
theorem call (h : recovery.Invariant times) {call : RecoveryCall}
    (hcall : ∀ now ∈ call.time?, now ∈ times) : (recovery.call call).2.Invariant times := by
  cases call with
  | start now => exact h.start (hcall now rfl)
  | finish => exact h.finish
  | popDueDiscovery now => exact h.popDueDiscovery (hcall now rfl)

/-- So do all calls together. -/
theorem callAll (calls : List RecoveryCall) :
    (default.callAll calls).Invariant (recoveryTimes calls) := by
  induction calls using List.reverseRecOn with
  | nil => exact invariant_default
  | append_singleton calls call ih =>
    have htimes : recoveryTimes (calls ++ [call]) =
        recoveryTimes calls ++ call.time?.toList := by
      cases call <;> simp [recoveryTimes, RecoveryCall.time?]
    rw [callAll_concat, htimes]
    refine (ih.mono (List.subset_append_left _ _)).call fun now hnow => ?_
    exact List.mem_append_right _ (Option.mem_toList.2 hnow)

end Invariant

/-- After any calls, peers are looked for exactly if a deadline is pending; the deadlines are
sorted; another start changes nothing while peers are looked for; and after a poll that is not
earlier than the calls before it peers are still looked for, and some deadline is pending that
lies ahead, and no further than the interval. -/
theorem recovery_never_stalls (calls : List RecoveryCall) :
    let recovery := default.callAll calls
    (recovery.active = true ↔ recovery.discoverDeadlines ≠ []) ∧
    recovery.discoverDeadlines.Pairwise (· ≤ ·) ∧
    (∀ now, recovery.active = true → recovery.start now = (false, recovery)) ∧
    ∀ now, (∀ time ∈ recoveryTimes calls, time ≤ now) → recovery.active = true →
      (recovery.popDueDiscovery now).2.active = true ∧
      ∃ deadline ∈ (recovery.popDueDiscovery now).2.discoverDeadlines,
        now < deadline ∧ deadline ≤ now + rendezvousDiscoverInterval := by
  intro recovery
  have hinvariant : recovery.Invariant (recoveryTimes calls) := .callAll calls
  refine ⟨hinvariant.active_iff, hinvariant.sorted, fun now hactive => start_of_active hactive now,
    ?_⟩
  intro now hnow hactive
  exact ⟨(popDueDiscovery_of_active hactive now).2.1, hinvariant.exists_pending hnow hactive⟩

/-- A late poll takes all five deadlines at once and sets another one. -/
example : (default.callAll [.start 0]).popDueDiscovery (millis 45000) =
    (true, { active := true, discoverDeadlines := [millis 75000] }) := by decide

end ZeroPeerRecovery

end LightEar
