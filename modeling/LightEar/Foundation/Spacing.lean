import Mathlib.Data.List.Induction
import Mathlib.Data.List.Pairwise

/-!
# Times that keep a distance

A list of times of which any two are at least some distance apart.  Between two given times there
is room for only so many of them (`Spaced.length_le`).  Items in the order of their times fall into
those before a stretch of time, those in it and those after it (`exists_window`).
-/

namespace Foundation

/-- Who sleeps for the rest of the distance keeps it. -/
theorem add_le_of_slept {last asked slept awake distance : ℕ} (hasked : last ≤ asked)
    (hslept : asked ≤ slept) (h : slept + (distance - (asked - last)) ≤ awake) :
    last + distance ≤ awake := by omega

/-- Who comes after the distance keeps it. -/
theorem add_le_of_waited {last asked distance : ℕ} (hasked : last ≤ asked)
    (h : ¬ asked - last < distance) : last + distance ≤ asked := by omega

/-- Any two of the times are at least a distance apart, earlier ones first. -/
def Spaced (distance : ℕ) (times : List ℕ) : Prop :=
  times.Pairwise fun earlier later => earlier + distance ≤ later

namespace Spaced

variable {distance first last time : ℕ} {times : List ℕ}

theorem nil : Spaced distance [] := List.Pairwise.nil

/-- A time in front keeps the distance if it keeps it to the next. -/
theorem cons (hfirst : ∀ later ∈ times, time + distance ≤ later) (h : Spaced distance times) :
    Spaced distance (time :: times) := List.pairwise_cons.2 ⟨hfirst, h⟩

/-- Times that keep the distance to the last one keep it to all. -/
theorem append {later : List ℕ} (h : Spaced distance times)
    (hlater : Spaced distance (times.getLast?.toList ++ later)) :
    Spaced distance (times ++ later) := by
  induction times using List.reverseRecOn with
  | nil => exact hlater
  | append_singleton times last _ =>
    rw [List.getLast?_concat] at hlater
    obtain ⟨hlast, hrest⟩ := List.pairwise_cons.1 hlater
    refine List.pairwise_append.2 ⟨h, hrest, ?_⟩
    intro earlier hearlier next hnext
    have hafter : last + distance ≤ next := hlast next hnext
    rcases List.mem_append.1 hearlier with hbefore | hthis
    · have hdistance := (List.pairwise_append.1 h).2.2 earlier hbefore last
        (List.mem_singleton_self last)
      exact Nat.le_trans hdistance (Nat.le_trans (Nat.le_add_right _ _) hafter)
    · rw [List.mem_singleton.1 hthis]
      exact hafter

/-- Together with the distance after each, the times fit between the first and the last. -/
theorem mul_length_le (h : Spaced distance times) (hlast : first ≤ last)
    (hwindow : ∀ time ∈ times, first ≤ time ∧ time ≤ last) :
    distance * times.length ≤ last - first + distance := by
  induction times generalizing first with
  | nil => exact Nat.zero_le _
  | cons time times ih =>
    obtain ⟨hlater, hrest⟩ := List.pairwise_cons.1 h
    obtain ⟨hafter, hbefore⟩ := hwindow time List.mem_cons_self
    cases times with
    | nil =>
      rw [List.length_singleton, Nat.mul_one]
      exact Nat.le_add_left _ _
    | cons next times =>
      -- the others lie between the distance after the first one and the last
      have hroom : time + distance ≤ last :=
        Nat.le_trans (hlater next List.mem_cons_self)
          (hwindow next (List.mem_cons_of_mem _ List.mem_cons_self)).2
      have hothers : ∀ other ∈ next :: times, time + distance ≤ other ∧ other ≤ last :=
        fun other hother =>
          ⟨hlater other hother, (hwindow other (List.mem_cons_of_mem _ hother)).2⟩
      have hcount := ih hrest hroom hothers
      rw [List.length_cons, Nat.mul_add, Nat.mul_one]
      omega

/-- Between two times there are only so many. -/
theorem length_le (h : Spaced distance times) (hdistance : 0 < distance) (hlast : first ≤ last)
    (hwindow : ∀ time ∈ times, first ≤ time ∧ time ≤ last) :
    times.length ≤ (last - first) / distance + 1 := by
  have hcount := h.mul_length_le hlast hwindow
  rw [← Nat.add_div_right _ hdistance, Nat.le_div_iff_mul_le hdistance, Nat.mul_comm]
  exact hcount

end Spaced

/-! ## Items in a stretch of time -/

section Window

variable {α : Type*} {time : α → ℕ} {items : List α}

/-- Items in the order of their times: first those before a given time, then the others. -/
theorem exists_split (hsorted : items.Pairwise fun earlier later => time earlier ≤ time later)
    (limit : ℕ) : ∃ before after, items = before ++ after ∧
      (∀ item ∈ before, time item < limit) ∧ ∀ item ∈ after, limit ≤ time item := by
  induction items with
  | nil => exact ⟨[], [], rfl, by simp, by simp⟩
  | cons head items ih =>
    obtain ⟨hhead, hrest⟩ := List.pairwise_cons.1 hsorted
    by_cases hlt : time head < limit
    · obtain ⟨before, after, hitems, hbefore, hafter⟩ := ih hrest
      refine ⟨head :: before, after, congrArg (List.cons head) hitems, ?_, hafter⟩
      exact List.forall_mem_cons.2 ⟨hlt, hbefore⟩
    · have hfrom : limit ≤ time head := Nat.not_lt.1 hlt
      refine ⟨[], head :: items, rfl, by simp, List.forall_mem_cons.2 ⟨hfrom, ?_⟩⟩
      exact fun item hitem => Nat.le_trans hfrom (hhead item hitem)

/-- Those in a stretch of time stand together. -/
theorem exists_window (hsorted : items.Pairwise fun earlier later => time earlier ≤ time later)
    (first last : ℕ) : ∃ before during after, items = before ++ (during ++ after) ∧
      (∀ item ∈ before, time item < first) ∧
      (∀ item ∈ during, first ≤ time item ∧ time item ≤ last) ∧
      ∀ item ∈ after, last < time item := by
  obtain ⟨before, rest, rfl, hbefore, hrest⟩ := exists_split hsorted first
  have hlater := (List.pairwise_append.1 hsorted).2.1
  obtain ⟨during, after, rfl, hduring, hafter⟩ := exists_split hlater (last + 1)
  refine ⟨before, during, after, rfl, hbefore, fun item hitem => ⟨?_, ?_⟩, hafter⟩
  · exact hrest item (List.mem_append_left _ hitem)
  · exact Nat.le_of_lt_succ (hduring item hitem)

end Window

end Foundation
