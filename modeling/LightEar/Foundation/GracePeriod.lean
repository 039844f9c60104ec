import Mathlib.Data.List.DropRight
import Mathlib.Data.List.Infix

/-!
# Alarms after a grace period

A watch looks at samples that are good or bad, each with the time it was taken at.  It notes when
a stretch of bad samples began and fires once the stretch has lasted for a grace period; it fires
at most once in a stretch, and a good sample ends the stretch.

Over a list of samples with nondecreasing times the watch fires exactly when some unbroken
stretch of bad samples lasts that long (`Watch.fires_iff`).  A stretch that had begun before
counts from the time that was noted, and is left out if the watch has fired in it.

What a watch remembers is a function of the samples it has seen (`Watch.ofLooks`), also if the
grace period is another one for each sample.  Whether it fires at the next one can be read off them
(`Watch.look_ofLooks_fst_iff`).
-/

namespace Foundation

/-- What a watch looks at. -/
structure Sample where
  /-- Whether something is wrong. -/
  bad : Bool
  /-- When the sample was taken. -/
  now : Nat
  deriving DecidableEq, Repr

/-- What a watch remembers of the present stretch of bad samples. -/
structure Watch where
  /-- When the stretch began. -/
  since : Option Nat
  /-- Whether the watch has fired in it. -/
  fired : Bool
  deriving DecidableEq, Repr

/-- Some unbroken stretch of bad samples lasts for the grace period. -/
def Lasting (grace : Nat) (samples : List Sample) : Prop :=
  ∃ stretch, stretch <:+: samples ∧ (∀ x ∈ stretch, x.bad = true) ∧
    ∃ first ∈ stretch.head?, ∃ last ∈ stretch.getLast?, grace ≤ last.now - first.now

namespace Lasting

variable {grace : Nat} {x : Sample} {samples : List Sample}

/-- A stretch that begins with the first sample, or one of the others. -/
theorem cons_iff : Lasting grace (x :: samples) ↔
    (∃ stretch, stretch <+: samples ∧ (∀ y ∈ x :: stretch, y.bad = true) ∧
      ∃ last ∈ (x :: stretch).getLast?, grace ≤ last.now - x.now) ∨ Lasting grace samples := by
  constructor
  · rintro ⟨stretch, hinfix, hbad, first, hfirst, last, hlast, hgrace⟩
    rcases List.infix_cons_iff.1 hinfix with hbegins | hrest
    · cases stretch with
      | nil => simp at hfirst
      | cons y stretch =>
        obtain ⟨rfl, htail⟩ := List.cons_prefix_cons.1 hbegins
        rw [List.head?_cons, Option.mem_some_iff] at hfirst
        subst hfirst
        exact .inl ⟨stretch, htail, hbad, last, hlast, hgrace⟩
    · exact .inr ⟨stretch, hrest, hbad, first, hfirst, last, hlast, hgrace⟩
  · rintro (⟨stretch, hbegins, hbad, last, hlast, hgrace⟩ | ⟨stretch, hinfix, hrest⟩)
    · exact ⟨x :: stretch, (List.cons_prefix_cons.2 ⟨rfl, hbegins⟩).isInfix, hbad, x, rfl, last,
        hlast, hgrace⟩
    · exact ⟨stretch, List.infix_cons hinfix, hrest⟩

/-- A good sample is in no stretch. -/
theorem cons_of_good (hx : x.bad = false) :
    Lasting grace (x :: samples) ↔ Lasting grace samples := by
  refine cons_iff.trans (or_iff_right ?_)
  rintro ⟨stretch, -, hbad, -⟩
  have hthis : x.bad = true := hbad x List.mem_cons_self
  simp [hx] at hthis

/-- A sample before a good one is too short a stretch. -/
theorem cons_of_good_next {p : Sample} (hgrace : 0 < grace) (hx : x.bad = false) :
    Lasting grace (p :: x :: samples) ↔ Lasting grace samples := by
  refine cons_iff.trans ((or_iff_right ?_).trans (cons_of_good hx))
  rintro ⟨stretch, hbegins, hbad, last, hlast, hlong⟩
  cases stretch with
  | nil =>
    obtain rfl : p = last := by simpa using hlast
    omega
  | cons y stretch =>
    obtain ⟨rfl, -⟩ := List.cons_prefix_cons.1 hbegins
    have hthis : y.bad = true := hbad y (List.mem_cons_of_mem _ List.mem_cons_self)
    simp [hx] at hthis

/-- A second bad sample within the grace period adds nothing to the stretch of the first. -/
theorem cons_cons_iff {p : Sample} (hp : p.bad = true) (hx : x.bad = true)
    (htime : p.now ≤ x.now) (hshort : x.now - p.now < grace) :
    Lasting grace (p :: x :: samples) ↔ Lasting grace (p :: samples) := by
  have hlater {ys : List Sample} {y last : Sample} (hlast : last ∈ (x :: y :: ys).getLast?) :
      last ∈ (p :: y :: ys).getLast? := by
    rw [List.getLast?_cons_cons] at hlast ⊢
    exact hlast
  rw [cons_iff, cons_iff (x := p)]
  constructor
  · rintro (⟨stretch, hbegins, hbad, last, hlast, hlong⟩ | hrest)
    · cases stretch with
      | nil =>
        obtain rfl : p = last := by simpa using hlast
        omega
      | cons y stretch =>
        obtain ⟨rfl, htail⟩ := List.cons_prefix_cons.1 hbegins
        rw [List.getLast?_cons_cons] at hlast
        cases stretch with
        | nil =>
          obtain rfl : y = last := by simpa using hlast
          omega
        | cons z stretch =>
          refine .inl ⟨z :: stretch, htail, ?_, last, hlater hlast, hlong⟩
          intro w hw
          rcases List.mem_cons.1 hw with rfl | hw
          · exact hp
          · exact hbad w (List.mem_cons_of_mem _ (List.mem_cons_of_mem _ hw))
    · rcases cons_iff.1 hrest with ⟨stretch, hbegins, hbad, last, hlast, hlong⟩ | hrest
      · cases stretch with
        | nil =>
          obtain rfl : x = last := by simpa using hlast
          omega
        | cons z stretch =>
          refine .inl ⟨z :: stretch, hbegins, ?_, last, hlater hlast, by omega⟩
          intro w hw
          rcases List.mem_cons.1 hw with rfl | hw
          · exact hp
          · exact hbad w (List.mem_cons_of_mem _ hw)
      · exact .inr hrest
  · rintro (⟨stretch, hbegins, hbad, last, hlast, hlong⟩ | hrest)
    · refine .inl ⟨x :: stretch, List.cons_prefix_cons.2 ⟨rfl, hbegins⟩, ?_, last, ?_, hlong⟩
      · intro w hw
        rcases List.mem_cons.1 hw with rfl | hw
        · exact hp
        · rcases List.mem_cons.1 hw with rfl | hw
          · exact hx
          · exact hbad w (List.mem_cons_of_mem _ hw)
      · cases stretch with
        | nil =>
          obtain rfl : p = last := by simpa using hlast
          omega
        | cons z stretch =>
          rw [List.getLast?_cons_cons, List.getLast?_cons_cons]
          rwa [List.getLast?_cons_cons] at hlast
    · exact .inr (cons_iff.2 (.inr hrest))

end Lasting

namespace Watch

/-- Looks at a sample; says whether the watch fires. -/
def look (grace : Nat) (w : Watch) (x : Sample) : Bool × Watch :=
  if x.bad then
    let since := w.since.getD x.now
    if w.fired || x.now - since < grace then (false, { w with since := some since })
    else (true, ⟨some since, true⟩)
  else (false, ⟨none, false⟩)

/-- Whether the watch fires at one of the samples. -/
def fires (grace : Nat) : Watch → List Sample → Bool
  | _, [] => false
  | w, x :: samples => (w.look grace x).1 || fires grace (w.look grace x).2 samples

/-- The stretch that had begun before, as a sample. -/
def noted (w : Watch) : List Sample :=
  match w.since with
  | none => []
  | some since => [⟨true, since⟩]

/-- The samples that count: all of them after what was noted, or those from the first good one on
if the watch has fired in the stretch that had begun before. -/
def counted (w : Watch) (samples : List Sample) : List Sample :=
  if w.fired then samples.dropWhile (·.bad) else w.noted ++ samples

/-- A good sample starts afresh. -/
theorem look_of_good {grace : Nat} {w : Watch} {x : Sample} (hx : x.bad = false) :
    w.look grace x = (false, ⟨none, false⟩) := by
  simp [look, hx]

/-- A watch that has fired stays silent in the same stretch. -/
theorem look_of_fired {grace : Nat} {w : Watch} {x : Sample} (hx : x.bad = true)
    (hw : w.fired = true) : w.look grace x = (false, ⟨some (w.since.getD x.now), true⟩) := by
  simp [look, hx, hw]

/-- Within the grace period the watch only notes when the stretch began. -/
theorem look_of_short {grace : Nat} {w : Watch} {x : Sample} (hx : x.bad = true)
    (hw : w.fired = false) (h : x.now - w.since.getD x.now < grace) :
    w.look grace x = (false, ⟨some (w.since.getD x.now), false⟩) := by
  simp [look, hx, hw, h]

/-- At the end of the grace period it fires. -/
theorem look_of_long {grace : Nat} {w : Watch} {x : Sample} (hx : x.bad = true)
    (hw : w.fired = false) (h : ¬ x.now - w.since.getD x.now < grace) :
    (w.look grace x).1 = true := by
  simp [look, hx, hw, h]

/-- Without a good sample no stretch of one sample is long enough. -/
theorem not_lasting_counted_nil {grace : Nat} (hgrace : 0 < grace) (w : Watch) :
    ¬ Lasting grace (w.counted []) := by
  rintro ⟨stretch, hinfix, -, first, hfirst, last, hlast, hlong⟩
  have hlength : stretch.length ≤ 1 := by
    refine hinfix.length_le.trans ?_
    unfold counted noted
    split
    · simp
    · split <;> simp
  match stretch, hlength with
  | [y], _ =>
    obtain rfl : y = first := by simpa using hfirst
    obtain rfl : y = last := by simpa using hlast
    omega

/-- Where the watch fires, a stretch has lasted. -/
theorem lasting_of_look {grace : Nat} (hgrace : 0 < grace) {w : Watch} {x : Sample}
    (h : (w.look grace x).1 = true) (samples : List Sample) :
    Lasting grace (w.counted (x :: samples)) := by
  cases hx : x.bad with
  | false => simp [look_of_good hx] at h
  | true =>
    cases hw : w.fired with
    | true => simp [look_of_fired hx hw] at h
    | false =>
      by_cases hshort : x.now - w.since.getD x.now < grace
      · simp [look_of_short hx hw hshort] at h
      · cases hs : w.since with
        | none => simp only [hs, Option.getD_none] at hshort; omega
        | some since =>
          rw [hs, Option.getD_some, not_lt] at hshort
          have hcounted : w.counted (x :: samples) = ⟨true, since⟩ :: x :: samples := by
            simp [counted, noted, hw, hs]
          rw [hcounted]
          refine Lasting.cons_iff.2 (.inl ⟨[x], ⟨samples, rfl⟩, ?_, x, rfl, hshort⟩)
          simp [hx]

/-- Where it stays silent, it goes on with what counts. -/
theorem lasting_counted_look {grace : Nat} (hgrace : 0 < grace) {w : Watch} {x : Sample}
    (h : (w.look grace x).1 = false) (htime : ∀ p ∈ w.noted, p.now ≤ x.now)
    (samples : List Sample) :
    Lasting grace ((w.look grace x).2.counted samples) ↔
      Lasting grace (w.counted (x :: samples)) := by
  cases hx : x.bad with
  | false =>
    rw [look_of_good hx]
    cases hw : w.fired with
    | true => simp [counted, noted, hw, hx, Lasting.cons_of_good]
    | false =>
      cases hs : w.since with
      | none => simp [counted, noted, hw, hs, Lasting.cons_of_good hx]
      | some since => simp [counted, noted, hw, hs, Lasting.cons_of_good_next hgrace hx]
  | true =>
    cases hw : w.fired with
    | true => simp [look_of_fired hx hw, counted, hw, hx]
    | false =>
      by_cases hshort : x.now - w.since.getD x.now < grace
      · rw [look_of_short hx hw hshort]
        cases hs : w.since with
        | none =>
          have hsame : (⟨true, x.now⟩ : Sample) = x := by rw [← hx]
          simp [counted, noted, hw, hs, hsame]
        | some since =>
          rw [hs, Option.getD_some] at hshort
          have hbefore : since ≤ x.now := htime ⟨true, since⟩ (by simp [noted, hs])
          have hiff : Lasting grace (⟨true, since⟩ :: x :: samples) ↔
              Lasting grace (⟨true, since⟩ :: samples) :=
            Lasting.cons_cons_iff rfl hx hbefore hshort
          simpa [counted, noted, hw, hs] using hiff.symm
      · simp [look_of_long hx hw hshort] at h

/-- What is noted after a sample is not later than the samples to come. -/
theorem pairwise_noted_look {grace : Nat} {w : Watch} {x : Sample} {samples : List Sample}
    (h : (w.noted ++ x :: samples).Pairwise fun x y => x.now ≤ y.now) :
    ((w.look grace x).2.noted ++ samples).Pairwise fun x y => x.now ≤ y.now := by
  obtain ⟨-, htimes, hnoted⟩ := List.pairwise_append.1 h
  obtain ⟨hfirst, hrest⟩ := List.pairwise_cons.1 htimes
  have hsince : ∀ y ∈ samples, w.since.getD x.now ≤ y.now := by
    intro y hy
    cases hs : w.since with
    | none => exact hfirst y hy
    | some since => exact hnoted ⟨true, since⟩ (by simp [noted, hs]) y (List.mem_cons_of_mem _ hy)
  cases hx : x.bad with
  | false =>
    rw [look_of_good hx]
    exact hrest
  | true =>
    have hnext : (w.look grace x).2.since = some (w.since.getD x.now) := by
      simp only [look, hx, if_true]
      split <;> rfl
    unfold noted
    rw [hnext]
    exact List.pairwise_cons.2 ⟨hsince, hrest⟩

/-- The watch fires exactly when a stretch of bad samples lasts for the grace period. -/
theorem fires_iff {grace : Nat} (hgrace : 0 < grace) {w : Watch} {samples : List Sample}
    (htimes : (w.noted ++ samples).Pairwise fun x y => x.now ≤ y.now) :
    w.fires grace samples = true ↔ Lasting grace (w.counted samples) := by
  induction samples generalizing w with
  | nil => exact iff_of_false Bool.false_ne_true (not_lasting_counted_nil hgrace w)
  | cons x samples ih =>
    rw [fires, Bool.or_eq_true, ih (pairwise_noted_look htimes)]
    cases hlook : (w.look grace x).1 with
    | true => exact iff_of_true (.inl rfl) (lasting_of_look hgrace hlook samples)
    | false =>
      have hnoted : ∀ p ∈ w.noted, p.now ≤ x.now := fun p hp =>
        (List.pairwise_append.1 htimes).2.2 p hp x List.mem_cons_self
      rw [← lasting_counted_look hgrace hlook hnoted samples]
      exact or_iff_right Bool.false_ne_true

/-! ### What a watch has seen -/

/-- A sample that a watch has looked at, and whether it fired. -/
structure Look where
  /-- What it saw. -/
  sample : Sample
  /-- Whether it fired. -/
  fired : Bool
  deriving DecidableEq, Repr

/-- The last samples, from the first bad one after the last good one on. -/
def stretch (looks : List Look) : List Look := looks.rtakeWhile (·.sample.bad)

/-- When the present stretch began, and whether the watch has fired in it. -/
def ofLooks (looks : List Look) : Watch where
  since := (stretch looks).head?.map (·.sample.now)
  fired := (stretch looks).any (·.fired)

theorem stretch_concat_of_bad (looks : List Look) {last : Look} (h : last.sample.bad = true) :
    stretch (looks ++ [last]) = stretch looks ++ [last] := by
  rw [stretch, List.rtakeWhile_concat, if_pos h, stretch]

theorem stretch_concat_of_good (looks : List Look) {last : Look} (h : last.sample.bad = false) :
    stretch (looks ++ [last]) = [] := by
  rw [stretch, List.rtakeWhile_concat, if_neg (Bool.eq_false_iff.1 h)]

/-- The stretch that goes on with a bad sample begins where it began, or with that sample. -/
theorem getD_since_ofLooks (looks : List Look) (x : Sample) (fired : Bool) :
    some ((ofLooks looks).since.getD x.now) =
      (stretch looks ++ [Look.mk x fired]).head?.map (·.sample.now) := by
  unfold ofLooks
  cases stretch looks <;> rfl

/-- A look at one more sample. -/
theorem look_ofLooks_snd (grace : Nat) (looks : List Look) (x : Sample) :
    ((ofLooks looks).look grace x).2 =
      ofLooks (looks ++ [⟨x, ((ofLooks looks).look grace x).1⟩]) := by
  cases hx : x.bad with
  | false =>
    rw [look_of_good hx]
    unfold ofLooks
    rw [stretch_concat_of_good looks hx]
    rfl
  | true =>
    have hnext (fired : Bool) : ofLooks (looks ++ [⟨x, fired⟩]) =
        ⟨some ((ofLooks looks).since.getD x.now), (ofLooks looks).fired || fired⟩ := by
      rw [getD_since_ofLooks looks x fired]
      unfold ofLooks
      rw [stretch_concat_of_bad looks hx]
      simp
    rw [hnext]
    unfold look
    rw [if_pos hx]
    dsimp only
    split
    · rw [Bool.or_false]
    · rw [Bool.or_true]

/-- The watch fires at a bad sample if the stretch has lasted for the grace period by then and the
watch has not fired in it before. -/
theorem look_ofLooks_fst_iff (grace : Nat) (looks : List Look) (x : Sample) :
    ((ofLooks looks).look grace x).1 = true ↔
      x.bad = true ∧
        (∃ first ∈ ((stretch looks).map (·.sample) ++ [x]).head?, grace ≤ x.now - first.now) ∧
        ∀ earlier ∈ stretch looks, earlier.fired = false := by
  have hfired : (ofLooks looks).fired = false ↔
      ∀ earlier ∈ stretch looks, earlier.fired = false := by
    simp [ofLooks]
  have hsince : (∃ first ∈ ((stretch looks).map (·.sample) ++ [x]).head?,
      grace ≤ x.now - first.now) ↔ ¬ x.now - (ofLooks looks).since.getD x.now < grace := by
    rw [not_lt]
    unfold ofLooks
    cases stretch looks with
    | nil => simp
    | cons first rest => simp
  rw [← hfired, hsince]
  cases hx : x.bad with
  | false =>
    rw [look_of_good hx]
    simp
  | true =>
    cases hw : (ofLooks looks).fired with
    | true =>
      rw [look_of_fired hx hw]
      simp
    | false =>
      by_cases hshort : x.now - (ofLooks looks).since.getD x.now < grace
      · rw [look_of_short hx hw hshort]
        simp [hshort]
      · simp [look_of_long hx hw hshort, hshort]

end Watch

end Foundation
