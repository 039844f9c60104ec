import LightEar.StreamingPcm
import Mathlib.Algebra.BigOperators.Ring.List

/-!
# How the position of the PCM buffer drifts

A trim drops whole frames and moves the position of the buffer by whole milliseconds.  What is
left over of a millisecond is dropped at every trim, so the position falls behind the frames that
have gone, the further the more trims there were.

After any pushes and trims it is at most one millisecond away from where all the dropped frames
together end exactly if the parts left over make up less than two milliseconds
(`StreamingPcmState.basePosition_within_one_iff`).
-/

namespace LightEar

open Foundation

universe u

variable {α : Type u}

/-- Taking quotients one by one loses the remainders. -/
theorem sum_div_eq (l : List Nat) {d : Nat} (hd : 0 < d) :
    l.sum / d = (l.map (· / d)).sum + (l.map (· % d)).sum / d := by
  have hsplit : l.sum = (l.map (· % d)).sum + d * (l.map (· / d)).sum := by
    induction l with
    | nil => rfl
    | cons a l ih =>
      have ha := Nat.mod_add_div a d
      simp only [List.map_cons, List.sum_cons, Nat.mul_add]
      omega
  rw [hsplit, Nat.add_mul_div_left _ _ hd, Nat.add_comm]

/-- What the decoder does with the buffer while it plays. -/
inductive PcmAction (α : Type u) where
  | pushSamples (samples : List α)
  | trimBefore (positionMs retainBehindMs : Nat)
  deriving DecidableEq, Repr

/-- The samples that an action adds. -/
def PcmAction.pushed : PcmAction α → List α
  | pushSamples samples => samples
  | trimBefore _ _ => []

/-- The position of a trim is a `u64`. -/
def PcmAction.InRange : PcmAction α → Prop
  | pushSamples _ => True
  | trimBefore positionMs _ => positionMs ≤ u64Max

instance (action : PcmAction α) : Decidable action.InRange := by
  unfold PcmAction.InRange
  cases action <;> infer_instance

namespace StreamingPcmState

/-- The buffer after an action. -/
def perform (p : StreamingPcmState α) : PcmAction α → StreamingPcmState α
  | .pushSamples samples => p.pushSamples samples
  | .trimBefore positionMs retainBehindMs => p.trimBefore positionMs retainBehindMs

/-- The buffer after a list of actions. -/
def performAll (p : StreamingPcmState α) (actions : List (PcmAction α)) : StreamingPcmState α :=
  actions.foldl perform p

/-- The number of frames that an action finds to drop. -/
def framesToDrop (p : StreamingPcmState α) : PcmAction α → Nat
  | .pushSamples _ => 0
  | .trimBefore positionMs retainBehindMs =>
    match p.spec with
    | none => 0
    | some (channels, sampleRate) =>
      let elapsedMs := positionMs - retainBehindMs - p.basePositionMs
      if elapsedMs < streamPcmTrimGranularityMs then 0
      else min (elapsedMs * sampleRate / 1000) (p.samples.length / channels)

/-- The same for each of a list of actions, one after the other. -/
def framesDropped (p : StreamingPcmState α) : List (PcmAction α) → List Nat
  | [] => []
  | action :: actions => p.framesToDrop action :: (p.perform action).framesDropped actions

/-! ## One action -/

/-- The buffer has a format. -/
structure HasFormat (p : StreamingPcmState α) (channels sampleRate : ℕ+) : Prop where
  /-- The number of channels is known. -/
  channels : p.channels = some channels
  /-- The frames in a second are known. -/
  sampleRate : p.sampleRate = some sampleRate

section Step

variable {p : StreamingPcmState α} {channels sampleRate : ℕ+}

/-- What a trim finds to drop: no more than there is, and no longer than what it is to drop. -/
theorem HasFormat.framesToDrop_trimBefore (h : p.HasFormat channels sampleRate)
    (positionMs retainBehindMs : Nat) :
    p.framesToDrop (.trimBefore positionMs retainBehindMs) =
      if positionMs - retainBehindMs - p.basePositionMs < streamPcmTrimGranularityMs then 0
      else min ((positionMs - retainBehindMs - p.basePositionMs) * sampleRate / 1000)
        (p.samples.length / channels) := by
  have hspec : p.spec = some (channels, sampleRate) := by
    unfold spec
    rw [h.channels, h.sampleRate]
    rfl
  unfold framesToDrop
  rw [hspec]

/-- A trim drops what it finds to drop, or leaves the buffer alone if that is nothing. -/
theorem HasFormat.trimBefore_eq (h : p.HasFormat channels sampleRate)
    (positionMs retainBehindMs : Nat) {frames : Nat}
    (hframes : frames = p.framesToDrop (.trimBefore positionMs retainBehindMs)) :
    p.trimBefore positionMs retainBehindMs =
      if frames = 0 then p
      else { p with
        samples := p.samples.drop (min (frames * channels) p.samples.length)
        droppedSamples := satAdd p.droppedSamples (min (frames * channels) p.samples.length)
        basePositionMs := satAdd p.basePositionMs (frames * 1000 / sampleRate) } := by
  rw [h.framesToDrop_trimBefore] at hframes
  unfold trimBefore
  rw [h.channels, h.sampleRate]
  dsimp only
  by_cases hshort : positionMs - retainBehindMs - p.basePositionMs < streamPcmTrimGranularityMs
  · rw [if_pos hshort] at hframes
    rw [if_pos hframes, if_pos hshort, ite_self]
  · have hpositive : 0 < streamPcmTrimGranularityMs := by decide
    have hahead : ¬ positionMs - retainBehindMs ≤ p.basePositionMs := by omega
    rw [if_neg hshort] at hframes
    rw [if_neg hahead, if_neg hshort, ← hframes]

/-- What an action finds to drop is there. -/
theorem HasFormat.framesToDrop_le (h : p.HasFormat channels sampleRate) (action : PcmAction α) :
    p.framesToDrop action * channels ≤ p.samples.length := by
  cases action with
  | pushSamples samples => simp [framesToDrop]
  | trimBefore positionMs retainBehindMs =>
    have hthere : p.framesToDrop (.trimBefore positionMs retainBehindMs) ≤
        p.samples.length / channels := by
      rw [h.framesToDrop_trimBefore]
      split
      · exact Nat.zero_le _
      · exact min_le_right _ _
    exact (Nat.mul_le_mul_right _ hthere).trans (Nat.div_mul_le_self _ _)

/-- A trim that drops anything moves the position no further than its own. -/
theorem HasFormat.advanced_le (h : p.HasFormat channels sampleRate)
    (positionMs retainBehindMs : Nat)
    (hdrops : p.framesToDrop (.trimBefore positionMs retainBehindMs) ≠ 0) :
    p.basePositionMs + p.framesToDrop (.trimBefore positionMs retainBehindMs) * 1000 / sampleRate ≤
      positionMs := by
  rw [h.framesToDrop_trimBefore] at hdrops ⊢
  split at hdrops
  · exact absurd rfl hdrops
  · rename_i hlong
    rw [if_neg hlong]
    have hahead : streamPcmTrimGranularityMs ≤ positionMs - retainBehindMs - p.basePositionMs :=
      not_lt.1 hlong
    have hpositive : 0 < streamPcmTrimGranularityMs := by decide
    generalize helapsed : positionMs - retainBehindMs - p.basePositionMs = elapsedMs at *
    have hadvanced : min (elapsedMs * sampleRate / 1000) (p.samples.length / channels) * 1000 /
        sampleRate ≤ elapsedMs := by
      refine Nat.div_le_of_le_mul ?_
      rw [Nat.mul_comm (sampleRate : Nat) elapsedMs]
      exact (Nat.mul_le_mul_right _ (min_le_left _ _)).trans (Nat.div_mul_le_self _ _)
    omega

/-- What an action finds to drop, it drops, and it moves the position by as many whole
milliseconds. -/
theorem HasFormat.perform_spec (h : p.HasFormat channels sampleRate) {action : PcmAction α}
    (hrange : action.InRange) :
    (p.perform action).HasFormat channels sampleRate ∧
      (p.perform action).samples =
        p.samples.drop (p.framesToDrop action * channels) ++ action.pushed ∧
      (p.perform action).basePositionMs =
        p.basePositionMs + p.framesToDrop action * 1000 / sampleRate := by
  cases action with
  | pushSamples samples =>
    refine ⟨⟨h.channels, h.sampleRate⟩, ?_, ?_⟩
    · simp [framesToDrop, perform, pushSamples, PcmAction.pushed]
    · simp [framesToDrop, perform, pushSamples]
  | trimBefore positionMs retainBehindMs =>
    have hthere := h.framesToDrop_le (.trimBefore positionMs retainBehindMs)
    have hadvanced := h.advanced_le positionMs retainBehindMs
    have hposition : positionMs ≤ u64Max := hrange
    have htrim := h.trimBefore_eq positionMs retainBehindMs rfl
    change (p.trimBefore positionMs retainBehindMs).HasFormat channels sampleRate ∧
      (p.trimBefore positionMs retainBehindMs).samples = _ ∧
      (p.trimBefore positionMs retainBehindMs).basePositionMs = _
    rw [htrim]
    generalize p.framesToDrop (.trimBefore positionMs retainBehindMs) = frames at *
    split
    · rename_i hnone
      subst hnone
      refine ⟨h, ?_, ?_⟩
      · simp [PcmAction.pushed]
      · simp
    · rename_i hdrops
      refine ⟨⟨h.channels, h.sampleRate⟩, ?_, ?_⟩
      · rw [min_eq_left hthere]
        simp [PcmAction.pushed]
      · exact min_eq_left ((hadvanced hdrops).trans hposition)

end Step

/-! ## Main result -/

/-- The whole milliseconds that frames last. -/
def wholeMs (sampleRate : ℕ+) (frames : Nat) : Nat := frames * 1000 / sampleRate

/-- What is left over of a millisecond; `sampleRate` parts are a whole one. -/
def leftOver (sampleRate : ℕ+) (frames : Nat) : Nat := frames * 1000 % sampleRate

/-- The number of frames that have gone after some actions. -/
def droppedFrames (p : StreamingPcmState α) (channels : ℕ+) (actions : List (PcmAction α)) : Nat :=
  (p.samples.length + (actions.map fun action => action.pushed.length).sum -
    (p.performAll actions).samples.length) / channels

section Run

variable {p : StreamingPcmState α} {channels sampleRate : ℕ+}

/-- Every action of a run moves the position by the whole milliseconds of what it drops. -/
theorem HasFormat.performAll_spec (h : p.HasFormat channels sampleRate)
    {actions : List (PcmAction α)} (hrange : ∀ action ∈ actions, action.InRange) :
    (p.performAll actions).basePositionMs =
        p.basePositionMs + ((p.framesDropped actions).map (wholeMs sampleRate)).sum ∧
      (p.performAll actions).samples.length + (p.framesDropped actions).sum * channels =
        p.samples.length + (actions.map fun action => action.pushed.length).sum := by
  induction actions generalizing p with
  | nil => simp [performAll, framesDropped]
  | cons action actions ih =>
    obtain ⟨hformat, hsamples, hbase⟩ := h.perform_spec (hrange action List.mem_cons_self)
    obtain ⟨hbaseRest, hlengthRest⟩ :=
      ih hformat fun a ha => hrange a (List.mem_cons_of_mem _ ha)
    have hthere := h.framesToDrop_le action
    have hlength := congrArg List.length hsamples
    rw [List.length_append, List.length_drop] at hlength
    have hrun : p.performAll (action :: actions) = (p.perform action).performAll actions := rfl
    rw [hrun, framesDropped]
    simp only [List.map_cons, List.sum_cons, Nat.add_mul]
    constructor
    · rw [hbaseRest, hbase, Nat.add_assoc]
      rfl
    · omega

/-- What has gone is what the actions have dropped. -/
theorem HasFormat.droppedFrames_eq (h : p.HasFormat channels sampleRate)
    {actions : List (PcmAction α)} (hrange : ∀ action ∈ actions, action.InRange) :
    p.droppedFrames channels actions = (p.framesDropped actions).sum := by
  have hlength := (h.performAll_spec hrange).2
  rw [droppedFrames, ← hlength, Nat.add_sub_cancel_left, Nat.mul_div_cancel _ channels.pos]

/-- Counted together, frames last as long as one by one, and what was left over besides. -/
theorem wholeMs_sum (sampleRate : ℕ+) (frames : List Nat) :
    wholeMs sampleRate frames.sum =
      (frames.map (wholeMs sampleRate)).sum +
        (frames.map (leftOver sampleRate)).sum / sampleRate := by
  have hsum := sum_div_eq (frames.map (· * 1000)) sampleRate.pos
  rwa [List.sum_map_mul_right, List.map_map, List.map_map, List.map_id'] at hsum

/-- After any pushes and trims the position of the buffer is at most one millisecond away from
where the dropped frames end, counted together, exactly if the parts of a millisecond left over at
the trims make up less than two milliseconds. -/
theorem basePosition_within_one_iff (h : p.HasFormat channels sampleRate)
    {actions : List (PcmAction α)} (hrange : ∀ action ∈ actions, action.InRange) :
    ((p.performAll actions).basePositionMs ≤
          p.basePositionMs + wholeMs sampleRate (p.droppedFrames channels actions) + 1 ∧
        p.basePositionMs + wholeMs sampleRate (p.droppedFrames channels actions) ≤
          (p.performAll actions).basePositionMs + 1) ↔
      ((p.framesDropped actions).map (leftOver sampleRate)).sum < 2 * sampleRate := by
  obtain ⟨hbase, -⟩ := h.performAll_spec hrange
  have hlost : ((p.framesDropped actions).map (leftOver sampleRate)).sum / sampleRate < 2 ↔
      ((p.framesDropped actions).map (leftOver sampleRate)).sum < 2 * sampleRate :=
    Nat.div_lt_iff_lt_mul sampleRate.pos
  rw [← hlost, h.droppedFrames_eq hrange, wholeMs_sum, hbase]
  generalize ((p.framesDropped actions).map (leftOver sampleRate)).sum / sampleRate = lost
  omega

end Run

/-- Silence at 44100 frames in a second. -/
def silence (frames basePositionMs droppedSamples : Nat) : StreamingPcmState Nat :=
  { (new : StreamingPcmState Nat) with
    samples := List.replicate frames 0
    channels := some 1
    sampleRate := some 44100
    basePositionMs
    droppedSamples }

theorem basePositionMs_silence (frames basePositionMs droppedSamples : Nat) :
    (silence frames basePositionMs droppedSamples).basePositionMs = basePositionMs := rfl

theorem length_silence (frames basePositionMs droppedSamples : Nat) :
    (silence frames basePositionMs droppedSamples).samples.length = frames :=
  List.length_replicate

/-- A trim of 1001 milliseconds drops 44144 frames, which are almost that long, and moves the
position by 1000. -/
theorem silence_trim {frames basePositionMs droppedSamples : Nat}
    (hframes : 44144 ≤ frames) (hposition : basePositionMs + 1001 ≤ u64Max)
    (hdropped : droppedSamples + 44144 ≤ u64Max) :
    (silence frames basePositionMs droppedSamples).perform
        (.trimBefore (basePositionMs + 1001) 0) =
      silence (frames - 44144) (basePositionMs + 1000) (droppedSamples + 44144) := by
  have hahead : ¬ basePositionMs + 1001 ≤ basePositionMs := by omega
  have hbase : satAdd basePositionMs 1000 = basePositionMs + 1000 :=
    min_eq_left (by omega)
  have hsum : satAdd droppedSamples 44144 = droppedSamples + 44144 := min_eq_left hdropped
  simp [-List.reduceReplicate, silence, new, perform, trimBefore, streamPcmTrimGranularityMs,
    hframes, hahead, hbase, hsum]

/-- A trim after each second, and a millisecond more. -/
def secondTrims : List (PcmAction Nat) :=
  [.trimBefore 1001 0, .trimBefore 2001 0, .trimBefore 3001 0]

theorem silence_hasFormat (frames basePositionMs droppedSamples : Nat) :
    (silence frames basePositionMs droppedSamples).HasFormat 1 44100 := ⟨rfl, rfl⟩

/-- The main result for three seconds of silence and a trim after each. -/
theorem basePosition_within_one_iff_silence :
    (((silence 132432 0 0).performAll secondTrims).basePositionMs ≤
          (silence 132432 0 0).basePositionMs +
            wholeMs 44100 ((silence 132432 0 0).droppedFrames 1 secondTrims) + 1 ∧
        (silence 132432 0 0).basePositionMs +
            wholeMs 44100 ((silence 132432 0 0).droppedFrames 1 secondTrims) ≤
          ((silence 132432 0 0).performAll secondTrims).basePositionMs + 1) ↔
      (((silence 132432 0 0).framesDropped secondTrims).map (leftOver 44100)).sum <
        2 * (44100 : ℕ+) :=
  basePosition_within_one_iff (silence_hasFormat 132432 0 0) (by decide)

/-- After three such trims the position is two milliseconds behind the 132432 frames that have
gone. -/
theorem silence_falls_behind :
    ¬ ∀ (p : StreamingPcmState Nat) (channels sampleRate : ℕ+) (actions : List (PcmAction Nat)),
      p.HasFormat channels sampleRate → (∀ action ∈ actions, action.InRange) →
        (p.performAll actions).basePositionMs ≤
            p.basePositionMs + wholeMs sampleRate (p.droppedFrames channels actions) + 1 ∧
          p.basePositionMs + wholeMs sampleRate (p.droppedFrames channels actions) ≤
            (p.performAll actions).basePositionMs + 1 := by
  intro h
  have hwithin := h (silence 132432 0 0) 1 44100 secondTrims (silence_hasFormat 132432 0 0)
    (by decide)
  have hfirst : (silence 132432 0 0).perform (.trimBefore 1001 0) = silence 88288 1000 44144 :=
    silence_trim (by decide) (by decide) (by decide)
  have hsecond : (silence 88288 1000 44144).perform (.trimBefore 2001 0) =
      silence 44144 2000 88288 := silence_trim (by decide) (by decide) (by decide)
  have hthird : (silence 44144 2000 88288).perform (.trimBefore 3001 0) =
      silence 0 3000 132432 := silence_trim (by decide) (by decide) (by decide)
  have hafter : (silence 132432 0 0).performAll secondTrims = silence 0 3000 132432 := by
    simp only [performAll, secondTrims, List.foldl_cons, List.foldl_nil, hfirst, hsecond, hthird]
  have hpushed : (secondTrims.map fun action => action.pushed.length).sum = 0 := rfl
  have hdropped : (silence 132432 0 0).droppedFrames 1 secondTrims = 132432 := by
    rw [droppedFrames, hafter, length_silence, length_silence, hpushed]
    rfl
  rw [hafter, hdropped, basePositionMs_silence, basePositionMs_silence] at hwithin
  revert hwithin
  decide

end StreamingPcmState

end LightEar
