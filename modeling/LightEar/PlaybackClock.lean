import LightEar.Backend.Moves
import LightEar.Redelivery
import Mathlib.Data.Set.Finite.Lattice

/-!
# The clock of a playback

A playback state counts its position from an anchor.  The sender's clock means nothing to the
receiver, which keeps only the distance of the anchor from the stamp: a state that is received at
some time runs from this time, or, if its start was still ahead of the sender, from as much later.

This is right as long as the anchor of a running state is never behind its stamp, and never so far
ahead that the distance saturates.  A commit puts the anchor a fixed delay ahead of the stamp, and
a refresh either brings both to the present or moves the stamp towards the anchor (`Timely`).  So
leader and follower report the same positions at corresponding times
(`position_translates`).
-/

namespace LightEar

open Foundation

/-! ## Anchors -/

/-- The stamp of a running state is not behind a given time, and the start is at most the start
delay ahead of the stamp. -/
structure Timely (c : Int) (state : PlaybackState) : Prop where
  /-- The stamp is a reading of the clock. -/
  issued_le : state.playing = true → state.issuedAtMicros ≤ c
  /-- The anchor is not behind the stamp. -/
  issued_le_anchor : state.playing = true → state.issuedAtMicros ≤ state.anchorTimeMicros
  /-- The anchor is ahead by no more than the start delay. -/
  anchor_le : state.playing = true →
    state.anchorTimeMicros ≤ state.issuedAtMicros + musicStartDelay

/-- A state at rest says nothing about the clock. -/
theorem Timely.of_paused {c : Int} {state : PlaybackState} (h : state.playing = false) :
    Timely c state := by
  have hnot : state.playing ≠ true := Bool.eq_false_iff.1 h
  exact ⟨fun hplaying => absurd hplaying hnot, fun hplaying => absurd hplaying hnot,
    fun hplaying => absurd hplaying hnot⟩

theorem Timely.mono {c c' : Int} {state : PlaybackState} (h : Timely c state) (hle : c ≤ c') :
    Timely c' state :=
  ⟨fun hplaying => (h.issued_le hplaying).trans hle, h.issued_le_anchor, h.anchor_le⟩

/-- A committed state starts after the start delay. -/
theorem timely_committedState (state : PlaybackState) (version : Nat) (now : Int) :
    Timely now (MusicState.committedState state version now musicStartDelay) where
  issued_le _ := le_rfl
  issued_le_anchor _ := by
    change now ≤ now + musicStartDelay
    unfold musicStartDelay
    omega
  anchor_le _ := le_rfl

/-- A refresh brings the anchor to the present, or leaves it ahead. -/
theorem Timely.refreshedState {now : Int} {state : PlaybackState} (h : Timely now state) :
    Timely now (MusicState.refreshedState now state) := by
  unfold MusicState.refreshedState
  dsimp only
  have hdelay : (0 : Int) ≤ musicStartDelay := by decide
  by_cases hmoved : (!state.playing || decide (now ≥ state.anchorTimeMicros)) = true
  · rw [if_pos hmoved]
    refine ⟨fun _ => le_rfl, fun _ => le_rfl, fun _ => ?_⟩
    change now ≤ now + musicStartDelay
    omega
  · rw [if_neg hmoved]
    rw [Bool.or_eq_true, decide_eq_true_eq, not_or] at hmoved
    have hahead : now < state.anchorTimeMicros := not_le.1 hmoved.2
    refine ⟨fun _ => le_rfl, fun _ => hahead.le, fun hplaying => ?_⟩
    have hissued : state.issuedAtMicros ≤ now := h.issued_le hplaying
    have hanchor := h.anchor_le hplaying
    change state.anchorTimeMicros ≤ now + musicStartDelay
    omega

/-! ## Positions -/

/-- A position depends on the time only through what has gone by since the anchor. -/
theorem playbackPositionMs_congr {state : PlaybackState} {anchor t t' : Int}
    (h : max (satI64 (t' - anchor)) 0 = max (satI64 (t - state.anchorTimeMicros)) 0) :
    playbackPositionMs { state with anchorTimeMicros := anchor } t' =
      playbackPositionMs state t := by
  unfold playbackPositionMs
  dsimp only
  rw [h]
  rfl

/-- The position of a state at rest is the same at all times. -/
theorem playbackPositionMs_paused {state : PlaybackState} (h : state.playing = false)
    (anchor t t' : Int) :
    playbackPositionMs { state with anchorTimeMicros := anchor } t' =
      playbackPositionMs state t := by
  unfold playbackPositionMs
  dsimp only
  rw [h]
  rfl

/-- A timely state that is received runs from as long after the receipt as it did after the
stamp. -/
theorem Timely.receivedAnchor_eq {c : Int} {state : PlaybackState} (h : Timely c state)
    (hplaying : state.playing = true) (received : Int) :
    receivedAnchor state received =
      satI64 (received + (state.anchorTimeMicros - state.issuedAtMicros)) := by
  have hahead := h.issued_le_anchor hplaying
  have hdelay := h.anchor_le hplaying
  have hexact : satI64 (state.anchorTimeMicros - state.issuedAtMicros) =
      state.anchorTimeMicros - state.issuedAtMicros := by
    unfold satI64 i64Min i64Max
    unfold musicStartDelay at hdelay
    omega
  unfold receivedAnchor normalizeRemotePlaybackState
  dsimp only
  rw [hplaying, Bool.true_and]
  by_cases hstart : state.anchorTimeMicros > state.issuedAtMicros
  · rw [if_pos (decide_eq_true hstart), hexact]
  · have hsame : state.anchorTimeMicros - state.issuedAtMicros = 0 := by omega
    rw [if_neg (mt of_decide_eq_true hstart), hsame]

/-- As much has gone by on both sides. -/
theorem Timely.elapsed_eq {c : Int} {state : PlaybackState} (h : Timely c state)
    (hplaying : state.playing = true) {received x : Int} (hx : 0 ≤ x)
    (hreceived : i64Min ≤ received) (hlater : received + x ≤ i64Max) :
    max (satI64 (received + x - receivedAnchor state received)) 0 =
      max (satI64 (state.issuedAtMicros + x - state.anchorTimeMicros)) 0 := by
  have hahead := h.issued_le_anchor hplaying
  rw [h.receivedAnchor_eq hplaying]
  unfold satI64
  unfold i64Min i64Max at *
  omega

/-! ## The leader -/

/-- What the leader does to the playback. -/
inductive LeaderMove where
  | commit (env : Env) (operation : BufferOperation)
  | votePause (actor : PeerId) (voteMicros : Int)
  | musicSync (env : Env)

namespace LeaderMove

/-- The reading of the leader's clock; a pause carries the time of the proposal. -/
def clock : LeaderMove → Option Int
  | commit env _ => some (env.clock .commit)
  | votePause _ _ => none
  | musicSync env => some (env.clock .musicSync)

/-- The leader after a move. -/
def apply (b : Backend) : LeaderMove → Backend
  | commit env operation => finalState (commitBufferOperation env operation) b
  | votePause actor voteMicros => b.changeMusic (.pausePlaybackForVote actor voteMicros)
  | musicSync env => finalState (musicSyncTick env) b

end LeaderMove

/-- Whatever the peer plays meets a condition. -/
def Backend.Plays (Q : PlaybackState → Prop) (b : Backend) : Prop :=
  ∀ state, b.music.playbackState = some state → Q state

/-- A peer that has just started plays nothing. -/
theorem Backend.plays_new (localPeerId : PeerId) (rendezvousNodes : Finset PeerId)
    (audioPlayer : Bool) (nextAudioOutputRetry : Instant) (c : Int) :
    (Backend.new localPeerId rendezvousNodes audioPlayer nextAudioOutputRetry).Plays
      (Timely c) := by
  intro state hstate
  cases hstate

section Plays

variable {Q : PlaybackState → Prop}

theorem Moves.plays {α : Type} {m : Handler α} (hm : Moves OffMusic m) :
    Keeps (Backend.Plays Q) m := by
  intro b h state hstate
  rw [hm.music_of_offMusic b] at hstate
  exact h state hstate

/-- A change of the music that leaves the playback alone. -/
theorem music_plays {op : MusicOp} (hop : op.isPlaybackChange = false) :
    Keeps (Backend.Plays Q) (music op) :=
  .modify fun b h state hstate => h state ((op.samePlayback hop b.music).symm.trans hstate)

theorem consumeStartItem_plays (env : Env) (operation : BufferOperation) :
    Keeps (Backend.Plays Q) (consumeStartItem env operation) := by
  refine .ite (.bind (music_plays rfl) fun _ => ?_) (.pure _)
  exact .bind (music_plays rfl) fun _ => (publishQueueSnapshot_moves env).plays

/-- A commit stores the committed state or leaves the playback alone. -/
theorem commitBufferOperation_plays {env : Env} {operation : BufferOperation}
    (h : ∀ version, Q (MusicState.committedState operation.state version (env.clock .commit)
      musicStartDelay)) :
    Keeps (Backend.Plays Q) (commitBufferOperation env operation) := by
  refine .bind (startCommittedStream_moves env operation).plays fun started => .ite ?_ (.pure _)
  refine .bind (music_plays rfl) fun _ => .get_bind fun b => ?_
  refine .bind (consumeStartItem_plays env operation) fun _ => .bind ?_ fun _ => ?_
  · refine .modify fun b _ state hstate => ?_
    have hstored : (b.music.setPlaybackState _).playbackState = some state := hstate
    rw [MusicState.setPlaybackState_playbackState] at hstored
    cases hstored
    exact h _
  · exact .bind (publishPlaybackState_moves env _).plays fun _ => .pure _

theorem musicSyncTick_plays {env : Env}
    (h : ∀ state, Q state → Q (MusicState.refreshedState (env.clock .musicSync) state)) :
    Keeps (Backend.Plays Q) (musicSyncTick env) := by
  refine .get_bind fun b => .bind (.modify fun t ht state hstate => ?_) fun _ => ?_
  · have hrefreshed : (t.music.refreshPlaybackState b.localPeerId
        (env.clock .musicSync)).2.playbackState = some state := hstate
    rcases t.music.refreshPlaybackState_playbackState b.localPeerId (env.clock .musicSync) with
      hmap | hsame
    · rw [hmap, Option.map_eq_some_iff] at hrefreshed
      obtain ⟨before, hbefore, rfl⟩ := hrefreshed
      exact h before (ht before hbefore)
    · exact ht state (hsame.symm.trans hrefreshed)
  · split
    · exact .pure _
    · exact (publishPlaybackState_moves env _).plays

/-- A pause leaves a state at rest. -/
theorem pausePlaybackForVote_plays {b : Backend} {actor : PeerId} {voteMicros : Int}
    (h : ∀ state : PlaybackState, state.playing = false → Q state) :
    (b.changeMusic (.pausePlaybackForVote actor voteMicros)).Plays Q := by
  intro state hstate
  have hpaused : (b.music.pausePlaybackForVote actor voteMicros).2.playbackState = some state :=
    hstate
  rw [MusicState.pausePlaybackForVote_playbackState, Option.map_eq_some_iff] at hpaused
  obtain ⟨before, -, rfl⟩ := hpaused
  exact h _ rfl

end Plays

/-! ## Runs -/

/-- A move with a reading of the clock that is not behind the earlier ones keeps what plays
timely. -/
theorem LeaderMove.timely {b : Backend} {c : Int} (h : b.Plays (Timely c)) {move : LeaderMove}
    (hclock : ∀ now ∈ move.clock, now = c) : (move.apply b).Plays (Timely c) := by
  cases move with
  | commit env operation =>
    refine commitBufferOperation_plays (fun version => ?_) b h
    have hnow : env.clock .commit = c := hclock _ rfl
    rw [hnow]
    exact timely_committedState _ version c
  | votePause actor voteMicros => exact pausePlaybackForVote_plays fun _ => .of_paused
  | musicSync env =>
    refine musicSyncTick_plays (fun state hstate => ?_) b h
    have hnow : env.clock .musicSync = c := hclock _ rfl
    rw [hnow]
    exact hstate.refreshedState

/-- In every run with a clock that does not go back, what plays is timely at all times from the
last reading on. -/
theorem timely_run {b : Backend} (hb : ∀ c, b.Plays (Timely c)) {moves : List LeaderMove}
    (hclock : (moves.filterMap LeaderMove.clock).Pairwise (· ≤ ·)) :
    ∀ c, (∀ t ∈ moves.filterMap LeaderMove.clock, t ≤ c) →
      (moves.foldl LeaderMove.apply b).Plays (Timely c) := by
  induction moves using List.reverseRecOn with
  | nil => exact fun c _ => hb c
  | append_singleton moves move ih =>
    intro c hlater
    rw [List.filterMap_append] at hclock hlater
    obtain ⟨hbefore, -, hlast⟩ := List.pairwise_append.1 hclock
    rw [List.foldl_concat]
    cases hmove : move.clock with
    | none =>
      refine LeaderMove.timely (ih hbefore c fun t ht => hlater t (List.mem_append_left _ ht)) ?_
      rw [hmove]
      exact nofun
    | some now =>
      have hnow : now ∈ [move].filterMap LeaderMove.clock := by simp [hmove]
      have hstep : (move.apply (moves.foldl LeaderMove.apply b)).Plays (Timely now) := by
        refine LeaderMove.timely (ih hbefore now fun t ht => hlast t ht now hnow) ?_
        rw [hmove]
        rintro _ ⟨⟩
        rfl
      exact fun state hstate =>
        (hstep state hstate).mono (hlater now (List.mem_append_right _ hnow))

/-- Whatever the leader plays after any commits, vote pauses and refreshes by a clock that does not
go back: where it runs, a follower that has received it reports the same position as the leader as
long after the receipt as after the stamp, and where it rests, both report the same position at
all times.  Readings of the clock are `i64`. -/
theorem position_translates (localPeerId : PeerId) (rendezvousNodes : Finset PeerId)
    (audioPlayer : Bool) (nextAudioOutputRetry : Instant) (moves : List LeaderMove)
    (hclock : (moves.filterMap LeaderMove.clock).Pairwise (· ≤ ·)) (state : PlaybackState)
    (hstate : (moves.foldl LeaderMove.apply (Backend.new localPeerId rendezvousNodes audioPlayer
      nextAudioOutputRetry)).music.playbackState = some state) :
    (state.playing = true → ∀ received x : Int, 0 ≤ x → i64Min ≤ received →
      received + x ≤ i64Max →
      playbackPositionMs (normalizeRemotePlaybackState state received) (received + x) =
        playbackPositionMs state (state.issuedAtMicros + x)) ∧
    (state.playing = false → ∀ received t t' : Int,
      playbackPositionMs (normalizeRemotePlaybackState state received) t' =
        playbackPositionMs state t) := by
  constructor
  · intro hplaying received x hx hreceived hlater
    obtain ⟨c, hc⟩ := (moves.filterMap LeaderMove.clock).toFinset.bddAbove
    have hlast : ∀ t ∈ moves.filterMap LeaderMove.clock, t ≤ c :=
      fun t ht => hc (Finset.mem_coe.2 (List.mem_toFinset.2 ht))
    have htimely := timely_run (Backend.plays_new _ _ _ _) hclock c hlast state hstate
    exact playbackPositionMs_congr (htimely.elapsed_eq hplaying hx hreceived hlater)
  · intro hpaused received t t'
    exact playbackPositionMs_paused hpaused _ t t'

/-- An operation that goes on half a minute into a track. -/
def resumeHalfMinuteIn : BufferOperation where
  operationId := "a:op"
  state := { halfMinuteIn with playing := false }
  kind := .seek
  queueItemId := none
  expectedPeers := {"a"}
  statuses := ∅
  deadline := 0
  preparePublishedAt := none

/-- The state that the leader plays after a commit at twenty seconds and a refresh a second later,
before the start. -/
def aboutToStart : PlaybackState :=
  { halfMinuteIn with issuedAtMicros := 21000000, anchorTimeMicros := 21500000 }

/-- Four seconds after the stamp and after the receipt, both are three and a half seconds
further. -/
theorem position_translates_aboutToStart :
    playbackPositionMs (normalizeRemotePlaybackState aboutToStart 90000000) 94000000 =
      playbackPositionMs aboutToStart 25000000 :=
  (position_translates "a" ∅ false 0
    [.commit (.plain 20000000) resumeHalfMinuteIn, .musicSync (.plain 21000000)] (by decide)
    aboutToStart rfl).1 rfl 90000000 4000000 (by decide) (by decide) (by decide)

end LightEar
