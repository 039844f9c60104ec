import LightEar.QueueHandlers

/-!
# A playback state that arrives twice

A follower moves the anchor of a received state to the time at which it receives it, and orders
states by the sender's key.  A second copy of a state has the key of the first one and a later
anchor, so it passes the tie rule of `shouldApplyPlaybackState` although it says nothing new, and
the playback starts once more from the position of the state (`redelivered_position_iff`).
-/

namespace LightEar

open Foundation

/-- The time from which the position of a received state runs. -/
def receivedAnchor (state : PlaybackState) (receivedMicros : Int) : Int :=
  (normalizeRemotePlaybackState state receivedMicros).anchorTimeMicros

/-- The whole milliseconds that have gone by since an anchor. -/
def sinceMs (anchor t : Int) : Nat := (max (satI64 (t - anchor)) 0 / 1000).toNat

/-- The whole milliseconds that have gone by since the anchor of a received state. -/
def elapsedMs (state : PlaybackState) (receivedMicros t : Int) : Nat :=
  (max (satI64 (t - receivedAnchor state receivedMicros)) 0 / 1000).toNat

/-- The position at which a state stops. -/
def lastPositionMs (state : PlaybackState) : Nat :=
  (state.track.map PlaybackTrack.durationMs).elim u64Max (min u64Max)

theorem satI64_mono {a b : Int} (h : a ≤ b) : satI64 a ≤ satI64 b := by
  unfold satI64
  omega

/-- A later copy has a later anchor. -/
theorem receivedAnchor_mono (state : PlaybackState) {r₁ r₂ : Int} (h : r₁ ≤ r₂) :
    receivedAnchor state r₁ ≤ receivedAnchor state r₂ :=
  satI64_mono (Int.add_le_add_right h _)

/-- Less time has gone by since it. -/
theorem elapsedMs_anti (state : PlaybackState) {r₁ r₂ : Int} (h : r₁ ≤ r₂) (t : Int) :
    elapsedMs state r₂ t ≤ elapsedMs state r₁ t := by
  have hanchor : receivedAnchor state r₁ ≤ receivedAnchor state r₂ := receivedAnchor_mono state h
  have hsince : satI64 (t - receivedAnchor state r₂) ≤ satI64 (t - receivedAnchor state r₁) :=
    satI64_mono (by omega)
  unfold elapsedMs
  omega

/-- The position of a running state at rate one. -/
theorem playbackPositionMs_running {state : PlaybackState} (hplaying : state.playing = true)
    (hrate : state.rate = 1) (t : Int) :
    playbackPositionMs state t =
      min (state.positionMs + sinceMs state.anchorTimeMicros t) (lastPositionMs state) := by
  have hquotient : ⌊((max (satI64 (t - state.anchorTimeMicros)) 0 : Int) : Rat) / 1000 *
      max (1 : Rat) 0⌋.toNat = sinceMs state.anchorTimeMicros t := by
    rw [max_eq_left (zero_le_one' Rat), mul_one]
    exact congrArg Int.toNat (Rat.floor_intCast_div_natCast _ 1000)
  have hclamp : min (sinceMs state.anchorTimeMicros t) u64Max = sinceMs state.anchorTimeMicros t :=
    min_eq_left (by unfold sinceMs satI64 i64Max i64Min u64Max; omega)
  unfold playbackPositionMs
  rw [hplaying, hrate]
  change clampPlaybackPositionMs _ (satAdd state.positionMs (min ⌊((max (satI64 (t -
    state.anchorTimeMicros)) 0 : Int) : Rat) / 1000 * max (1 : Rat) 0⌋.toNat u64Max)) = _
  rw [hquotient, hclamp]
  unfold clampPlaybackPositionMs lastPositionMs satAdd
  cases state.track with
  | none => rfl
  | some track => exact min_assoc _ _ _

/-- The position of a received state at rate one. -/
theorem playbackPositionMs_received {state : PlaybackState} (hplaying : state.playing = true)
    (hrate : state.rate = 1) (r t : Int) :
    playbackPositionMs (normalizeRemotePlaybackState state r) t =
      min (state.positionMs + elapsedMs state r t) (lastPositionMs state) := by
  have hrunning : (normalizeRemotePlaybackState state r).playing = true := hplaying
  have hspeed : (normalizeRemotePlaybackState state r).rate = 1 := hrate
  rw [playbackPositionMs_running hrunning hspeed]
  unfold lastPositionMs
  rw [normalizeRemotePlaybackState_track]
  rfl

/-! ## The second copy -/

/-- The second copy is taken over when its anchor is later. -/
theorem shouldApplyPlaybackState_again (state : PlaybackState) (r₁ r₂ : Int) :
    shouldApplyPlaybackState (some (normalizeRemotePlaybackState state r₁))
        (normalizeRemotePlaybackState state r₂) =
      decide (receivedAnchor state r₁ < receivedAnchor state r₂) := by
  have hkey : playbackOrderKey (normalizeRemotePlaybackState state r₂) =
      playbackOrderKey (normalizeRemotePlaybackState state r₁) := rfl
  unfold shouldApplyPlaybackState
  dsimp only
  rw [if_neg (not_not.2 hkey)]
  simp [normalizeRemotePlaybackState, receivedAnchor]

/-- What a follower plays after a state it has taken over. -/
theorem followPlaybackState_playbackState {m : MusicState} {state : PlaybackState} {r : Int}
    (h : shouldApplyPlaybackState m.playbackState (normalizeRemotePlaybackState state r) = true) :
    (m.followPlaybackState state r).playbackState =
      some (normalizeRemotePlaybackState state r) := by
  unfold MusicState.followPlaybackState
  rw [if_pos h]
  exact removeStarted_playbackState m _

/-- After two copies the follower plays the one with the later anchor. -/
theorem followPlaybackState_twice {m : MusicState} {state : PlaybackState} {r₁ r₂ : Int}
    (h : shouldApplyPlaybackState m.playbackState (normalizeRemotePlaybackState state r₁) = true)
    (htimes : r₁ ≤ r₂) :
    ((m.followPlaybackState state r₁).followPlaybackState state r₂).playbackState =
      some (normalizeRemotePlaybackState state r₂) := by
  have hfirst := followPlaybackState_playbackState h
  by_cases hlater : receivedAnchor state r₁ < receivedAnchor state r₂
  · refine followPlaybackState_playbackState ?_
    rw [hfirst, shouldApplyPlaybackState_again]
    exact decide_eq_true hlater
  · have hsame : receivedAnchor state r₁ = receivedAnchor state r₂ :=
      le_antisymm (receivedAnchor_mono state htimes) (not_lt.1 hlater)
    have hstate : normalizeRemotePlaybackState state r₁ =
        normalizeRemotePlaybackState state r₂ := by
      change { state with anchorTimeMicros := receivedAnchor state r₁ } =
        { state with anchorTimeMicros := receivedAnchor state r₂ }
      rw [hsame]
    have hrefused : ¬ shouldApplyPlaybackState (m.followPlaybackState state r₁).playbackState
        (normalizeRemotePlaybackState state r₂) = true := by
      rw [hfirst, shouldApplyPlaybackState_again, decide_eq_true_eq]
      exact hlater
    rw [MusicState.followPlaybackState, if_neg hrefused, hfirst, hstate]

/-- The second copy leaves the position at a later time as it is exactly when as many whole
milliseconds have gone by since either copy, or the track is over. -/
theorem redelivered_position_iff {m : MusicState} {state : PlaybackState} {r₁ r₂ t : Int}
    (hplaying : state.playing = true) (hrate : state.rate = 1)
    (haccepted : shouldApplyPlaybackState m.playbackState
      (normalizeRemotePlaybackState state r₁) = true)
    (htimes : r₁ ≤ r₂) :
    (((m.followPlaybackState state r₁).followPlaybackState state r₂).playbackState.map
        (playbackPositionMs · t) =
      (m.followPlaybackState state r₁).playbackState.map (playbackPositionMs · t)) ↔
      elapsedMs state r₂ t = elapsedMs state r₁ t ∨
        lastPositionMs state ≤ state.positionMs + elapsedMs state r₂ t := by
  have hless : elapsedMs state r₂ t ≤ elapsedMs state r₁ t := elapsedMs_anti state htimes t
  rw [followPlaybackState_twice haccepted htimes, followPlaybackState_playbackState haccepted,
    Option.map_some, Option.map_some, Option.some_inj,
    playbackPositionMs_received hplaying hrate, playbackPositionMs_received hplaying hrate]
  omega

/-- A leader's state half a minute into a track of four minutes, stamped at ten seconds. -/
def halfMinuteIn : PlaybackState where
  sessionId := "a:1"
  leaderPeerId := "a"
  track := some {
    trackId := "BV1:0"
    sourceKind := "bilibili"
    bvid := "BV1"
    part := 0
    durationMs := 240000 }
  trackRequestedBy := some "a"
  stateVersion := 1
  issuedAtMicros := 10000000
  playing := true
  positionMs := 30000
  anchorTimeMicros := 10000000
  rate := 1

/-- A copy that comes half a millisecond after the first leaves the position. -/
theorem redelivered_position_iff_sameMillisecond :
    ((MusicState.new.followPlaybackState halfMinuteIn 10000000).followPlaybackState halfMinuteIn
        10000500).playbackState.map (playbackPositionMs · 11000900) =
      (MusicState.new.followPlaybackState halfMinuteIn 10000000).playbackState.map
        (playbackPositionMs · 11000900) :=
  (redelivered_position_iff (m := .new) rfl rfl rfl (by decide)).2 (.inl (by decide))

/-- The leader's snapshot repeats the state eight tenths of a second later: the follower goes back
by that time. -/
theorem redelivered_state_rewinds :
    let once := finalState (applyWireMessage (.plain 10000000) "a" (.playbackState halfMinuteIn))
      (Backend.new "b" ∅ false 0)
    let twice := finalState (applyWireMessage (.plain 10800000) "a" (.playbackState halfMinuteIn))
      once
    once.music.playbackState.map (playbackPositionMs · 11000000) = some 31000 ∧
      twice.music.playbackState.map (playbackPositionMs · 11000000) = some 30200 := by
  intro once twice
  have honce : once.music.playbackState =
      some (normalizeRemotePlaybackState halfMinuteIn 10000000) := by decide
  have htwice : twice.music.playbackState =
      some (normalizeRemotePlaybackState halfMinuteIn 10800000) := by decide
  rw [honce, htwice, Option.map_some, Option.map_some,
    playbackPositionMs_received rfl rfl, playbackPositionMs_received rfl rfl]
  decide

end LightEar
