import LightEar.PlaybackClock

/-!
# What the leader loses by moving the anchor

Once a second the leader moves a running state to its present position.  Positions are whole
milliseconds and anchors are microseconds, so what is left over of a millisecond at each tick is
dropped, and the losses add up (`Drift`).

After any ticks the state reports positions that are at most one millisecond behind those of the
state that was never moved exactly if no more than a millisecond has been lost in all, or the end
of the track hides the rest (`reAnchored_within_one_iff`).
-/

namespace LightEar

open Foundation

/-! ## The loss -/

/-- Where the anchor is after some ticks, and what has become of the time since the first one. -/
structure Drift where
  /-- The anchor. -/
  anchor : Int
  /-- The whole milliseconds that have been added to the position. -/
  countedMs : Nat
  /-- The microseconds that have been dropped. -/
  lostMicros : Nat
  deriving DecidableEq, Repr

namespace Drift

/-- One tick: a start that is still ahead is left alone. -/
def tick (d : Drift) (now : Int) : Drift :=
  if now < d.anchor then d
  else {
    anchor := now
    countedMs := d.countedMs + ((now - d.anchor) / 1000).toNat
    lostMicros := d.lostMicros + ((now - d.anchor) % 1000).toNat }

/-- The ticks of a run, from an anchor on. -/
def after (anchor : Int) (ticks : List Int) : Drift := ticks.foldl tick ⟨anchor, 0, 0⟩

theorem after_concat (anchor : Int) (ticks : List Int) (now : Int) :
    after anchor (ticks ++ [now]) = (after anchor ticks).tick now := List.foldl_concat ..

theorem tick_of_lt {d : Drift} {now : Int} (h : now < d.anchor) : d.tick now = d := if_pos h

theorem tick_of_le {d : Drift} {now : Int} (h : d.anchor ≤ now) :
    d.tick now = ⟨now, d.countedMs + ((now - d.anchor) / 1000).toNat,
      d.lostMicros + ((now - d.anchor) % 1000).toNat⟩ := if_neg (not_lt.2 h)

/-- The time since the first anchor is counted or lost. -/
theorem after_anchor (anchor : Int) (ticks : List Int) :
    (after anchor ticks).anchor =
      anchor + 1000 * (after anchor ticks).countedMs + (after anchor ticks).lostMicros := by
  induction ticks using List.reverseRecOn with
  | nil => simp [after]
  | append_singleton ticks now ih =>
    rw [after_concat]
    rcases lt_or_ge now (after anchor ticks).anchor with hahead | hbehind
    · rw [tick_of_lt hahead, ih]
    · rw [tick_of_le hbehind]
      dsimp only
      push_cast
      omega

/-- No tick is later than the anchor it leaves. -/
theorem le_after_anchor {anchor now : Int} {ticks : List Int} (h : now ∈ ticks) :
    now ≤ (after anchor ticks).anchor := by
  induction ticks using List.reverseRecOn with
  | nil => cases h
  | append_singleton ticks last ih =>
    rw [after_concat]
    rcases lt_or_ge last (after anchor ticks).anchor with hahead | hbehind
    · rw [tick_of_lt hahead]
      rcases List.mem_append.1 h with hold | hlast
      · exact ih hold
      · rw [List.mem_singleton.1 hlast]
        exact hahead.le
    · rw [tick_of_le hbehind]
      rcases List.mem_append.1 h with hold | hlast
      · exact (ih hold).trans hbehind
      · exact (List.mem_singleton.1 hlast).le

/-- The anchor is the first one or a tick. -/
theorem after_anchor_mem (anchor : Int) (ticks : List Int) :
    (after anchor ticks).anchor = anchor ∨ (after anchor ticks).anchor ∈ ticks := by
  induction ticks using List.reverseRecOn with
  | nil => exact .inl rfl
  | append_singleton ticks last ih =>
    rw [after_concat]
    rcases lt_or_ge last (after anchor ticks).anchor with hahead | hbehind
    · rw [tick_of_lt hahead]
      exact ih.imp_right (List.mem_append_left _)
    · rw [tick_of_le hbehind]
      exact .inr (List.mem_append_right _ (List.mem_singleton_self last))

end Drift

/-! ## The state after some ticks -/

/-- A running state after some ticks: it has come as far as has been counted, up to the end. -/
structure ReAnchored (state : PlaybackState) (d : Drift) (after : PlaybackState) : Prop where
  /-- It runs. -/
  playing : after.playing = true
  /-- It runs as fast as before. -/
  rate : after.rate = 1
  /-- The track is the same. -/
  track : after.track = state.track
  /-- The leader is the same. -/
  leader : after.leaderPeerId = state.leaderPeerId
  /-- The anchor is where the ticks have left it. -/
  anchor : after.anchorTimeMicros = d.anchor
  /-- From now on both stop at the same time. -/
  position : ∀ ms, min (after.positionMs + ms) (lastPositionMs state) =
    min (state.positionMs + d.countedMs + ms) (lastPositionMs state)

variable {state : PlaybackState}

theorem ReAnchored.start (hplaying : state.playing = true) (hrate : state.rate = 1) :
    ReAnchored state ⟨state.anchorTimeMicros, 0, 0⟩ state :=
  ⟨hplaying, hrate, rfl, rfl, rfl, fun _ => rfl⟩

/-- What it reports. -/
theorem ReAnchored.position_eq {d : Drift} {after : PlaybackState} (h : ReAnchored state d after)
    (t : Int) :
    playbackPositionMs after t =
      min (state.positionMs + d.countedMs + sinceMs d.anchor t) (lastPositionMs state) := by
  have hend : lastPositionMs after = lastPositionMs state := by
    rw [lastPositionMs, lastPositionMs, h.track]
  rw [playbackPositionMs_running h.playing h.rate, hend, h.anchor, h.position]

/-- The exact number of milliseconds, where it can be told. -/
theorem sinceMs_eq {anchor t : Int} (hle : anchor ≤ t) (hread : t - anchor ≤ i64Max) :
    sinceMs anchor t = ((t - anchor) / 1000).toNat := by
  unfold sinceMs satI64
  unfold i64Min i64Max at *
  omega

/-- One tick. -/
theorem ReAnchored.refreshedState {d : Drift} {after : PlaybackState}
    (h : ReAnchored state d after) {now : Int} (hread : now - d.anchor ≤ i64Max) :
    ReAnchored state (d.tick now) (MusicState.refreshedState now after) := by
  have hmoved : (!after.playing || decide (now ≥ after.anchorTimeMicros)) =
      decide (now ≥ d.anchor) := by
    rw [h.playing, h.anchor]
    rfl
  unfold MusicState.refreshedState
  dsimp only
  rw [hmoved]
  rcases lt_or_ge now d.anchor with hahead | hbehind
  · have hnot : ¬ decide (now ≥ d.anchor) = true := by simpa using hahead
    rw [if_neg hnot, Drift.tick_of_lt hahead]
    exact ⟨h.playing, h.rate, h.track, h.leader, h.anchor, h.position⟩
  · rw [if_pos (decide_eq_true hbehind), Drift.tick_of_le hbehind]
    refine ⟨h.playing, h.rate, h.track, h.leader, rfl, fun ms => ?_⟩
    dsimp only
    rw [h.position_eq, sinceMs_eq hbehind hread]
    omega

/-! ## The leader's ticks -/

/-- The peer leads a loaded state that no preparation holds up, and it runs at rate one. -/
structure Backend.LeadsRunning (b : Backend) (state : PlaybackState) : Prop where
  /-- The state is loaded. -/
  loaded : b.music.playbackState = some state
  /-- No playback is being prepared. -/
  settled : b.music.hasPendingPlayback = false
  /-- The peer is the leader. -/
  leads : state.leaderPeerId = b.localPeerId
  /-- There is a track. -/
  track : state.track.isSome = true
  /-- It runs. -/
  playing : state.playing = true
  /-- It runs at rate one. -/
  rate : state.rate = 1

/-- The backend after some ticks. -/
def Backend.afterTicks (b : Backend) (envs : List Env) : Backend :=
  envs.foldl (fun b env => finalState (musicSyncTick env) b) b

theorem Backend.afterTicks_concat (b : Backend) (envs : List Env) (last : Env) :
    b.afterTicks (envs ++ [last]) = finalState (musicSyncTick last) (b.afterTicks envs) :=
  List.foldl_concat ..

/-- A tick refreshes the music state, and what it publishes does not change it. -/
theorem music_musicSyncTick (env : Env) (b : Backend) :
    (finalState (musicSyncTick env) b).music =
      (b.music.refreshPlaybackState b.localPeerId (env.clock .musicSync)).2 := by
  unfold musicSyncTick
  rw [finalState_get_bind, finalState_music_bind]
  split
  · rfl
  · rw [(publishPlaybackState_moves env _).music_of_offMusic]
    rfl

/-- A refresh keeps the phase of the playback. -/
theorem hasPendingPlayback_mapPlaybackState (m : MusicState) (f : PlaybackState → PlaybackState) :
    (m.mapPlaybackState f).hasPendingPlayback = m.hasPendingPlayback := by
  unfold MusicState.mapPlaybackState MusicState.hasPendingPlayback
  cases m.playbackPhase <;> rfl

/-- One tick of the leader. -/
theorem Backend.LeadsRunning.musicSyncTick {b : Backend} {state : PlaybackState}
    (h : b.LeadsRunning state) {d : Drift} {first : PlaybackState}
    (hstate : ReAnchored first d state) {env : Env}
    (hread : env.clock .musicSync - d.anchor ≤ i64Max) :
    ∃ after, (finalState (musicSyncTick env) b).LeadsRunning after ∧
      ReAnchored first (d.tick (env.clock .musicSync)) after := by
  have hmusic : (finalState (LightEar.musicSyncTick env) b).music =
      b.music.mapPlaybackState (MusicState.refreshedState (env.clock .musicSync)) := by
    rw [music_musicSyncTick, MusicState.refreshPlaybackState, h.settled, h.loaded]
    dsimp only
    rw [if_neg Bool.false_ne_true, if_pos ⟨h.leads, h.track⟩]
  have hlocal : (finalState (LightEar.musicSyncTick env) b).localPeerId = b.localPeerId :=
    Moves.localPeerId (P := CommitOnly) (musicSyncTick_moves env) b
  have hafter := hstate.refreshedState hread
  refine ⟨_, ⟨?_, ?_, ?_, ?_, hafter.playing, hafter.rate⟩, hafter⟩
  · rw [hmusic, MusicState.mapPlaybackState_playbackState, h.loaded, Option.map_some]
  · rw [hmusic, hasPendingPlayback_mapPlaybackState, h.settled]
  · rw [hlocal, hafter.leader, ← hstate.leader, h.leads]
  · rw [hafter.track, ← hstate.track, h.track]

/-- Any ticks of the leader. -/
theorem Backend.LeadsRunning.afterTicks {b : Backend} (h : b.LeadsRunning state) {envs : List Env}
    (hread : ∀ env ∈ envs, env.clock .musicSync - state.anchorTimeMicros ≤ i64Max) :
    ∃ after, (b.afterTicks envs).LeadsRunning after ∧
      ReAnchored state (.after state.anchorTimeMicros (envs.map fun env => env.clock .musicSync))
        after := by
  induction envs using List.reverseRecOn with
  | nil => exact ⟨state, h, .start h.playing h.rate⟩
  | append_singleton envs env ih =>
    obtain ⟨before, hleads, hbefore⟩ :=
      ih fun earlier hmem => hread earlier (List.mem_append_left _ hmem)
    have hlast := hread env (List.mem_append_right _ (List.mem_singleton_self env))
    have hanchor := Drift.after_anchor state.anchorTimeMicros
      (envs.map fun env => env.clock .musicSync)
    rw [Backend.afterTicks_concat, List.map_append, List.map_singleton, Drift.after_concat]
    exact hleads.musicSyncTick hbefore (by omega)

/-- For every running state that the peer leads and any ticks: at every later time the position is
at most a millisecond from the one of the state that was never moved, exactly if the ticks have
lost no more than a millisecond in all, or no more than a millisecond of the track is left after
what they have counted.  Times are read until the time since the anchor no longer fits. -/
theorem reAnchored_within_one_iff {b : Backend} (h : b.LeadsRunning state) {envs : List Env}
    (hread : ∀ env ∈ envs, env.clock .musicSync + 999 - state.anchorTimeMicros ≤ i64Max) :
    let d := Drift.after state.anchorTimeMicros (envs.map fun env => env.clock .musicSync)
    (∀ t, (∀ env ∈ envs, env.clock .musicSync ≤ t) → t - state.anchorTimeMicros ≤ i64Max →
      ∃ after, (b.afterTicks envs).music.playbackState = some after ∧
        playbackPositionMs after t ≤ playbackPositionMs state t + 1 ∧
        playbackPositionMs state t ≤ playbackPositionMs after t + 1) ↔
      d.lostMicros ≤ 1000 ∨ lastPositionMs state ≤ state.positionMs + d.countedMs + 1 := by
  intro d
  obtain ⟨after, hleads, hafter⟩ := h.afterTicks fun env hmem => by
    have hlast := hread env hmem
    omega
  have hanchor : d.anchor = state.anchorTimeMicros + 1000 * d.countedMs + d.lostMicros :=
    Drift.after_anchor _ _
  have hmoved : ∀ t, playbackPositionMs after t =
      min (state.positionMs + d.countedMs + sinceMs d.anchor t) (lastPositionMs state) :=
    hafter.position_eq
  have hnever : ∀ t, playbackPositionMs state t =
      min (state.positionMs + sinceMs state.anchorTimeMicros t) (lastPositionMs state) :=
    playbackPositionMs_running h.playing h.rate
  have hmem := Drift.after_anchor_mem state.anchorTimeMicros
    (envs.map fun env => env.clock .musicSync)
  constructor
  · intro hclose
    by_contra hlost
    rw [not_or, not_le, not_le] at hlost
    -- just before the first whole millisecond after the last tick the loss shows most
    have hlater : ∀ env ∈ envs, env.clock .musicSync ≤ d.anchor + 999 := by
      intro env henv
      have hle : env.clock .musicSync ≤ d.anchor := Drift.le_after_anchor (List.mem_map_of_mem henv)
      omega
    have hrange : d.anchor + 999 - state.anchorTimeMicros ≤ i64Max := by
      rcases hmem with hsame | htick
      · have hsame' : d.anchor = state.anchorTimeMicros := hsame
        unfold i64Max
        omega
      · obtain ⟨env, henv, hclock⟩ := List.mem_map.1 htick
        have hlast := hread env henv
        rw [hclock] at hlast
        exact hlast
    obtain ⟨found, hfound, -, hbehind⟩ := hclose (d.anchor + 999) hlater hrange
    obtain rfl : after = found := Option.some.inj (hleads.loaded.symm.trans hfound)
    rw [hmoved, hnever, sinceMs_eq (by omega) (by omega), sinceMs_eq (by omega) (by omega)]
      at hbehind
    omega
  · intro hkept t hlater ht
    refine ⟨after, hleads.loaded, ?_⟩
    rw [hmoved, hnever]
    rcases lt_or_ge t d.anchor with hahead | hbehind
    · -- no tick has moved the anchor
      have hsame : d.anchor = state.anchorTimeMicros := by
        refine hmem.resolve_right fun htick => ?_
        obtain ⟨env, henv, hclock⟩ := List.mem_map.1 htick
        have hle := hlater env henv
        rw [hclock] at hle
        exact absurd hahead (not_lt.2 hle)
      rw [hsame]
      omega
    · rw [sinceMs_eq hbehind (by omega), sinceMs_eq (by omega) ht]
      omega

/-- A peer that leads a track from its beginning. -/
def leadingFromStart : Backend :=
  { Backend.new "a" ∅ false 0 with
    music := MusicState.new.setPlaybackState { halfMinuteIn with positionMs := 0 } }

theorem leadsRunning_leadingFromStart :
    leadingFromStart.LeadsRunning { halfMinuteIn with positionMs := 0 } :=
  ⟨rfl, rfl, rfl, rfl, rfl, rfl⟩

/-- Three ticks that are each just short of a whole millisecond lose three of them. -/
def lateTicks : List Env := [.plain 11000999, .plain 12001998, .plain 13002997]

/-- After these the position is two milliseconds behind at the last tick. -/
theorem reAnchored_falls_behind :
    ¬ ∀ (b : Backend) (state : PlaybackState) (envs : List Env), b.LeadsRunning state →
      (envs.map fun env => env.clock .musicSync).Pairwise (· ≤ ·) →
      ∀ t, (∀ env ∈ envs, env.clock .musicSync ≤ t) → t - state.anchorTimeMicros ≤ i64Max →
        ∃ after, (b.afterTicks envs).music.playbackState = some after ∧
          playbackPositionMs after t ≤ playbackPositionMs state t + 1 ∧
          playbackPositionMs state t ≤ playbackPositionMs after t + 1 := by
  intro h
  have hread : ∀ env ∈ lateTicks, env.clock .musicSync - 10000000 ≤ i64Max := by decide
  obtain ⟨after, hleads, hafter⟩ := leadsRunning_leadingFromStart.afterTicks hread
  obtain ⟨found, hfound, -, hbehind⟩ := h leadingFromStart _ lateTicks
    leadsRunning_leadingFromStart (by decide) 13002997 (by decide) (by decide)
  obtain rfl : after = found := Option.some.inj (hleads.loaded.symm.trans hfound)
  rw [hafter.position_eq, playbackPositionMs_running rfl rfl] at hbehind
  exact absurd hbehind (by decide)

/-- A single tick loses less than a millisecond. -/
theorem reAnchored_within_one_iff_single :
    ∃ after, (leadingFromStart.afterTicks [.plain 11000999]).music.playbackState = some after ∧
      playbackPositionMs after 12000998 ≤
        playbackPositionMs { halfMinuteIn with positionMs := 0 } 12000998 + 1 ∧
      playbackPositionMs { halfMinuteIn with positionMs := 0 } 12000998 ≤
        playbackPositionMs after 12000998 + 1 := by
  have hread : ∀ env ∈ [Env.plain 11000999], env.clock .musicSync + 999 - 10000000 ≤ i64Max := by
    decide
  exact (reAnchored_within_one_iff leadsRunning_leadingFromStart hread).2 (.inl (by decide))
    12000998 (by decide) (by decide)

end LightEar
