import LightEar.Backend.Step

/-!
# Who may cancel

A buffer operation and a playback belong to the peer that leads them, and a peer that takes one of
them back says so in a message.  The message names its sender as the leader, and the sender is
checked (`validateWireSource`).  What is not checked is that this leader is the one of the
operation or session that the message names: the first is found by its identifier alone, the
second by its session alone.

Hence a cancellation is harmless exactly if it comes from the leader of what it names, or names
nothing that is there (`only_leader_cancels_iff`).
-/

namespace LightEar

open Foundation

/-! ## The player -/

/-- What the audio player has loaded. -/
structure LoadedPlayer where
  /-- The track. -/
  trackId : Option String
  /-- The session it is loaded for. -/
  sessionId : Option String
  /-- Whether there is anything to play: a stream or decoded audio. -/
  audio : Bool
  /-- The position at the last start. -/
  positionMs : Nat
  /-- When that start was. -/
  startedAtMicros : Int
  /-- Whether it runs. -/
  playing : Bool
  deriving DecidableEq, Repr

/-- The player after everything is dropped. -/
def LoadedPlayer.stop (_player : LoadedPlayer) : LoadedPlayer where
  trackId := none
  sessionId := none
  audio := false
  positionMs := 0
  startedAtMicros := 0
  playing := false

/-- A backend and its player, if an audio output is open. -/
structure Listening where
  /-- The backend. -/
  backend : Backend
  /-- The player. -/
  player : Option LoadedPlayer

/-! ## Cancellations -/

/-- The two messages that take something back. -/
inductive CancelMessage where
  | playbackBufferCancel (operationId sessionId : String) (leaderPeerId : PeerId)
      (reason : String)
  | playbackCancel (sessionId : String) (leaderPeerId : PeerId) (reason : String)
  deriving DecidableEq, Repr

namespace CancelMessage

/-- The message on the wire. -/
def toWire : CancelMessage → WireMessage
  | playbackBufferCancel operationId sessionId leaderPeerId reason =>
    .playbackBufferCancel operationId sessionId leaderPeerId reason
  | playbackCancel sessionId leaderPeerId reason =>
    .playbackCancel sessionId leaderPeerId reason

/-- Whether the handler stops the player. -/
def stopsPlayer (b : Backend) : CancelMessage → Bool
  | playbackBufferCancel operationId _ _ _ => (b.buffer.cancel operationId).1.isSome
  | playbackCancel sessionId leaderPeerId _ =>
    leaderPeerId != b.localPeerId && b.music.playbackState.any (·.sessionId == sessionId)

/-- The leader of what a cancellation names, if it is there. -/
def namedLeader (b : Backend) : CancelMessage → Option PeerId
  | playbackBufferCancel operationId _ _ _ =>
    (b.buffer.active.filter (·.operationId == operationId)).map (·.state.leaderPeerId)
  | playbackCancel sessionId _ _ =>
    (b.music.playbackState.filter (·.sessionId == sessionId)).map (·.leaderPeerId)

/-- Whether a cancellation is one of a playback in the name of the local peer. -/
def isOwn (b : Backend) : CancelMessage → Bool
  | playbackBufferCancel .. => false
  | playbackCancel _ leaderPeerId _ => leaderPeerId == b.localPeerId

end CancelMessage

/-- Backend and player after a message that takes something back. -/
def Listening.applyCancel (env : Env) (source : PeerId) (message : CancelMessage)
    (s : Listening) : Listening where
  backend := finalState (applyWireMessage env source message.toWire) s.backend
  player :=
    match validateWireSource env message.toWire source with
    | .error _ => s.player
    | .ok () => if message.stopsPlayer s.backend then s.player.map (·.stop) else s.player

/-- Operation, playback state and player are as they were. -/
structure Listening.Untouched (s s' : Listening) : Prop where
  /-- The operation is as it was. -/
  operation : s'.backend.buffer.active = s.backend.buffer.active
  /-- The playback is as it was. -/
  playback : s'.backend.music.playbackPhase = s.backend.music.playbackPhase
  /-- The player is as it was. -/
  player : s'.player = s.player

/-- What is to hold of a cancellation: what it removes was led by its sender, and if what it names
is led by another peer it leaves everything as it is. -/
structure OnlyLeaderCancels (env : Env) (source : PeerId) (message : CancelMessage)
    (s : Listening) : Prop where
  /-- An operation is removed by its leader. -/
  operation : ∀ o, s.backend.buffer.active = some o →
    (s.applyCancel env source message).backend.buffer.active = none →
      peerFieldMatchesSource env o.state.leaderPeerId source = true
  /-- A playback is removed by its leader. -/
  playback : ∀ state, s.backend.music.playbackState = some state →
    (s.applyCancel env source message).backend.music.playbackState = none →
      peerFieldMatchesSource env state.leaderPeerId source = true
  /-- Nobody else touches anything. -/
  others : ∀ leader ∈ message.namedLeader s.backend,
    peerFieldMatchesSource env leader source = false →
      s.Untouched (s.applyCancel env source message)

/-- A cancellation comes from the leader of what it names, names nothing that is there, or is one
of a playback in the name of the local peer. -/
def FromNamedLeader (env : Env) (source : PeerId) (message : CancelMessage) (b : Backend) : Prop :=
  message.isOwn b = true ∨
    ∀ leader ∈ message.namedLeader b, peerFieldMatchesSource env leader source = true

/-! ## What a cancellation does -/

section

variable {env : Env} {source : PeerId} {s : Listening}

/-- What is found nowhere leaves a coordinator as it is, and does not stop the player. -/
theorem BufferCoordinator.cancel_of_not_named {c : BufferCoordinator} {operationId : String}
    (h : c.active.filter (·.operationId == operationId) = none) :
    c.cancel operationId = (none, c) := by
  unfold cancel takeIf
  refine if_neg ?_
  cases hactive : c.active with
  | none => simp
  | some o =>
    rw [hactive] at h
    simpa using h

/-- What is found is dropped. -/
theorem BufferCoordinator.cancel_of_named {c : BufferCoordinator} {operationId : String}
    {o : BufferOperation} (h : c.active.filter (·.operationId == operationId) = some o) :
    c.active = some o ∧ c.cancel operationId = (some o, ⟨none⟩) := by
  obtain ⟨hactive, hid⟩ := Option.filter_eq_some_iff.1 h
  refine ⟨hactive, ?_⟩
  unfold cancel takeIf
  rw [hactive]
  exact if_pos hid

/-- The backend after a cancellation of an operation that has passed the check. -/
theorem applyCancel_buffer {operationId sessionId reason : String} {leaderPeerId : PeerId}
    (hsource : validateWireSource env
      (.playbackBufferCancel operationId sessionId leaderPeerId reason) source = .ok ()) :
    s.applyCancel env source (.playbackBufferCancel operationId sessionId leaderPeerId reason) =
      ⟨s.backend.changeBuffer (.cancel operationId),
        if (s.backend.buffer.cancel operationId).1.isSome then s.player.map (·.stop)
        else s.player⟩ := by
  unfold Listening.applyCancel applyWireMessage CancelMessage.toWire
  dsimp only
  rw [hsource]
  rfl

/-- The backend after a cancellation of a playback that has passed the check. -/
theorem applyCancel_playback {sessionId reason : String} {leaderPeerId : PeerId}
    (hsource : validateWireSource env
      (.playbackCancel sessionId leaderPeerId reason) source = .ok ()) :
    s.applyCancel env source (.playbackCancel sessionId leaderPeerId reason) =
      if leaderPeerId = s.backend.localPeerId then s
      else
        ⟨s.backend.changeMusic (.cancelPlayback sessionId),
          if s.backend.music.playbackState.any (·.sessionId == sessionId) then
            s.player.map (·.stop)
          else s.player⟩ := by
  have hstops : (CancelMessage.playbackCancel sessionId leaderPeerId reason).stopsPlayer s.backend =
      (leaderPeerId != s.backend.localPeerId &&
        s.backend.music.playbackState.any (·.sessionId == sessionId)) := rfl
  unfold Listening.applyCancel applyWireMessage
  dsimp only [CancelMessage.toWire]
  rw [hsource]
  dsimp only [handleWireMessage, handlePlaybackCancel]
  rw [finalState_get_bind, hstops]
  by_cases hlocal : leaderPeerId = s.backend.localPeerId
  · have hown : (leaderPeerId != s.backend.localPeerId) = false := by simp [hlocal]
    rw [if_pos hlocal, if_neg (not_not.2 hlocal), hown, Bool.false_and]
    rfl
  · have hother : (leaderPeerId != s.backend.localPeerId) = true := by simpa using hlocal
    rw [if_neg hlocal, if_pos hlocal, hother, Bool.true_and]
    rfl

/-- Forgetting a session that is not current changes nothing. -/
theorem MusicState.cancelPlayback_of_not_current {m : MusicState} {sessionId : String}
    (h : m.playbackState.filter (·.sessionId == sessionId) = none) :
    m.playbackState.any (·.sessionId == sessionId) = false ∧ m.cancelPlayback sessionId = m := by
  have hany : m.playbackState.any (·.sessionId == sessionId) = false := by
    cases hstate : m.playbackState with
    | none => rfl
    | some state =>
      rw [hstate] at h
      simpa using h
  refine ⟨hany, ?_⟩
  unfold cancelPlayback
  rw [hany]
  rfl

/-- Forgetting the current session leaves nothing playing. -/
theorem MusicState.cancelPlayback_of_current {m : MusicState} {sessionId : String}
    {state : PlaybackState}
    (h : m.playbackState.filter (·.sessionId == sessionId) = some state) :
    m.playbackState = some state ∧ (m.cancelPlayback sessionId).playbackState = none := by
  obtain ⟨hstate, hsession⟩ := Option.filter_eq_some_iff.1 h
  refine ⟨hstate, ?_⟩
  unfold cancelPlayback
  rw [hstate, Option.any_some, if_pos hsession]
  rfl

/-! ## Who may cancel -/

/-- What touches nothing is in order, whoever it comes from. -/
theorem OnlyLeaderCancels.of_untouched {message : CancelMessage}
    (h : s.Untouched (s.applyCancel env source message)) :
    OnlyLeaderCancels env source message s where
  operation o hactive hgone := by
    rw [h.operation, hactive] at hgone
    cases hgone
  playback state hstate hgone := by
    unfold MusicState.playbackState at hgone
    rw [h.playback] at hgone
    exact absurd (hstate.symm.trans hgone) (Option.some_ne_none state)
  others _ _ _ := h

/-- A cancellation of an operation is in order exactly if its sender leads what it names. -/
theorem only_leader_cancels_buffer_iff {operationId sessionId reason : String}
    {leaderPeerId : PeerId} (hsource : validateWireSource env
      (.playbackBufferCancel operationId sessionId leaderPeerId reason) source = .ok ()) :
    OnlyLeaderCancels env source
        (.playbackBufferCancel operationId sessionId leaderPeerId reason) s ↔
      ∀ leader ∈ (s.backend.buffer.active.filter (·.operationId == operationId)).map
        (·.state.leaderPeerId), peerFieldMatchesSource env leader source = true := by
  have hafter := applyCancel_buffer (s := s) hsource
  cases hnamed : s.backend.buffer.active.filter (·.operationId == operationId) with
  | none =>
    have hcancel := BufferCoordinator.cancel_of_not_named hnamed
    have hsame : (s.backend.changeBuffer (.cancel operationId)).buffer = s.backend.buffer :=
      congrArg Prod.snd hcancel
    rw [hcancel] at hafter
    refine ⟨fun _ => nofun, fun _ => .of_untouched ?_⟩
    rw [hafter]
    exact ⟨congrArg _ hsame, rfl, rfl⟩
  | some o =>
    obtain ⟨hactive, hcancel⟩ := BufferCoordinator.cancel_of_named hnamed
    have hgone : (s.backend.changeBuffer (.cancel operationId)).buffer = ⟨none⟩ :=
      congrArg Prod.snd hcancel
    rw [Option.map_some]
    refine ⟨fun h leader hleader => ?_, fun h => ⟨fun o' hactive' _ => ?_,
      fun state hstate hnone => ?_, fun leader hleader hother => ?_⟩⟩
    · cases hleader
      refine h.operation o hactive ?_
      rw [hafter, hgone]
    · rw [hactive] at hactive'
      cases hactive'
      exact h _ rfl
    · rw [hafter] at hnone
      exact absurd (hstate.symm.trans hnone) nofun
    · unfold CancelMessage.namedLeader at hleader
      dsimp only at hleader
      rw [hnamed] at hleader
      exact absurd (h leader hleader) (Bool.eq_false_iff.1 hother)

/-- A cancellation of a playback is in order exactly if its sender leads what it names, or it is
one in the name of the local peer. -/
theorem only_leader_cancels_playback_iff {sessionId reason : String} {leaderPeerId : PeerId}
    (hsource : validateWireSource env (.playbackCancel sessionId leaderPeerId reason) source =
      .ok ()) :
    OnlyLeaderCancels env source (.playbackCancel sessionId leaderPeerId reason) s ↔
      leaderPeerId = s.backend.localPeerId ∨
        ∀ leader ∈ (s.backend.music.playbackState.filter (·.sessionId == sessionId)).map
          (·.leaderPeerId), peerFieldMatchesSource env leader source = true := by
  have hafter := applyCancel_playback (s := s) hsource
  by_cases hlocal : leaderPeerId = s.backend.localPeerId
  · rw [if_pos hlocal] at hafter
    refine ⟨fun _ => .inl hlocal, fun _ => .of_untouched ?_⟩
    rw [hafter]
    exact ⟨rfl, rfl, rfl⟩
  · rw [if_neg hlocal] at hafter
    cases hnamed : s.backend.music.playbackState.filter (·.sessionId == sessionId) with
    | none =>
      obtain ⟨hany, hsame⟩ := MusicState.cancelPlayback_of_not_current hnamed
      rw [hany] at hafter
      have hmusic : (s.backend.changeMusic (.cancelPlayback sessionId)).music = s.backend.music :=
        hsame
      refine ⟨fun _ => .inr nofun, fun _ => .of_untouched ?_⟩
      rw [hafter]
      exact ⟨rfl, congrArg _ hmusic, rfl⟩
    | some state =>
      obtain ⟨hstate, hnone⟩ := MusicState.cancelPlayback_of_current hnamed
      rw [Option.map_some]
      refine ⟨fun h => .inr fun leader hleader => ?_, fun h => ⟨fun o hactive hgone => ?_,
        fun state' hstate' _ => ?_, fun leader hleader hother => ?_⟩⟩
      · cases hleader
        refine h.playback state hstate ?_
        rw [hafter]
        exact hnone
      · rw [hafter] at hgone
        exact absurd (hactive.symm.trans hgone) nofun
      · rw [hstate] at hstate'
        cases hstate'
        exact (h.resolve_left hlocal) _ rfl
      · unfold CancelMessage.namedLeader at hleader
        dsimp only at hleader
        rw [hnamed] at hleader
        exact absurd ((h.resolve_left hlocal) leader hleader) (Bool.eq_false_iff.1 hother)

/-- In every state, a cancellation that has passed the check of its sender is in order exactly if
it comes from the leader of what it names, names nothing that is there, or is one of a playback in
the name of the local peer. -/
theorem only_leader_cancels_iff (env : Env) (source : PeerId) (message : CancelMessage)
    (s : Listening) (hsource : validateWireSource env message.toWire source = .ok ()) :
    OnlyLeaderCancels env source message s ↔ FromNamedLeader env source message s.backend := by
  cases message with
  | playbackBufferCancel operationId sessionId leaderPeerId reason =>
    refine (only_leader_cancels_buffer_iff hsource).trans ⟨.inr, fun h => ?_⟩
    exact h.resolve_left nofun
  | playbackCancel sessionId leaderPeerId reason =>
    refine (only_leader_cancels_playback_iff hsource).trans (or_congr_left ?_)
    exact beq_iff_eq.symm

end

/-! ## A stranger's cancellation -/

/-- A state that `ann` leads. -/
def annsState : PlaybackState where
  sessionId := "session"
  leaderPeerId := "ann"
  track := some ⟨"track", "bilibili", "bv", 1, 240000⟩
  trackRequestedBy := some "ann"
  stateVersion := 1
  issuedAtMicros := 0
  playing := true
  positionMs := 0
  anchorTimeMicros := 0
  rate := 1

/-- A peer `bob` that follows an operation of `ann` and has a player. -/
def bobListening : Listening where
  backend := (Backend.new "bob" ∅ true 0).changeBuffer
    (.receiveRemote "operation" annsState .start ∅ 0 0)
  player := some ⟨some "track", some "session", true, 0, 0, true⟩

/-- The cancellation that a third peer sends, as the leader it is not. -/
def cyrilsCancel : CancelMessage := .playbackBufferCancel "operation" "session" "cyril" "stop"

/-- It passes the check of its sender. -/
theorem cyrilsCancel_valid :
    validateWireSource (.plain 0) cyrilsCancel.toWire "cyril" = .ok () := by
  decide

/-- It drops the operation and stops the player. -/
theorem not_only_leader_cancels :
    validateWireSource (.plain 0) cyrilsCancel.toWire "cyril" = .ok () ∧
      ¬ OnlyLeaderCancels (.plain 0) "cyril" cyrilsCancel bobListening := by
  refine ⟨cyrilsCancel_valid, fun h => ?_⟩
  have hleads := h.operation _ rfl rfl
  exact absurd hleads (by decide)

/-- Cyril cancels by right exactly if it is the leader of what Bob has in progress. -/
theorem cyrils_cancel_iff :
    OnlyLeaderCancels (.plain 0) "cyril" cyrilsCancel bobListening ↔
      FromNamedLeader (.plain 0) "cyril" cyrilsCancel bobListening.backend :=
  only_leader_cancels_iff _ _ _ _ cyrilsCancel_valid

end LightEar
