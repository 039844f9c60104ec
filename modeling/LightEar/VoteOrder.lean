import LightEar.Backend.Moves

/-!
# What a passed vote replaces

An executed playback vote stores a state stamped with the time at which the vote was proposed.
Meanwhile the leader has gone on stamping the current state once a second.  The state a vote
stores therefore supersedes the one it finds exactly when that one was last stamped before the
proposal; a single refresh during the voting window is enough for the old state to win.

The order key of the stored state is read off the two operations that execute a vote, and the
history of executions carries it through every run.
-/

namespace LightEar

/-! ## Superseding -/

/-- One playback state takes the place of another everywhere: whoever holds the old one takes the
new one, and whoever holds the new one refuses the old. -/
structure Supersedes (prev next : PlaybackState) : Prop where
  /-- The new state has the greater key. -/
  key : playbackOrderKey prev < playbackOrderKey next
  /-- Holders of the old state take the new one. -/
  applies : shouldApplyPlaybackState (some prev) next = true
  /-- Holders of the new state refuse the old one. -/
  refused : shouldApplyPlaybackState (some next) prev = false

/-- Superseding is a matter of order keys. -/
theorem supersedes_iff {prev next : PlaybackState} :
    Supersedes prev next ↔ playbackOrderKey prev < playbackOrderKey next :=
  ⟨fun h => h.key,
    fun h => ⟨h, shouldApplyPlaybackState_of_lt h, shouldApplyPlaybackState_of_gt h⟩⟩

instance (prev next : PlaybackState) : Decidable (Supersedes prev next) :=
  decidable_of_iff _ supersedes_iff.symm

/-- The state that a vote replaces was last stamped before the proposal was made; between equal
stamps, by a lower version than the one the vote gives, or by the lesser peer. -/
def Execution.StampedBefore (e : Execution) (prev : PlaybackState) : Prop :=
  prev.issuedAtMicros < e.proposal.createdAtMicros ∨
    prev.issuedAtMicros = e.proposal.createdAtMicros ∧
      (prev.stateVersion < microsToVersion e.proposal.createdAtMicros ∨
        prev.stateVersion = microsToVersion e.proposal.createdAtMicros ∧
          prev.leaderPeerId < e.actor)

/-! ## The key of an executed vote -/

/-- The execution of a vote over a state stores a state whose key is the time of the proposal,
the version made from it, and the peer in whose name it is executed. -/
theorem MusicOp.Executes.orderKey {proposal : VoteProposal} {actor : PeerId} {op : MusicOp}
    (h : op.Executes proposal actor) {m : MusicState} {prev : PlaybackState}
    (hprev : m.playbackState = some prev) :
    ∃ next, (op.apply m).playbackState = some next ∧
      playbackOrderKey next =
        ⟨proposal.createdAtMicros, microsToVersion proposal.createdAtMicros, actor⟩ := by
  rcases h with rfl | rfl
  · refine ⟨MusicState.pausedForVote actor proposal.createdAtMicros
      (microsToVersion proposal.createdAtMicros) prev, ?_, rfl⟩
    refine (MusicState.pausePlaybackForVote_playbackState m actor _).trans ?_
    rw [hprev, Option.map_some]
  · exact ⟨_, MusicState.stopCurrentPlaybackForVote_playbackState m actor _, rfl⟩

/-- An execution as it happened on some music state. -/
def Execution.Faithful (e : Execution) : Prop :=
  ∃ (m : MusicState) (op : MusicOp), op.Executes e.proposal e.actor ∧
    e.prev = m.playbackState ∧ e.next = (op.apply m).playbackState

/-- Every recorded execution happened as it is recorded. -/
theorem Backend.Reachable.executions_faithful {b : Backend} (hb : b.Reachable) :
    ∀ e ∈ b.executions, e.Faithful := by
  refine hb.invariant (P := Sound) (I := fun b => ∀ e ∈ b.executions, e.Faithful) ?_ ?_
  · intro _ _ _ _ e he
    cases he
  · rintro b b' ⟨action, hP, hdoes⟩ hI
    cases action with
    | execute proposal actor op =>
      cases hdoes
      intro e he
      rcases List.mem_append.1 he with he | he
      · exact hI e he
      · rw [List.mem_singleton.1 he]
        exact ⟨b.music, op, hP, rfl, rfl⟩
    | aside =>
      rw [hdoes.executions]
      exact hI
    | music op => cases hdoes; exact hI
    | coordinate op => cases hdoes; exact hI
    | publish message outcome => cases hdoes; exact hI
    | settle operation state => cases hdoes; exact hI

/-! ## One clock for the room -/

/-- Every reading of the environment is the given one. -/
def Env.ReadsAt (env : Env) (micros : Int) : Prop := ∀ site, env.clock site = micros

/-- The wall-clock stamp that a message carries. -/
def WireMessage.stamp : WireMessage → Option Int
  | playbackState state | playbackPrepare state _ => some state.issuedAtMicros
  | queueState state | queueResponse _ state => some state.updatedAtMicros
  | queueSummary _ _ updatedAtMicros => some updatedAtMicros
  | voteProposal proposal => some proposal.createdAtMicros
  | _ => none

/-- An event at a time of a clock that all peers share: the local readings show that time, and
what comes from others was stamped no later. -/
def Event.TakesPlaceAt (micros : Int) : Event → Prop
  | .command env _ | .musicSync env | .connectionEstablished env _ | .connectionClosed env _ _
  | .slowPeer env _ => env.ReadsAt micros
  | .musicLocal env events =>
    (∀ phase, (env phase).ReadsAt micros) ∧ ∀ event ∈ events, event.1.ReadsAt micros
  | .wire env _ message => env.ReadsAt micros ∧ ∀ stamp ∈ message.stamp, stamp ≤ micros

/-- A run of a peer in a room whose clocks agree and never go back. -/
def Clocked (events : List Event) : Prop :=
  ∃ times : List Int, times.Pairwise (· ≤ ·) ∧ List.Forall₂ Event.TakesPlaceAt times events

/-- A pause that another peer proposes two seconds in. -/
def pauseProposal : VoteProposal where
  voteId := "vote"
  proposer := "peer"
  action := .pause
  queueVersion := 3
  playbackSessionId := some "leader:1000000:x:0"
  createdAtMicros := 2000000

/-- The leader starts a track at one second, hears of the proposal, refreshes its state at three
seconds as it does every second, and votes yes at four seconds. -/
def refreshDuringVote : List Event := [
  .command (.plain 1000000) (.enqueueBilibili "x" 1),
  .connectionEstablished (.plain 1500000) "peer",
  .wire (.plain 2000000) "peer" (.voteProposal pauseProposal),
  .musicSync (.plain 3000000),
  .command (.plain 4000000) (.vote true)]

/-- The state of the leader as refreshed during the vote. -/
def refreshedState : PlaybackState where
  sessionId := "leader:1000000:x:0"
  leaderPeerId := "leader"
  track := some ⟨"x:0", "bilibili", "x", 0, 240000⟩
  trackRequestedBy := some "leader"
  stateVersion := 1
  issuedAtMicros := 3000000
  playing := true
  positionMs := 500
  anchorTimeMicros := 3000000
  rate := 1

/-- The execution of the pause over the refreshed state. -/
def pauseAfterRefresh : Execution where
  proposal := pauseProposal
  actor := "peer"
  prev := some refreshedState
  next := some (MusicState.pausedForVote "peer" 2000000 2000000 refreshedState)

theorem refreshDuringVote_clocked : Clocked refreshDuringVote := by
  refine ⟨[1000000, 1500000, 2000000, 3000000, 4000000], by decide, ?_⟩
  refine .cons (fun _ => rfl) (.cons (fun _ => rfl) (.cons ⟨fun _ => rfl, ?_⟩
    (.cons (fun _ => rfl) (.cons (fun _ => rfl) .nil))))
  decide

/-! ## Main result -/

/-- In every run, an executed vote supersedes the state it finds exactly when that state was last
stamped before the proposal. -/
theorem vote_supersedes_iff_stampedBefore {b : Backend} (hb : b.Reachable) {e : Execution}
    (he : e ∈ b.executions) {prev : PlaybackState} (hprev : e.prev = some prev) :
    ∃ next, e.next = some next ∧ (Supersedes prev next ↔ e.StampedBefore prev) := by
  obtain ⟨m, op, hop, hm, hnext⟩ := hb.executions_faithful e he
  obtain ⟨next, hstored, hkey⟩ := hop.orderKey (hm.symm.trans hprev)
  refine ⟨next, hnext.trans hstored, ?_⟩
  rw [supersedes_iff, hkey]
  rfl

/-- The main result at the refresh during the vote: neither side of the equivalence holds. -/
theorem vote_supersedes_iff_stampedBefore_refresh :
    ∃ next, pauseAfterRefresh.next = some next ∧
      (Supersedes refreshedState next ↔ pauseAfterRefresh.StampedBefore refreshedState) :=
  vote_supersedes_iff_stampedBefore (b := (Backend.new "leader" ∅ false 0).run refreshDuringVote)
    ⟨"leader", ∅, false, 0, refreshDuringVote, rfl⟩ (e := pauseAfterRefresh) (by decide +kernel) rfl

/-- A refresh during the vote is not superseded, although all clocks agree. -/
theorem refreshed_state_outlives_vote :
    ¬ ∀ (localPeerId : PeerId) (rendezvousNodes : Finset PeerId) (audioPlayer : Bool)
        (retry : Instant) (events : List Event), Clocked events →
      ∀ e ∈ ((Backend.new localPeerId rendezvousNodes audioPlayer retry).run events).executions,
        ∀ prev ∈ e.prev, ∃ next ∈ e.next, Supersedes prev next := by
  intro h
  have hrun := h "leader" ∅ false 0 refreshDuringVote refreshDuringVote_clocked
  revert hrun
  decide

end LightEar
