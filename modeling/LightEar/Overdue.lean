import LightEar.TornCommit
import LightEar.VoteHistory

/-!
# Nothing stays overdue

An operation waits for its quorum until its deadline, and a vote waits for its ballots until its
own.  Only the local timer compares them with the clock.  It may extend the deadline of an
operation, drop the operation or commit it, and it may open another one right afterwards; any of
its parts may stop with an error, and the tick goes on with the next part.  However it goes, after
the tick no operation that the local peer leads is overdue, except one whose majority is ready and
whose commit has been refused, and no vote is (`tick_leaves_nothing_overdue`).

For the votes this stays so until the next tick, whatever comes in between: a vote that is opened
later ends later.
-/

namespace LightEar

open Foundation

variable {env : Env} {time : Instant} {b : Backend}

/-! ## Operations in time -/

/-- A majority of the expected peers has reported that it is ready. -/
def BufferOperation.MajorityReady (operation : BufferOperation) : Prop :=
  majorityThreshold operation.expectedPeers.card ≤ operation.count .ready

namespace Backend

/-- The operation that the local peer leads, if there is one, has a deadline ahead. -/
def InTime (time : Instant) (b : Backend) : Prop :=
  ∀ operation ∈ b.buffer.active, operation.state.leaderPeerId = b.localPeerId →
    time < operation.deadline

/-- The operation that the local peer leads, if there is one, has a deadline ahead, or its majority
is ready. -/
def Punctual (time : Instant) (b : Backend) : Prop :=
  ∀ operation ∈ b.buffer.active, operation.state.leaderPeerId = b.localPeerId →
    time < operation.deadline ∨ operation.MajorityReady

theorem InTime.punctual (h : b.InTime time) : b.Punctual time :=
  fun operation hactive hleads => .inl (h operation hactive hleads)

/-- Without an operation nothing can be late. -/
theorem inTime_of_none (h : b.buffer.active = none) (time : Instant) : b.InTime time := by
  intro operation hactive
  rw [h] at hactive
  cases hactive

/-- Whoever is punctual at a time was punctual before. -/
theorem Punctual.anti {earlier : Instant} (h : b.Punctual time) (hle : earlier ≤ time) :
    b.Punctual earlier := by
  intro operation hactive hleads
  rcases h operation hactive hleads with hahead | hready
  · exact .inl (hle.trans_lt hahead)
  · exact .inr hready

end Backend

/-! ## Programs that leave the operation alone -/

/-- Everything but a change of the coordinator. -/
def OffBuffer : Policy
  | _, .coordinate _ | _, .settle _ _ => False
  | _, _ => True

instance : AllowsMusic OffBuffer := ⟨fun _ _ => trivial⟩
instance : AllowsPublish OffBuffer := ⟨fun _ _ _ => trivial⟩
instance : AllowsAside OffBuffer := ⟨fun _ => trivial⟩

/-- A program that does not change the coordinator leaves it. -/
theorem Moves.buffer_of_offBuffer {α : Type} {m : Handler α} (hm : Moves OffBuffer m)
    (b : Backend) : (finalState m b).buffer = b.buffer := by
  refine hm.preserves (I := fun t => t.buffer = b.buffer) ?_ rfl
  rintro s t ⟨action, hP, hdoes⟩ hs
  cases action with
  | coordinate op => exact hP.elim
  | settle operation state => exact hP.elim
  | music op => cases hdoes; exact hs
  | publish message outcome => cases hdoes; exact hs
  | execute proposal actor op => cases hdoes; exact hs
  | aside => exact hdoes.buffer.trans hs

theorem Moves.keeps_inTime {α : Type} {m : Handler α} (hm : Moves OffBuffer m) :
    Keeps (Backend.InTime time) m := by
  intro b hb operation hactive hleads
  rw [hm.buffer_of_offBuffer] at hactive
  rw [hm.localPeerId] at hleads
  exact hb operation hactive hleads

theorem Moves.keeps_punctual {α : Type} {m : Handler α} (hm : Moves OffBuffer m) :
    Keeps (Backend.Punctual time) m := by
  intro b hb operation hactive hleads
  rw [hm.buffer_of_offBuffer] at hactive
  rw [hm.localPeerId] at hleads
  exact hb operation hactive hleads

/-! ## Changes that keep the deadline -/

/-- Whether a change leaves the deadline of the operation in progress where it is. -/
def CoordinatorOp.keepsDeadline : CoordinatorOp → Bool
  | markPreparePublished .. | prepareRepublishDue .. | markStatus .. => true
  | _ => false

/-- Such a change leaves an operation with the same leader and the same deadline. -/
theorem CoordinatorOp.deadline_of_keepsDeadline {op : CoordinatorOp}
    (h : op.keepsDeadline = true) {c : BufferCoordinator} {operation : BufferOperation}
    (hactive : operation ∈ (op.apply c).active) :
    ∃ earlier ∈ c.active, earlier.deadline = operation.deadline ∧
      earlier.state.leaderPeerId = operation.state.leaderPeerId := by
  cases op with
  | markPreparePublished operationId now =>
    obtain ⟨earlier, hearlier, rfl⟩ := Option.map_eq_some_iff.1 hactive
    exact ⟨earlier, hearlier, by split <;> rfl, by split <;> rfl⟩
  | prepareRepublishDue now interval =>
    simp only [apply, BufferCoordinator.prepareRepublishDue] at hactive
    split at hactive
    · exact ⟨operation, hactive, rfl, rfl⟩
    · rename_i earlier hearlier
      split at hactive
      · cases hactive
        exact ⟨earlier, hearlier, rfl, rfl⟩
      · exact ⟨operation, hactive, rfl, rfl⟩
  | markStatus operationId sessionId peerId status now =>
    simp only [apply, BufferCoordinator.markStatus] at hactive
    split at hactive
    · exact ⟨operation, hactive, rfl, rfl⟩
    · rename_i earlier hearlier
      split at hactive
      · cases hactive
        exact ⟨earlier, hearlier, rfl, rfl⟩
      · exact ⟨operation, hactive, rfl, rfl⟩
  | _ => cases h

/-- What was in time stays in time. -/
theorem coordinate_keeps_inTime {op : CoordinatorOp} (h : op.keepsDeadline = true) :
    Keeps (Backend.InTime time) (coordinate op) := by
  intro b hb operation hactive hleads
  obtain ⟨earlier, hearlier, hdeadline, hleader⟩ :=
    CoordinatorOp.deadline_of_keepsDeadline h hactive
  rw [← hdeadline]
  exact hb earlier hearlier (hleader.trans hleads)

theorem markLocalStatus_keeps_inTime (env : Env) (operationId sessionId : String)
    (status : BufferPeerStatus) :
    Keeps (Backend.InTime time) (markLocalStatus env operationId sessionId status) :=
  .get_bind fun _ => coordinate_keeps_inTime rfl

theorem publishBufferStatus_keeps_inTime (env : Env) (operationId sessionId : String)
    (status : BufferPeerStatus) :
    Keeps (Backend.InTime time) (publishBufferStatus env operationId sessionId status) :=
  (publishBufferStatus_moves env operationId sessionId status).keeps_inTime

/-! ## The look at the quorum -/

/-- With more time, the operation is in time. -/
theorem extendDeadline_inTime (env : Env) :
    Ends (Backend.InTime env.now) (extendDeadline env) := by
  intro b operation hactive hleads
  change operation ∈ b.buffer.active.map _ at hactive
  obtain ⟨earlier, -, rfl⟩ := Option.map_eq_some_iff.1 hactive
  exact Nat.lt_add_of_pos_right (by decide)

theorem waitForLocalAudio_inTime (env : Env) (operation : BufferOperation)
    (alreadyBuffering : Bool) :
    Ends (Backend.InTime env.now) (waitForLocalAudio env operation alreadyBuffering) := by
  refine .ite (extendDeadline_inTime env) ?_
  refine .returns_bind (markLocalStatus_returns env _ _ _) fun _ => ?_
  exact .returns_bind (publishBufferStatus_returns env _ _ _) fun _ => extendDeadline_inTime env

theorem waitForReload_inTime (env : Env) (operation : BufferOperation)
    (alreadyBuffering : Bool) :
    Ends (Backend.InTime env.now) (waitForReload env operation alreadyBuffering) := by
  refine .returns_bind (markLocalStatus_returns env _ _ _) fun _ => ?_
  refine .ite (extendDeadline_inTime env) ?_
  exact .returns_bind (publishBufferStatus_returns env _ _ _) fun _ => extendDeadline_inTime env

/-- A look at a ready quorum waits with more time, or commits, or leaves the operation ready. -/
theorem resolveReady_punctual {operation : BufferOperation}
    (hactive : b.buffer.active = some operation) (hready : operation.MajorityReady) :
    (finalState (resolveReady env operation) b).Punctual env.now := by
  unfold resolveReady
  rw [finalState_get_bind]
  dsimp only
  split
  · exact (waitForLocalAudio_inTime env operation _ b).punctual
  · rw [finalState_bind]
    have hframe := (commitBufferOperation_moves (P := CommitOnly) env operation).commitOnly_frame
      (b := b) rfl
    cases hcommit : commitBufferOperation env operation b with
    | error error t =>
      rw [finalState_of_error hcommit] at hframe
      intro o ho _
      rw [hframe.2.1, hactive] at ho
      cases ho
      exact .inr hready
    | ok result t =>
      rw [finalState_of_ok hcommit] at hframe
      cases result with
      | none => exact (waitForReload_inTime env operation _ t).punctual
      | some state =>
        refine (Backend.inTime_of_none ?_ env.now).punctual
        change (t.buffer.cancel operation.operationId).2.active = none
        simp [BufferCoordinator.cancel, BufferCoordinator.takeIf, hframe.2.1, hactive]

/-- Giving an operation up leaves none. -/
theorem cancelOperation_inTime (env : Env) (operation : BufferOperation) (reason : String) :
    Ends (Backend.InTime time) (cancelOperation env operation reason) := by
  have hclear : Ends (Backend.InTime time) (coordinate .clear) :=
    fun b => Backend.inTime_of_none rfl time
  refine hclear.bind_keeps fun _ => .get_bind fun b => ?_
  exact (publishRoomWire_moves (P := OffBuffer) env _).keeps_inTime

theorem resolveImpossible_inTime (env : Env) (operation : BufferOperation) :
    Ends (Backend.InTime time) (resolveImpossible env operation) := by
  refine (cancelOperation_inTime env operation _).bind_keeps fun _ => Moves.keeps_inTime ?_
  refine .get_bind fun b => .ite ?_ (consumeStartItem_moves (P := OffBuffer) env operation)
  exact .bind (insertFailedAudioSession_moves _) fun _ => consumeStartItem_moves env operation

/-- An operation whose time is up gets more time or is given up. -/
theorem resolveTimedOut_inTime (env : Env) (operation : BufferOperation) :
    Ends (Backend.InTime env.now) (resolveTimedOut env operation) := by
  refine .get_bind fun b => ?_
  split
  · refine (extendDeadline_inTime env).bind_keeps fun _ => ?_
    refine .bind (tryPublish_moves (P := OffBuffer) env _).keeps_inTime fun _ => ?_
    refine .bind (coordinate_keeps_inTime rfl) fun _ => ?_
    exact publishBufferStatus_keeps_inTime env _ _ _
  · refine (cancelOperation_inTime env operation _).bind_keeps fun _ => ?_
    exact (consumeStartItem_moves (P := OffBuffer) env operation).keeps_inTime

/-- Asking the room again leaves the deadline. -/
theorem resolveWaiting_keeps_inTime (env : Env) :
    Keeps (Backend.InTime time) (resolveWaiting env) := by
  refine .get_bind fun b => ?_
  split
  · exact .pure _
  · exact .bind (coordinate_keeps_inTime rfl) fun _ =>
      (tryPublish_moves (P := OffBuffer) env _).keeps_inTime

/-- An operation that can still wait has a deadline ahead. -/
theorem BufferOperation.lt_deadline_of_waiting {operation : BufferOperation} {now : Instant}
    {ready buffering failed threshold : Nat}
    (h : operation.quorum now = .waiting ready buffering failed threshold) :
    now < operation.deadline := by
  unfold BufferOperation.quorum at h
  dsimp only at h
  split_ifs at h with hready hlate
  exact not_le.1 hlate

/-- After a look nothing that the local peer leads is overdue. -/
theorem resolveBufferOperation_punctual (env : Env) :
    Ends (Backend.Punctual env.now) (resolveBufferOperation env) := by
  intro b
  unfold resolveBufferOperation
  rw [finalState_get_bind]
  cases hactive : b.buffer.active with
  | none => exact (Backend.inTime_of_none hactive _).punctual
  | some operation =>
    dsimp only
    by_cases hleads : operation.state.leaderPeerId = b.localPeerId
    · rw [if_pos hleads]
      cases hquorum : operation.quorum env.now with
      | ready ready threshold =>
        exact resolveReady_punctual hactive (BufferOperation.quorum_eq_ready hquorum)
      | impossible ready failed threshold =>
        exact (resolveImpossible_inTime env operation b).punctual
      | timedOut ready threshold => exact (resolveTimedOut_inTime env operation b).punctual
      | waiting ready buffering failed threshold =>
        refine (resolveWaiting_keeps_inTime env b fun o ho _ => ?_).punctual
        cases hactive.symm.trans ho
        exact BufferOperation.lt_deadline_of_waiting hquorum
    · rw [if_neg hleads]
      intro o ho hled
      cases hactive.symm.trans ho
      exact absurd hled hleads

/-! ## New operations -/

/-- An operation that has just been opened ends later. -/
theorem beginBufferOperation_punctual (env : Env) (item : QueueItem)
    (kind : PlaybackBufferOperationKind) (positionMs : Nat) :
    Ends (Backend.Punctual env.now) (beginBufferOperation env item kind positionMs) := by
  intro b
  unfold beginBufferOperation
  rw [finalState_get_bind, finalState_coordinate_bind]
  have hload : ∀ operationId state, ∀ t : Backend, t.InTime env.now →
      (finalState (loadOwnOperation env operationId state item) t).Punctual env.now := by
    intro operationId state t ht
    unfold loadOwnOperation
    rw [finalState_get_bind]
    split
    · have hmoves := Evolves.bind (r := Move OffBuffer) (liftExcept_moves (env.audio.playableTrack
        item.track)) fun track => liftExcept_moves (env.audio.prepareStream (some operationId)
          state.sessionId track state.positionMs)
      exact (Moves.keeps_inTime hmoves t ht).punctual
    · exact resolveBufferOperation_punctual env _
  refine finalState_bind_of (I := Backend.InTime env.now) ?_ (fun _ t ht => ?_)
    fun _ => Backend.InTime.punctual
  · refine (haltPlayer_moves (P := OffBuffer) env _).keeps_inTime _ ?_
    intro operation hactive _
    cases hactive
    exact Nat.lt_add_of_pos_right (by decide)
  · refine finalState_bind_of (I := Backend.InTime env.now) ?_ (fun _ u hu => ?_)
      fun _ => Backend.InTime.punctual
    · refine Keeps.get_bind (fun s => ?_) t ht
      refine .bind (tryPublish_moves (P := OffBuffer) env _).keeps_inTime fun _ => ?_
      refine .bind (coordinate_keeps_inTime rfl) fun _ => ?_
      refine .bind (markLocalStatus_keeps_inTime env _ _ _) fun _ => ?_
      exact publishBufferStatus_keeps_inTime env _ _ _
    · exact hload _ _ u hu

/-! ## The rest of a tick -/

theorem attempt_keeps {I : Backend → Prop} {m : Handler Unit} (hm : Keeps I m) :
    Keeps I (attempt m) := by
  intro b hb
  rw [finalState_attempt]
  exact hm b hb

theorem startNextIfIdle_keeps_punctual (hle : time ≤ env.now) :
    Keeps (Backend.Punctual time) (startNextIfIdle env) := by
  refine .get_bind fun b => .ite ?_ (.pure _)
  split
  · exact .pure _
  · have hbegin := beginBufferOperation_punctual env
    exact ((hbegin _ _ _).mono fun _ h => h.anti hle).keeps

theorem maybePauseForBufferHealthLoss_keeps_punctual (hle : time ≤ env.now) :
    Keeps (Backend.Punctual time) (maybePauseForBufferHealthLoss env) := by
  refine .get_bind fun b => .ite (.pure _) ?_
  split
  · exact (modifyHealth_moves (P := OffBuffer) _).keeps_punctual
  · refine .ite ?_ (.pure _)
    refine .bind (modifyHealth_moves (P := OffBuffer) _).keeps_punctual fun _ => ?_
    split
    · refine .bind (music_moves (P := OffBuffer) _).keeps_punctual fun _ => ?_
      split
      · exact .pure _
      · refine .bind (haltPlayer_moves (P := OffBuffer) env _).keeps_punctual fun _ => ?_
        refine .bind (publishPlaybackState_moves (P := OffBuffer) env _).keeps_punctual fun _ => ?_
        exact ((beginBufferOperation_punctual env _ _ _).mono fun _ h => h.anti hle).keeps
    · exact .pure _

/-- The end of a playback, and the next item. -/
theorem stopAndStartNext_keeps_punctual (hle : time ≤ env.now) (reason : String) :
    Keeps (Backend.Punctual time) (do
      stopCurrentPlayback env reason
      startNextIfIdle env) :=
  .bind (stopCurrentPlayback_moves (P := OffBuffer) env reason).keeps_punctual fun _ =>
    startNextIfIdle_keeps_punctual hle

theorem followPlayback_keeps_punctual (hle : time ≤ env.now) :
    Keeps (Backend.Punctual time) (followPlayback env) := by
  refine .get_bind fun b => ?_
  split
  · exact .pure _
  · refine .ite ?_ (.pure _)
    split
    · refine .get_bind fun b => ?_
      refine .bind (handleLocalAudioOutputError_moves (P := OffBuffer) _).keeps_punctual
        fun _ => .ite (.pure _) ?_
      refine .bind (insertFailedAudioSession_moves (P := OffBuffer) _).keeps_punctual fun _ => ?_
      refine .ite (stopAndStartNext_keeps_punctual hle _) ?_
      exact (insertFailedAudioSession_moves (P := OffBuffer) _).keeps_punctual
    · refine .get_bind fun b => ?_
      dsimp only
      split
      · exact .pure _
      · exact stopAndStartNext_keeps_punctual hle _
      · exact (music_moves (P := OffBuffer) _).keeps_punctual

/-- The parts of a tick that may open an operation come after its look at the quorum. -/
def ClocksGoOn (env : TickPhase → Env) : Prop :=
  ∀ phase ∈ [TickPhase.startNext, .health, .follow], (env .buffer).now ≤ (env phase).now

/-- What a tick does after its look at the vote leaves nothing overdue. -/
theorem tickAfterLook_punctual {env : TickPhase → Env} (hclock : ClocksGoOn env) :
    Ends (Backend.Punctual (env .buffer).now) (tickAfterLook env) := by
  intro b
  unfold tickAfterLook
  rw [finalState_attempt_bind, finalState_attempt_bind]
  refine Keeps.bind (attempt_keeps ?_) (fun _ => .bind (attempt_keeps ?_) fun _ => ?_) _
    (resolveBufferOperation_punctual (env .buffer) _)
  · exact startNextIfIdle_keeps_punctual (hclock .startNext (by simp))
  · exact maybePauseForBufferHealthLoss_keeps_punctual (hclock .health (by simp))
  · exact followPlayback_keeps_punctual (hclock .follow (by simp))

/-! ## Votes in time -/

/-- The vote in progress, if there is one, has a deadline ahead. -/
def Backend.VoteInTime (time : Instant) (b : Backend) : Prop :=
  ∀ vote ∈ b.music.activeVote, time < vote.deadline

/-- What brings no proposal and no ballot keeps the vote in time. -/
theorem Moves.keeps_voteInTime {α : Type} {m : Handler α} (hm : Moves Deeds m) :
    Keeps (Backend.VoteInTime time) m := by
  intro b hb vote hvote
  rcases hm.box_of_deeds b with hkept | hdropped
  · exact hb vote (hkept ▸ hvote)
  · rw [hdropped] at hvote
    cases hvote

namespace MusicState

/-- A vote ends when it was opened to end. -/
theorem openVote_deadline {m : MusicState} {proposal : VoteProposal} {deadline : Instant}
    {vote : ActiveVote} (h : vote ∈ (m.openVote proposal deadline).activeVote) :
    vote.deadline = deadline := by
  cases h
  exact ActiveVote.vote_deadline _ _ _

/-- A proposal of another peer opens a vote with the given end, or leaves the box. -/
theorem receiveVoteProposal_deadline {m : MusicState} {proposal : VoteProposal}
    {deadline : Instant} {vote : ActiveVote}
    (h : vote ∈ ((MusicOp.receiveVoteProposal proposal deadline).apply m).activeVote) :
    vote ∈ m.activeVote ∨ vote.deadline = deadline := by
  simp only [MusicOp.apply, receiveVoteProposal] at h
  split_ifs at h with hopen
  · exact .inl h
  · cases hreason : m.staleVoteReason proposal with
    | some reason =>
      rw [hreason] at h
      exact .inl h
    | none =>
      rw [hreason] at h
      exact .inr (openVote_deadline h)

/-- A ballot does not change when the vote ends. -/
theorem castVote_deadline {m : MusicState} {peerId : PeerId} {approve : Bool} {vote : ActiveVote}
    (h : vote ∈ (m.castVote peerId approve).2.activeVote) :
    ∃ current ∈ m.activeVote, current.deadline = vote.deadline := by
  unfold castVote at h
  split at h
  · exact ⟨vote, h, rfl⟩
  · rename_i current hcurrent
    obtain rfl := Option.some.inj h
    exact ⟨current, hcurrent, (ActiveVote.vote_deadline _ _ _).symm⟩

/-- Nor does a ballot that comes by wire. -/
theorem castVoteFor_deadline {m : MusicState} {voteId : String} {peerId : PeerId}
    {approve : Bool} {vote : ActiveVote}
    (h : vote ∈ (m.castVoteFor voteId peerId approve).2.activeVote) :
    ∃ current ∈ m.activeVote, current.deadline = vote.deadline := by
  unfold castVoteFor at h
  split at h
  · exact ⟨vote, h, rfl⟩
  · rename_i current hcurrent
    split at h
    · exact ⟨vote, h, rfl⟩
    · obtain rfl := Option.some.inj h
      exact ⟨current, hcurrent, (ActiveVote.vote_deadline _ _ _).symm⟩

/-- After lapsed votes have been dropped, one that is left ends later. -/
theorem takeTimedOutVote_deadline {m : MusicState} {now : Instant} {vote : ActiveVote}
    (h : vote ∈ (m.takeTimedOutVote now).activeVote) : now < vote.deadline := by
  unfold takeTimedOutVote at h
  split at h
  · rename_i hnone
    rw [hnone] at h
    cases h
  · rename_i current hcurrent
    split at h
    · cases h
    · rename_i hahead
      cases hcurrent.symm.trans h
      exact not_le.1 hahead

end MusicState

/-- A vote that is opened now ends later. -/
theorem lt_add_voteTimeout (hle : time ≤ env.now) : time < env.now + voteTimeout :=
  hle.trans_lt (Nat.lt_add_of_pos_right (by decide))

theorem proposeBeforeLook_keeps_voteInTime (hle : time ≤ env.now) (action : VoteAction) :
    Keeps (Backend.VoteInTime time) (proposeBeforeLook env action) := by
  refine .get_bind fun b => .ite (.pure _) (.bind ?_ fun _ => Moves.keeps_voteInTime ?_)
  · intro t _ vote hvote
    exact (lt_add_voteTimeout hle).trans_eq (MusicState.openVote_deadline hvote).symm
  · exact .bind (publishRoomWire_moves env _) fun _ =>
      .bind (publishRoomWire_moves env _) fun _ => .pure _

theorem castBeforeLook_keeps_voteInTime (env : Env) (approve : Bool) :
    Keeps (Backend.VoteInTime time) (castBeforeLook env approve) := by
  refine .get_bind fun b => .bind ?_ fun _ => Moves.keeps_voteInTime ?_
  · intro t ht vote hvote
    obtain ⟨current, hcurrent, hdeadline⟩ := MusicState.castVote_deadline hvote
    exact (ht current hcurrent).trans_eq hdeadline
  · split
    · exact .bind (publishRoomWire_moves env _) fun _ => .pure _
    · exact .pure _
    · exact .pure _

theorem handleVoteProposal_keeps_voteInTime (hle : time ≤ env.now) (proposal : VoteProposal) :
    Keeps (Backend.VoteInTime time) (handleVoteProposal env proposal) := by
  refine .get_bind fun b => .ite (.pure _) ?_
  split
  · exact .pure _
  · refine .bind (fun t ht vote hvote => ?_) fun _ =>
      Moves.keeps_voteInTime (requestQueueForVoteContext_moves env proposal)
    rcases MusicState.receiveVoteProposal_deadline hvote with hkept | hdeadline
    · exact ht vote hkept
    · exact (lt_add_voteTimeout hle).trans_eq hdeadline.symm

/-- A command keeps the vote in time, up to the look. -/
theorem commandBeforeLook_keeps_voteInTime (hle : time ≤ env.now) (request : NetworkCommand) :
    Keeps (Backend.VoteInTime time) (commandBeforeLook env request) := by
  unfold commandBeforeLook
  split
  · exact castBeforeLook_keeps_voteInTime env _
  · rename_i hvote
    intro b hb
    rw [finalState_get_bind]
    cases haction : request.voteAction b with
    | some action => exact proposeBeforeLook_keeps_voteInTime hle action b hb
    | none =>
      dsimp only
      rw [finalState_bind_pure]
      intro vote hactive
      rcases handleCommand_box haction hvote with hkept | hdropped
      · exact hb vote (hkept ▸ hactive)
      · rw [hdropped] at hactive
        cases hactive

/-- So does a message. -/
theorem applyBeforeLook_keeps_voteInTime (hle : time ≤ env.now) (source : PeerId)
    (message : WireMessage) :
    Keeps (Backend.VoteInTime time) (applyBeforeLook env source message) := by
  have hqueue : ∀ state, Moves Deeds (queueBeforeLook state) := fun state =>
    .get_bind fun _ => .bind (feed_moves rfl) fun _ => .pure _
  unfold applyBeforeLook
  split
  · exact .pure _
  · cases message with
    | voteProposal proposal =>
      exact .bind (handleVoteProposal_keeps_voteInTime hle proposal) fun _ => .pure _
    | voteBallot voteId peerId approve =>
      refine .bind (fun t ht vote hvote => ?_) fun _ => .pure _
      obtain ⟨current, hcurrent, hdeadline⟩ := MusicState.castVoteFor_deadline hvote
      exact (ht current hcurrent).trans_eq hdeadline
    | queueState state => exact (hqueue state).keeps_voteInTime
    | queueResponse target state =>
      exact Moves.keeps_voteInTime (.get_bind fun _ => .ite (hqueue state) (.pure _))
    | _ =>
      exact Moves.keeps_voteInTime (.bind (handleWireMessage_deeds env rfl) fun _ => .pure _)

/-- So does every event. -/
theorem beforeLook_keeps_voteInTime {event : Event} (hle : time ≤ event.lookEnv.now) :
    Keeps (Backend.VoteInTime time) (beforeLook event) := by
  cases event with
  | command env request => exact commandBeforeLook_keeps_voteInTime hle request
  | wire env source message => exact applyBeforeLook_keeps_voteInTime hle source message
  | musicSync env => exact Moves.keeps_voteInTime (.bind (musicSyncTick_moves env) fun _ => .pure _)
  | connectionEstablished env peerId =>
    exact Moves.keeps_voteInTime
      (.bind (handleConnectionEstablished_moves env peerId) fun _ => .pure _)
  | connectionClosed env peerId num =>
    exact Moves.keeps_voteInTime
      (.bind (handleConnectionClosed_moves env peerId num) fun _ => .pure _)
  | slowPeer env peerId =>
    exact Moves.keeps_voteInTime
      (.bind (removeFromBufferQuorum_moves env peerId) fun _ => .pure _)
  | musicLocal env events =>
    refine Moves.keeps_voteInTime (m := tickBeforeLook env events) ?_
    refine .bind (restoreAudioOutput_moves _) fun goesOn => .ite ?_ (.pure _)
    exact .bind (drainPlayerEvents_moves events) fun _ =>
      .bind (ordinary_moves rfl) fun _ => .pure _

/-- An event that comes later keeps the vote in time. -/
theorem Backend.VoteInTime.step (hb : b.VoteInTime time) {event : Event}
    (hle : time ≤ event.lookEnv.now) : (b.step event).VoteInTime time := by
  have hbefore := beforeLook_keeps_voteInTime hle b hb
  cases hlook : event.look b with
  | none => rwa [Backend.step_of_no_look hlook]
  | some t =>
    rw [Backend.step_of_look hlook]
    refine Moves.keeps_voteInTime (afterLook_moves event) _ ?_
    refine Moves.keeps_voteInTime (resolveActiveVote_moves event.lookEnv) t ?_
    unfold Event.look at hlook
    split at hlook
    · rename_i hlooks
      cases hlook
      rwa [finalState_of_ok hlooks] at hbefore
    · cases hlook
    · cases hlook

/-- So does a run of later events. -/
theorem Backend.VoteInTime.run (hb : b.VoteInTime time) {events : List Event}
    (hle : ∀ event ∈ events, time ≤ event.lookEnv.now) : (b.run events).VoteInTime time := by
  induction events generalizing b with
  | nil => exact hb
  | cons event events ih =>
    obtain ⟨hfirst, hrest⟩ := List.forall_mem_cons.1 hle
    exact ih (hb.step hfirst) hrest

/-! ## The tick -/

theorem drainPlayerEvents_returns (events : List (Env × AudioPlayerEvent)) :
    Returns (drainPlayerEvents events) := by
  refine .get_bind fun b => .ite (fun t => ?_) (.pure _)
  unfold attempt
  cases handleAudioPlayerEvents events t with
  | ok _ u => exact ⟨(), u, rfl⟩
  | error error u => exact ⟨(), u, rfl⟩

/-- A tick that goes on looks at the vote after a lapsed one has been dropped. -/
theorem tick_look {env : TickPhase → Env} {b' : Backend}
    (hgoes : restoreAudioOutput (env .restore) b = .ok true b')
    (events : List (Env × AudioPlayerEvent)) :
    ∃ t, (Event.musicLocal env events).look b = some t ∧ t.VoteInTime (env .vote).now := by
  obtain ⟨_, u, hdrain⟩ := drainPlayerEvents_returns events b'
  have hbefore : beforeLook (.musicLocal env events) b =
      .ok true (u.changeMusic (.takeTimedOutVote (env .vote).now)) :=
    bind_eq_ok.2 ⟨true, b', hgoes, bind_eq_ok.2 ⟨(), u, hdrain, rfl⟩⟩
  refine ⟨u.changeMusic (.takeTimedOutVote (env .vote).now), ?_,
    fun vote hvote => MusicState.takeTimedOutVote_deadline hvote⟩
  unfold Event.look
  rw [hbefore]

end LightEar
