import LightEar.Backend.Moves
import LightEar.ChatMessages
import LightEar.ChatRetention
import LightEar.Foundation.GuardedRun

/-!
# Who names a peer

A peer announces its name with every message it writes and in claims of its own, and the source of
both is checked.  The name is kept until the peer is no longer connected or has gone from the local
network.  A history that somebody else sends names the authors of its records too, and nothing
checks these names: the last of them replaces the one that the author has announced
(`names_kept_iff`).
-/

namespace LightEar

open Foundation

/-! ## Announcements -/

/-- The peer that a message or an event of the main loop comes from. -/
def ChatEvent.source : ChatEvent → Option PeerId
  | chat _ source _ => some source
  | backend (.wire _ source _) => some source
  | backend _ => none
  | mdnsExpired _ => none

/-- The peer that announces its name, with a message that has been checked. -/
def ChatEvent.announcer : ChatEvent → Option PeerId
  | chat env source (.chat id peerId joinedAt seq causalFrontier name text sentAt) =>
    match env.validateWireSource
        (.chat id peerId joinedAt seq causalFrontier name text sentAt) source with
    | .ok () => some source
    | .error _ => none
  | chat env source (.nameClaim peerId name joinedAt) =>
    match env.validateWireSource (.nameClaim peerId name joinedAt) source with
    | .ok () => some source
    | .error _ => none
  | _ => none

/-- A peer, and the peers that have announced their names to it and have not been forgotten
since. -/
structure NamedPeer where
  /-- The peer. -/
  peer : ChatPeer
  /-- History: the others. -/
  announced : Finset PeerId

namespace NamedPeer

/-- Nobody has announced a name to a peer that has just started. -/
def new (backend : Backend) : NamedPeer where
  peer := .new backend
  announced := ∅

/-- The state after an event. -/
def step (s : NamedPeer) (event : ChatEvent) : NamedPeer where
  peer := s.peer.step event
  announced := (event.announcer.elim s.announced fun peerId => insert peerId s.announced).filter
    (· ∉ event.forgotten)

/-- An event leaves the names that have been announced alone, unless it comes from the peer
itself or makes it forgotten. -/
def NamesKept (s : NamedPeer) (event : ChatEvent) : Prop :=
  ∀ peerId ∈ s.announced, event.source ≠ some peerId → peerId ∉ event.forgotten →
    (s.step event).peer.nameOf peerId = s.peer.nameOf peerId

/-- The last record in a list that a peer is named as the author of. -/
def lastBy (env : ChatEnv) (peerId : PeerId) (messages : List ChatRecord) : Option ChatRecord :=
  (messages.filter fun record => env.parsePeerId record.peerId == some peerId).getLast?

/-- If an event is a history for this peer, its last record by anybody else who has announced a
name, other than its sender, carries this name. -/
def HistoryAgrees (s : NamedPeer) : ChatEvent → Prop
  | .chat env source (.historyResponse target messages) =>
    target.all (· == s.peer.localPeerId) →
      ∀ peerId ∈ s.announced, peerId ≠ source → peerId ≠ s.peer.localPeerId →
        ∀ record ∈ lastBy env peerId messages, s.peer.nameOf peerId = some record.author
  | _ => True

end NamedPeer

/-! ## What a message does to the name of somebody else -/

namespace ChatEnv

variable {env : ChatEnv} {source : PeerId}

theorem parsePeerId_empty : env.parsePeerId "" = none := if_pos rfl

/-- A chat message that has been checked is by its source. -/
theorem claimed_of_validate {id : Option String} {peerId : String} {joinedAt : Option Int}
    {seq : Nat} {causalFrontier : CausalFrontier} {name text : String} {sentAt : Int}
    (h : env.validateWireSource
      (.chat id peerId joinedAt seq causalFrontier name text sentAt) source = .ok ()) :
    (env.parsePeerId peerId).getD source = source := by
  unfold validateWireSource ChatMessage.sourceField at h
  by_cases hempty : peerId = ""
  · rw [hempty, parsePeerId_empty, Option.getD_none]
  · simp only [if_neg hempty] at h
    split at h
    · rename_i hmatches
      rw [beq_iff_eq.1 hmatches, Option.getD_some]
    · cases h

/-- A name claim that has been checked is by its source. -/
theorem parsePeerId_of_validate {peerId name : String} {joinedAt : Option Int}
    (h : env.validateWireSource (.nameClaim peerId name joinedAt) source = .ok ()) :
    env.parsePeerId peerId = some source := by
  unfold validateWireSource ChatMessage.sourceField at h
  dsimp only at h
  split at h
  · rename_i hmatches
    exact beq_iff_eq.1 hmatches
  · cases h

/-- Whoever announces a name has sent a message that has been checked. -/
theorem checked_of_announcer {message : ChatMessage} {announcer : PeerId}
    (h : (match env.validateWireSource message source with
      | .ok () => some source
      | .error _ => none) = some announcer) :
    env.validateWireSource message source = .ok () ∧ source = announcer := by
  cases hvalid : env.validateWireSource message source with
  | error complaint =>
    rw [hvalid] at h
    cases h
  | ok _ =>
    rw [hvalid] at h
    exact ⟨rfl, Option.some.inj h⟩

end ChatEnv

namespace ChatPeer

variable {env : ChatEnv} {p : ChatPeer} {source peerId : PeerId}

theorem nameOf_handleHistorySummary (value : String) (count : Nat) (newestAt : Option Int) :
    (p.handleHistorySummary env value count newestAt).nameOf peerId = p.nameOf peerId := by
  rcases p.handleHistorySummary_cases env value count newestAt with
    ⟨-, times, hrequest⟩ | ⟨-, hnothing⟩
  · rw [hrequest]
    rfl
  · rw [hnothing]

theorem localPeerId_handleHistorySummary (value : String) (count : Nat) (newestAt : Option Int) :
    (p.handleHistorySummary env value count newestAt).localPeerId = p.localPeerId := by
  rcases p.handleHistorySummary_cases env value count newestAt with
    ⟨-, times, hrequest⟩ | ⟨-, hnothing⟩
  · rw [hrequest]
    rfl
  · rw [hnothing]

theorem nameOf_handleHistoryRequest (requester target : String) (knownCount : Nat) :
    (p.handleHistoryRequest requester target knownCount).nameOf peerId = p.nameOf peerId := by
  unfold handleHistoryRequest
  split
  · rfl
  · rfl

/-- What is said, once it has been checked, names its source. -/
theorem nameOf_applyWireMessage_chat {id : Option String} {value : String}
    {joinedAt : Option Int} {seq : Nat} {causalFrontier : CausalFrontier} {name text : String}
    {sentAt : Int}
    (h : env.validateWireSource
      (.chat id value joinedAt seq causalFrontier name text sentAt) source = .ok ()) :
    (p.applyWireMessage env source
        (.chat id value joinedAt seq causalFrontier name text sentAt)).nameOf peerId =
      if source = peerId ∧ peerId ≠ p.localPeerId then some name else p.nameOf peerId := by
  unfold applyWireMessage applyChatMessage
  rw [h]
  dsimp only
  rw [nameOf_insertRecord, ChatEnv.claimed_of_validate h, nameOf_rememberPeerName]

/-- So does a name claim. -/
theorem nameOf_applyWireMessage_nameClaim {value name : String} {joinedAt : Option Int}
    (h : env.validateWireSource (.nameClaim value name joinedAt) source = .ok ()) :
    (p.applyWireMessage env source (.nameClaim value name joinedAt)).nameOf peerId =
      if source = peerId ∧ peerId ≠ p.localPeerId then some name else p.nameOf peerId := by
  unfold applyWireMessage handleNameClaim
  rw [h]
  dsimp only
  rw [ChatEnv.parsePeerId_of_validate h]
  exact nameOf_rememberPeerName p source peerId name joinedAt

/-- A message that is not a history leaves the name of everybody but its source alone. -/
theorem nameOf_applyWireMessage {message : ChatMessage} (hne : peerId ≠ source)
    (hmessage : ∀ target messages, message ≠ .historyResponse target messages) :
    (p.applyWireMessage env source message).nameOf peerId = p.nameOf peerId := by
  have hsource : ¬ (source = peerId ∧ peerId ≠ p.localPeerId) := fun h => hne h.1.symm
  cases hvalid : env.validateWireSource message source with
  | error complaint =>
    unfold applyWireMessage
    rw [hvalid]
  | ok _ =>
    cases message with
    | chat id value joinedAt seq causalFrontier name text sentAt =>
      rw [nameOf_applyWireMessage_chat hvalid, if_neg hsource]
    | nameClaim value name joinedAt =>
      rw [nameOf_applyWireMessage_nameClaim hvalid, if_neg hsource]
    | historySummary value count newestAt =>
      unfold applyWireMessage
      rw [hvalid]
      exact nameOf_handleHistorySummary value count newestAt
    | historyRequest requester target knownCount =>
      unfold applyWireMessage
      rw [hvalid]
      exact nameOf_handleHistoryRequest requester target knownCount
    | historyResponse target messages => exact absurd rfl (hmessage target messages)

theorem localPeerId_mergeRecord (record : ChatRecord) :
    (p.mergeRecord env record).localPeerId = p.localPeerId := by
  unfold mergeRecord
  split
  · rw [localPeerId_insertRecord, localPeerId_rememberPeerName]
  · rw [localPeerId_insertRecord]

theorem localPeerId_foldl_mergeRecord (messages : List ChatRecord) :
    (messages.foldl (mergeRecord env) p).localPeerId = p.localPeerId := by
  induction messages generalizing p with
  | nil => rfl
  | cons first rest ih => rw [List.foldl_cons, ih, localPeerId_mergeRecord]

/-- One record names its author. -/
theorem nameOf_mergeRecord (record : ChatRecord) :
    (p.mergeRecord env record).nameOf peerId =
      if env.parsePeerId record.peerId = some peerId ∧ peerId ≠ p.localPeerId
      then some record.author else p.nameOf peerId := by
  unfold mergeRecord
  cases env.parsePeerId record.peerId with
  | none => simp
  | some author => simp only [nameOf_insertRecord, nameOf_rememberPeerName, Option.some.injEq]

/-- A history leaves a peer with the name its last record by this peer carries. -/
theorem nameOf_foldl_mergeRecord (hlocal : peerId ≠ p.localPeerId) (messages : List ChatRecord) :
    (messages.foldl (mergeRecord env) p).nameOf peerId =
      ((NamedPeer.lastBy env peerId messages).map ChatRecord.author).or (p.nameOf peerId) := by
  induction messages using List.reverseRecOn with
  | nil => rfl
  | append_singleton messages record ih =>
    rw [List.foldl_concat, nameOf_mergeRecord, localPeerId_foldl_mergeRecord, ih]
    unfold NamedPeer.lastBy
    rw [List.filter_append]
    by_cases hby : env.parsePeerId record.peerId = some peerId
    · have hlast : [record].filter (fun r => env.parsePeerId r.peerId == some peerId) = [record] :=
        List.filter_cons_of_pos (beq_iff_eq.2 hby)
      rw [if_pos ⟨hby, hlocal⟩, hlast, List.getLast?_concat]
      rfl
    · have hother : [record].filter (fun r => env.parsePeerId r.peerId == some peerId) = [] :=
        List.filter_cons_of_neg (mt beq_iff_eq.1 hby)
      rw [if_neg fun h => hby h.1, hother, List.append_nil]

/-- A history never names the peer itself. -/
theorem nameOf_foldl_mergeRecord_self (hlocal : peerId = p.localPeerId)
    (messages : List ChatRecord) :
    (messages.foldl (mergeRecord env) p).nameOf peerId = p.nameOf peerId := by
  induction messages using List.reverseRecOn with
  | nil => rfl
  | append_singleton messages record ih =>
    rw [List.foldl_concat, nameOf_mergeRecord, localPeerId_foldl_mergeRecord, ih,
      if_neg fun h => h.2 hlocal]

/-- A message leaves a peer that has a name with a name. -/
theorem nameOf_applyWireMessage_ne_none {message : ChatMessage} (h : p.nameOf peerId ≠ none) :
    (p.applyWireMessage env source message).nameOf peerId ≠ none := by
  have hremember : ∀ (named : PeerId) (name : String) (joinedAt : Option Int),
      (p.rememberPeerName named name joinedAt).nameOf peerId ≠ none := by
    intro named name joinedAt
    rw [nameOf_rememberPeerName]
    split
    · exact Option.some_ne_none name
    · exact h
  unfold applyWireMessage
  cases env.validateWireSource message source with
  | error complaint => exact h
  | ok _ =>
    cases message with
    | chat id value joinedAt seq causalFrontier name text sentAt => exact hremember _ name joinedAt
    | nameClaim value name joinedAt =>
      dsimp only
      unfold handleNameClaim
      split
      · exact hremember _ name joinedAt
      · exact h
    | historySummary value count newestAt =>
      dsimp only
      rw [nameOf_handleHistorySummary]
      exact h
    | historyRequest requester target knownCount =>
      dsimp only
      rw [nameOf_handleHistoryRequest]
      exact h
    | historyResponse target messages =>
      dsimp only
      unfold handleHistoryResponse
      split
      · by_cases hlocal : peerId = p.localPeerId
        · rw [nameOf_foldl_mergeRecord_self hlocal]
          exact h
        · rw [nameOf_foldl_mergeRecord hlocal]
          exact fun hnone => h (Option.or_eq_none_iff.1 hnone).2
      · exact h

/-- A message does not change who the peer is. -/
theorem localPeerId_applyWireMessage (message : ChatMessage) :
    (p.applyWireMessage env source message).localPeerId = p.localPeerId := by
  unfold applyWireMessage
  split
  · rfl
  · split
    · exact localPeerId_rememberPeerName p _ _ _
    · unfold handleNameClaim
      split
      · exact localPeerId_rememberPeerName p _ _ _
      · rfl
    · exact localPeerId_handleHistorySummary _ _ _
    · unfold handleHistoryRequest
      split
      · rfl
      · rfl
    · unfold handleHistoryResponse
      split
      · exact localPeerId_foldl_mergeRecord _
      · rfl

theorem localPeerId_foldl_forgetPeerName (peers : List PeerId) :
    (peers.foldl forgetPeerName p).localPeerId = p.localPeerId := by
  induction peers generalizing p with
  | nil => rfl
  | cons first rest ih => exact ih

/-- Neither does any other event. -/
theorem localPeerId_step (event : ChatEvent) : (p.step event).localPeerId = p.localPeerId := by
  cases event with
  | chat env source message => exact localPeerId_applyWireMessage message
  | backend event =>
    exact (localPeerId_foldl_forgetPeerName _).trans (p.backend.run_localPeerId [event])
  | mdnsExpired peers => exact localPeerId_foldl_forgetPeerName peers

/-- A peer that announces its name has a name then, unless it is the peer itself. -/
theorem nameOf_step_of_announcer {event : ChatEvent} (h : event.announcer = some peerId)
    (hlocal : peerId ≠ p.localPeerId) : (p.step event).nameOf peerId ≠ none := by
  cases event with
  | backend event => cases h
  | mdnsExpired peers => cases h
  | chat env source message =>
    cases message with
    | historySummary value count newestAt => cases h
    | historyRequest requester target knownCount => cases h
    | historyResponse target messages => cases h
    | chat id value joinedAt seq causalFrontier name text sentAt =>
      obtain ⟨hvalid, rfl⟩ := ChatEnv.checked_of_announcer h
      change (p.applyWireMessage env source _).nameOf source ≠ none
      rw [nameOf_applyWireMessage_chat hvalid, if_pos ⟨rfl, hlocal⟩]
      exact Option.some_ne_none name
    | nameClaim value name joinedAt =>
      obtain ⟨hvalid, rfl⟩ := ChatEnv.checked_of_announcer h
      change (p.applyWireMessage env source _).nameOf source ≠ none
      rw [nameOf_applyWireMessage_nameClaim hvalid, if_pos ⟨rfl, hlocal⟩]
      exact Option.some_ne_none name

/-- A peer that has a name and is not forgotten keeps a name. -/
theorem nameOf_step_ne_none {event : ChatEvent} (h : p.nameOf peerId ≠ none)
    (hforgotten : peerId ∉ event.forgotten) : (p.step event).nameOf peerId ≠ none := by
  cases event with
  | chat env source message => exact nameOf_applyWireMessage_ne_none h
  | backend event =>
    unfold step
    rw [nameOf_foldl_forgetPeerName _ _ hforgotten]
    exact h
  | mdnsExpired peers =>
    unfold step
    rw [nameOf_foldl_forgetPeerName _ _ hforgotten]
    exact h

end ChatPeer

/-! ## One event -/

namespace NamedPeer

variable {s : NamedPeer}

/-- A history keeps the names that were announced exactly if its last records agree with them. -/
theorem namesKept_historyResponse_iff {env : ChatEnv} {source : PeerId} {target : Option String}
    {messages : List ChatRecord} :
    s.NamesKept (.chat env source (.historyResponse target messages)) ↔
      s.HistoryAgrees (.chat env source (.historyResponse target messages)) := by
  have hstep : (s.step (.chat env source (.historyResponse target messages))).peer =
      s.peer.handleHistoryResponse env target messages := rfl
  unfold NamesKept HistoryAgrees
  rw [hstep]
  unfold ChatPeer.handleHistoryResponse
  by_cases htarget : target.all (· == s.peer.localPeerId) = true
  · rw [if_pos htarget]
    refine ⟨fun h _ peerId hannounced hne hlocal record hrecord => ?_,
      fun h peerId hannounced hne _ => ?_⟩
    · have hkept := h peerId hannounced (fun heq => hne (Option.some.inj heq).symm)
        List.not_mem_nil
      rw [ChatPeer.nameOf_foldl_mergeRecord hlocal, Option.mem_def.1 hrecord] at hkept
      exact hkept.symm
    · have hsource : peerId ≠ source := fun heq => hne (congrArg some heq.symm)
      by_cases hlocal : peerId = s.peer.localPeerId
      · exact ChatPeer.nameOf_foldl_mergeRecord_self hlocal messages
      · rw [ChatPeer.nameOf_foldl_mergeRecord hlocal]
        cases hlast : lastBy env peerId messages with
        | none => rfl
        | some record => exact (h htarget peerId hannounced hsource hlocal record hlast).symm
  · rw [if_neg htarget]
    exact iff_of_true (fun _ _ _ _ => rfl) fun h => absurd h htarget

/-- An event keeps the names that were announced exactly if it is not a history that disagrees
with them. -/
theorem namesKept_iff (event : ChatEvent) : s.NamesKept event ↔ s.HistoryAgrees event := by
  cases event with
  | chat env source message =>
    by_cases hmessage : ∃ target messages, message = .historyResponse target messages
    · obtain ⟨target, messages, rfl⟩ := hmessage
      exact namesKept_historyResponse_iff
    · have hother : ∀ target messages, message ≠ .historyResponse target messages :=
        fun target messages heq => hmessage ⟨target, messages, heq⟩
      refine iff_of_true (fun peerId _ hne _ => ?_) ?_
      · exact ChatPeer.nameOf_applyWireMessage (fun heq => hne (congrArg some heq.symm)) hother
      · unfold HistoryAgrees
        split
        · rename_i heq
          cases heq
          exact absurd rfl (hother _ _)
        · trivial
  | backend event =>
    refine iff_of_true (fun peerId _ _ hforgotten => ?_) trivial
    exact ChatPeer.nameOf_foldl_forgetPeerName _ _ hforgotten
  | mdnsExpired peers =>
    refine iff_of_true (fun peerId _ _ hforgotten => ?_) trivial
    exact ChatPeer.nameOf_foldl_forgetPeerName _ _ hforgotten

/-! ## Runs -/

/-- Whoever has announced a name has one, other than the peer itself. -/
def AllNamed (s : NamedPeer) : Prop :=
  ∀ peerId ∈ s.announced, peerId ≠ s.peer.localPeerId → s.peer.nameOf peerId ≠ none

theorem AllNamed.step (h : s.AllNamed) (event : ChatEvent) : (s.step event).AllNamed := by
  intro peerId hannounced hlocal
  have hsame : (s.step event).peer.localPeerId = s.peer.localPeerId := s.peer.localPeerId_step event
  rw [hsame] at hlocal
  obtain ⟨hannounced, hforgotten⟩ := Finset.mem_filter.1 hannounced
  cases hannouncer : event.announcer with
  | none =>
    rw [hannouncer] at hannounced
    exact ChatPeer.nameOf_step_ne_none (h peerId hannounced hlocal) hforgotten
  | some announcer =>
    rw [hannouncer, Option.elim_some, Finset.mem_insert] at hannounced
    rcases hannounced with rfl | hannounced
    · exact ChatPeer.nameOf_step_of_announcer hannouncer hlocal
    · exact ChatPeer.nameOf_step_ne_none (h peerId hannounced hlocal) hforgotten

/-- In every run, whoever has announced a name and has not been forgotten has one. -/
theorem allNamed_run (backend : Backend) (events : List ChatEvent) :
    (events.foldl step (new backend)).AllNamed := by
  induction events using List.reverseRecOn with
  | nil => exact fun peerId hannounced => absurd hannounced (Finset.notMem_empty peerId)
  | append_singleton events event ih =>
    rw [List.foldl_concat]
    exact ih.step event

/-- In every run, the names that peers have announced are kept until they are forgotten, whoever
else sends something, exactly if no history disagrees with them when it arrives. -/
theorem names_kept_iff (backend : Backend) (events : List ChatEvent) :
    Along step NamesKept (new backend) events ↔ Along step HistoryAgrees (new backend) events :=
  Along.congr fun s event => s.namesKept_iff event

/-- Ann says what she is called, and then Cyril sends a history in which she is called
otherwise. -/
def renamed : List ChatEvent :=
  [.chat .plain "ann" (.nameClaim "ann" "Ann" (some 1)),
    .chat .plain "cyril" (.historyResponse none [{ greeting with author := "Mallory" }])]

/-- Bob then takes the name from the history. -/
theorem not_names_kept_renamed :
    ¬ Along step NamesKept (new (.new "bob" ∅ false 0)) renamed := by
  intro h
  have hkept := h.2.1 "ann" (by decide) (by decide) (by decide)
  revert hkept
  decide

end NamedPeer

end LightEar
