import LightEar.SwarmHistory

/-!
# When peers are looked for

When the last peer of the room has gone, the program looks for peers again, and it stops when one
has been reached (`recovery_exact`).  Until then it asks all rendezvous nodes for peers again within
every interval, and dials those that are not connected (`peers_searched_again`).
-/

namespace LightEar

open Foundation

/-- Whether a peer of the room has been reached. -/
def SwarmEvent.joins (config : SwarmConfig) : SwarmEvent → Bool
  | connectionEstablished peerId _ _ => decide (peerId ∉ config.rendezvousNodes)
  | _ => false

namespace SwarmState

/-- Peers are looked for while no peer of the room is connected, once one has been. -/
structure Seeks (config : SwarmConfig) (joined : Prop) (s : SwarmState) : Prop where
  /-- The search is on exactly then. -/
  active_iff : s.zeroPeerRecovery.active = true ↔ s.connectedRoomPeers config = ∅ ∧ joined
  /-- Who is connected has been reached. -/
  joined : (s.connectedRoomPeers config).Nonempty → joined

variable {config : SwarmConfig} {links : Links} {env : SwarmEnv} {s : SwarmState} {joined : Prop}

/-- Neither the peers of the room nor the search change. -/
theorem Seeks.of_same (h : s.Seeks config joined) {t : SwarmState}
    (hpeers : t.connectedRoomPeers config = s.connectedRoomPeers config)
    (hrecovery : t.zeroPeerRecovery.active = s.zeroPeerRecovery.active) :
    t.Seeks config joined := by
  constructor
  · rw [hrecovery, hpeers]
    exact h.active_iff
  · rw [hpeers]
    exact h.joined

/-- The peers of the room stay the same if the peer is still connected, or is a rendezvous node. -/
theorem connectedRoomPeers_erase {c : Connection} {t : SwarmState}
    (ht : t.opened = s.opened.erase c)
    (h : c.peerId ∈ t.connectedPeers ∨ c.peerId ∈ config.rendezvousNodes) (hc : c ∈ s.opened) :
    t.connectedRoomPeers config = s.connectedRoomPeers config := by
  have hothers : ∀ peerId, peerId ≠ c.peerId →
      (peerId ∈ t.connectedPeers ↔ peerId ∈ s.connectedPeers) := by
    intro peerId hother
    have herase := s.mem_connectedPeers_erase c hother
    rwa [mem_connectedPeers, ← ht, ← mem_connectedPeers] at herase
  have hthis : c.peerId ∈ s.connectedPeers := mem_connectedPeers.2 ⟨c, hc, rfl⟩
  ext peerId
  rw [connectedRoomPeers, connectedRoomPeers, Finset.mem_sdiff, Finset.mem_sdiff]
  refine and_congr_left fun hroom => ?_
  by_cases hsame : peerId = c.peerId
  · rw [hsame] at hroom ⊢
    exact iff_of_true (h.resolve_right hroom) hthis
  · exact hothers peerId hsame

/-- A connection has been opened. -/
theorem Seeks.established (h : s.Seeks config joined) (env : SwarmEnv) (peerId : PeerId)
    (connectionId : ConnectionId) (isRelayed : Bool) :
    (s.handle config env (.connectionEstablished peerId connectionId isRelayed)).Seeks config
      (joined ∨ peerId ∉ config.rendezvousNodes) := by
  set event := SwarmEvent.connectionEstablished peerId connectionId isRelayed
  have hsearch := s.handle_search config env event
  have hpeers : (s.handle config env event).connectedRoomPeers config =
      insert peerId s.connectedPeers \ config.rendezvousNodes :=
    (connectedRoomPeers_congr config (s.relink event) (s.handle_opened config env event)).trans
      (congrArg (· \ config.rendezvousNodes)
        (s.connectedPeers_insert ⟨peerId, connectionId, isRelayed⟩))
  dsimp only [event, searchNext] at hsearch
  by_cases hnode : peerId ∈ config.rendezvousNodes
  · -- a rendezvous node is no peer of the room
    rw [or_iff_left (not_not.2 hnode)]
    rw [if_pos hnode] at hsearch
    exact h.of_same (hpeers.trans (Finset.insert_sdiff_of_mem _ hnode))
      (congrArg ZeroPeerRecovery.active hsearch)
  · have hroom : ((s.handle config env event).connectedRoomPeers config).Nonempty := by
      rw [hpeers]
      exact ⟨peerId, Finset.mem_sdiff.2 ⟨Finset.mem_insert_self _ _, hnode⟩⟩
    rw [if_neg hnode] at hsearch
    refine ⟨iff_of_false ?_ fun hnone => hroom.ne_empty hnone.1, fun _ => .inr hnode⟩
    rw [hsearch]
    exact ne_true_of_eq_false s.zeroPeerRecovery.finish_active

/-- A connection has been closed. -/
theorem Seeks.closed (h : s.Seeks config joined) (env : SwarmEnv) {peerId : PeerId}
    {connectionId : ConnectionId} {wasRelayed : Bool} {numEstablished : ℕ}
    (hopen : ⟨peerId, connectionId, wasRelayed⟩ ∈ s.opened) (hremain : numEstablished =
      Links.established (s.opened.erase ⟨peerId, connectionId, wasRelayed⟩) peerId) :
    (s.handle config env (.connectionClosed peerId connectionId wasRelayed numEstablished)).Seeks
      config joined := by
  set event := SwarmEvent.connectionClosed peerId connectionId wasRelayed numEstablished
  set closed := s.handle config env event
  have hopened : closed.opened = s.opened.erase ⟨peerId, connectionId, wasRelayed⟩ :=
    s.handle_opened config env event
  have hpeers : closed.connectedRoomPeers config = (s.relink event).connectedRoomPeers config :=
    connectedRoomPeers_congr config (s.relink event) (s.handle_opened config env event)
  have hthis : peerId ∈ s.connectedPeers := mem_connectedPeers.2 ⟨_, hopen, rfl⟩
  have hlast : numEstablished = 0 ↔ peerId ∉ closed.connectedPeers := by
    rw [hremain, ← hopened]
    exact established_eq_zero_iff
  have hsearch : closed.zeroPeerRecovery = _ := s.handle_search config env event
  dsimp only [event, searchNext] at hsearch
  rw [← hpeers] at hsearch
  by_cases hgone : numEstablished = 0 ∧ closed.connectedRoomPeers config = ∅ ∧
      peerId ∉ config.rendezvousNodes
  · rw [if_pos hgone] at hsearch
    obtain ⟨-, hnone, hroom⟩ := hgone
    have hjoined : joined := h.joined ⟨peerId, Finset.mem_sdiff.2 ⟨hthis, hroom⟩⟩
    refine ⟨iff_of_true ?_ ⟨hnone, hjoined⟩, fun hsome => absurd hnone hsome.ne_empty⟩
    rw [hsearch]
    exact s.zeroPeerRecovery.start_active env.now
  · rw [if_neg hgone] at hsearch
    by_cases hstill : peerId ∈ closed.connectedPeers ∨ peerId ∈ config.rendezvousNodes
    · exact h.of_same (connectedRoomPeers_erase hopened hstill hopen)
        (congrArg ZeroPeerRecovery.active hsearch)
    · -- a peer of the room has gone, and another one is there
      obtain ⟨haway, hroom⟩ := not_or.1 hstill
      have hsome : (closed.connectedRoomPeers config).Nonempty := by
        rw [Finset.nonempty_iff_ne_empty]
        exact fun hnone => hgone ⟨hlast.2 haway, hnone, hroom⟩
      have hbefore : (s.connectedRoomPeers config).Nonempty :=
        ⟨peerId, Finset.mem_sdiff.2 ⟨hthis, hroom⟩⟩
      refine ⟨iff_of_false ?_ fun hnone => hsome.ne_empty hnone.1, fun _ => h.joined hbefore⟩
      rw [hsearch, h.active_iff]
      exact fun hnone => hbefore.ne_empty hnone.1

/-- One more event. -/
theorem Seeks.handle (h : s.Seeks config joined) {event : SwarmEvent}
    (hstep : InStep config links s) (hfits : ∀ call ∈ event.report? config, links.Allows call) :
    (s.handle config env event).Seeks config (joined ∨ event.joins config = true) := by
  -- neither the connections nor whether the search is on change in the other events
  have hsame : s.openedNext event = s.opened →
      (s.searchNext config env event).active = s.zeroPeerRecovery.active →
      (s.handle config env event).Seeks config (joined ∨ false = true) := by
    intro hopened hactive
    rw [or_iff_left Bool.false_ne_true]
    refine h.of_same (connectedRoomPeers_congr config s ?_) ?_
    · rw [handle_opened, hopened]
    · rw [handle_search, hactive]
  cases event with
  | connectionEstablished peerId connectionId isRelayed =>
    have hseeks := h.established env peerId connectionId isRelayed
    rwa [← decide_eq_true_iff (p := peerId ∉ config.rendezvousNodes)] at hseeks
  | connectionClosed peerId connectionId wasRelayed numEstablished =>
    obtain ⟨hopen, hremain⟩ := hfits _ rfl
    rw [← hstep.opened] at hopen hremain
    have hjoins : (SwarmEvent.connectionClosed peerId connectionId wasRelayed
        numEstablished).joins config = false := rfl
    rw [hjoins, or_iff_left Bool.false_ne_true]
    exact h.closed env hopen hremain
  | zeroPeerRecoveryTick => exact hsame rfl (s.zeroPeerRecovery.popDueDiscovery_active env.now)
  | _ => exact hsame rfl rfl

/-- Any run that fits the links. -/
theorem Seeks.run (config : SwarmConfig) {inputs : List Input} (h : FitsNetwork config inputs) :
    ((SwarmState.new config).run config inputs).Seeks config
      (∃ input ∈ inputs, input.2.joins config = true) := by
  induction inputs using List.reverseRecOn with
  | nil =>
    refine ⟨by simp [SwarmState.run, new, ZeroPeerRecovery.default], fun ⟨peerId, hpeer⟩ => ?_⟩
    obtain ⟨c, hc, -⟩ := mem_connectedPeers.1 (Finset.mem_sdiff.1 hpeer).1
    exact absurd hc (Finset.notMem_empty c)
  | append_singleton inputs input ih =>
    obtain ⟨hbefore, hfits⟩ := fitsNetwork_snoc.1 h
    have hnext : (SwarmState.new config).run config (inputs ++ [input]) =
        ((SwarmState.new config).run config inputs).handle config input.1 input.2 :=
      List.foldl_concat ..
    have hjoined : (∃ other ∈ inputs ++ [input], other.2.joins config = true) ↔
        (∃ other ∈ inputs, other.2.joins config = true) ∨ input.2.joins config = true := by
      simp only [List.mem_append, List.mem_singleton, or_and_right, exists_or, exists_eq_left]
    rw [hnext, hjoined]
    exact (ih hbefore).handle (InStep.run config hbefore) hfits

/-- In every run that fits the links peers are looked for exactly while no peer of the room is
connected, once one has been. -/
theorem recovery_exact (config : SwarmConfig) {inputs : List Input}
    (h : FitsNetwork config inputs) :
    let s := (SwarmState.new config).run config inputs
    s.zeroPeerRecovery.active = true ↔
      s.connectedRoomPeers config = ∅ ∧ ∃ input ∈ inputs, input.2.joins config = true :=
  (Seeks.run config h).active_iff

/-- The address of a relay. -/
def relayAddress : Multiaddr := ⟨[.ip4 16909060, .p2p "r"], "/ip4/1.2.3.4/p2p/r"⟩

/-- A peer that knows a relay. -/
def relayed : SwarmConfig := ⟨"a", [relayAddress]⟩

/-- The relay is reached; a peer of the room comes and goes. -/
def shortVisit : List Input := [
  (calm 0, .connectionEstablished "r" 1 false),
  (calm 0, .connectionEstablished "b" 2 false),
  (calm (millis 1000), .connectionClosed "b" 2 false 0)]

/-- Then it is looked for. -/
theorem recovery_exact_shortVisit :
    ((SwarmState.new relayed).run relayed shortVisit).zeroPeerRecovery.active = true := by
  have hfits : FitsNetwork relayed shortVisit := by decide
  exact (recovery_exact relayed hfits).2 (by decide +kernel)

/-! ## What a search asks for -/

/-- Each of some items has something asked. -/
theorem exists_asked_foldl {α : Type} {f : SwarmState → α → SwarmState} {items : List α}
    {P : α → SwarmRequest → Prop} (hf : ∀ item ∈ items, ∀ t : SwarmState, t.opened = s.opened →
      (f t item).opened = t.opened ∧ ∃ asked, (f t item).requests = t.requests ++ asked ∧
        ∀ request, P item request → request ∈ asked) :
    ∃ asked, (items.foldl f s).requests = s.requests ++ asked ∧
      ∀ item ∈ items, ∀ request, P item request → request ∈ asked := by
  induction items generalizing s with
  | nil => exact ⟨[], (List.append_nil _).symm, by simp⟩
  | cons item items ih =>
    obtain ⟨hthis, hrest⟩ := List.forall_mem_cons.1 hf
    obtain ⟨hopened, asked, hasked, hall⟩ := hthis s rfl
    obtain ⟨later, hlater, hothers⟩ := ih (s := f s item) fun other hother t ht =>
      hrest other hother t (ht.trans hopened)
    refine ⟨asked ++ later, ?_, List.forall_mem_cons.2 ⟨?_, ?_⟩⟩
    · rw [List.foldl_cons, hlater, hasked, List.append_assoc]
    · exact fun request hrequest => List.mem_append_left _ (hall request hrequest)
    · exact fun other hother request hrequest =>
        List.mem_append_right _ (hothers other hother request hrequest)

/-- The connected rendezvous nodes are asked for all peers, and the others are dialled. -/
structure AsksAll (config : SwarmConfig) (s : SwarmState) (asked : List SwarmRequest) : Prop where
  /-- A connected node is asked. -/
  discovers : ∀ node ∈ config.rendezvousNodes, node ∈ s.connectedPeers →
    .discover node none ∈ asked
  /-- Another one is dialled, at every address. -/
  dials : ∀ relayAddr ∈ config.relayAddrs, ∀ node ∈ relayAddr.peerIdFromMultiaddr,
    node ∉ s.connectedPeers → .dial node [relayAddr] .disconnected ∈ asked

theorem mem_rendezvousNodes {node : PeerId} : node ∈ config.rendezvousNodes ↔
    ∃ relayAddr ∈ config.relayAddrs, relayAddr.peerIdFromMultiaddr = some node := by
  rw [SwarmConfig.rendezvousNodes, List.mem_toFinset, SwarmConfig.nodes, List.mem_dedup,
    List.mem_filterMap]

/-- Each node that is not connected is dialled. -/
theorem ensureRendezvousConnections_dials (config : SwarmConfig) (s : SwarmState) :
    ∃ asked, (s.ensureRendezvousConnections config).requests = s.requests ++ asked ∧
      ∀ relayAddr ∈ config.relayAddrs, ∀ request, (∃ node ∈ relayAddr.peerIdFromMultiaddr,
        node ∉ s.connectedPeers ∧ .dial node [relayAddr] .disconnected = request) →
          request ∈ asked := by
  refine exists_asked_foldl fun relayAddr haddr t ht => ?_
  have hpeers : t.connectedPeers = s.connectedPeers := congrArg (Finset.image _) ht
  unfold ensureRendezvousConnection
  split
  · rename_i hnone
    refine ⟨rfl, [], (List.append_nil _).symm, ?_⟩
    rintro request ⟨node, hnode, -⟩
    rw [hnone] at hnode
    cases hnode
  · rename_i peerId hsome
    have hroom : peerId ∈ config.rendezvousNodes :=
      mem_rendezvousNodes.2 ⟨relayAddr, haddr, hsome⟩
    split
    · rename_i hpassed
      have hconnected : peerId ∈ t.connectedPeers :=
        of_decide_eq_true (hpassed.resolve_left (not_not.2 hroom))
      refine ⟨rfl, [], (List.append_nil _).symm, ?_⟩
      rintro request ⟨node, hnode, hgone, -⟩
      rw [hsome] at hnode
      cases hnode
      exact absurd (hpeers ▸ hconnected) hgone
    · refine ⟨rfl, [.dial peerId [relayAddr] .disconnected], rfl, ?_⟩
      rintro request ⟨node, hnode, -, rfl⟩
      rw [hsome] at hnode
      cases hnode
      exact List.mem_singleton_self _

/-- Each connected node is asked for all peers. -/
theorem discoverRendezvousPeers_discovers (config : SwarmConfig) (env : SwarmEnv)
    (s : SwarmState) :
    ∃ asked, (s.discoverRendezvousPeers config env .full).requests = s.requests ++ asked ∧
      ∀ node ∈ env.order.list config.nodes, ∀ request,
        node ∈ s.connectedPeers ∧ .discover node none = request → request ∈ asked := by
  refine exists_asked_foldl fun node _ t ht => ?_
  have hpeers : t.connectedPeers = s.connectedPeers := congrArg (Finset.image _) ht
  split
  · refine ⟨rfl, [.discover node none], rfl, ?_⟩
    rintro request ⟨-, rfl⟩
    exact List.mem_singleton_self _
  · rename_i hgone
    refine ⟨rfl, [], (List.append_nil _).symm, ?_⟩
    rintro request ⟨hconnected, -⟩
    rw [← hpeers] at hconnected
    exact absurd (decide_eq_true hconnected) hgone

/-- A search asks for all of this. -/
theorem runZeroPeerRecovery_asksAll (config : SwarmConfig) (env : SwarmEnv) (s : SwarmState) :
    ∃ asked, (s.runZeroPeerRecovery config env).requests = s.requests ++ asked ∧
      AsksAll config s asked := by
  let dialled := s.ensureRendezvousConnections config
  let registered := dialled.registerWithRendezvousNodes config env
  have hdialled : dialled.opened = s.opened :=
    (s.ensureRendezvousConnections_works config fun _ => False).frame.1
  have hregistered := dialled.registerWithRendezvousNodes_works config env fun _ => False
  have hpeers : registered.connectedPeers = s.connectedPeers :=
    congrArg (Finset.image _) (hregistered.frame.1.trans hdialled)
  obtain ⟨dials, hdials, hdialsAll⟩ := s.ensureRendezvousConnections_dials config
  obtain ⟨registers, hregisters, -⟩ := hregistered.requests
  obtain ⟨discovers, hdiscovers, hdiscoversAll⟩ :=
    registered.discoverRendezvousPeers_discovers config env
  refine ⟨dials ++ registers ++ discovers, ?_, fun node hnode hconnected => ?_,
    fun relayAddr haddr node hnode hgone => ?_⟩
  · calc (s.runZeroPeerRecovery config env).requests
        = registered.requests ++ discovers := hdiscovers
      _ = dialled.requests ++ registers ++ discovers := congrArg (· ++ discovers) hregisters
      _ = s.requests ++ dials ++ registers ++ discovers :=
        congrArg (· ++ registers ++ discovers) hdials
      _ = s.requests ++ (dials ++ registers ++ discovers) := by simp only [List.append_assoc]
  · refine List.mem_append_right _ (hdiscoversAll node ?_ _ ⟨hpeers ▸ hconnected, rfl⟩)
    exact (env.order.perm config.nodes).mem_iff.2 (List.mem_toFinset.1 hnode)
  · exact List.mem_append_left _ (List.mem_append_left _
      (hdialsAll relayAddr haddr _ ⟨node, hnode, hgone, rfl⟩))

/-! ## Searches go on -/

/-- A look that is due asks every connected rendezvous node and dials every other one. -/
theorem tick_asksAll (config : SwarmConfig) {env : SwarmEnv} {s : SwarmState}
    (hdue : (s.zeroPeerRecovery.popDueDiscovery env.now).1 = true) :
    ∃ asked, (s.handle config env .zeroPeerRecoveryTick).requests = s.requests ++ asked ∧
      AsksAll config s asked := by
  obtain ⟨asked, hasked, hall⟩ := runZeroPeerRecovery_asksAll config env
    { s with zeroPeerRecovery := (s.zeroPeerRecovery.popDueDiscovery env.now).2 }
  refine ⟨asked, ?_, hall.discovers, hall.dials⟩
  unfold SwarmState.handle
  dsimp only
  rw [if_pos hdue]
  exact hasked

/-- What an event does to the search: it ends it if a peer of the room is reached, begins it, or
polls it. -/
theorem handle_recovery (config : SwarmConfig) (env : SwarmEnv) (s : SwarmState)
    (event : SwarmEvent) :
    (s.handle config env event).zeroPeerRecovery = s.zeroPeerRecovery ∨
      ∃ call, (s.handle config env event).zeroPeerRecovery = (s.zeroPeerRecovery.call call).2 ∧
        (call = .finish ∧ event.joins config = true ∨ call = .start env.now ∨
          call = .popDueDiscovery env.now ∧ event = .zeroPeerRecoveryTick) := by
  rw [handle_search]
  cases event with
  | connectionEstablished peerId connectionId isRelayed =>
    dsimp only [searchNext]
    split
    · exact .inl rfl
    · rename_i hroom
      exact .inr ⟨.finish, rfl, .inl ⟨rfl, decide_eq_true hroom⟩⟩
  | connectionClosed peerId connectionId wasRelayed numEstablished =>
    dsimp only [searchNext]
    split
    · exact .inr ⟨.start env.now, rfl, .inr (.inl rfl)⟩
    · exact .inl rfl
  | zeroPeerRecoveryTick => exact .inr ⟨.popDueDiscovery env.now, rfl, .inr (.inr ⟨rfl, rfl⟩)⟩
  | _ => exact .inl rfl

/-- The times of a run's events. -/
def times (inputs : List Input) : List Instant := inputs.map fun input => input.1.now

/-- The deadlines of the search are in order after every run. -/
theorem recovery_invariant (config : SwarmConfig) (inputs : List Input) :
    ((SwarmState.new config).run config inputs).zeroPeerRecovery.Invariant (times inputs) := by
  induction inputs using List.reverseRecOn with
  | nil => exact ZeroPeerRecovery.invariant_default
  | append_singleton inputs input ih =>
    have hnext : (SwarmState.new config).run config (inputs ++ [input]) =
        ((SwarmState.new config).run config inputs).handle config input.1 input.2 :=
      List.foldl_concat ..
    have htimes : times (inputs ++ [input]) = times inputs ++ [input.1.now] := List.map_append ..
    have hmono := ih.mono (List.subset_append_left (times inputs) [input.1.now])
    rw [hnext, htimes]
    rcases handle_recovery config input.1 _ input.2 with hsame | ⟨call, hcall, hcase⟩
    · rw [hsame]
      exact hmono
    · rw [hcall]
      refine hmono.call fun now hnow => List.mem_append_right _ ?_
      rcases hcase with ⟨rfl, -⟩ | rfl | ⟨rfl, -⟩
      · cases hnow
      · cases hnow
        exact List.mem_singleton_self _
      · cases hnow
        exact List.mem_singleton_self _

/-- While nobody of the room is reached, some look finds that it is time to search: the last one,
after a deadline, or one before it. -/
theorem exists_due {later : List Input} {last : SwarmEnv} {deadline : Instant}
    (hactive : s.zeroPeerRecovery.active = true)
    (hsorted : s.zeroPeerRecovery.discoverDeadlines.Pairwise (· ≤ ·))
    (hdeadline : deadline ∈ s.zeroPeerRecovery.discoverDeadlines) (hpassed : deadline ≤ last.now)
    (hnobody : ∀ input ∈ later, input.2.joins config = false) :
    ∃ past tick rest, later ++ [(last, .zeroPeerRecoveryTick)] =
        past ++ (tick, .zeroPeerRecoveryTick) :: rest ∧
      ((s.run config past).zeroPeerRecovery.popDueDiscovery tick.now).1 = true := by
  induction later generalizing s with
  | nil =>
    refine ⟨[], last, [], rfl, ?_⟩
    change (s.zeroPeerRecovery.popDueDiscovery last.now).1 = true
    rw [(ZeroPeerRecovery.popDueDiscovery_of_active hactive last.now).1, popDue_fst_iff hsorted]
    exact ⟨deadline, hdeadline, hpassed⟩
  | cons input later ih =>
    obtain ⟨hthis, hrest⟩ := List.forall_mem_cons.1 hnobody
    obtain ⟨env, event⟩ := input
    -- the search is as it was, and some look among the others is due
    have hothers : (s.handle config env event).zeroPeerRecovery = s.zeroPeerRecovery →
        ∃ past tick rest, (env, event) :: later ++ [(last, .zeroPeerRecoveryTick)] =
            past ++ (tick, .zeroPeerRecoveryTick) :: rest ∧
          ((s.run config past).zeroPeerRecovery.popDueDiscovery tick.now).1 = true := by
      intro hsame
      rw [← hsame] at hactive hsorted hdeadline
      obtain ⟨past, tick, rest, hsplit, hdue⟩ := ih hactive hsorted hdeadline hrest
      exact ⟨(env, event) :: past, tick, rest, congrArg (List.cons _) hsplit, hdue⟩
    rcases handle_recovery config env s event with hsame | ⟨call, hcall, hcase⟩
    · exact hothers hsame
    · rcases hcase with ⟨-, hjoins⟩ | rfl | ⟨rfl, rfl⟩
      · rw [hthis] at hjoins
        cases hjoins
      · refine hothers (hcall.trans ?_)
        exact congrArg Prod.snd (ZeroPeerRecovery.start_of_active hactive env.now)
      · by_cases hdue : (s.zeroPeerRecovery.popDueDiscovery env.now).1 = true
        · exact ⟨[], env, _, rfl, hdue⟩
        · exact hothers (hcall.trans
            (ZeroPeerRecovery.popDueDiscovery_of_not_due (Bool.eq_false_iff.2 hdue)))

/-- If nobody of the room is connected, but somebody has been, then after any look at the search
there is, within the interval, one that asks every connected rendezvous node for all peers and
dials every other one, unless somebody of the room is reached before. -/
theorem peers_searched_again (config : SwarmConfig) {before later : List Input}
    {env last : SwarmEnv} (h : FitsNetwork config before)
    (halone : ((SwarmState.new config).run config before).connectedRoomPeers config = ∅)
    (hjoined : ∃ input ∈ before, input.2.joins config = true)
    (hclock : ∀ input ∈ before, input.1.now ≤ env.now)
    (hnobody : ∀ input ∈ later, input.2.joins config = false)
    (hlate : env.now + rendezvousDiscoverInterval ≤ last.now) :
    ∃ past tick rest, later ++ [(last, .zeroPeerRecoveryTick)] =
        past ++ (tick, .zeroPeerRecoveryTick) :: rest ∧
      let s := (SwarmState.new config).run config (before ++ (env, .zeroPeerRecoveryTick) :: past)
      ∃ asked, (s.handle config tick .zeroPeerRecoveryTick).requests = s.requests ++ asked ∧
        (∀ node ∈ config.rendezvousNodes, node ∈ s.connectedPeers →
          .discover node none ∈ asked) ∧
        ∀ relayAddr ∈ config.relayAddrs, ∀ node ∈ relayAddr.peerIdFromMultiaddr,
          node ∉ s.connectedPeers → .dial node [relayAddr] .disconnected ∈ asked := by
  set alone := (SwarmState.new config).run config before with hrun
  have hactive : alone.zeroPeerRecovery.active = true :=
    (Seeks.run config h).active_iff.2 ⟨halone, hjoined⟩
  have hinvariant : alone.zeroPeerRecovery.Invariant (times before) :=
    recovery_invariant config before
  have hpolled : (alone.handle config env .zeroPeerRecoveryTick).zeroPeerRecovery =
      (alone.zeroPeerRecovery.popDueDiscovery env.now).2 := alone.handle_search config env _
  have hstill := (ZeroPeerRecovery.popDueDiscovery_of_active hactive env.now).2.1
  have hafter := (hinvariant.mono (List.subset_cons_self env.now _)).popDueDiscovery
    List.mem_cons_self
  have hnow : ∀ time ∈ times before, time ≤ env.now := by
    intro time htime
    obtain ⟨input, hinput, rfl⟩ := List.mem_map.1 htime
    exact hclock input hinput
  obtain ⟨deadline, hdeadline, -, hsoon⟩ := hinvariant.exists_pending hnow hactive
  rw [← hpolled] at hstill hafter hdeadline
  obtain ⟨past, tick, rest, hsplit, hdue⟩ :=
    exists_due hstill hafter.sorted hdeadline (hsoon.trans hlate) hnobody
  refine ⟨past, tick, rest, hsplit, ?_⟩
  have hstate : (SwarmState.new config).run config
      (before ++ (env, .zeroPeerRecoveryTick) :: past) =
        (alone.handle config env .zeroPeerRecoveryTick).run config past := List.foldl_append ..
  rw [hstate]
  obtain ⟨asked, hasked, hall⟩ := tick_asksAll config hdue
  exact ⟨asked, hasked, hall.discovers, hall.dials⟩

/-- A second after the visit there is a look, and half a minute later another one. -/
theorem peers_searched_again_shortVisit :
    "r" ∈ ((SwarmState.new relayed).run relayed shortVisit).connectedPeers ∧
    ∃ past tick rest, [] ++ [(calm (millis 32000), .zeroPeerRecoveryTick)] =
        past ++ (tick, .zeroPeerRecoveryTick) :: rest ∧
      let s := (SwarmState.new relayed).run relayed
        (shortVisit ++ (calm (millis 2000), .zeroPeerRecoveryTick) :: past)
      ∃ asked, (s.handle relayed tick .zeroPeerRecoveryTick).requests = s.requests ++ asked ∧
        (∀ node ∈ relayed.rendezvousNodes, node ∈ s.connectedPeers →
          .discover node none ∈ asked) ∧
        ∀ relayAddr ∈ relayed.relayAddrs, ∀ node ∈ relayAddr.peerIdFromMultiaddr,
          node ∉ s.connectedPeers → .dial node [relayAddr] .disconnected ∈ asked := by
  have hfits : FitsNetwork relayed shortVisit := by decide
  exact ⟨by decide +kernel, peers_searched_again relayed hfits (by decide +kernel) (by decide)
    (by decide) (by simp) (by decide)⟩

end SwarmState

end LightEar
