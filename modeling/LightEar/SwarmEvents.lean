import LightEar.SwarmEffects

/-!
# What an event can do

Between two reports of the network layer the program searches for peers, notes the marks of
rendezvous nodes and makes calls that close nothing (`Works`).  The functions are walked over once:
on every event there is at most one other call, such work follows it, and the search for peers is
begun, polled or ended (`handle_spec`).
-/

namespace LightEar

open Foundation

/-! ## Work between reports -/

/-- Whether a request closes a connection. -/
def SwarmRequest.Closes (connectionId : ConnectionId) : SwarmRequest → Prop
  | closeConnections connectionIds => connectionId ∈ connectionIds
  | _ => False

/-- An effect closes what it asks to close. -/
theorem ConnectionEffect.closes_iff_of_request {effect : ConnectionEffect} {asked : SwarmRequest}
    (h : effect.request? = some asked) {id : ConnectionId} :
    effect.Closes id ↔ asked.Closes id := by
  cases effect with
  | dialDirect peerId addresses => cases h; rfl
  | closeRelayConnections peerId connectionIds reason => cases h; rfl
  | closeEarlyDirectConnection peerId connectionId =>
    cases h
    exact Finset.mem_singleton.symm
  | _ => cases h

/-- Calls that may close nothing close nothing. -/
theorem ConnectionState.callAll_not_closes {s : ConnectionState} {now : Instant}
    {calls : List ConnectionCall} (h : ∀ call ∈ calls, call.licence = .nothing) :
    ∀ effect ∈ (callAll now calls s).effects, ∀ id, ¬ effect.Closes id := by
  induction calls generalizing s with
  | nil => exact fun effect heffect => absurd heffect List.not_mem_nil
  | cons call calls ih =>
    obtain ⟨hthis, hrest⟩ := List.forall_mem_cons.1 h
    have hlawful := s.call_lawful now call
    rw [hthis] at hlawful
    intro effect heffect
    rcases List.mem_append.1 heffect with hfirst | hlater
    · exact hlawful.not_closes effect hfirst
    · exact ih hrest effect hlater

/-- A call that reports nothing and closes nothing, and that concerns the gossip layer as given. -/
structure ConnectionCall.Plain (G : Toggle PeerId → Prop) (call : ConnectionCall) : Prop where
  /-- Nothing is reported. -/
  report : call.isReport = false
  /-- Nothing may be closed. -/
  licence : call.licence = .nothing
  /-- Who is kept or dropped may be so. -/
  gossip : ∀ toggle ∈ call.gossip?, G toggle

namespace SwarmState

variable {config : SwarmConfig} {links : Links} {env : SwarmEnv} {G : Toggle PeerId → Prop}
  {s t u : SwarmState}

section Tell

variable (env) (calls : List ConnectionCall) (s)

theorem tell_carriesOut :
    CarriesOut (s.connections.callAll env.now calls).effects
      { s with connections := (s.connections.callAll env.now calls).state } (s.tell env calls) :=
  applyConnectionEffects_carriesOut env _ _

theorem tell_opened : (s.tell env calls).opened = s.opened := (s.tell_carriesOut env calls).opened

theorem tell_recovery : (s.tell env calls).zeroPeerRecovery = s.zeroPeerRecovery :=
  (s.tell_carriesOut env calls).recovery

theorem tell_requests : (s.tell env calls).requests = s.requests ++
    (s.connections.callAll env.now calls).effects.filterMap ConnectionEffect.request? :=
  (s.tell_carriesOut env calls).requests

/-- What calls do to the peers that the gossip layer is to keep. -/
theorem tell_gossipPeers : (s.tell env calls).connections.gossipPeers =
    (calls.filterMap ConnectionCall.gossip?).foldl Toggle.apply s.connections.gossipPeers := by
  obtain ⟨failures, hfailures⟩ := (s.tell_carriesOut env calls).failures
  rw [hfailures, ConnectionState.failAll_gossipPeers]
  exact s.connections.callAll_gossipPeers env.now calls

end Tell

/-- What the program does between two reports: it searches for peers, notes marks of rendezvous
nodes and makes plain calls. -/
inductive Works (G : Toggle PeerId → Prop) (s : SwarmState) : SwarmState → Prop
  | start : Works G s s
  | ask {t : SwarmState} (h : Works G s t) (asked : SwarmRequest)
      (hsearch : asked.ofEffect = false) : Works G s (t.request asked)
  | note {t : SwarmState} (h : Works G s t) (cookies : AList fun _ : PeerId => Cookie) :
      Works G s { t with rendezvousCookies := cookies }
  | tell {t : SwarmState} (h : Works G s t) (env : SwarmEnv) (calls : List ConnectionCall)
      (hplain : ∀ call ∈ calls, call.Plain G) : Works G s (t.tell env calls)

namespace Works

theorem trans (h : Works G s t) (hlater : Works G t u) : Works G s u := by
  induction hlater with
  | start => exact h
  | ask _ asked hsearch ih => exact ih.ask asked hsearch
  | note _ cookies ih => exact ih.note cookies
  | tell _ env calls hplain ih => exact ih.tell env calls hplain

/-- Neither connections are reported nor is the search begun or ended. -/
theorem frame (h : Works G s t) :
    t.opened = s.opened ∧ t.zeroPeerRecovery = s.zeroPeerRecovery := by
  induction h with
  | start => exact ⟨rfl, rfl⟩
  | ask _ _ _ ih => exact ih
  | note _ _ ih => exact ih
  | tell _ env calls _ ih =>
    exact ⟨(tell_opened env _ calls).trans ih.1, (tell_recovery env _ calls).trans ih.2⟩

/-- The search is as it was. -/
theorem keeps_search (h : Works G t u) (ht : t.zeroPeerRecovery = s.zeroPeerRecovery) :
    u = { u with zeroPeerRecovery := s.zeroPeerRecovery } := by
  rw [← ht, ← h.frame.2]

/-- Work for each of some items, one after the other. -/
theorem foldl {α : Type} {f : SwarmState → α → SwarmState} {items : List α}
    (hf : ∀ item ∈ items, ∀ t : SwarmState, t.opened = s.opened → Works G t (f t item)) :
    Works G s (items.foldl f s) := by
  induction items generalizing s with
  | nil => exact .start
  | cons item items ih =>
    obtain ⟨hthis, hrest⟩ := List.forall_mem_cons.1 hf
    have hfirst := hthis s rfl
    refine hfirst.trans (ih fun other hother t ht => ?_)
    exact hrest other hother t (ht.trans hfirst.frame.1)

/-- The connection state keeps up with the links, of which nothing is reported. -/
theorem inStep (h : Works G s t) (hs : InStep config links s) : InStep config links t := by
  refine ⟨h.frame.1.trans hs.opened, ?_⟩
  induction h with
  | start => exact hs.follows
  | ask _ asked hsearch ih =>
    obtain ⟨history, hfollows⟩ := ih
    refine ⟨history, hfollows.fits, hfollows.links, hfollows.connections, hfollows.gossip, ?_⟩
    have hrequests := hfollows.requests
    unfold request
    rw [List.filter_append, List.filter_singleton, hsearch]
    exact (congrArg (· ++ _) (List.append_nil _)).trans hrequests
  | note _ cookies ih =>
    obtain ⟨history, hfollows⟩ := ih
    exact ⟨history, hfollows.fits, hfollows.links, hfollows.connections, hfollows.gossip,
      hfollows.requests⟩
  | tell _ env calls hplain ih =>
    obtain ⟨history, hfollows⟩ := ih
    have hsame : Along Links.next Links.Allows links calls ∧
        calls.foldl Links.next links = links := by
      clear hfollows
      induction calls with
      | nil => exact ⟨trivial, rfl⟩
      | cons call calls ih =>
        obtain ⟨hthis, hrest⟩ := List.forall_mem_cons.1 hplain
        obtain ⟨hnext, hallows⟩ := Links.next_of_not_isReport hthis.report links
        obtain ⟨hlater, hlast⟩ := ih hrest
        refine ⟨⟨hallows, ?_⟩, ?_⟩
        · rw [hnext]
          exact hlater
        · rw [List.foldl_cons, hnext]
          exact hlast
    obtain ⟨later, hlater⟩ := hfollows.tell env hsame.1
    rw [hsame.2] at hlater
    exact ⟨later, hlater⟩

/-- What the gossip layer is told is as given. -/
theorem toggles (h : Works G s t) : ∃ log : List (Toggle PeerId), (∀ toggle ∈ log, G toggle) ∧
    t.connections.gossipPeers = log.foldl Toggle.apply s.connections.gossipPeers := by
  induction h with
  | start => exact ⟨[], by simp, rfl⟩
  | ask _ _ _ ih => exact ih
  | note _ _ ih => exact ih
  | tell _ env calls hplain ih =>
    obtain ⟨log, hlog, hgossip⟩ := ih
    refine ⟨log ++ calls.filterMap ConnectionCall.gossip?, ?_, ?_⟩
    · refine List.forall_mem_append.2 ⟨hlog, fun toggle htoggle => ?_⟩
      obtain ⟨call, hcall, hmem⟩ := List.mem_filterMap.1 htoggle
      exact (hplain call hcall).gossip toggle hmem
    · rw [tell_gossipPeers, hgossip, List.foldl_append]

/-- What is asked on the way closes nothing. -/
theorem requests (h : Works G s t) : ∃ asked, t.requests = s.requests ++ asked ∧
    ∀ request ∈ asked, ∀ id, ¬ request.Closes id := by
  induction h with
  | start => exact ⟨[], (List.append_nil _).symm, by simp⟩
  | ask _ request hsearch ih =>
    obtain ⟨asked, hasked, hnone⟩ := ih
    refine ⟨asked ++ [request], ?_, ?_⟩
    · rw [SwarmState.request, hasked, List.append_assoc]
    · refine List.forall_mem_append.2 ⟨hnone, List.forall_mem_singleton.2 fun id hcloses => ?_⟩
      cases request with
      | closeConnections ids => cases hsearch
      | _ => exact hcloses
  | note _ _ ih => exact ih
  | @tell t _ env calls hplain ih =>
    obtain ⟨asked, hasked, hnone⟩ := ih
    let told := (t.connections.callAll env.now calls).effects.filterMap ConnectionEffect.request?
    refine ⟨asked ++ told, ?_, ?_⟩
    · rw [tell_requests, hasked, List.append_assoc]
    · refine List.forall_mem_append.2 ⟨hnone, fun request hrequest id => ?_⟩
      obtain ⟨effect, heffect, hthis⟩ := List.mem_filterMap.1 hrequest
      rw [← ConnectionEffect.closes_iff_of_request hthis]
      exact ConnectionState.callAll_not_closes (fun call hcall => (hplain call hcall).licence)
        effect heffect id

end Works

/-! ## Searches and registrations -/

section Work

variable (config env G s)

theorem registerWithRendezvousNode_works (rendezvousNode : PeerId) :
    Works G s (s.registerWithRendezvousNode env rendezvousNode) := by
  unfold registerWithRendezvousNode
  split
  · exact Works.start.ask _ rfl
  · exact .start

theorem forConnectedNodes_works {f : PeerId → SwarmState → SwarmState}
    (hf : ∀ node t, Works G t (f node t)) :
    Works G s (s.forConnectedNodes config env f) := by
  refine Works.foldl fun node _ t _ => ?_
  split
  · exact hf node t
  · exact .start

theorem registerWithRendezvousNodes_works :
    Works G s (s.registerWithRendezvousNodes config env) :=
  s.forConnectedNodes_works config env G fun node t => t.registerWithRendezvousNode_works env G node

theorem discoverRendezvousPeers_works (mode : RendezvousDiscoverMode) :
    Works G s (s.discoverRendezvousPeers config env mode) :=
  s.forConnectedNodes_works config env G fun _ _ => Works.start.ask _ rfl

theorem ensureRendezvousConnections_works :
    Works G s (s.ensureRendezvousConnections config) := by
  refine Works.foldl fun relayAddr _ t _ => ?_
  unfold ensureRendezvousConnection
  split
  · exact .start
  · split
    · exact .start
    · exact Works.start.ask _ rfl

theorem runZeroPeerRecovery_works : Works G s (s.runZeroPeerRecovery config env) := by
  have hconnected := s.ensureRendezvousConnections_works config G
  have hregistered := (s.ensureRendezvousConnections config).registerWithRendezvousNodes_works
    config env G
  exact (hconnected.trans hregistered).trans (discoverRendezvousPeers_works config env G _ .full)

variable {G s}

/-- Only connected peers among the registered ones are kept. -/
theorem dialRegistration_works (hG : ∀ peerId ∈ s.connectedPeers, G (.add peerId))
    (registration : RendezvousRegistration) :
    Works G s (s.dialRegistration config env registration).2 := by
  unfold dialRegistration
  dsimp only
  split
  · exact .start
  · split
    · exact .start
    · split
      · rename_i hconnected
        refine Works.start.tell _ _ (List.forall_mem_cons.2 ⟨⟨rfl, rfl, ?_⟩,
          List.forall_mem_singleton.2 ⟨rfl, rfl, nofun⟩⟩)
        intro toggle htoggle
        cases htoggle
        exact hG _ (of_decide_eq_true hconnected)
      · exact Works.start.ask _ rfl

theorem dialRendezvousRegistrations_works (hG : ∀ peerId ∈ s.connectedPeers, G (.add peerId))
    (registrations : List (RendezvousRegistration × Nat)) :
    Works G s (s.dialRendezvousRegistrations config env registrations).2 := by
  induction registrations generalizing s with
  | nil => exact .start
  | cons registration registrations ih =>
    have hthis := dialRegistration_works config (env.forItem registration.2) hG registration.1
    refine hthis.trans (ih fun peerId hpeer => hG peerId ?_)
    unfold connectedPeers at hpeer ⊢
    rwa [hthis.frame.1] at hpeer

end Work

/-- What an event other than a report may tell the gossip layer. -/
def Gossips (s : SwarmState) : SwarmEvent → Toggle PeerId → Prop
  | .mdnsDiscovered list, toggle => ∃ found ∈ list, toggle = .add found.1
  | .mdnsExpired list, toggle =>
    ∃ lost ∈ list, lost.1 ∉ s.connectedPeers ∧ toggle = .drop lost.1
  | .rendezvousDiscovered .., toggle => ∃ peerId ∈ s.connectedPeers, toggle = .add peerId
  | _, _ => False

end SwarmState

/-! ## The reaction to an event -/

/-- What an event tells the connection state of the links. -/
def SwarmEvent.report? (config : SwarmConfig) : SwarmEvent → Option ConnectionCall
  | connectionEstablished peerId connectionId isRelayed => some (.connectionEstablished peerId
      connectionId isRelayed (decide (peerId ∈ config.rendezvousNodes)))
  | connectionClosed peerId connectionId wasRelayed numEstablished =>
    some (.connectionClosed peerId connectionId wasRelayed numEstablished)
  | subscribed peerId => some (.chatSubscribed peerId)
  | unsubscribed peerId => some (.chatUnsubscribed peerId)
  | _ => none

/-- The call that comes first on an event, if it is not plain. -/
def SwarmEvent.call? (config : SwarmConfig) (env : SwarmEnv) : SwarmEvent → Option ConnectionCall
  | gossipWarmupTick => some (.warmupTick env.order)
  | event => event.report? config

namespace SwarmState

/-- The open connections after an event. -/
def openedNext (s : SwarmState) : SwarmEvent → Finset Connection
  | .connectionEstablished peerId connectionId isRelayed =>
    insert ⟨peerId, connectionId, isRelayed⟩ s.opened
  | .connectionClosed peerId connectionId wasRelayed _ =>
    s.opened.erase ⟨peerId, connectionId, wasRelayed⟩
  | _ => s.opened

/-- The connections as they are after an event. -/
def relink (s : SwarmState) (event : SwarmEvent) : SwarmState :=
  { s with opened := s.openedNext event }

/-- An event is reported: what comes of it first. -/
def reported (config : SwarmConfig) (env : SwarmEnv) (s : SwarmState) (event : SwarmEvent) :
    SwarmState :=
  match event.call? config env with
  | some call => (s.relink event).tell env [call]
  | none => s.relink event

/-- The search after an event: it ends when a peer of the room is reached, and begins when the last
one has gone. -/
def searchNext (config : SwarmConfig) (env : SwarmEnv) (s : SwarmState) (event : SwarmEvent) :
    ZeroPeerRecovery :=
  match event with
  | .connectionEstablished peerId _ _ =>
    if peerId ∈ config.rendezvousNodes then s.zeroPeerRecovery else s.zeroPeerRecovery.finish.2
  | .connectionClosed peerId _ _ numEstablished =>
    if numEstablished = 0 ∧ (s.relink event).connectedRoomPeers config = ∅ ∧
        peerId ∉ config.rendezvousNodes then (s.zeroPeerRecovery.start env.now).2
    else s.zeroPeerRecovery
  | .zeroPeerRecoveryTick => (s.zeroPeerRecovery.popDueDiscovery env.now).2
  | _ => s.zeroPeerRecovery

variable (config : SwarmConfig) (env : SwarmEnv) (s : SwarmState)

theorem reported_opened (event : SwarmEvent) :
    (s.reported config env event).opened = s.openedNext event := by
  unfold reported
  split
  · exact tell_opened env _ _
  · rfl

theorem reported_recovery (event : SwarmEvent) :
    (s.reported config env event).zeroPeerRecovery = s.zeroPeerRecovery := by
  unfold reported
  split
  · exact tell_recovery env _ _
  · rfl

/-- What a report tells the gossip layer. -/
theorem reported_gossipPeers (event : SwarmEvent) :
    (s.reported config env event).connections.gossipPeers =
      ((event.call? config env).bind ConnectionCall.gossip?).toList.foldl Toggle.apply
        s.connections.gossipPeers := by
  unfold reported
  split
  · rename_i call hcall
    rw [tell_gossipPeers, hcall, List.filterMap_cons, List.filterMap_nil]
    cases hgossip : call.gossip? <;> rw [Option.bind_some, hgossip] <;> rfl
  · rename_i hcall
    rw [hcall]
    rfl

theorem connectedRoomPeers_congr {t : SwarmState} (h : t.opened = s.opened) :
    t.connectedRoomPeers config = s.connectedRoomPeers config :=
  congrArg (fun opened => Finset.image Connection.peerId opened \ config.rendezvousNodes) h

/-- After a connection has been opened a rendezvous node is asked, and the search ends if the peer
is one of the room. -/
theorem handleEstablished_spec (peerId : PeerId) (connectionId : ConnectionId)
    (isRelayed : Bool) :
    let event := SwarmEvent.connectionEstablished peerId connectionId isRelayed
    ∃ u, Works (fun _ => False) (s.reported config env event) u ∧
      s.handle config env event = { u with zeroPeerRecovery := s.searchNext config env event } := by
  intro event
  let told := s.reported config env event
  let isNode := decide (peerId ∈ config.rendezvousNodes)
  let asked := if isNode then (told.registerWithRendezvousNode env peerId).discoverRendezvousNode
    peerId (told.rendezvousCookies.lookup peerId) else told
  have hhandle : s.handle config env event =
      if 0 < asked.connectedRoomPeerCount config ∧ !isNode then
        { asked with zeroPeerRecovery := asked.zeroPeerRecovery.finish.2 } else asked := rfl
  have hworks : Works (fun _ => False) told asked := by
    dsimp only [asked]
    split
    · exact (told.registerWithRendezvousNode_works env _ peerId).ask _ rfl
    · exact .start
  have hsearch : told.zeroPeerRecovery = s.zeroPeerRecovery := s.reported_recovery config env event
  refine ⟨asked, hworks, ?_⟩
  rw [hhandle, searchNext]
  by_cases hnode : peerId ∈ config.rendezvousNodes
  · have hpassed : ¬ (!isNode) = true := by simp [isNode, hnode]
    rw [if_neg fun hboth => hpassed hboth.2, if_pos hnode]
    exact hworks.keeps_search hsearch
  · have hroom : 0 < asked.connectedRoomPeerCount config := by
      have hpeers := connectedRoomPeers_congr config (s.relink event)
        (hworks.frame.1.trans (s.reported_opened config env event))
      rw [connectedRoomPeerCount, hpeers, Finset.card_pos]
      exact ⟨peerId, Finset.mem_sdiff.2
        ⟨Finset.mem_image.2 ⟨_, Finset.mem_insert_self _ _, rfl⟩, hnode⟩⟩
    have hpassed : (!isNode) = true := by simp [isNode, hnode]
    rw [if_pos ⟨hroom, hpassed⟩, if_neg hnode, hworks.frame.2, hsearch]

/-- After a connection has been closed the search begins if no peer of the room is left. -/
theorem handleClosed_spec (peerId : PeerId) (connectionId : ConnectionId) (wasRelayed : Bool)
    (numEstablished : Nat) :
    let event := SwarmEvent.connectionClosed peerId connectionId wasRelayed numEstablished
    s.handle config env event = { s.reported config env event with
      zeroPeerRecovery := s.searchNext config env event } := by
  intro event
  let told := s.reported config env event
  have hhandle : s.handle config env event =
      if numEstablished = 0 ∧ told.connectedRoomPeerCount config = 0 ∧
          peerId ∉ config.rendezvousNodes then
        { told with zeroPeerRecovery := (told.zeroPeerRecovery.start env.now).2 } else told := rfl
  have hsearch : told.zeroPeerRecovery = s.zeroPeerRecovery := s.reported_recovery config env event
  have hpeers := connectedRoomPeers_congr config (s.relink event)
    (s.reported_opened config env event)
  have hcount : told.connectedRoomPeerCount config = 0 ↔
      (s.relink event).connectedRoomPeers config = ∅ := by
    rw [connectedRoomPeerCount, hpeers, Finset.card_eq_zero]
  rw [hhandle, searchNext]
  simp only [hcount, hsearch]
  split
  · rfl
  · exact (Works.start (G := fun _ => False)).keeps_search hsearch

/-- The reaction to an event: it is reported, and work follows.  A look polls the search before, and
other events leave it or change it at the end. -/
theorem handle_spec (event : SwarmEvent) : ∃ u search, Works (s.Gossips event)
      { s.reported config env event with zeroPeerRecovery := search } u ∧
    s.handle config env event = { u with zeroPeerRecovery := s.searchNext config env event } := by
  have hstart : ∀ {event}, Works (s.Gossips event) (s.reported config env event)
      (s.handle config env event) → s.searchNext config env event = s.zeroPeerRecovery →
      ∃ u search, Works (s.Gossips event)
          { s.reported config env event with zeroPeerRecovery := search } u ∧
        s.handle config env event =
          { u with zeroPeerRecovery := s.searchNext config env event } := by
    intro event hworks hsame
    refine ⟨_, _, hworks, ?_⟩
    rw [hsame]
    exact hworks.keeps_search (s.reported_recovery config env event)
  have hquiet : ∀ call : ConnectionCall, call.isReport = false → call.licence = .nothing →
      call.gossip? = none → ∀ G, ∀ other ∈ [call], other.Plain G := by
    intro call hreport hlicence hgossip G
    refine List.forall_mem_singleton.2 ⟨hreport, hlicence, fun toggle htoggle => ?_⟩
    rw [hgossip] at htoggle
    cases htoggle
  cases event with
  | externalAddrConfirmed address =>
    refine hstart ?_ rfl
    unfold handle
    dsimp only
    split
    · exact s.registerWithRendezvousNodes_works config env _
    · exact .start
  | connectionEstablished peerId connectionId isRelayed =>
    obtain ⟨u, hworks, hhandle⟩ := s.handleEstablished_spec config env peerId connectionId isRelayed
    exact ⟨u, _, hworks, hhandle⟩
  | connectionClosed peerId connectionId wasRelayed numEstablished =>
    exact ⟨_, _, .start, s.handleClosed_spec config env peerId connectionId wasRelayed
      numEstablished⟩
  | mdnsDiscovered list =>
    refine hstart (Works.foldl fun found hfound t _ => Works.start.tell _ _ ?_) rfl
    refine List.forall_mem_cons.2 ⟨⟨rfl, rfl, ?_⟩, hquiet _ rfl rfl rfl _⟩
    rintro toggle ⟨⟩
    exact ⟨found.1, List.fst_mem_of_mem_zipIdx hfound, rfl⟩
  | mdnsExpired list =>
    refine hstart (Works.foldl fun lost hlost t ht => ?_) rfl
    have hforgotten : Works (s.Gossips (.mdnsExpired list)) t
        (t.tell env [.forgetDirectAddress lost.1 lost.2]) :=
      Works.start.tell _ _ (hquiet _ rfl rfl rfl _)
    unfold handleMdnsExpired
    dsimp only
    split
    · exact hforgotten
    · rename_i hgone
      refine hforgotten.tell _ _ (List.forall_mem_singleton.2 ⟨rfl, rfl, ?_⟩)
      rintro toggle ⟨⟩
      refine ⟨lost, hlost, fun hconnected => hgone (decide_eq_true ?_), rfl⟩
      unfold connectedPeers at hconnected ⊢
      rw [tell_opened, ht]
      exact hconnected
  | newExternalAddrOfPeer peerId address =>
    exact hstart (Works.start.tell _ _ (hquiet _ rfl rfl rfl _)) rfl
  | identified peerId listenAddrs =>
    exact hstart (Works.start.tell _ _ (hquiet _ rfl rfl rfl _)) rfl
  | rendezvousDiscovered rendezvousNode registrations cookie =>
    have hnoted : Works (s.Gossips (.rendezvousDiscovered rendezvousNode registrations cookie))
        s { s with rendezvousCookies := s.rendezvousCookies.insert rendezvousNode cookie } :=
      Works.start.note _
    refine hstart (hnoted.trans ?_) rfl
    refine dialRendezvousRegistrations_works config env ?_ registrations.zipIdx
    exact fun peerId hpeer => ⟨peerId, hpeer, rfl⟩
  | subscribed peerId => exact hstart .start rfl
  | unsubscribed peerId => exact hstart .start rfl
  | dcutr remotePeerId result =>
    cases result with
    | ok success => exact hstart (Works.start.tell _ _ (hquiet _ rfl rfl rfl _)) rfl
    | error error => exact hstart (Works.start.tell _ _ (hquiet _ rfl rfl rfl _)) rfl
  | outgoingConnectionError peerId error =>
    cases peerId with
    | none => exact hstart .start rfl
    | some peerId => exact hstart (Works.start.tell _ _ (hquiet _ rfl rfl rfl _)) rfl
  | directPromotionTick => exact hstart (Works.start.tell _ _ (hquiet _ rfl rfl rfl _)) rfl
  | gossipWarmupTick => exact hstart .start rfl
  | rendezvousRegisterTick => exact hstart (s.registerWithRendezvousNodes_works config env _) rfl
  | rendezvousDiscoverTick =>
    exact hstart (s.discoverRendezvousPeers_works config env _ .incremental) rfl
  | zeroPeerRecoveryTick =>
    let popped := { s with zeroPeerRecovery := (s.zeroPeerRecovery.popDueDiscovery env.now).2 }
    have hworks : Works (s.Gossips .zeroPeerRecoveryTick) popped
        (s.handle config env .zeroPeerRecoveryTick) := by
      unfold handle
      dsimp only
      split
      · exact popped.runZeroPeerRecovery_works config env _
      · exact .start
    exact ⟨_, _, hworks, hworks.keeps_search (s := popped) rfl⟩

/-- What the network layer has reported is so. -/
theorem handle_opened (event : SwarmEvent) :
    (s.handle config env event).opened = s.openedNext event := by
  obtain ⟨u, search, hworks, hhandle⟩ := s.handle_spec config env event
  rw [hhandle]
  exact hworks.frame.1.trans (s.reported_opened config env event)

/-- What becomes of the search. -/
theorem handle_search (event : SwarmEvent) :
    (s.handle config env event).zeroPeerRecovery = s.searchNext config env event := by
  obtain ⟨u, search, hworks, hhandle⟩ := s.handle_spec config env event
  rw [hhandle]

/-- What the gossip layer is told after the report. -/
theorem handle_toggles (event : SwarmEvent) : ∃ log : List (Toggle PeerId),
    (∀ toggle ∈ log, s.Gossips event toggle) ∧
      (s.handle config env event).connections.gossipPeers =
        log.foldl Toggle.apply (s.reported config env event).connections.gossipPeers := by
  obtain ⟨u, search, hworks, hhandle⟩ := s.handle_spec config env event
  obtain ⟨log, hlog, hgossip⟩ := hworks.toggles
  refine ⟨log, hlog, ?_⟩
  rw [hhandle]
  exact hgossip

end SwarmState

end LightEar
