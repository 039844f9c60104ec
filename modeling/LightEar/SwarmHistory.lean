import LightEar.SwarmEvents

/-!
# The network layer over whole runs

The network layer's reports are a history of links.  In every run that fits them the connection
state is that of a history of calls with the same links, and everything that its effects ask for is
done (`InStep.run`).  So what holds of the connection state over whole histories holds of the
program: no event cuts a peer off (`event_leaves_connection`).
-/

namespace LightEar

open Foundation

/-! ## Runs -/

/-- The links after an event. -/
def Links.hear (config : SwarmConfig) (links : Links) (event : SwarmEvent) : Links :=
  (event.report? config).elim links links.next

/-- The links after some events. -/
def heard (config : SwarmConfig) (inputs : List SwarmState.Input) : Links :=
  inputs.foldl (fun links input => links.hear config input.2) .none

/-- What the network layer reports fits the links: a new connection has a new name, a closed one
was open, and the number of those that remain is right. -/
def FitsNetwork (config : SwarmConfig) (inputs : List SwarmState.Input) : Prop :=
  Along (fun links input => links.hear config input.2)
    (fun (links : Links) (input : SwarmState.Input) =>
      ∀ call ∈ input.2.report? config, links.Allows call) .none inputs

instance (config : SwarmConfig) (inputs : List SwarmState.Input) :
    Decidable (FitsNetwork config inputs) := by
  unfold FitsNetwork
  infer_instance

theorem heard_snoc (config : SwarmConfig) (inputs : List SwarmState.Input)
    (input : SwarmState.Input) :
    heard config (inputs ++ [input]) = (heard config inputs).hear config input.2 :=
  List.foldl_concat ..

theorem fitsNetwork_snoc {config : SwarmConfig} {inputs : List SwarmState.Input}
    {input : SwarmState.Input} : FitsNetwork config (inputs ++ [input]) ↔
      FitsNetwork config inputs ∧
        ∀ call ∈ input.2.report? config, (heard config inputs).Allows call :=
  Along.append_iff.trans (and_congr_right fun _ => and_iff_left trivial)

section Hear

variable {config : SwarmConfig} {links : Links} {env : SwarmEnv} {event : SwarmEvent}

/-- A call that comes first tells of the links. -/
theorem Links.hear_of_call {call : ConnectionCall} (hcall : event.call? config env = some call)
    (hfits : ∀ call ∈ event.report? config, links.Allows call) :
    links.Allows call ∧ links.hear config event = links.next call := by
  cases event with
  | connectionEstablished peerId connectionId isRelayed => cases hcall; exact ⟨hfits _ rfl, rfl⟩
  | connectionClosed peerId connectionId wasRelayed numEstablished =>
    cases hcall
    exact ⟨hfits _ rfl, rfl⟩
  | subscribed peerId => cases hcall; exact ⟨hfits _ rfl, rfl⟩
  | unsubscribed peerId => cases hcall; exact ⟨hfits _ rfl, rfl⟩
  | gossipWarmupTick => cases hcall; exact ⟨trivial, rfl⟩
  | _ => cases hcall

/-- Without such a call nothing is told. -/
theorem Links.hear_of_no_call (hcall : event.call? config env = .none) :
    links.hear config event = links := by
  cases event <;> first | rfl | cases hcall

/-- The network layer has the connections that it has told of. -/
theorem SwarmState.openedNext_eq (config : SwarmConfig) {s : SwarmState}
    (h : s.opened = links.opened) (event : SwarmEvent) :
    s.openedNext event = (links.hear config event).opened := by
  cases event with
  | connectionEstablished peerId connectionId isRelayed => exact congrArg (insert _) h
  | connectionClosed peerId connectionId wasRelayed numEstablished =>
    exact congrArg (Finset.erase · _) h
  | _ => exact h

end Hear

namespace InStep

variable {config : SwarmConfig} {links : Links} {env : SwarmEnv} {s : SwarmState}

/-- The search for peers does not matter. -/
theorem recovery (h : InStep config links s) (recovery : ZeroPeerRecovery) :
    InStep config links { s with zeroPeerRecovery := recovery } := by
  obtain ⟨history, hfollows⟩ := h.follows
  exact ⟨h.opened, history, hfollows.fits, hfollows.links, hfollows.connections, hfollows.gossip,
    hfollows.requests⟩

/-- A call that fits the links, when the network layer has the connections that it tells of. -/
theorem tell (h : InStep config links s) (env : SwarmEnv) {call : ConnectionCall}
    (hallows : links.Allows call) {opened : Finset Connection}
    (hopened : opened = (links.next call).opened) :
    InStep config (links.next call) (SwarmState.tell env [call] { s with opened := opened }) := by
  obtain ⟨history, hfollows⟩ := h.follows
  have hsame : KeepsUp config links history [] { s with opened := opened } :=
    ⟨hfollows.fits, hfollows.links, hfollows.connections, hfollows.gossip, hfollows.requests⟩
  have hcalls : Along Links.next Links.Allows links [call] := ⟨hallows, trivial⟩
  refine ⟨?_, hsame.tell env hcalls⟩
  rw [SwarmState.tell_opened]
  exact hopened

/-- An event is reported. -/
theorem reported (h : InStep config links s) (env : SwarmEnv) {event : SwarmEvent}
    (hfits : ∀ call ∈ event.report? config, links.Allows call) :
    InStep config (links.hear config event) (s.reported config env event) := by
  have hopened := SwarmState.openedNext_eq config h.opened event
  unfold SwarmState.reported
  split
  · rename_i call hcall
    obtain ⟨hallows, hhear⟩ := Links.hear_of_call hcall hfits
    rw [hhear] at hopened ⊢
    exact h.tell env hallows hopened
  · rename_i hcall
    rw [Links.hear_of_no_call hcall] at hopened ⊢
    obtain ⟨history, hfollows⟩ := h.follows
    exact ⟨hopened, history, hfollows.fits, hfollows.links, hfollows.connections, hfollows.gossip,
      hfollows.requests⟩

/-- One more event. -/
theorem handle (h : InStep config links s) {event : SwarmEvent}
    (hfits : ∀ call ∈ event.report? config, links.Allows call) :
    InStep config (links.hear config event) (s.handle config env event) := by
  obtain ⟨u, search, hworks, hhandle⟩ := s.handle_spec config env event
  have hreported := (h.reported env hfits).recovery search
  rw [hhandle]
  exact (hworks.inStep hreported).recovery _

/-- Nothing has been reported, and nothing is known. -/
theorem new (config : SwarmConfig) : InStep config .none (.new config) :=
  ⟨rfl, [], trivial, rfl, rfl, rfl, rfl⟩

/-- In every run that fits the links the program keeps up with them. -/
theorem run (config : SwarmConfig) {inputs : List SwarmState.Input}
    (h : FitsNetwork config inputs) :
    InStep config (heard config inputs) ((SwarmState.new config).run config inputs) := by
  induction inputs using List.reverseRecOn with
  | nil => exact .new config
  | append_singleton inputs input ih =>
    obtain ⟨hbefore, hfits⟩ := fitsNetwork_snoc.1 h
    rw [heard_snoc, SwarmState.run, List.foldl_concat]
    exact (ih hbefore).handle hfits

end InStep

/-- In every run that fits the links the network layer has been asked for exactly what a history of
calls on the connection state asks for: the calls tell of the same links, they lead to the same
state, and the gossip layer and the open connections are those of that history. -/
theorem swarm_follows_history (config : SwarmConfig) {inputs : List SwarmState.Input}
    (h : FitsNetwork config inputs) :
    let s := (SwarmState.new config).run config inputs
    ∃ history, FitsLinks history ∧ Links.after history = heard config inputs ∧
      s.opened = (Links.after history).opened ∧
      s.connections = (replyTo config.localPeerId history).state ∧
      s.explicitPeers =
        Toggle.replay (gossipToggles (replyTo config.localPeerId history).effects) ∧
      s.requests.filter SwarmRequest.ofEffect =
        (replyTo config.localPeerId history).effects.filterMap ConnectionEffect.request? := by
  intro s
  have hstep := InStep.run config h
  obtain ⟨history, hfollows⟩ := hstep.follows
  refine ⟨history, hfollows.fits, hfollows.links, ?_, hfollows.connections.symm, ?_, ?_⟩
  · rw [hfollows.links]
    exact hstep.opened
  · rw [(tracks config.localPeerId hfollows.fits).replay, hfollows.connections]
    exact hstep.explicitPeers_eq
  · exact (List.append_nil _).symm.trans hfollows.requests

/-- A time at which every dial is begun. -/
def calm (now : Instant) : SwarmEnv where
  now := now
  itemNow _ := now
  refusedNow _ := now
  dial _ := .ok ()
  externalAddresses := false
  order := .asListed

/-- A peer that knows no relay. -/
def alone : SwarmConfig := ⟨"a", []⟩

/-- A peer is reached through a relay, subscribes, and is reached directly two seconds later. -/
def visit : List SwarmState.Input := [
  (calm 0, .connectionEstablished "b" 1 true),
  (calm (millis 500), .subscribed "b"),
  (calm (millis 2500), .connectionEstablished "b" 2 false)]

/-- The run is that of some history. -/
theorem swarm_follows_history_visit :
    let s := (SwarmState.new alone).run alone visit
    s.explicitPeers = {"b"} ∧
    ∃ history, FitsLinks history ∧ Links.after history = heard alone visit ∧
      s.opened = (Links.after history).opened ∧
      s.connections = (replyTo alone.localPeerId history).state ∧
      s.explicitPeers =
        Toggle.replay (gossipToggles (replyTo alone.localPeerId history).effects) ∧
      s.requests.filter SwarmRequest.ofEffect =
        (replyTo alone.localPeerId history).effects.filterMap ConnectionEffect.request? := by
  have hfits : FitsNetwork alone visit := by decide
  exact ⟨by decide +kernel, swarm_follows_history alone hfits⟩

/-! ## No event cuts a peer off -/

/-- The effects of one call close connections that are open. -/
theorem ConnectionState.call_closes_opened {s : ConnectionState} {links : Links} {now : Instant}
    {call : ConnectionCall} (hmirrors : (s.informed call).Mirrors (links.next call))
    {effect : ConnectionEffect} (heffect : effect ∈ (s.call now call).effects)
    {id : ConnectionId} (hcloses : effect.Closes id) :
    ∃ c ∈ (links.next call).opened, c.connectionId = id := by
  have hlawful := s.call_lawful now call
  cases hlicence : call.licence with
  | nothing =>
    rw [hlicence] at hlawful
    exact absurd hcloses (hlawful.not_closes effect heffect id)
  | relays =>
    rw [hlicence] at hlawful
    obtain ⟨peerId, -, hopen⟩ := hlawful.closes_relays hmirrors heffect hcloses
    exact ⟨_, hopen, rfl⟩
  | early peerId connectionId =>
    rw [hlicence] at hlawful
    obtain ⟨rfl, -⟩ := hlawful.closes_early hmirrors heffect hcloses
    exact ⟨_, Links.opened_of_licence hlicence, rfl⟩

/-- What is asked closes open connections only, and leaves one to every peer that has one. -/
structure LeavesConnection (opened : Finset Connection) (asked : List SwarmRequest) : Prop where
  /-- What is closed is open. -/
  closes : ∀ request ∈ asked, ∀ id, request.Closes id → ∃ c ∈ opened, c.connectionId = id
  /-- Another connection to the peer stays. -/
  leaves : ∀ c ∈ opened, ∃ c' ∈ opened, c'.peerId = c.peerId ∧
    ∀ request ∈ asked, ¬ request.Closes c'.connectionId

namespace LeavesConnection

variable {opened : Finset Connection} {asked later : List SwarmRequest}

/-- Nothing is closed. -/
theorem of_none (h : ∀ request ∈ asked, ∀ id, ¬ request.Closes id) :
    LeavesConnection opened asked where
  closes request hrequest id hcloses := absurd hcloses (h request hrequest id)
  leaves c hc := ⟨c, hc, rfl, fun request hrequest => h request hrequest _⟩

/-- Nothing more is closed. -/
theorem append (h : LeavesConnection opened asked)
    (hnone : ∀ request ∈ later, ∀ id, ¬ request.Closes id) :
    LeavesConnection opened (asked ++ later) where
  closes request hrequest id hcloses := by
    rcases List.mem_append.1 hrequest with hfirst | hlater
    · exact h.closes request hfirst id hcloses
    · exact absurd hcloses (hnone request hlater id)
  leaves c hc := by
    obtain ⟨c', hc', hpeer, hstays⟩ := h.leaves c hc
    exact ⟨c', hc', hpeer, List.forall_mem_append.2
      ⟨hstays, fun request hrequest => hnone request hrequest _⟩⟩

end LeavesConnection

/-- A call asks the network layer to leave a connection to every peer that has one. -/
theorem InStep.tell_leaves {config : SwarmConfig} {links : Links} {s t : SwarmState}
    (h : InStep config links s) (env : SwarmEnv) {call : ConnectionCall}
    (hallows : links.Allows call) (hsame : t.connections = s.connections) :
    ∃ asked, (t.tell env [call]).requests = t.requests ++ asked ∧
      LeavesConnection (links.next call).opened asked := by
  have hmirrors := h.mirrors.informed hallows
  have hnamed := h.named.next hallows
  rw [← hsame] at hmirrors
  have heffects : (t.connections.callAll env.now [call]).effects =
      (t.connections.call env.now call).effects := List.append_nil _
  refine ⟨_, t.tell_requests env [call], ?_, fun c hc => ?_⟩
  · intro request hrequest id hcloses
    obtain ⟨effect, heffect, hthis⟩ := List.mem_filterMap.1 hrequest
    rw [heffects] at heffect
    exact ConnectionState.call_closes_opened hmirrors heffect
      ((ConnectionEffect.closes_iff_of_request hthis).2 hcloses)
  · obtain ⟨c', hc', hpeer, hstays⟩ : ∃ c' ∈ (links.next call).opened, c'.peerId = c.peerId ∧
        ∀ effect ∈ (t.connections.call env.now call).effects, ¬ effect.Closes c'.connectionId :=
      ConnectionState.call_leaves_connection hmirrors hnamed hc
    refine ⟨c', hc', hpeer, fun request hrequest hcloses => ?_⟩
    obtain ⟨effect, heffect, hthis⟩ := List.mem_filterMap.1 hrequest
    rw [heffects] at heffect
    exact hstays effect heffect ((ConnectionEffect.closes_iff_of_request hthis).2 hcloses)

/-- So does an event. -/
theorem InStep.handle_leaves {config : SwarmConfig} {links : Links} {s : SwarmState}
    (h : InStep config links s) (env : SwarmEnv) {event : SwarmEvent}
    (hfits : ∀ call ∈ event.report? config, links.Allows call) :
    ∃ asked, (s.handle config env event).requests = s.requests ++ asked ∧
      LeavesConnection (links.hear config event).opened asked := by
  have hreported : ∃ asked, (s.reported config env event).requests = s.requests ++ asked ∧
      LeavesConnection (links.hear config event).opened asked := by
    unfold SwarmState.reported
    split
    · rename_i call hcall
      obtain ⟨hallows, hhear⟩ := Links.hear_of_call hcall hfits
      rw [hhear]
      exact h.tell_leaves env hallows rfl
    · exact ⟨[], (List.append_nil _).symm, .of_none (by simp)⟩
  obtain ⟨asked, hasked, hleaves⟩ := hreported
  obtain ⟨u, search, hworks, hhandle⟩ := s.handle_spec config env event
  obtain ⟨later, hlater, hnone⟩ := hworks.requests
  refine ⟨asked ++ later, ?_, hleaves.append hnone⟩
  rw [hhandle, ← List.append_assoc, ← hasked]
  exact hlater

/-- In every run that fits the links, what is asked of the network layer on an event closes only
connections that are open, and leaves one to every peer that has one. -/
theorem event_leaves_connection (config : SwarmConfig) {inputs : List SwarmState.Input}
    {input : SwarmState.Input} (h : FitsNetwork config (inputs ++ [input])) :
    let s := (SwarmState.new config).run config inputs
    let t := (SwarmState.new config).run config (inputs ++ [input])
    ∃ asked, t.requests = s.requests ++ asked ∧
      (∀ request ∈ asked, ∀ id, request.Closes id → ∃ c ∈ t.opened, c.connectionId = id) ∧
      ∀ c ∈ t.opened, ∃ c' ∈ t.opened, c'.peerId = c.peerId ∧
        ∀ request ∈ asked, ¬ request.Closes c'.connectionId := by
  intro s t
  obtain ⟨hbefore, hfits⟩ := fitsNetwork_snoc.1 h
  have hopened := (InStep.run config h).opened
  obtain ⟨asked, hasked, hleaves⟩ := (InStep.run config hbefore).handle_leaves input.1 hfits
  have hnext : t = s.handle config input.1 input.2 := List.foldl_concat ..
  rw [heard_snoc] at hopened
  rw [← hopened] at hleaves
  refine ⟨asked, ?_, hleaves.closes, hleaves.leaves⟩
  rw [hnext]
  exact hasked

/-- The look after the grace period. -/
def afterGrace : SwarmState.Input := (calm (millis 12500), .gossipWarmupTick)

/-- The relayed connection is closed then, and the direct one stays. -/
theorem event_leaves_connection_visit :
    let s := (SwarmState.new alone).run alone visit
    let t := (SwarmState.new alone).run alone (visit ++ [afterGrace])
    .closeConnections {1} ∈ t.requests ∧
    ∃ asked, t.requests = s.requests ++ asked ∧
      (∀ request ∈ asked, ∀ id, request.Closes id → ∃ c ∈ t.opened, c.connectionId = id) ∧
      ∀ c ∈ t.opened, ∃ c' ∈ t.opened, c'.peerId = c.peerId ∧
        ∀ request ∈ asked, ¬ request.Closes c'.connectionId := by
  have hfits : FitsNetwork alone (visit ++ [afterGrace]) := by decide
  exact ⟨by decide +kernel, event_leaves_connection alone hfits⟩

/-! ## Connected peers -/

namespace SwarmState

variable {config : SwarmConfig} {s : SwarmState}

theorem mem_connectedPeers {peerId : PeerId} :
    peerId ∈ s.connectedPeers ↔ ∃ c ∈ s.opened, c.peerId = peerId := Finset.mem_image

/-- A connection more is a peer more. -/
theorem connectedPeers_insert (s : SwarmState) (c : Connection) :
    ({ s with opened := insert c s.opened } : SwarmState).connectedPeers =
      insert c.peerId s.connectedPeers := Finset.image_insert _ _ _

/-- A connection fewer leaves the other peers connected. -/
theorem mem_connectedPeers_erase (s : SwarmState) (c : Connection) {peerId : PeerId}
    (hother : peerId ≠ c.peerId) :
    peerId ∈ ({ s with opened := s.opened.erase c } : SwarmState).connectedPeers ↔
      peerId ∈ s.connectedPeers := by
  rw [mem_connectedPeers, mem_connectedPeers]
  constructor
  · rintro ⟨c', hc', rfl⟩
    exact ⟨c', Finset.mem_of_mem_erase hc', rfl⟩
  · rintro ⟨c', hc', rfl⟩
    exact ⟨c', Finset.mem_erase.2 ⟨fun heq => hother (heq ▸ rfl), hc'⟩, rfl⟩

/-- A peer without connections is not connected. -/
theorem established_eq_zero_iff {peerId : PeerId} :
    Links.established s.opened peerId = 0 ↔ peerId ∉ s.connectedPeers := by
  rw [Links.established, Finset.card_eq_zero, Finset.filter_eq_empty_iff, mem_connectedPeers]
  constructor
  · rintro h ⟨c, hc, hpeer⟩
    exact h hc hpeer
  · intro h c hc hpeer
    exact h ⟨c, hc, hpeer⟩

end SwarmState

end LightEar
