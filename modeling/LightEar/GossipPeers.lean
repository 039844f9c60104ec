import LightEar.SwarmHistory

/-!
# Whom gossip is exchanged with

The gossip layer is to keep every connected peer of the room, and also the peers that have shown
themselves in the local network, until they are gone from it or a connection to them has been
closed.  It keeps exactly these (`gossip_peers_exact`).
-/

namespace LightEar

open Foundation

/-! ## Whom gossip is exchanged with -/

namespace SwarmState

/-- The peers that have shown themselves in the local network and are not gone from it, as far as
no connection to them has been opened or closed since. -/
def foundNext (found : Finset PeerId) : SwarmEvent → Finset PeerId
  | .mdnsDiscovered list => found ∪ (list.map Prod.fst).toFinset
  | .mdnsExpired list => found \ (list.map Prod.fst).toFinset
  | .connectionEstablished peerId _ _ => found.erase peerId
  | .connectionClosed peerId _ _ _ => found.erase peerId
  | _ => found

/-- Those peers after some events. -/
def found (inputs : List Input) : Finset PeerId :=
  inputs.foldl (fun found input => foundNext found input.2) ∅

variable {config : SwarmConfig} {links : Links} {env : SwarmEnv} {s : SwarmState}
  {peers : Finset PeerId}

/-- The peers of the room that are connected are kept, and of the others those that have been
found. -/
structure Gathers (config : SwarmConfig) (peers : Finset PeerId) (s : SwarmState) : Prop where
  /-- Every connected peer of the room is kept. -/
  room : s.connectedRoomPeers config ⊆ s.connections.gossipPeers
  /-- Another peer is kept if it has been found. -/
  others : ∀ peerId ∉ s.connectedPeers, peerId ∈ s.connections.gossipPeers ↔ peerId ∈ peers

/-- The gossip layer is told nothing. -/
theorem Gathers.of_same (h : s.Gathers config peers) {t : SwarmState}
    (hopened : t.opened = s.opened)
    (hgossip : t.connections.gossipPeers = s.connections.gossipPeers) : t.Gathers config peers := by
  have hpeers : t.connectedPeers = s.connectedPeers := congrArg (Finset.image _) hopened
  constructor
  · rw [connectedRoomPeers, hpeers, hgossip]
    exact h.room
  · rw [hpeers, hgossip]
    exact h.others

/-- Everybody who has shown himself is kept. -/
theorem mdnsDiscovered_gossipPeers (env : SwarmEnv) (s : SwarmState)
    (list : List ((PeerId × Multiaddr) × Nat)) {peerId : PeerId} :
    peerId ∈ (list.foldl (handleMdnsDiscovered env) s).connections.gossipPeers ↔
      peerId ∈ s.connections.gossipPeers ∨ peerId ∈ (list.map Prod.fst).map Prod.fst := by
  induction list generalizing s with
  | nil => simp
  | cons found list ih =>
    have hkept : (handleMdnsDiscovered env s found).connections.gossipPeers =
        insert found.1.1 s.connections.gossipPeers := s.tell_gossipPeers (env.forItem found.2) _
    rw [List.foldl_cons, ih, hkept, Finset.mem_insert, List.map_cons, List.map_cons, List.mem_cons]
    tauto

/-- Whoever is gone is dropped, unless he is connected. -/
theorem mdnsExpired_gossipPeers (env : SwarmEnv) (s : SwarmState)
    (list : List (PeerId × Multiaddr)) {peerId : PeerId} (hgone : peerId ∉ s.connectedPeers) :
    peerId ∈ (list.foldl (handleMdnsExpired env) s).connections.gossipPeers ↔
      peerId ∈ s.connections.gossipPeers ∧ peerId ∉ list.map Prod.fst := by
  induction list generalizing s with
  | nil => simp
  | cons lost list ih =>
    have hforgotten : (s.tell env [.forgetDirectAddress lost.1 lost.2]).connections.gossipPeers =
        s.connections.gossipPeers := s.tell_gossipPeers env _
    have hsame : (s.tell env [.forgetDirectAddress lost.1 lost.2]).connectedPeers =
        s.connectedPeers := congrArg (Finset.image _) (s.tell_opened env _)
    have hthis : (handleMdnsExpired env s lost).connectedPeers = s.connectedPeers ∧
        (peerId ∈ (handleMdnsExpired env s lost).connections.gossipPeers ↔
          peerId ∈ s.connections.gossipPeers ∧ peerId ≠ lost.1) := by
      unfold handleMdnsExpired
      dsimp only
      split
      · rename_i hconnected
        have hlost : lost.1 ∈ s.connectedPeers := hsame ▸ of_decide_eq_true hconnected
        rw [hforgotten]
        have hother : peerId ≠ lost.1 := fun heq => hgone (heq ▸ hlost)
        exact ⟨hsame, (and_iff_left hother).symm⟩
      · refine ⟨(congrArg (Finset.image _) (tell_opened env _ _)).trans hsame, ?_⟩
        rw [tell_gossipPeers, hforgotten]
        exact Finset.mem_erase.trans and_comm
    rw [List.foldl_cons, ih _ (hthis.1 ▸ hgone), hthis.2, List.map_cons, List.mem_cons]
    tauto

/-- Nobody who is connected is dropped on a plain event. -/
theorem Gossips.ne_drop {event : SwarmEvent} {toggle : Toggle PeerId} (h : s.Gossips event toggle)
    {peerId : PeerId} (hpeer : peerId ∈ s.connectedPeers) : toggle ≠ .drop peerId := by
  rintro rfl
  cases event with
  | mdnsDiscovered list =>
    obtain ⟨found, -, hadd⟩ := h
    cases hadd
  | mdnsExpired list =>
    obtain ⟨lost, -, hgone, hdrop⟩ := h
    cases hdrop
    exact hgone hpeer
  | rendezvousDiscovered rendezvousNode registrations cookie =>
    obtain ⟨connected, -, hadd⟩ := h
    cases hadd
  | _ => exact h

/-- Nothing is told after the report. -/
theorem Gathers.of_quiet {event : SwarmEvent}
    (h : (s.reported config env event).Gathers config peers)
    (hquiet : ∀ toggle, ¬ s.Gossips event toggle) :
    (s.handle config env event).Gathers config peers := by
  obtain ⟨log, hlog, hgossip⟩ := s.handle_toggles config env event
  have hnone : log = [] :=
    List.eq_nil_iff_forall_not_mem.2 fun toggle hmem => hquiet toggle (hlog toggle hmem)
  rw [hnone] at hgossip
  have hopened := s.handle_opened config env event
  rw [← s.reported_opened config env event] at hopened
  exact h.of_same hopened hgossip

/-- No report, and what is told drops nobody who is connected. -/
theorem Gathers.of_gossips (h : s.Gathers config peers) {event : SwarmEvent}
    (hreported : s.reported config env event = s) {later : Finset PeerId}
    (hothers : ∀ peerId ∉ s.connectedPeers,
      peerId ∈ (s.handle config env event).connections.gossipPeers ↔ peerId ∈ later) :
    (s.handle config env event).Gathers config later := by
  obtain ⟨log, hlog, hgossip⟩ := s.handle_toggles config env event
  have hopened := s.handle_opened config env event
  rw [← s.reported_opened config env event, hreported] at hopened
  have hpeers : (s.handle config env event).connectedPeers = s.connectedPeers :=
    congrArg (Finset.image _) hopened
  constructor
  · intro peerId hpeer
    rw [connectedRoomPeers, hpeers] at hpeer
    rw [hgossip, hreported]
    refine Toggle.mem_foldl_apply_of_not_dropped (fun toggle htoggle => ?_) (h.room hpeer)
    exact (hlog toggle htoggle).ne_drop (Finset.mem_sdiff.1 hpeer).1
  · rw [hpeers]
    exact hothers

/-- A connection has been opened. -/
theorem Gathers.established (h : s.Gathers config peers) (env : SwarmEnv) (peerId : PeerId)
    (connectionId : ConnectionId) (isRelayed : Bool) :
    (s.reported config env (.connectionEstablished peerId connectionId isRelayed)).Gathers config
      (peers.erase peerId) := by
  set event := SwarmEvent.connectionEstablished peerId connectionId isRelayed
  set told := s.reported config env event
  have hpeers : told.connectedPeers = insert peerId s.connectedPeers :=
    (congrArg (Finset.image _) (s.reported_opened config env event)).trans
      (s.connectedPeers_insert ⟨peerId, connectionId, isRelayed⟩)
  have hgossip : told.connections.gossipPeers = if peerId ∈ config.rendezvousNodes then
      s.connections.gossipPeers else insert peerId s.connections.gossipPeers := by
    refine (s.reported_gossipPeers config env event).trans ?_
    dsimp only [event, SwarmEvent.call?, SwarmEvent.report?, Option.bind_some]
    split
    · rename_i hnode
      rw [decide_eq_true hnode]
      rfl
    · rename_i hroom
      rw [decide_eq_false hroom]
      rfl
  have hothers : ∀ p, p ≠ peerId →
      (p ∈ told.connections.gossipPeers ↔ p ∈ s.connections.gossipPeers) := by
    intro p hp
    rw [hgossip]
    split
    · exact Iff.rfl
    · exact Finset.mem_insert.trans (or_iff_right hp)
  constructor
  · intro p hp
    rw [connectedRoomPeers, hpeers, Finset.mem_sdiff, Finset.mem_insert] at hp
    obtain ⟨hconnected, hroom⟩ := hp
    by_cases hsame : p = peerId
    · rw [hgossip, if_neg (hsame ▸ hroom), hsame]
      exact Finset.mem_insert_self _ _
    · have hbefore : p ∈ s.connectedRoomPeers config :=
        Finset.mem_sdiff.2 ⟨hconnected.resolve_left hsame, hroom⟩
      exact (hothers p hsame).2 (h.room hbefore)
  · intro p hp
    rw [hpeers, Finset.mem_insert, not_or] at hp
    rw [hothers p hp.1, h.others p hp.2]
    exact (Finset.mem_erase.trans (and_iff_right hp.1)).symm

/-- A connection has been closed. -/
theorem Gathers.closed (h : s.Gathers config peers) (env : SwarmEnv) {peerId : PeerId}
    {connectionId : ConnectionId} {wasRelayed : Bool} {numEstablished : ℕ}
    (hremain : numEstablished =
      Links.established (s.opened.erase ⟨peerId, connectionId, wasRelayed⟩) peerId) :
    (s.reported config env (.connectionClosed peerId connectionId wasRelayed
      numEstablished)).Gathers config (peers.erase peerId) := by
  set event := SwarmEvent.connectionClosed peerId connectionId wasRelayed numEstablished
  set told := s.reported config env event
  have hsame : told.connectedPeers = (s.relink event).connectedPeers :=
    congrArg (Finset.image _) (s.reported_opened config env event)
  have hpeers : ∀ p, p ≠ peerId → (p ∈ told.connectedPeers ↔ p ∈ s.connectedPeers) := by
    intro p hp
    rw [hsame]
    exact s.mem_connectedPeers_erase ⟨peerId, connectionId, wasRelayed⟩ hp
  have hlast : numEstablished = 0 ↔ peerId ∉ told.connectedPeers := by
    rw [hsame, hremain]
    exact established_eq_zero_iff (s := s.relink event)
  have hgossip : told.connections.gossipPeers = if numEstablished = 0 then
      s.connections.gossipPeers.erase peerId else s.connections.gossipPeers := by
    refine (s.reported_gossipPeers config env event).trans ?_
    cases numEstablished <;> rfl
  have hothers : ∀ p, p ≠ peerId →
      (p ∈ told.connections.gossipPeers ↔ p ∈ s.connections.gossipPeers) := by
    intro p hp
    rw [hgossip]
    split
    · exact Finset.mem_erase.trans (and_iff_right hp)
    · exact Iff.rfl
  constructor
  · intro p hp
    obtain ⟨hconnected, hroom⟩ := Finset.mem_sdiff.1 hp
    by_cases hthis : p = peerId
    · subst hthis
      have hstill : ¬ numEstablished = 0 := fun hnone => hlast.1 hnone hconnected
      rw [hsame] at hconnected
      have hbefore : p ∈ s.connectedPeers :=
        Finset.image_subset_image (Finset.erase_subset _ _) hconnected
      rw [hgossip, if_neg hstill]
      exact h.room (Finset.mem_sdiff.2 ⟨hbefore, hroom⟩)
    · have hbefore : p ∈ s.connectedRoomPeers config :=
        Finset.mem_sdiff.2 ⟨(hpeers p hthis).1 hconnected, hroom⟩
      exact (hothers p hthis).2 (h.room hbefore)
  · intro p hp
    by_cases hthis : p = peerId
    · subst hthis
      rw [hgossip, if_pos (hlast.2 hp)]
      exact iff_of_false (Finset.notMem_erase _ _) (Finset.notMem_erase _ _)
    · rw [hothers p hthis, h.others p (mt (hpeers p hthis).2 hp)]
      exact (Finset.mem_erase.trans (and_iff_right hthis)).symm

/-- One more event. -/
theorem Gathers.handle (h : s.Gathers config peers) {event : SwarmEvent}
    (hstep : InStep config links s) (hfits : ∀ call ∈ event.report? config, links.Allows call) :
    (s.handle config env event).Gathers config (foundNext peers event) := by
  cases event with
  | connectionEstablished peerId connectionId isRelayed =>
    exact .of_quiet (h.established env peerId connectionId isRelayed) fun _ => id
  | connectionClosed peerId connectionId wasRelayed numEstablished =>
    have hremain := (hfits _ rfl).2
    rw [← hstep.opened] at hremain
    exact .of_quiet (h.closed env hremain) fun _ => id
  | subscribed peerId =>
    exact .of_quiet (h.of_same (s.tell_opened env _) (s.tell_gossipPeers env _)) fun _ => id
  | unsubscribed peerId =>
    exact .of_quiet (h.of_same (s.tell_opened env _) (s.tell_gossipPeers env _)) fun _ => id
  | gossipWarmupTick =>
    exact .of_quiet (h.of_same (s.tell_opened env _) (s.tell_gossipPeers env _)) fun _ => id
  | mdnsDiscovered list =>
    refine h.of_gossips rfl fun peerId hpeer => ?_
    refine (mdnsDiscovered_gossipPeers env s list.zipIdx).trans ?_
    rw [List.zipIdx_map_fst, h.others peerId hpeer, foundNext, Finset.mem_union, List.mem_toFinset]
  | mdnsExpired list =>
    refine h.of_gossips rfl fun peerId hpeer => ?_
    refine (mdnsExpired_gossipPeers env s list hpeer).trans ?_
    rw [h.others peerId hpeer, foundNext, Finset.mem_sdiff, List.mem_toFinset]
  | rendezvousDiscovered rendezvousNode registrations cookie =>
    -- only connected peers are told of
    refine h.of_gossips rfl fun peerId hpeer => ?_
    obtain ⟨log, hlog, hgossip⟩ :=
      s.handle_toggles config env (.rendezvousDiscovered rendezvousNode registrations cookie)
    have hnone : ∀ toggle ∈ log, toggle.mark peerId = none := by
      intro toggle htoggle
      obtain ⟨connected, hconnected, rfl⟩ := hlog toggle htoggle
      have hother : connected ≠ peerId := fun heq => hpeer (heq ▸ hconnected)
      exact if_neg hother
    rw [hgossip]
    exact (Toggle.mem_foldl_apply_of_unmarked hnone _).trans (h.others peerId hpeer)
  | _ => exact .of_quiet h fun _ => id

/-- In every run that fits the links the gossip layer keeps every connected peer of the room, and of
the peers that are not connected exactly those that have shown themselves in the local network since
and are not gone from it. -/
theorem gossip_peers_exact (config : SwarmConfig) {inputs : List Input}
    (h : FitsNetwork config inputs) :
    let s := (SwarmState.new config).run config inputs
    s.connectedRoomPeers config ⊆ s.explicitPeers ∧
      ∀ peerId ∉ s.connectedPeers, peerId ∈ s.explicitPeers ↔ peerId ∈ found inputs := by
  intro s
  have hgathers : s.Gathers config (found inputs) := by
    induction inputs using List.reverseRecOn with
    | nil =>
      refine ⟨fun peerId hpeer => ?_, fun _ _ => Iff.rfl⟩
      obtain ⟨c, hc, -⟩ := mem_connectedPeers.1 (Finset.mem_sdiff.1 hpeer).1
      exact absurd hc (Finset.notMem_empty c)
    | append_singleton inputs input ih =>
      obtain ⟨hbefore, hfits⟩ := fitsNetwork_snoc.1 h
      have hnext : s = ((SwarmState.new config).run config inputs).handle config input.1 input.2 :=
        List.foldl_concat ..
      have hfound : found (inputs ++ [input]) = foundNext (found inputs) input.2 :=
        List.foldl_concat ..
      rw [hnext, hfound]
      exact (ih hbefore).handle (InStep.run config hbefore) hfits
  rw [(InStep.run config h).explicitPeers_eq]
  exact ⟨hgathers.room, hgathers.others⟩

/-- Two peers show themselves in the local network, and one of them is reached. -/
def neighbours : List Input := [
  (calm 0, .mdnsDiscovered [("b", ⟨[.other], "/b"⟩), ("c", ⟨[.other], "/c"⟩)]),
  (calm 0, .connectionEstablished "b" 1 false)]

/-- The gossip layer keeps both, and nobody else. -/
theorem gossip_peers_exact_neighbours :
    let s := (SwarmState.new alone).run alone neighbours
    "b" ∈ s.explicitPeers ∧ "c" ∈ s.explicitPeers ∧ "d" ∉ s.explicitPeers := by
  have hfits : FitsNetwork alone neighbours := by decide
  obtain ⟨hroom, hothers⟩ := gossip_peers_exact alone hfits
  refine ⟨hroom (by decide +kernel), (hothers "c" (by decide +kernel)).2 (by decide), ?_⟩
  exact mt (hothers "d" (by decide +kernel)).1 (by decide)

end SwarmState

end LightEar
