import LightEar.ConnectionReactions

/-!
# The connection state over whole histories

`Links` are the connections really open and the subscriptions over them.  Over a history of calls
that fit the links, the recorded routes are those connections and nothing is kept of a peer that
has left (`connections_mirrored`), and no closing cuts a peer off (`relay_handoff_safe`).
-/

namespace LightEar

open Foundation

/-! ## Routes -/

/-- Routes without connections are the empty ones. -/
theorem PeerConnectionRoutes.eq_empty_of_isEmpty {routes : PeerConnectionRoutes}
    (h : routes.isEmpty = true) : routes = .empty := by
  obtain ⟨hdirect, hrelayed⟩ := of_decide_eq_true h
  cases routes
  cases hdirect
  cases hrelayed
  rfl

theorem PeerConnectionRoutes.hasDirect_iff {routes : PeerConnectionRoutes} :
    routes.hasDirect = true ↔ routes.direct.Nonempty :=
  decide_eq_true_iff.trans Finset.nonempty_iff_ne_empty.symm

theorem PeerConnectionRoutes.hasRelayed_iff {routes : PeerConnectionRoutes} :
    routes.hasRelayed = true ↔ routes.relayed.Nonempty :=
  decide_eq_true_iff.trans Finset.nonempty_iff_ne_empty.symm

namespace ConnectionState

theorem hasDirect_eq (s : ConnectionState) (peerId : PeerId) :
    s.hasDirect peerId = (s.routesOf peerId).hasDirect := by
  unfold hasDirect routesOf
  cases s.routes.lookup peerId <;> rfl

theorem hasRelayed_eq (s : ConnectionState) (peerId : PeerId) :
    s.hasRelayed peerId = (s.routesOf peerId).hasRelayed := by
  unfold hasRelayed routesOf
  cases s.routes.lookup peerId <;> rfl

theorem relayConnections_eq (s : ConnectionState) (peerId : PeerId) :
    s.relayConnections peerId = (s.routesOf peerId).relayed := by
  unfold relayConnections routesOf
  cases s.routes.lookup peerId <;> rfl

/-- Storing routes under a peer changes that peer's routes only. -/
theorem routesOf_insert (s : ConnectionState) (peerId : PeerId) (routes : PeerConnectionRoutes)
    (p : PeerId) :
    { s with routes := s.routes.insert peerId routes }.routesOf p =
      if p = peerId then routes else s.routesOf p := by
  unfold routesOf
  by_cases hp : p = peerId
  · subst hp
    rw [if_pos rfl, AList.lookup_insert]
    rfl
  · rw [if_neg hp, AList.lookup_insert_ne hp]

/-- Forgetting a peer leaves it the empty routes. -/
theorem routesOf_erase (s : ConnectionState) (peerId p : PeerId) :
    { s with routes := s.routes.erase peerId }.routesOf p =
      if p = peerId then .empty else s.routesOf p := by
  unfold routesOf
  by_cases hp : p = peerId
  · subst hp
    rw [if_pos rfl, AList.lookup_erase]
    rfl
  · rw [if_neg hp, AList.lookup_erase_ne hp]

theorem routesOf_addRoute (s : ConnectionState) (peerId : PeerId) (connectionId : ConnectionId)
    (isRelayed : Bool) (p : PeerId) : (s.addRoute peerId connectionId isRelayed).routesOf p =
      if p = peerId then (s.routesOf peerId).add connectionId isRelayed else s.routesOf p := by
  unfold addRoute
  exact s.routesOf_insert peerId _ p

/-- Removing a connection changes the routes only. -/
theorem removeRoute_frame (s : ConnectionState) (peerId : PeerId) (connectionId : ConnectionId)
    (wasRelayed : Bool) :
    ∃ routes, s.removeRoute peerId connectionId wasRelayed = { s with routes := routes } := by
  unfold removeRoute
  split
  · exact ⟨s.routes, rfl⟩
  · split
    · exact ⟨_, rfl⟩
    · exact ⟨_, rfl⟩

theorem routesOf_removeRoute (s : ConnectionState) (peerId : PeerId) (connectionId : ConnectionId)
    (wasRelayed : Bool) (p : PeerId) : (s.removeRoute peerId connectionId wasRelayed).routesOf p =
      if p = peerId then (s.routesOf peerId).remove connectionId wasRelayed
      else s.routesOf p := by
  unfold removeRoute
  cases hroutes : s.routes.lookup peerId with
  | none =>
    dsimp only
    by_cases hp : p = peerId
    · subst hp
      rw [if_pos rfl]
      unfold routesOf
      rw [hroutes]
      cases wasRelayed <;> rfl
    · rw [if_neg hp]
  | some routes =>
    have hknown : s.routesOf peerId = routes := by
      unfold routesOf
      rw [hroutes]
      rfl
    dsimp only
    rw [hknown]
    split
    · rename_i hempty
      rw [PeerConnectionRoutes.eq_empty_of_isEmpty hempty]
      exact s.routesOf_erase peerId p
    · exact s.routesOf_insert peerId _ p

end ConnectionState

/-! ## Links -/

/-- An open connection. -/
structure Connection where
  /-- The peer it leads to. -/
  peerId : PeerId
  /-- Names the connection. -/
  connectionId : ConnectionId
  /-- Whether it goes through a relay. -/
  isRelayed : Bool
  deriving DecidableEq

/-- The connections really open, and who has subscribed over them. -/
structure Links where
  /-- The open connections. -/
  opened : Finset Connection
  /-- The names given so far. -/
  used : Finset ConnectionId
  /-- The peers whose last word on the chat was a subscription, since they were last gone. -/
  subscribed : Finset PeerId

namespace Links

/-- No connections. -/
def none : Links := ⟨∅, ∅, ∅⟩

/-- The names of a peer's connections of a kind. -/
def connectionIds (links : Links) (peerId : PeerId) (isRelayed : Bool) : Finset ConnectionId :=
  (links.opened.filter fun c => c.peerId = peerId ∧ c.isRelayed = isRelayed).image
    Connection.connectionId

/-- The open connections of a peer. -/
def routesOf (links : Links) (peerId : PeerId) : PeerConnectionRoutes :=
  ⟨links.connectionIds peerId false, links.connectionIds peerId true⟩

/-- How many connections to a peer are open. -/
def established (opened : Finset Connection) (peerId : PeerId) : Nat :=
  (opened.filter (·.peerId = peerId)).card

/-- The peer has a direct connection, a relayed one and a subscription. -/
def Settled (links : Links) (peerId : PeerId) : Prop :=
  (links.connectionIds peerId false).Nonempty ∧ (links.connectionIds peerId true).Nonempty ∧
    peerId ∈ links.subscribed

/-- The links after what a call tells of. -/
def next (links : Links) : ConnectionCall → Links
  | .connectionEstablished peerId connectionId isRelayed _ =>
    { links with
      opened := insert ⟨peerId, connectionId, isRelayed⟩ links.opened
      used := insert connectionId links.used }
  | .connectionClosed peerId connectionId wasRelayed _ =>
    let opened := links.opened.erase ⟨peerId, connectionId, wasRelayed⟩
    { links with
      opened := opened
      subscribed :=
        if established opened peerId = 0 then links.subscribed.erase peerId
        else links.subscribed }
  | .chatSubscribed peerId => { links with subscribed := insert peerId links.subscribed }
  | .chatUnsubscribed peerId => { links with subscribed := links.subscribed.erase peerId }
  | _ => links

/-- Whether a call fits the links: a new connection has a new name, a closed one was open, and
the number of those that remain is right. -/
def Allows (links : Links) : ConnectionCall → Prop
  | .connectionEstablished _ connectionId _ _ => connectionId ∉ links.used
  | .connectionClosed peerId connectionId wasRelayed remainingEstablished =>
    ⟨peerId, connectionId, wasRelayed⟩ ∈ links.opened ∧
      remainingEstablished =
        established (links.opened.erase ⟨peerId, connectionId, wasRelayed⟩) peerId
  | _ => True

instance (links : Links) (call : ConnectionCall) : Decidable (links.Allows call) := by
  cases call <;> unfold Allows <;> infer_instance

theorem mem_connectionIds {links : Links} {peerId : PeerId} {isRelayed : Bool}
    {connectionId : ConnectionId} : connectionId ∈ links.connectionIds peerId isRelayed ↔
      (⟨peerId, connectionId, isRelayed⟩ : Connection) ∈ links.opened := by
  unfold connectionIds
  rw [Finset.mem_image]
  constructor
  · rintro ⟨⟨p, id, kind⟩, hmem, rfl⟩
    obtain ⟨hopen, rfl, rfl⟩ := Finset.mem_filter.1 hmem
    exact hopen
  · intro h
    exact ⟨_, Finset.mem_filter.2 ⟨h, rfl, rfl⟩, rfl⟩

/-- An opened connection is one more of its kind. -/
theorem connectionIds_established (links : Links) (peerId : PeerId) (connectionId : ConnectionId)
    (isRelayed isRendezvousNode : Bool) (p : PeerId) (kind : Bool) :
    (links.next (.connectionEstablished peerId connectionId isRelayed
        isRendezvousNode)).connectionIds p kind =
      if p = peerId ∧ kind = isRelayed then insert connectionId (links.connectionIds p kind)
      else links.connectionIds p kind := by
  ext id
  have hmem : (⟨p, id, kind⟩ : Connection) ∈ (links.next (.connectionEstablished peerId
      connectionId isRelayed isRendezvousNode)).opened ↔
        (p = peerId ∧ id = connectionId ∧ kind = isRelayed) ∨ ⟨p, id, kind⟩ ∈ links.opened := by
    simp [next]
  rw [mem_connectionIds, hmem]
  split_ifs with hkind
  · rw [Finset.mem_insert, mem_connectionIds]
    simp [hkind]
  · rw [mem_connectionIds]
    exact or_iff_right fun h => hkind ⟨h.1, h.2.2⟩

/-- A closed connection is one fewer of its kind. -/
theorem connectionIds_closed (links : Links) (peerId : PeerId) (connectionId : ConnectionId)
    (wasRelayed : Bool) (remainingEstablished : Nat) (p : PeerId) (kind : Bool) :
    (links.next (.connectionClosed peerId connectionId wasRelayed
        remainingEstablished)).connectionIds p kind =
      if p = peerId ∧ kind = wasRelayed then (links.connectionIds p kind).erase connectionId
      else links.connectionIds p kind := by
  ext id
  have hmem : (⟨p, id, kind⟩ : Connection) ∈ (links.next (.connectionClosed peerId connectionId
      wasRelayed remainingEstablished)).opened ↔
        ¬ (p = peerId ∧ id = connectionId ∧ kind = wasRelayed) ∧ ⟨p, id, kind⟩ ∈ links.opened := by
    simp [next]
  rw [mem_connectionIds, hmem]
  split_ifs with hkind
  · rw [Finset.mem_erase, mem_connectionIds]
    simp [hkind]
  · rw [mem_connectionIds]
    exact and_iff_right fun h => hkind ⟨h.1, h.2.2⟩

/-- Opening a connection adds it to the routes of its peer. -/
theorem routesOf_established (links : Links) (peerId : PeerId) (connectionId : ConnectionId)
    (isRelayed isRendezvousNode : Bool) (p : PeerId) :
    (links.next (.connectionEstablished peerId connectionId isRelayed isRendezvousNode)).routesOf
        p =
      if p = peerId then (links.routesOf peerId).add connectionId isRelayed
      else links.routesOf p := by
  unfold routesOf PeerConnectionRoutes.add
  rw [connectionIds_established, connectionIds_established]
  by_cases hp : p = peerId
  · subst hp
    cases isRelayed with
    | true => simp
    | false => simp
  · simp [hp]

/-- Closing one removes it from them. -/
theorem routesOf_closed (links : Links) (peerId : PeerId) (connectionId : ConnectionId)
    (wasRelayed : Bool) (remainingEstablished : Nat) (p : PeerId) :
    (links.next (.connectionClosed peerId connectionId wasRelayed remainingEstablished)).routesOf
        p =
      if p = peerId then (links.routesOf peerId).remove connectionId wasRelayed
      else links.routesOf p := by
  unfold routesOf PeerConnectionRoutes.remove
  rw [connectionIds_closed, connectionIds_closed]
  by_cases hp : p = peerId
  · subst hp
    cases wasRelayed with
    | true => simp
    | false => simp
  · simp [hp]

end Links

/-! ## What one call preserves -/

namespace ConnectionState

/-- Routes are not recorded without a connection, and handoffs only for settled peers. -/
structure Coherent (s : ConnectionState) : Prop where
  /-- A recorded peer has a connection. -/
  nonempty : ∀ peerId routes, s.routes.lookup peerId = some routes → routes.isEmpty = false
  /-- A peer with a handoff is settled. -/
  settled : ∀ peerId, (s.relayHandoffs.lookup peerId).isSome = true → s.Settled peerId

theorem settled_iff_routesOf {s : ConnectionState} {peerId : PeerId} : s.Settled peerId ↔
    (s.routesOf peerId).hasDirect = true ∧ (s.routesOf peerId).hasRelayed = true ∧
      peerId ∈ s.chatSubscribers := by
  unfold Settled
  rw [hasDirect_eq, hasRelayed_eq]

/-- A connection more keeps a peer settled. -/
theorem Settled.addRoute {s : ConnectionState} {p : PeerId} (h : s.Settled p) (peerId : PeerId)
    (connectionId : ConnectionId) (isRelayed : Bool) :
    (s.addRoute peerId connectionId isRelayed).Settled p := by
  rw [settled_iff_routesOf] at h ⊢
  obtain ⟨hdirect, hrelayed, hsubscribed⟩ := h
  rw [routesOf_addRoute]
  refine ⟨?_, ?_, hsubscribed⟩
  · split
    · rename_i hp
      subst hp
      cases isRelayed <;> simp_all [PeerConnectionRoutes.add, PeerConnectionRoutes.hasDirect]
    · exact hdirect
  · split
    · rename_i hp
      subst hp
      cases isRelayed <;> simp_all [PeerConnectionRoutes.add, PeerConnectionRoutes.hasRelayed]
    · exact hrelayed

/-- A connection more leaves the state coherent. -/
theorem Coherent.addRoute {s : ConnectionState} (h : s.Coherent) (peerId : PeerId)
    (connectionId : ConnectionId) (isRelayed : Bool) :
    (s.addRoute peerId connectionId isRelayed).Coherent where
  nonempty p routes hroutes := by
    by_cases hp : p = peerId
    · subst hp
      rw [ConnectionState.addRoute, AList.lookup_insert] at hroutes
      cases hroutes
      cases isRelayed <;> simp [PeerConnectionRoutes.add, PeerConnectionRoutes.isEmpty]
    · rw [ConnectionState.addRoute, AList.lookup_insert_ne hp] at hroutes
      exact h.nonempty p routes hroutes
  settled p hp := (h.settled p hp).addRoute peerId connectionId isRelayed

/-- Without the handoff of a peer a state is coherent when it is so for the other peers. -/
theorem Coherent.of_others {s : ConnectionState} {peerId : PeerId}
    (hnonempty : ∀ p routes, s.routes.lookup p = some routes → routes.isEmpty = false)
    (hothers : ∀ p ≠ peerId, (s.relayHandoffs.lookup p).isSome = true → s.Settled p) :
    (s.cancelHandoff peerId).Coherent where
  nonempty := hnonempty
  settled p hhandoff := by
    by_cases hp : p = peerId
    · subst hp
      rw [cancelHandoff, AList.lookup_erase] at hhandoff
      cases hhandoff
    · rw [cancelHandoff, AList.lookup_erase_ne hp] at hhandoff
      exact hothers p hp hhandoff

/-- A connection fewer leaves the state coherent. -/
theorem Coherent.closeRoute {s : ConnectionState} (h : s.Coherent) (peerId : PeerId)
    (connectionId : ConnectionId) (wasRelayed : Bool) :
    (s.closeRoute peerId connectionId wasRelayed).Coherent := by
  let removed := s.removeRoute peerId connectionId wasRelayed
  have hnonempty : ∀ p routes, removed.routes.lookup p = some routes →
      routes.isEmpty = false := by
    intro p routes hroutes
    simp only [removed, removeRoute] at hroutes
    split at hroutes
    · exact h.nonempty p routes hroutes
    · split at hroutes
      · by_cases hp : p = peerId
        · subst hp
          rw [AList.lookup_erase] at hroutes
          cases hroutes
        · rw [AList.lookup_erase_ne hp] at hroutes
          exact h.nonempty p routes hroutes
      · by_cases hp : p = peerId
        · subst hp
          rw [AList.lookup_insert] at hroutes
          cases hroutes
          exact Bool.eq_false_iff.2 (by assumption)
        · rw [AList.lookup_insert_ne hp] at hroutes
          exact h.nonempty p routes hroutes
  have hhandoffs : removed.relayHandoffs = s.relayHandoffs ∧
      removed.chatSubscribers = s.chatSubscribers := by
    obtain ⟨routes, hremoved⟩ := s.removeRoute_frame peerId connectionId wasRelayed
    simp only [removed, hremoved]
    trivial
  -- the other peers keep their routes
  have hothers : ∀ p ≠ peerId, (removed.relayHandoffs.lookup p).isSome = true →
      removed.Settled p := by
    intro p hp hhandoff
    rw [hhandoffs.1] at hhandoff
    have hsettled := settled_iff_routesOf.1 (h.settled p hhandoff)
    refine settled_iff_routesOf.2 ?_
    rw [routesOf_removeRoute, if_neg hp, hhandoffs.2]
    exact hsettled
  unfold ConnectionState.closeRoute
  dsimp only
  split
  · exact .of_others hnonempty hothers
  · rename_i hboth
    rw [not_or, Bool.not_eq_false, Bool.not_eq_false] at hboth
    refine ⟨hnonempty, fun p hhandoff => ?_⟩
    by_cases hp : p = peerId
    · subst hp
      refine ⟨hboth.1, hboth.2, ?_⟩
      rw [hhandoffs.1] at hhandoff
      rw [hhandoffs.2]
      exact (h.settled p hhandoff).2.2
    · exact hothers p hp hhandoff

/-- A peer that is forgotten has no handoff any more. -/
theorem Coherent.forgetPeer {s : ConnectionState} (h : s.Coherent) (peerId : PeerId) :
    (s.forgetPeer peerId).Coherent where
  nonempty := h.nonempty
  settled p hhandoff := by
    by_cases hp : p = peerId
    · subst hp
      rw [ConnectionState.forgetPeer, AList.lookup_erase] at hhandoff
      cases hhandoff
    · rw [ConnectionState.forgetPeer, AList.lookup_erase_ne hp] at hhandoff
      obtain ⟨hdirect, hrelayed, hsubscribed⟩ := h.settled p hhandoff
      exact ⟨hdirect, hrelayed, Finset.mem_erase.2 ⟨hp, hsubscribed⟩⟩

/-- A peer that leaves the chat has no handoff any more. -/
theorem Coherent.chatUnsubscribed {s : ConnectionState} (h : s.Coherent) (peerId : PeerId) :
    (s.chatUnsubscribed peerId).state.Coherent := by
  have hothers : ∀ p ≠ peerId, (s.relayHandoffs.lookup p).isSome = true →
      s.hasDirect p = true ∧ s.hasRelayed p = true ∧ p ∈ s.chatSubscribers.erase peerId := by
    intro p hp hhandoff
    obtain ⟨hdirect, hrelayed, hsubscribed⟩ := h.settled p hhandoff
    exact ⟨hdirect, hrelayed, Finset.mem_erase.2 ⟨hp, hsubscribed⟩⟩
  unfold ConnectionState.chatUnsubscribed
  dsimp only
  split
  · exact .of_others h.nonempty hothers
  · rename_i hunknown
    refine ⟨h.nonempty, fun p hhandoff => ?_⟩
    by_cases hp : p = peerId
    · -- a peer with a handoff has routes
      subst hp
      refine absurd ?_ hunknown
      have hdirect := (h.settled p hhandoff).1
      unfold hasDirect at hdirect
      cases hroutes : s.routes.lookup p with
      | none => rw [hroutes] at hdirect; cases hdirect
      | some routes => rfl
    · exact hothers p hp hhandoff

/-- What a call tells of leaves the state coherent. -/
theorem Coherent.informed {s : ConnectionState} (h : s.Coherent) (call : ConnectionCall) :
    (s.informed call).Coherent := by
  cases call with
  | connectionEstablished peerId connectionId isRelayed isRendezvousNode =>
    exact h.addRoute peerId connectionId isRelayed
  | connectionClosed peerId connectionId wasRelayed remainingEstablished =>
    unfold ConnectionState.informed
    dsimp only
    split
    · exact h.closeRoute peerId connectionId wasRelayed
    · exact (h.closeRoute peerId connectionId wasRelayed).forgetPeer peerId
  | chatSubscribed peerId =>
    refine ⟨h.nonempty, fun p hhandoff => ?_⟩
    obtain ⟨hdirect, hrelayed, hsubscribed⟩ := h.settled p hhandoff
    exact ⟨hdirect, hrelayed, Finset.mem_insert_of_mem hsubscribed⟩
  | chatUnsubscribed peerId => exact h.chatUnsubscribed peerId
  | _ => exact h

/-- A lawful reaction leaves the state coherent. -/
theorem Coherent.lawful {s : ConnectionState} (h : s.Coherent) {licence : CloseLicence}
    {now : Instant} {reply : ConnectionReply} (hreply : Lawful licence s now reply) :
    reply.state.Coherent where
  nonempty p routes hroutes := h.nonempty p routes (hreply.routes ▸ hroutes)
  settled p hhandoff := by
    obtain ⟨deadline, hdeadline⟩ := Option.isSome_iff_exists.1 hhandoff
    refine (hreply.settled_iff p).2 ?_
    rcases hreply.deadlines p deadline hdeadline with hbefore | ⟨-, hsettled⟩
    · exact h.settled p (by rw [hbefore]; rfl)
    · exact hsettled

/-- The state knows the links. -/
structure Mirrors (s : ConnectionState) (links : Links) : Prop where
  /-- The recorded routes are the open connections. -/
  routes : ∀ peerId, s.routesOf peerId = links.routesOf peerId
  /-- The recorded subscriptions are those over the links. -/
  subscribers : s.chatSubscribers = links.subscribed

/-- Then both agree on who is settled. -/
theorem Mirrors.settled_iff {s : ConnectionState} {links : Links} (h : s.Mirrors links)
    (peerId : PeerId) : s.Settled peerId ↔ links.Settled peerId := by
  rw [settled_iff_routesOf, h.routes, h.subscribers, PeerConnectionRoutes.hasDirect_iff,
    PeerConnectionRoutes.hasRelayed_iff]
  rfl

theorem routesOf_closeRoute (s : ConnectionState) (peerId : PeerId) (connectionId : ConnectionId)
    (wasRelayed : Bool) (p : PeerId) : (s.closeRoute peerId connectionId wasRelayed).routesOf p =
      if p = peerId then (s.routesOf peerId).remove connectionId wasRelayed
      else s.routesOf p := by
  rw [← routesOf_removeRoute]
  unfold closeRoute
  dsimp only
  split <;> rfl

/-- Closing a connection changes the routes and the relay handoffs only. -/
theorem closeRoute_eq (s : ConnectionState) (peerId : PeerId) (connectionId : ConnectionId)
    (wasRelayed : Bool) : ∃ routes relayHandoffs,
      s.closeRoute peerId connectionId wasRelayed = { s with routes, relayHandoffs } := by
  obtain ⟨routes, hremoved⟩ := s.removeRoute_frame peerId connectionId wasRelayed
  unfold closeRoute
  dsimp only
  rw [hremoved]
  split
  · exact ⟨routes, _, rfl⟩
  · exact ⟨routes, s.relayHandoffs, rfl⟩

/-- It changes nothing for the chat and the gossip layer. -/
theorem closeRoute_frame (s : ConnectionState) (peerId : PeerId) (connectionId : ConnectionId)
    (wasRelayed : Bool) :
    (s.closeRoute peerId connectionId wasRelayed).chatSubscribers = s.chatSubscribers ∧
      (s.closeRoute peerId connectionId wasRelayed).gossipPeers = s.gossipPeers := by
  obtain ⟨routes, relayHandoffs, hclosed⟩ := s.closeRoute_eq peerId connectionId wasRelayed
  rw [hclosed]
  exact ⟨rfl, rfl⟩

/-- What a call tells of is what becomes of the links. -/
theorem Mirrors.informed {s : ConnectionState} {links : Links} (h : s.Mirrors links)
    {call : ConnectionCall} (hallows : links.Allows call) :
    (s.informed call).Mirrors (links.next call) := by
  cases call with
  | connectionEstablished peerId connectionId isRelayed isRendezvousNode =>
    refine ⟨fun p => ?_, h.subscribers⟩
    rw [Links.routesOf_established, ← h.routes, ← h.routes]
    exact routesOf_addRoute s peerId connectionId isRelayed p
  | connectionClosed peerId connectionId wasRelayed remainingEstablished =>
    have hroutes : ∀ p, (s.closeRoute peerId connectionId wasRelayed).routesOf p =
        (links.next (.connectionClosed peerId connectionId wasRelayed
          remainingEstablished)).routesOf p := by
      intro p
      rw [Links.routesOf_closed, ← h.routes, ← h.routes]
      exact routesOf_closeRoute s peerId connectionId wasRelayed p
    have hremaining : remainingEstablished = Links.established _ peerId := hallows.2
    unfold ConnectionState.informed
    dsimp only
    split
    · refine ⟨hroutes, ?_⟩
      rw [(s.closeRoute_frame _ _ _).1, h.subscribers]
      exact (if_neg (by omega)).symm
    · refine ⟨hroutes, ?_⟩
      change (s.closeRoute peerId connectionId wasRelayed).chatSubscribers.erase peerId = _
      rw [(s.closeRoute_frame _ _ _).1, h.subscribers]
      exact (if_pos (by omega)).symm
  | chatSubscribed peerId =>
    exact ⟨h.routes, congrArg (insert peerId) h.subscribers⟩
  | chatUnsubscribed peerId =>
    unfold ConnectionState.informed ConnectionState.chatUnsubscribed
    dsimp only
    split
    · exact ⟨h.routes, congrArg (Finset.erase · peerId) h.subscribers⟩
    · exact ⟨h.routes, congrArg (Finset.erase · peerId) h.subscribers⟩
  | _ => exact h

/-- A lawful reaction leaves what is known of the links. -/
theorem Mirrors.lawful {s : ConnectionState} {links : Links} (h : s.Mirrors links)
    {licence : CloseLicence} {now : Instant} {reply : ConnectionReply}
    (hreply : Lawful licence s now reply) : reply.state.Mirrors links where
  routes peerId := by
    rw [← h.routes, routesOf, routesOf, hreply.routes]
  subscribers := hreply.subscribers.trans h.subscribers

theorem lookup_of_lookup_erase {handoffs : AList fun _ : PeerId => Instant} {peerId p : PeerId}
    {deadline : Instant} (h : (handoffs.erase peerId).lookup p = some deadline) :
    handoffs.lookup p = some deadline := by
  by_cases hp : p = peerId
  · subst hp
    rw [AList.lookup_erase] at h
    cases h
  · rwa [AList.lookup_erase_ne hp] at h

theorem closeRoute_relayHandoffs {s : ConnectionState} {peerId : PeerId}
    {connectionId : ConnectionId} {wasRelayed : Bool} {p : PeerId} {deadline : Instant}
    (h : (s.closeRoute peerId connectionId wasRelayed).relayHandoffs.lookup p = some deadline) :
    s.relayHandoffs.lookup p = some deadline := by
  obtain ⟨routes, hremoved⟩ := s.removeRoute_frame peerId connectionId wasRelayed
  unfold closeRoute at h
  dsimp only at h
  rw [hremoved] at h
  split at h
  · exact lookup_of_lookup_erase h
  · exact h

/-- A call sets no handoff before it reacts. -/
theorem informed_relayHandoffs {s : ConnectionState} {call : ConnectionCall} {p : PeerId}
    {deadline : Instant} (h : (s.informed call).relayHandoffs.lookup p = some deadline) :
    s.relayHandoffs.lookup p = some deadline := by
  cases call with
  | connectionClosed peerId connectionId wasRelayed remainingEstablished =>
    unfold informed at h
    dsimp only at h
    split at h
    · exact closeRoute_relayHandoffs h
    · exact closeRoute_relayHandoffs (lookup_of_lookup_erase h)
  | chatUnsubscribed peerId =>
    unfold informed chatUnsubscribed at h
    dsimp only at h
    split at h
    · exact lookup_of_lookup_erase h
    · exact h
  | _ => exact h

/-- A call changes nothing for the gossip layer before it reacts. -/
theorem informed_gossipPeers (s : ConnectionState) (call : ConnectionCall) :
    (s.informed call).gossipPeers = s.gossipPeers := by
  cases call with
  | connectionClosed peerId connectionId wasRelayed remainingEstablished =>
    have hclosed := (s.closeRoute_frame peerId connectionId wasRelayed).2
    unfold informed
    dsimp only
    split
    · exact hclosed
    · exact hclosed
  | chatUnsubscribed peerId =>
    unfold informed chatUnsubscribed
    dsimp only
    split <;> rfl
  | _ => rfl

end ConnectionState

/-! ## Histories -/

/-- A call, and when it comes. -/
structure ConnectionInput where
  /-- When the call comes. -/
  now : Instant
  /-- The call. -/
  call : ConnectionCall

/-- The links after a history. -/
def Links.after (inputs : List ConnectionInput) : Links :=
  inputs.foldl (fun links input => links.next input.call) .none

/-- Every call of the history fits the links. -/
def FitsLinks (inputs : List ConnectionInput) : Prop :=
  Along (fun links input => links.next input.call)
    (fun (links : Links) (input : ConnectionInput) => links.Allows input.call) .none inputs

instance (inputs : List ConnectionInput) : Decidable (FitsLinks inputs) := by
  unfold FitsLinks
  infer_instance

/-- The state after a history, and all effects on the way. -/
def replyTo (localPeerId : PeerId) (inputs : List ConnectionInput) : ConnectionReply :=
  inputs.foldl (fun reply input => reply.andThen fun s => s.call input.now input.call)
    (ConnectionState.new localPeerId).keep

theorem Links.after_snoc (inputs : List ConnectionInput) (input : ConnectionInput) :
    Links.after (inputs ++ [input]) = (Links.after inputs).next input.call :=
  List.foldl_concat ..

theorem replyTo_snoc (localPeerId : PeerId) (inputs : List ConnectionInput)
    (input : ConnectionInput) : replyTo localPeerId (inputs ++ [input]) =
      (replyTo localPeerId inputs).andThen fun s => s.call input.now input.call :=
  List.foldl_concat ..

/-- A history that fits the links does so before its last call, and so does that call. -/
theorem fitsLinks_snoc {inputs : List ConnectionInput} {input : ConnectionInput} :
    FitsLinks (inputs ++ [input]) ↔
      FitsLinks inputs ∧ (Links.after inputs).Allows input.call :=
  Along.append_iff.trans (and_congr_right fun _ => and_iff_left trivial)

/-- What is true after every history that fits the links. -/
structure Tracks (inputs : List ConnectionInput) (reply : ConnectionReply) : Prop where
  /-- The state is coherent. -/
  coherent : reply.state.Coherent
  /-- It knows the links. -/
  mirrors : reply.state.Mirrors (Links.after inputs)
  /-- A peer with a handoff has been settled since the handoff was set. -/
  deadlines : ∀ peerId deadline, reply.state.relayHandoffs.lookup peerId = some deadline →
    ∃ t, deadline = t + directRelayHandoffGrace ∧
      StandingSince (fun past => (Links.after past).Settled peerId) ConnectionInput.now inputs t
  /-- The gossip layer has been told about changes only. -/
  gossip : Along Toggle.apply Toggle.Changes ∅ (gossipToggles reply.effects)
  /-- It has been told about every change. -/
  replay : Toggle.replay (gossipToggles reply.effects) = reply.state.gossipPeers

/-- One more call. -/
theorem Tracks.snoc {inputs : List ConnectionInput} {reply : ConnectionReply}
    (h : Tracks inputs reply) {input : ConnectionInput}
    (hallows : (Links.after inputs).Allows input.call) :
    Tracks (inputs ++ [input]) (reply.andThen fun s => s.call input.now input.call) := by
  have hlawful := reply.state.call_lawful input.now input.call
  have hcoherent := (h.coherent.informed input.call).lawful hlawful
  have hmirrors := (h.mirrors.informed hallows).lawful hlawful
  rw [← Links.after_snoc] at hmirrors
  have hgossip : (reply.state.informed input.call).gossipPeers = reply.state.gossipPeers :=
    reply.state.informed_gossipPeers input.call
  refine ⟨hcoherent, hmirrors, fun peerId deadline hdeadline => ?_, ?_, ?_⟩
  · have hsettled : (Links.after (inputs ++ [input])).Settled peerId := by
      refine (hmirrors.settled_iff peerId).1 (hcoherent.settled peerId ?_)
      exact Option.isSome_of_mem hdeadline
    rcases hlawful.deadlines peerId deadline hdeadline with hbefore | ⟨hnew, -⟩
    · obtain ⟨t, ht, hstanding⟩ :=
        h.deadlines peerId deadline (ConnectionState.informed_relayHandoffs hbefore)
      exact ⟨t, ht, hstanding.extend hsettled⟩
    · exact ⟨input.now, hnew, .start hsettled⟩
  · change Along _ _ _ (gossipToggles (reply.effects ++ _))
    rw [gossipToggles, List.filterMap_append, Along.append_iff]
    refine ⟨h.gossip, ?_⟩
    have hlater := hlawful.gossip
    rw [hgossip, ← h.replay] at hlater
    exact hlater
  · change Toggle.replay (gossipToggles (reply.effects ++ _)) = _
    rw [gossipToggles, List.filterMap_append, Toggle.replay, List.foldl_append]
    have hlater := hlawful.replay
    rw [hgossip, ← h.replay] at hlater
    exact hlater

/-- Every history that fits the links is tracked. -/
theorem tracks (localPeerId : PeerId) {inputs : List ConnectionInput} (h : FitsLinks inputs) :
    Tracks inputs (replyTo localPeerId inputs) := by
  induction inputs using List.reverseRecOn with
  | nil =>
    refine ⟨⟨?_, ?_⟩, ⟨fun _ => rfl, rfl⟩, ?_, trivial, rfl⟩
    · intro peerId routes hroutes
      cases hroutes
    · intro peerId hhandoff
      cases hhandoff
    · intro peerId deadline hdeadline
      cases hdeadline
  | append_singleton inputs input ih =>
    rw [fitsLinks_snoc] at h
    rw [replyTo_snoc]
    exact (ih h.1).snoc h.2

/-! ## Mirroring -/

/-- Nothing is kept of a peer. -/
structure ConnectionState.Forgets (s : ConnectionState) (peerId : PeerId) : Prop where
  /-- It has no routes. -/
  routes : s.routes.lookup peerId = none
  /-- No direct addresses of it are known. -/
  directAddresses : s.directAddresses.lookup peerId = none
  /-- No tries to reach it are counted. -/
  backoffs : s.backoffs.lookup peerId = none
  /-- Its subscription is not waited for. -/
  warmups : s.warmups.lookup peerId = none
  /-- It has not been waited for. -/
  warmupCompleted : peerId ∉ s.warmupCompleted
  /-- It has no handoff. -/
  relayHandoffs : s.relayHandoffs.lookup peerId = none
  /-- It has not subscribed. -/
  chatSubscribers : peerId ∉ s.chatSubscribers
  /-- The gossip layer does not keep it. -/
  gossipPeers : peerId ∉ s.gossipPeers

/-- The last connection to close takes everything with it. -/
theorem ConnectionState.connectionClosed_forgets {s : ConnectionState} {peerId : PeerId}
    {connectionId : ConnectionId} {wasRelayed : Bool}
    (hroutes : (s.closeRoute peerId connectionId wasRelayed).routes.lookup peerId = none) :
    (s.connectionClosed peerId connectionId wasRelayed 0).state.Forgets peerId := by
  let closed := s.closeRoute peerId connectionId wasRelayed
  have hforgets : ∀ gossipPeers : Finset PeerId, peerId ∉ gossipPeers →
      ConnectionState.Forgets { closed.forgetPeer peerId with gossipPeers } peerId := by
    intro gossipPeers hgossip
    exact ⟨hroutes, AList.lookup_erase _ _, AList.lookup_erase _ _, AList.lookup_erase _ _,
      Finset.notMem_erase _ _, AList.lookup_erase _ _, Finset.notMem_erase _ _, hgossip⟩
  change ((closed.forgetPeer peerId).untrackGossipPeer peerId).state.Forgets peerId
  unfold untrackGossipPeer
  split
  · exact hforgets _ (Finset.notMem_erase _ _)
  · exact hforgets _ (by assumption)

/-- A coherent state that knows of no connection to a peer records no routes of it. -/
theorem ConnectionState.Coherent.lookup_eq_none {s : ConnectionState} (h : s.Coherent)
    {peerId : PeerId} (hroutes : s.routesOf peerId = .empty) :
    s.routes.lookup peerId = none := by
  cases hlookup : s.routes.lookup peerId with
  | none => rfl
  | some routes =>
    have hsame : routes = .empty := by
      rwa [routesOf, hlookup, Option.getD_some] at hroutes
    have hfull := h.nonempty peerId routes hlookup
    rw [hsame] at hfull
    cases hfull

/-- A peer without open connections has no routes. -/
theorem Links.routesOf_eq_empty {links : Links} {peerId : PeerId}
    (h : Links.established links.opened peerId = 0) : links.routesOf peerId = .empty := by
  have hnone : ∀ kind, links.connectionIds peerId kind = ∅ := by
    intro kind
    refine Finset.eq_empty_of_forall_notMem fun id hid => ?_
    rw [Links.mem_connectionIds] at hid
    rw [Links.established, Finset.card_eq_zero] at h
    refine Finset.notMem_empty (⟨peerId, id, kind⟩ : Connection) ?_
    rw [← h]
    exact Finset.mem_filter.2 ⟨hid, rfl⟩
  rw [Links.routesOf, hnone, hnone]
  rfl

/-- After every history that fits the links the recorded routes are the open connections, each
recorded peer has one, nothing is kept of a peer whose last connection has just been closed,
handoffs are pending for settled peers only, and what the gossip layer was told, coming and going
in turn for each peer, adds up to the peers it keeps. -/
theorem connections_mirrored (localPeerId : PeerId) {inputs : List ConnectionInput}
    (h : FitsLinks inputs) :
    let reply := replyTo localPeerId inputs
    (∀ peerId, reply.state.routesOf peerId = (Links.after inputs).routesOf peerId) ∧
      (∀ peerId routes, reply.state.routes.lookup peerId = some routes →
        routes.isEmpty = false) ∧
      (∀ past now peerId connectionId wasRelayed remainingEstablished,
        inputs = past ++
          [⟨now, .connectionClosed peerId connectionId wasRelayed remainingEstablished⟩] →
        Links.established (Links.after inputs).opened peerId = 0 →
          reply.state.Forgets peerId) ∧
      (∀ peerId, (reply.state.relayHandoffs.lookup peerId).isSome = true →
        reply.state.Settled peerId) ∧
      Toggle.replay (gossipToggles reply.effects) = reply.state.gossipPeers ∧
      ∀ peerId, (false :: (gossipToggles reply.effects).filterMap (Toggle.mark peerId)).IsChain
        (· ≠ ·) := by
  have htracks := tracks localPeerId h
  refine ⟨htracks.mirrors.routes, htracks.coherent.nonempty, ?_, htracks.coherent.settled,
    htracks.replay, Toggle.isChain_marks htracks.gossip⟩
  rintro past now peerId connectionId wasRelayed remainingEstablished rfl hlast
  obtain ⟨hpast, hallows⟩ := fitsLinks_snoc.1 h
  have hbefore := tracks localPeerId hpast
  have hremaining : remainingEstablished = 0 := by
    rw [Links.after_snoc] at hlast
    exact hallows.2.trans hlast
  subst hremaining
  rw [replyTo_snoc]
  refine ConnectionState.connectionClosed_forgets ?_
  refine (hbefore.coherent.closeRoute _ _ _).lookup_eq_none ?_
  -- the reaction leaves the routes, which are those of the links
  have hinformed := (hbefore.mirrors.informed hallows).routes peerId
  rw [← Links.after_snoc, Links.routesOf_eq_empty hlast] at hinformed
  exact hinformed

/-! ## Closing -/

/-- Whether an effect closes a connection. -/
def ConnectionEffect.Closes (connectionId : ConnectionId) : ConnectionEffect → Prop
  | closeRelayConnections _ connectionIds _ => connectionId ∈ connectionIds
  | closeEarlyDirectConnection _ id => connectionId = id
  | _ => False

/-- The calls that report a failed dial or a failed hole punching. -/
def ConnectionCall.isFailure : ConnectionCall → Bool
  | dcutrFailed _ _ | outgoingConnectionError _ _ | recordDirectPromotionFailure _ _ => true
  | _ => false

/-- Names of open connections have been given, and each to one connection only. -/
structure Links.Named (links : Links) : Prop where
  /-- An open connection has a name that has been given. -/
  used : ∀ c ∈ links.opened, c.connectionId ∈ links.used
  /-- No two open connections have the same name. -/
  unique : ∀ c ∈ links.opened, ∀ c' ∈ links.opened, c.connectionId = c'.connectionId → c = c'

/-- A call that fits the links leaves them with unique names. -/
theorem Links.Named.next {links : Links} (h : links.Named) {call : ConnectionCall}
    (hallows : links.Allows call) : (links.next call).Named := by
  cases call with
  | connectionEstablished peerId connectionId isRelayed isRendezvousNode =>
    have hfresh : ∀ c ∈ links.opened, c.connectionId ≠ connectionId :=
      fun c hc heq => hallows (heq ▸ h.used c hc)
    constructor
    · intro c hc
      rcases Finset.mem_insert.1 hc with rfl | hc
      · exact Finset.mem_insert_self _ _
      · exact Finset.mem_insert_of_mem (h.used c hc)
    · intro c hc c' hc' heq
      rcases Finset.mem_insert.1 hc with rfl | hc
      · rcases Finset.mem_insert.1 hc' with rfl | hc'
        · rfl
        · exact absurd heq.symm (hfresh c' hc')
      · rcases Finset.mem_insert.1 hc' with rfl | hc'
        · exact absurd heq (hfresh c hc)
        · exact h.unique c hc c' hc' heq
  | connectionClosed peerId connectionId wasRelayed remainingEstablished =>
    constructor
    · intro c hc
      exact h.used c (Finset.mem_of_mem_erase hc)
    · intro c hc c' hc'
      exact h.unique c (Finset.mem_of_mem_erase hc) c' (Finset.mem_of_mem_erase hc')
  | chatSubscribed peerId => exact ⟨h.used, h.unique⟩
  | chatUnsubscribed peerId => exact ⟨h.used, h.unique⟩
  | _ => exact h

/-- After a history that fits the links names are unique. -/
theorem Links.named_after {inputs : List ConnectionInput} (h : FitsLinks inputs) :
    (Links.after inputs).Named :=
  Along.invariant (I := Links.Named) h ⟨fun _ hc => absurd hc (Finset.notMem_empty _),
    fun _ hc => absurd hc (Finset.notMem_empty _)⟩ fun _ _ hnamed hallows => hnamed.next hallows

/-- A call with a licence for an early direct connection has opened it. -/
theorem Links.opened_of_licence {links : Links} {call : ConnectionCall} {peerId : PeerId}
    {connectionId : ConnectionId} (h : call.licence = .early peerId connectionId) :
    (⟨peerId, connectionId, false⟩ : Connection) ∈ (links.next call).opened := by
  cases call with
  | connectionEstablished p id isRelayed isRendezvousNode =>
    cases isRelayed with
    | true => cases h
    | false =>
      cases h
      exact Finset.mem_insert_self _ _
  | _ => cases h

section Closing

variable {licence : CloseLicence} {s : ConnectionState} {links : Links} {now : Instant}
  {reply : ConnectionReply}

/-- Without a licence nothing is closed. -/
theorem ConnectionState.Lawful.not_closes (h : s.Lawful .nothing now reply) :
    ∀ effect ∈ reply.effects, ∀ id, ¬ effect.Closes id := by
  intro effect heffect id hcloses
  cases effect with
  | closeRelayConnections peerId ids reason =>
    cases (h.closesRelay peerId ids reason heffect).1
  | closeEarlyDirectConnection peerId connectionId =>
    cases (h.closesEarly peerId connectionId heffect).1
  | _ => exact hcloses

/-- What a licence for relayed connections closes are relayed connections of settled peers. -/
theorem ConnectionState.Lawful.closes_relays (h : s.Lawful .relays now reply)
    (hmirrors : s.Mirrors links) {effect : ConnectionEffect} (heffect : effect ∈ reply.effects)
    {id : ConnectionId} (hcloses : effect.Closes id) :
    ∃ peerId, links.Settled peerId ∧ (⟨peerId, id, true⟩ : Connection) ∈ links.opened := by
  cases effect with
  | closeRelayConnections peerId ids reason =>
    obtain ⟨-, hsettled, hids, -⟩ := h.closesRelay peerId ids reason heffect
    refine ⟨peerId, (hmirrors.settled_iff peerId).1 hsettled, Links.mem_connectionIds.1 ?_⟩
    have hid : id ∈ ids := hcloses
    rw [hids, ConnectionState.relayConnections_eq, hmirrors.routes] at hid
    exact hid
  | closeEarlyDirectConnection peerId connectionId =>
    cases (h.closesEarly peerId connectionId heffect).1
  | _ => exact hcloses.elim

/-- What a licence for an early direct connection closes is that one, next to a relayed one. -/
theorem ConnectionState.Lawful.closes_early {peerId : PeerId} {connectionId : ConnectionId}
    (h : s.Lawful (.early peerId connectionId) now reply) (hmirrors : s.Mirrors links)
    {effect : ConnectionEffect} (heffect : effect ∈ reply.effects) {id : ConnectionId}
    (hcloses : effect.Closes id) :
    id = connectionId ∧ (links.connectionIds peerId true).Nonempty := by
  cases effect with
  | closeRelayConnections p ids reason => cases (h.closesRelay p ids reason heffect).1
  | closeEarlyDirectConnection p i =>
    obtain ⟨hlicence, hrelayed⟩ := h.closesEarly p i heffect
    cases hlicence
    refine ⟨hcloses, ?_⟩
    rw [ConnectionState.hasRelayed_eq, hmirrors.routes] at hrelayed
    exact PeerConnectionRoutes.hasRelayed_iff.1 hrelayed
  | _ => exact hcloses.elim

end Closing

/-- The effects of one call leave a connection to every peer that has one. -/
theorem ConnectionState.call_leaves_connection {s : ConnectionState} {links : Links}
    {now : Instant} {call : ConnectionCall}
    (hmirrors : (s.informed call).Mirrors (links.next call)) (hnamed : (links.next call).Named)
    {c : Connection} (hc : c ∈ (links.next call).opened) :
    ∃ c' ∈ (links.next call).opened, c'.peerId = c.peerId ∧
      ∀ effect ∈ (s.call now call).effects, ¬ effect.Closes c'.connectionId := by
  have hlawful := s.call_lawful now call
  by_cases hclosed : ∃ effect ∈ (s.call now call).effects, effect.Closes c.connectionId
  · obtain ⟨effect, heffect, hcloses⟩ := hclosed
    cases hlicence : call.licence with
    | nothing =>
      rw [hlicence] at hlawful
      exact absurd hcloses (hlawful.not_closes effect heffect _)
    | relays =>
      -- the peer is settled, and its direct connection stays
      rw [hlicence] at hlawful
      obtain ⟨peerId, ⟨⟨direct, hdirect⟩, -, -⟩, hopen⟩ :=
        hlawful.closes_relays hmirrors heffect hcloses
      have hsame : c = ⟨peerId, c.connectionId, true⟩ := hnamed.unique c hc _ hopen rfl
      rw [Links.mem_connectionIds] at hdirect
      refine ⟨_, hdirect, (congrArg Connection.peerId hsame).symm, ?_⟩
      intro effect' heffect' hcut
      obtain ⟨peerId', -, hopen'⟩ := hlawful.closes_relays hmirrors heffect' hcut
      cases congrArg Connection.isRelayed (hnamed.unique _ hdirect _ hopen' rfl)
    | early peerId connectionId =>
      -- the new connection is closed, and the relayed one stays
      rw [hlicence] at hlawful
      obtain ⟨hid, relayed, hrelayed⟩ := hlawful.closes_early hmirrors heffect hcloses
      have hopen : (⟨peerId, connectionId, false⟩ : Connection) ∈ (links.next call).opened :=
        Links.opened_of_licence hlicence
      have hsame : c = ⟨peerId, connectionId, false⟩ := hnamed.unique c hc _ hopen hid
      rw [Links.mem_connectionIds] at hrelayed
      refine ⟨_, hrelayed, (congrArg Connection.peerId hsame).symm, ?_⟩
      intro effect' heffect' hcut
      have hsecond := (hlawful.closes_early hmirrors heffect' hcut).1
      cases congrArg Connection.isRelayed (hnamed.unique _ hrelayed _ hopen hsecond)
  · exact ⟨c, hc, rfl, fun effect heffect hcloses => hclosed ⟨effect, heffect, hcloses⟩⟩

/-- In every history that fits the links, relayed connections of a peer are closed, all of them,
only when it has had a direct connection, a relayed one and a subscription for the whole grace
period; an early direct connection is closed only next to a relayed one; the effects of one call
leave a connection to every peer that has one; and a failed try closes nothing.  The times need not
be in order for this. -/
theorem relay_handoff_safe (localPeerId : PeerId) {inputs : List ConnectionInput}
    {input : ConnectionInput} (h : FitsLinks (inputs ++ [input])) :
    let effects := ((replyTo localPeerId inputs).state.call input.now input.call).effects
    let links := Links.after (inputs ++ [input])
    (∀ peerId ids reason, .closeRelayConnections peerId ids reason ∈ effects →
        ids = links.connectionIds peerId true ∧
          ∃ t, t + directRelayHandoffGrace ≤ input.now ∧
            StandingSince (fun past => (Links.after past).Settled peerId) ConnectionInput.now
              (inputs ++ [input]) t) ∧
      (∀ peerId id, .closeEarlyDirectConnection peerId id ∈ effects →
        (links.connectionIds peerId true).Nonempty) ∧
      (∀ c ∈ links.opened, ∃ c' ∈ links.opened, c'.peerId = c.peerId ∧
        ∀ effect ∈ effects, ¬ effect.Closes c'.connectionId) ∧
      (input.call.isFailure = true → ∀ effect ∈ effects, ∀ id, ¬ effect.Closes id) := by
  obtain ⟨hpast, hallows⟩ := fitsLinks_snoc.1 h
  have htracks := tracks localPeerId hpast
  have hmirrors := htracks.mirrors.informed hallows
  have hnamed := Links.named_after h
  rw [Links.after_snoc] at hnamed ⊢
  let s := (replyTo localPeerId inputs).state
  have hlawful := s.call_lawful input.now input.call
  refine ⟨fun peerId ids reason hmem => ?_, fun peerId id hmem => ?_,
    fun c hc => ConnectionState.call_leaves_connection hmirrors hnamed hc,
    fun hfailure => ?_⟩
  · obtain ⟨-, hsettled, hids, deadline, hdeadline, hdue⟩ :=
      hlawful.closesRelay peerId ids reason hmem
    rw [hids, ConnectionState.relayConnections_eq, hmirrors.routes]
    obtain ⟨t, ht, hstanding⟩ := htracks.deadlines peerId deadline
      (ConnectionState.informed_relayHandoffs hdeadline)
    refine ⟨rfl, t, ht ▸ hdue, hstanding.extend ?_⟩
    rw [Links.after_snoc]
    exact (hmirrors.settled_iff peerId).1 hsettled
  · have hrelayed := (hlawful.closesEarly peerId id hmem).2
    rw [ConnectionState.hasRelayed_eq, hmirrors.routes] at hrelayed
    exact PeerConnectionRoutes.hasRelayed_iff.1 hrelayed
  · have hlicence : input.call.licence = .nothing := by
      cases hcall : input.call <;> rw [hcall] at hfailure <;> first | rfl | cases hfailure
    rw [hlicence] at hlawful
    exact hlawful.not_closes

/-! ## A handoff -/

/-- The keys as they come. -/
def KeyOrder.asListed : KeyOrder := ⟨id, fun keys => .refl keys⟩

/-- A peer is reached through a relay, subscribes, is reached directly two seconds later, and the
relay has served its time ten seconds after that. -/
def handoff : List ConnectionInput := [
  ⟨millis 0, .connectionEstablished "b" 1 true false⟩,
  ⟨millis 500, .chatSubscribed "b"⟩,
  ⟨millis 2500, .connectionEstablished "b" 2 false false⟩,
  ⟨millis 5000, .warmupTick .asListed⟩]

/-- The timer after the grace period. -/
def graceOver : ConnectionInput := ⟨millis 12500, .warmupTick .asListed⟩

/-- The relay is closed when the grace period has passed. -/
theorem relay_handoff_safe_handoff :
    .closeRelayConnections "b" {1} .handoffSettled ∈
        ((replyTo "a" handoff).state.call graceOver.now graceOver.call).effects ∧
      ∃ t, t + directRelayHandoffGrace ≤ graceOver.now ∧
        StandingSince (fun past => (Links.after past).Settled "b") ConnectionInput.now
          (handoff ++ [graceOver]) t := by
  have hmem : .closeRelayConnections "b" {1} .handoffSettled ∈
      ((replyTo "a" handoff).state.call graceOver.now graceOver.call).effects := by
    decide +kernel
  have hfits : FitsLinks (handoff ++ [graceOver]) := by decide
  exact ⟨hmem, ((relay_handoff_safe "a" hfits).1 "b" {1} .handoffSettled hmem).2⟩

/-- The peer leaves: the relayed connection closes, then the direct one. -/
def departure : List ConnectionInput :=
  (handoff ++ [⟨millis 12600, .connectionClosed "b" 1 true 1⟩]) ++
    [⟨millis 13000, .connectionClosed "b" 2 false 0⟩]

/-- Then nothing is kept of it. -/
theorem connections_mirrored_departure : (replyTo "a" departure).state.Forgets "b" := by
  have hfits : FitsLinks departure := by decide
  exact (connections_mirrored "a" hfits).2.2.1 _ _ _ _ _ _ rfl (by decide)

end LightEar
