import LightEar.ConnectionState
import LightEar.Foundation.History

/-!
# What a call on the connection state may do

Every call first changes what is known about routes and subscriptions (`informed`) and then
reacts.  The reaction leaves routes and subscriptions alone, sets a handoff only for a peer with
both kinds of connection and a subscription, tells the gossip layer about changes only, and closes
connections only next to others that stay (`Lawful`).  The functions are walked over once, and
everything about whole histories follows from `call_lawful`.
-/

namespace LightEar

open Foundation

/-! ## Reactions -/

/-- What a reaction may close: nothing, one early direct connection, or relayed connections. -/
inductive CloseLicence where
  | nothing
  | early (peerId : PeerId) (connectionId : ConnectionId)
  | relays
  deriving DecidableEq

/-- The coming or going that an effect tells the gossip layer. -/
def ConnectionEffect.gossip? : ConnectionEffect → Option (Toggle PeerId)
  | trackGossipPeer peerId => some (.add peerId)
  | untrackGossipPeer peerId => some (.drop peerId)
  | _ => none

/-- Comings and goings among some effects. -/
def gossipToggles (effects : List ConnectionEffect) : List (Toggle PeerId) :=
  effects.filterMap ConnectionEffect.gossip?

/-- The effects that neither close a connection nor concern the gossip layer. -/
@[simp]
def ConnectionEffect.isQuiet : ConnectionEffect → Bool
  | status _ | resetBackoff _ | dialDirect _ _ => true
  | trackGossipPeer _ | untrackGossipPeer _ => false
  | closeRelayConnections _ _ _ | closeEarlyDirectConnection _ _ => false

/-- What the reaction to a call may close. -/
def ConnectionCall.licence : ConnectionCall → CloseLicence
  | connectionEstablished peerId connectionId false _ => .early peerId connectionId
  | warmupTick _ => .relays
  | _ => .nothing

namespace ConnectionState

/-- The peer has a direct connection, a relayed one and a subscription. -/
def Settled (s : ConnectionState) (peerId : PeerId) : Prop :=
  s.hasDirect peerId = true ∧ s.hasRelayed peerId = true ∧ peerId ∈ s.chatSubscribers

/-- What a reaction may do in a state in which routes and subscriptions are up to date. -/
structure Lawful (licence : CloseLicence) (s : ConnectionState) (now : Instant)
    (reply : ConnectionReply) : Prop where
  /-- Routes stay. -/
  routes : reply.state.routes = s.routes
  /-- Subscriptions stay. -/
  subscribers : reply.state.chatSubscribers = s.chatSubscribers
  /-- A handoff was there before or has just been set, for a settled peer. -/
  deadlines : ∀ peerId deadline, reply.state.relayHandoffs.lookup peerId = some deadline →
    s.relayHandoffs.lookup peerId = some deadline ∨
      deadline = now + directRelayHandoffGrace ∧ s.Settled peerId
  /-- The gossip layer is told about changes only. -/
  gossip : Along Toggle.apply Toggle.Changes s.gossipPeers (gossipToggles reply.effects)
  /-- It is told about every change. -/
  replay : (gossipToggles reply.effects).foldl Toggle.apply s.gossipPeers =
    reply.state.gossipPeers
  /-- Relayed connections of a settled peer are closed, all of them, when their time has come. -/
  closesRelay : ∀ peerId ids reason,
    .closeRelayConnections peerId ids reason ∈ reply.effects →
      licence = .relays ∧ s.Settled peerId ∧ ids = s.relayConnections peerId ∧
        ∃ deadline ∈ s.relayHandoffs.lookup peerId, deadline ≤ now
  /-- A direct connection of a peer is closed early next to a relayed one. -/
  closesEarly : ∀ peerId connectionId,
    .closeEarlyDirectConnection peerId connectionId ∈ reply.effects →
      licence = .early peerId connectionId ∧ s.hasRelayed peerId = true

/-- A reaction without consequences for routes, handoffs and gossip. -/
structure Quiet (s : ConnectionState) (reply : ConnectionReply) : Prop where
  /-- Routes stay. -/
  routes : reply.state.routes = s.routes
  /-- Subscriptions stay. -/
  subscribers : reply.state.chatSubscribers = s.chatSubscribers
  /-- Handoffs stay. -/
  handoffs : reply.state.relayHandoffs = s.relayHandoffs
  /-- The gossip layer keeps its peers. -/
  gossip : reply.state.gossipPeers = s.gossipPeers
  /-- Nothing is closed, and the gossip layer is told nothing. -/
  effects : ∀ effect ∈ reply.effects, effect.isQuiet = true

namespace Quiet

variable {licence : CloseLicence} {s : ConnectionState} {now : Instant} {reply : ConnectionReply}

/-- Doing nothing is quiet. -/
theorem keep : Quiet s s.keep := ⟨rfl, rfl, rfl, rfl, fun _ h => absurd h List.not_mem_nil⟩

/-- A quiet reaction may be followed by another. -/
theorem andThen {f : ConnectionState → ConnectionReply} (h : Quiet s reply)
    (hf : Quiet reply.state (f reply.state)) : Quiet s (reply.andThen f) where
  routes := hf.routes.trans h.routes
  subscribers := hf.subscribers.trans h.subscribers
  handoffs := hf.handoffs.trans h.handoffs
  gossip := hf.gossip.trans h.gossip
  effects effect heffect := by
    rcases List.mem_append.1 heffect with hfirst | hsecond
    · exact h.effects effect hfirst
    · exact hf.effects effect hsecond

/-- So may one reaction for each of some peers. -/
theorem forEach {f : PeerId → ConnectionState → ConnectionReply}
    (hf : ∀ peerId s, Quiet s (f peerId s)) (peers : List PeerId) (s : ConnectionState) :
    Quiet s (forEach f peers s) := by
  induction peers generalizing s with
  | nil => exact .keep
  | cons peerId peers ih => exact (hf peerId s).andThen (ih _)

/-- A quiet reaction is lawful. -/
theorem lawful (h : Quiet s reply) : Lawful licence s now reply := by
  have hnone : gossipToggles reply.effects = [] := by
    refine List.filterMap_eq_nil_iff.2 fun effect heffect => ?_
    have hquiet := h.effects effect heffect
    cases effect <;> first | rfl | cases hquiet
  refine ⟨h.routes, h.subscribers, fun peerId deadline hdeadline => .inl ?_, ?_, ?_, ?_, ?_⟩
  · rwa [h.handoffs] at hdeadline
  · rw [hnone]
    trivial
  · rw [hnone]
    exact h.gossip.symm
  · intro peerId ids reason hmem
    cases h.effects _ hmem
  · intro peerId connectionId hmem
    cases h.effects _ hmem

end Quiet

namespace Lawful

variable {licence : CloseLicence} {s : ConnectionState} {now : Instant} {reply : ConnectionReply}

/-- Doing nothing is lawful. -/
theorem keep : Lawful licence s now s.keep := Quiet.keep.lawful

/-- Routes and subscriptions decide whether a peer is settled. -/
theorem settled_iff (h : Lawful licence s now reply) (peerId : PeerId) :
    reply.state.Settled peerId ↔ s.Settled peerId := by
  unfold Settled hasDirect hasRelayed
  rw [h.routes, h.subscribers]

/-- A lawful reaction may be followed by another. -/
theorem andThen {f : ConnectionState → ConnectionReply} (h : Lawful licence s now reply)
    (hf : Lawful licence reply.state now (f reply.state)) :
    Lawful licence s now (reply.andThen f) where
  routes := hf.routes.trans h.routes
  subscribers := hf.subscribers.trans h.subscribers
  deadlines peerId deadline hdeadline := by
    rcases hf.deadlines peerId deadline hdeadline with hbefore | ⟨hnew, hsettled⟩
    · exact h.deadlines peerId deadline hbefore
    · exact .inr ⟨hnew, (h.settled_iff peerId).1 hsettled⟩
  gossip := by
    change Along _ _ _ (gossipToggles (reply.effects ++ (f reply.state).effects))
    rw [gossipToggles, List.filterMap_append, Along.append_iff]
    exact ⟨h.gossip, h.replay ▸ hf.gossip⟩
  replay := by
    change (gossipToggles (reply.effects ++ (f reply.state).effects)).foldl _ _ = _
    rw [gossipToggles, List.filterMap_append, List.foldl_append]
    exact (congrArg (List.foldl _ · _) h.replay).trans hf.replay
  closesRelay peerId ids reason hmem := by
    rcases List.mem_append.1 hmem with hmem | hmem
    · exact h.closesRelay peerId ids reason hmem
    · obtain ⟨hlicence, hsettled, hids, deadline, hdeadline, hdue⟩ :=
        hf.closesRelay peerId ids reason hmem
      refine ⟨hlicence, (h.settled_iff peerId).1 hsettled, ?_, deadline, ?_, hdue⟩
      · rw [hids, relayConnections, relayConnections, h.routes]
      · -- a handoff set by the first reaction is not due yet
        rcases h.deadlines peerId deadline hdeadline with hbefore | ⟨hnew, -⟩
        · exact hbefore
        · have hgrace : 0 < directRelayHandoffGrace := by decide
          rw [hnew] at hdue
          exact absurd hdue (Nat.not_le_of_lt (Nat.lt_add_of_pos_right hgrace))
  closesEarly peerId connectionId hmem := by
    rcases List.mem_append.1 hmem with hmem | hmem
    · exact h.closesEarly peerId connectionId hmem
    · obtain ⟨hlicence, hrelayed⟩ := hf.closesEarly peerId connectionId hmem
      refine ⟨hlicence, ?_⟩
      rw [hasRelayed, h.routes] at hrelayed
      exact hrelayed

end Lawful

section Reactions

variable {licence : CloseLicence} (s : ConnectionState) (peerId : PeerId) (now : Instant)

theorem resetBackoff_quiet : Quiet s (s.resetBackoff peerId) := by
  unfold resetBackoff
  split
  · exact ⟨rfl, rfl, rfl, rfl, by simp⟩
  · exact .keep

theorem recordDirectPromotionFailure_quiet (reason : String) :
    Quiet s (s.recordDirectPromotionFailure peerId reason now) := by
  unfold recordDirectPromotionFailure
  dsimp only
  split
  · exact ⟨rfl, rfl, rfl, rfl, by simp⟩
  · exact ⟨rfl, rfl, rfl, rfl, by simp⟩
  · exact ⟨rfl, rfl, rfl, rfl, by simp⟩

theorem startGossipWarmup_quiet : Quiet s (s.startGossipWarmup peerId now) := by
  unfold startGossipWarmup
  split
  · exact .keep
  · split
    · exact .keep
    · exact ⟨rfl, rfl, rfl, rfl, by simp⟩

theorem gossipWarmupAllowsPromotion_quiet :
    Quiet s (s.gossipWarmupAllowsPromotion peerId now).2 := by
  unfold gossipWarmupAllowsPromotion
  split
  · exact ⟨rfl, rfl, rfl, rfl, by simp⟩
  · split
    · exact .keep
    · split
      · exact s.startGossipWarmup_quiet peerId now
      · split
        · exact ⟨rfl, rfl, rfl, rfl, by simp⟩
        · exact .keep

theorem dialDirect_quiet (addresses : List Multiaddr) :
    Quiet s (s.dialDirect peerId addresses now) := by
  unfold dialDirect
  dsimp only
  split
  · split
    · exact ⟨rfl, rfl, rfl, rfl, by simp⟩
    · exact ⟨rfl, rfl, rfl, rfl, by simp⟩
  · split
    · exact ⟨rfl, rfl, rfl, rfl, by simp⟩
    · exact ⟨rfl, rfl, rfl, rfl, by simp⟩

theorem maybePromoteRelayedPeer_quiet :
    Quiet s (s.maybePromoteRelayedPeer peerId now) := by
  unfold maybePromoteRelayedPeer
  split
  · exact .keep
  · split
    · exact .keep
    · exact .keep
    · dsimp only
      split
      · exact (s.gossipWarmupAllowsPromotion_quiet peerId now).andThen
          (dialDirect_quiet _ peerId now _)
      · exact s.gossipWarmupAllowsPromotion_quiet peerId now

theorem trackGossipPeer_lawful (status : Option String) :
    Lawful licence s now (s.trackGossipPeer peerId status) := by
  unfold trackGossipPeer
  split
  · exact .keep
  · have htoggles : gossipToggles
        (.trackGossipPeer peerId :: (status.map ConnectionEffect.status).toList) =
          [.add peerId] := by
      cases status <;> rfl
    refine ⟨rfl, rfl, fun _ _ h => .inl h, ?_, ?_, ?_, ?_⟩
    · rw [htoggles]
      exact ⟨by assumption, trivial⟩
    · rw [htoggles]
      rfl
    · intro p ids reason hmem
      cases status <;> simp at hmem
    · intro p connectionId hmem
      cases status <;> simp at hmem

theorem untrackGossipPeer_lawful : Lawful licence s now (s.untrackGossipPeer peerId) := by
  unfold untrackGossipPeer
  split
  · refine ⟨rfl, rfl, fun _ _ h => .inl h, ⟨by assumption, trivial⟩, rfl, ?_, ?_⟩
    · intro p ids reason hmem
      simp at hmem
    · intro p connectionId hmem
      simp at hmem
  · exact .keep

/-- Forgetting a handoff is lawful. -/
theorem cancelHandoff_lawful : Lawful licence s now (s.cancelHandoff peerId).keep where
  routes := rfl
  subscribers := rfl
  deadlines p deadline h := by
    refine .inl ?_
    by_cases hp : p = peerId
    · subst hp
      rw [cancelHandoff, keep, AList.lookup_erase] at h
      cases h
    · rwa [cancelHandoff, keep, AList.lookup_erase_ne hp] at h
  gossip := trivial
  replay := rfl
  closesRelay _ _ _ h := absurd h List.not_mem_nil
  closesEarly _ _ h := absurd h List.not_mem_nil

/-- A handoff is set for a peer that has subscribed. -/
theorem scheduleRelayHandoff_lawful (hsubscribed : peerId ∈ s.chatSubscribers) :
    Lawful licence s now (s.scheduleRelayHandoff peerId now) := by
  unfold scheduleRelayHandoff
  split
  · exact s.cancelHandoff_lawful peerId now
  · rename_i hboth
    rw [not_or, Bool.not_eq_false, Bool.not_eq_false] at hboth
    have hsettled : s.Settled peerId := ⟨hboth.1, hboth.2, hsubscribed⟩
    have hdeadlines : ∀ p deadline, (s.relayHandoffs.insert peerId
        (now + directRelayHandoffGrace)).lookup p = some deadline →
        s.relayHandoffs.lookup p = some deadline ∨
          deadline = now + directRelayHandoffGrace ∧ s.Settled p := by
      intro p deadline h
      by_cases hp : p = peerId
      · subst hp
        rw [AList.lookup_insert] at h
        cases h
        exact .inr ⟨rfl, hsettled⟩
      · rw [AList.lookup_insert_ne hp] at h
        exact .inl h
    dsimp only
    split
    · exact ⟨rfl, rfl, hdeadlines, trivial, rfl, by simp, by simp⟩
    · exact ⟨rfl, rfl, hdeadlines, trivial, rfl, by simp, by simp⟩

/-- A due handoff closes the relayed connections of a settled peer. -/
theorem closeRelayAfterHandoff_lawful {deadline : Instant}
    (hdeadline : s.relayHandoffs.lookup peerId = some deadline) (hdue : deadline ≤ now) :
    Lawful .relays s now (s.closeRelayAfterHandoff peerId) := by
  unfold closeRelayAfterHandoff
  split
  · exact s.cancelHandoff_lawful peerId now
  · split
    · exact s.cancelHandoff_lawful peerId now
    · split
      · exact s.cancelHandoff_lawful peerId now
      · rename_i hboth hsubscribed _
        rw [not_or, Bool.not_eq_false, Bool.not_eq_false] at hboth
        rw [Bool.not_eq_false, isChatSubscribed, decide_eq_true_eq] at hsubscribed
        have hcancel : Lawful .relays s now (s.cancelHandoff peerId).keep :=
          s.cancelHandoff_lawful peerId now
        refine ⟨rfl, rfl, hcancel.deadlines, trivial, rfl, ?_, by simp⟩
        intro p ids reason hmem
        rw [List.mem_singleton] at hmem
        cases hmem
        exact ⟨rfl, ⟨hboth.1, hboth.2, hsubscribed⟩, rfl, deadline, hdeadline, hdue⟩

/-- Closing relayed connections cancels the handoff. -/
theorem closeRelayAfterHandoff_state :
    (s.closeRelayAfterHandoff peerId).state = s.cancelHandoff peerId := by
  unfold closeRelayAfterHandoff
  split
  · rfl
  · split
    · rfl
    · split <;> rfl

/-- Due handoffs close the relayed connections of their peers. -/
theorem closeRelays_lawful {peers : List PeerId} (hnodup : peers.Nodup)
    (hdue : ∀ peerId ∈ peers, ∃ deadline ∈ s.relayHandoffs.lookup peerId, deadline ≤ now) :
    Lawful .relays s now
      (forEach (fun peerId s => s.closeRelayAfterHandoff peerId) peers s) := by
  induction peers generalizing s with
  | nil => exact .keep
  | cons peerId peers ih =>
    obtain ⟨hnot, hnodup⟩ := List.nodup_cons.1 hnodup
    obtain ⟨deadline, hdeadline, hpast⟩ := hdue peerId List.mem_cons_self
    refine (s.closeRelayAfterHandoff_lawful peerId now hdeadline hpast).andThen
      (ih _ hnodup fun p hp => ?_)
    obtain ⟨deadline, hdeadline, hpast⟩ := hdue p (List.mem_cons_of_mem peerId hp)
    have hne : p ≠ peerId := fun h => hnot (h ▸ hp)
    refine ⟨deadline, ?_, hpast⟩
    rw [closeRelayAfterHandoff_state, cancelHandoff, AList.lookup_erase_ne hne]
    exact hdeadline

/-- A direct connection that may stay. -/
theorem acceptDirect_lawful (hasRelayedRoute : Bool) :
    Lawful licence s now (s.acceptDirect peerId hasRelayedRoute now) := by
  refine (s.resetBackoff_quiet peerId).lawful.andThen ?_
  split
  · rename_i hsubscribed
    split
    · exact scheduleRelayHandoff_lawful _ peerId now (of_decide_eq_true hsubscribed)
    · exact Quiet.lawful ⟨rfl, rfl, rfl, rfl, by simp⟩
  · split
    · exact Quiet.lawful ⟨rfl, rfl, rfl, rfl, by simp⟩
    · exact Quiet.lawful ⟨rfl, rfl, rfl, rfl, by simp⟩

/-- A direct connection that comes too early is closed next to a relayed one. -/
theorem directEstablished_lawful (connectionId : ConnectionId) :
    Lawful (.early peerId connectionId) s now
      (s.directEstablished peerId connectionId now) := by
  unfold directEstablished
  split
  · exact s.acceptDirect_lawful peerId now _
  · rename_i hearly
    have hwarmup := (s.gossipWarmupAllowsPromotion_quiet peerId now)
    rw [not_or, Bool.not_eq_false] at hearly
    dsimp only
    split
    · exact hwarmup.lawful.andThen (acceptDirect_lawful _ peerId now _)
    · refine hwarmup.lawful.andThen ⟨rfl, rfl, fun _ _ h => .inl h, trivial, rfl, by simp, ?_⟩
      intro p id hmem
      rw [List.mem_singleton] at hmem
      cases hmem
      refine ⟨rfl, ?_⟩
      rw [hasRelayed, hwarmup.routes]
      exact hearly.1

theorem relayEstablished_quiet (isRendezvousNode : Bool) :
    Quiet s (s.relayEstablished peerId isRendezvousNode now) := by
  have hconnected : Quiet s ⟨[.status s!"connected {peerId} via relay"], s⟩ :=
    ⟨rfl, rfl, rfl, rfl, by simp⟩
  have hwaited : Quiet s (if !isRendezvousNode && !s.isChatSubscribed peerId then
      s.startGossipWarmup peerId now else s.keep) := by
    split
    · exact s.startGossipWarmup_quiet peerId now
    · exact .keep
  exact (hconnected.andThen (f := fun s => if !isRendezvousNode && !s.isChatSubscribed peerId then
    s.startGossipWarmup peerId now else s.keep) hwaited).andThen
      (f := fun s => s.maybePromoteRelayedPeer peerId now)
      (maybePromoteRelayedPeer_quiet _ peerId now)

theorem rememberDirectAddresses_quiet (addresses : List Multiaddr) :
    Quiet s (s.rememberDirectAddresses peerId addresses).2.keep := by
  unfold rememberDirectAddresses
  dsimp only
  split
  · exact .keep
  · exact ⟨rfl, rfl, rfl, rfl, fun _ h => absurd h List.not_mem_nil⟩

theorem learnDirectAddresses_quiet (addresses : List Multiaddr) :
    Quiet s (s.learnDirectAddresses peerId addresses now) := by
  have hremembered := s.rememberDirectAddresses_quiet peerId addresses
  unfold learnDirectAddresses
  dsimp only
  split
  · exact hremembered
  · exact (hremembered.andThen (f := fun s => s.resetBackoff peerId)
      (resetBackoff_quiet _ peerId)).andThen (f := fun s => s.maybePromoteRelayedPeer peerId now)
      (maybePromoteRelayedPeer_quiet _ peerId now)

theorem forgetDirectAddress_quiet (address : Multiaddr) :
    Quiet s (s.forgetDirectAddress peerId address).2.keep := by
  unfold forgetDirectAddress
  split
  · exact .keep
  · split
    · exact .keep
    · exact ⟨rfl, rfl, rfl, rfl, fun _ h => absurd h List.not_mem_nil⟩

/-- A subscription promotes a relayed peer, or hands over to the direct connection. -/
theorem chatSubscribed_lawful :
    Lawful licence { s with chatSubscribers := insert peerId s.chatSubscribers } now
      (s.chatSubscribed peerId now) := by
  have hstatus : Quiet { s with chatSubscribers := insert peerId s.chatSubscribers }
      ⟨[.status s!"peer {peerId} subscribed to chat"], { s with
        chatSubscribers := insert peerId s.chatSubscribers
        warmups := s.warmups.erase peerId
        warmupCompleted := s.warmupCompleted.erase peerId }⟩ :=
    ⟨rfl, rfl, rfl, rfl, by simp⟩
  have hpromoted := hstatus.andThen (f := fun s => s.maybePromoteRelayedPeer peerId now)
    (maybePromoteRelayedPeer_quiet _ peerId now)
  unfold chatSubscribed
  refine hpromoted.lawful.andThen ?_
  split
  · refine scheduleRelayHandoff_lawful _ peerId now ?_
    rw [hpromoted.subscribers]
    exact Finset.mem_insert_self peerId _
  · exact .keep

theorem chatUnsubscribed_lawful :
    Lawful licence (s.chatUnsubscribed peerId).state now (s.chatUnsubscribed peerId) := by
  refine Quiet.lawful ⟨rfl, rfl, rfl, rfl, ?_⟩
  unfold chatUnsubscribed
  dsimp only
  split <;> simp

theorem dcutrFailed_quiet (reason : String) : Quiet s (s.dcutrFailed peerId reason now) := by
  unfold dcutrFailed
  split
  · exact s.recordDirectPromotionFailure_quiet peerId now _
  · exact ⟨rfl, rfl, rfl, rfl, by simp⟩

theorem outgoingConnectionError_quiet (reason : String) :
    Quiet s (s.outgoingConnectionError peerId reason now) := by
  unfold outgoingConnectionError
  split
  · exact s.recordDirectPromotionFailure_quiet peerId now reason
  · exact ⟨rfl, rfl, rfl, rfl, by simp⟩

theorem warmupTick_lawful (order : KeyOrder) : Lawful .relays s now (s.warmupTick order now) := by
  unfold warmupTick
  have hpromoted := Quiet.forEach (fun peerId s => s.maybePromoteRelayedPeer_quiet peerId now)
    ((order.list s.warmups.keys).filter fun peerId =>
      (s.warmups.lookup peerId).any (warmupIsExpired · now)) s
  refine hpromoted.lawful.andThen (closeRelays_lawful _ now ?_ fun peerId hmem => ?_)
  · exact ((order.perm _).nodup_iff.2 s.relayHandoffs.keys_nodup).filter _
  · rw [hpromoted.handoffs]
    have hdue := (List.mem_filter.1 hmem).2
    rw [Option.any_eq_true] at hdue
    obtain ⟨deadline, hdeadline, hpast⟩ := hdue
    exact ⟨deadline, hdeadline, of_decide_eq_true hpast⟩

end Reactions

/-! ## Calls -/

/-- The state with the routes and subscriptions that a call tells of. -/
def informed (s : ConnectionState) : ConnectionCall → ConnectionState
  | .connectionEstablished peerId connectionId isRelayed _ =>
    s.addRoute peerId connectionId isRelayed
  | .connectionClosed peerId connectionId wasRelayed remainingEstablished =>
    if 0 < remainingEstablished then s.closeRoute peerId connectionId wasRelayed
    else (s.closeRoute peerId connectionId wasRelayed).forgetPeer peerId
  | .chatSubscribed peerId => { s with chatSubscribers := insert peerId s.chatSubscribers }
  | .chatUnsubscribed peerId => (s.chatUnsubscribed peerId).state
  | _ => s

/-- A call informs the state, and what follows is lawful. -/
theorem call_lawful (s : ConnectionState) (now : Instant) (call : ConnectionCall) :
    Lawful call.licence (s.informed call) now (s.call now call) := by
  cases call with
  | connectionEstablished peerId connectionId isRelayed isRendezvousNode =>
    have htracked : ∀ licence, Lawful licence (s.addRoute peerId connectionId isRelayed) now
        (if isRendezvousNode then (s.addRoute peerId connectionId isRelayed).keep
        else (s.addRoute peerId connectionId isRelayed).trackGossipPeer peerId
          (some s!"tracking {peerId} as gossip peer")) := by
      intro licence
      split
      · exact .keep
      · exact trackGossipPeer_lawful _ peerId now _
    unfold call connectionEstablished
    refine (htracked _).andThen ?_
    cases isRelayed with
    | true => exact (relayEstablished_quiet _ peerId now isRendezvousNode).lawful
    | false => exact directEstablished_lawful _ peerId now connectionId
  | connectionClosed peerId connectionId wasRelayed remainingEstablished =>
    unfold call connectionClosed informed
    dsimp only
    split
    · exact Quiet.lawful ⟨rfl, rfl, rfl, rfl, by simp⟩
    · have hstatus : Quiet ((s.closeRoute peerId connectionId wasRelayed).forgetPeer peerId)
          ⟨[.status s!"disconnected {peerId}"],
            (s.closeRoute peerId connectionId wasRelayed).forgetPeer peerId⟩ :=
        ⟨rfl, rfl, rfl, rfl, by simp⟩
      exact hstatus.lawful.andThen (untrackGossipPeer_lawful _ peerId now)
  | trackGossipPeer peerId status => exact s.trackGossipPeer_lawful peerId now status
  | untrackGossipPeer peerId => exact s.untrackGossipPeer_lawful peerId now
  | learnDirectAddresses peerId addresses =>
    exact (s.learnDirectAddresses_quiet peerId now addresses).lawful
  | forgetDirectAddress peerId address =>
    exact (s.forgetDirectAddress_quiet peerId address).lawful
  | chatSubscribed peerId => exact s.chatSubscribed_lawful peerId now
  | chatUnsubscribed peerId => exact s.chatUnsubscribed_lawful peerId now
  | promotionTick order =>
    exact (Quiet.forEach (fun peerId s => s.maybePromoteRelayedPeer_quiet peerId now) _ s).lawful
  | warmupTick order => exact s.warmupTick_lawful now order
  | dcutrSucceeded peerId => exact (s.resetBackoff_quiet peerId).lawful
  | dcutrFailed peerId reason => exact (s.dcutrFailed_quiet peerId now reason).lawful
  | outgoingConnectionError peerId reason =>
    exact (s.outgoingConnectionError_quiet peerId now reason).lawful
  | recordDirectPromotionFailure peerId reason =>
    exact (s.recordDirectPromotionFailure_quiet peerId now reason).lawful

end ConnectionState

end LightEar
