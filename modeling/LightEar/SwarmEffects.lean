import LightEar.ConnectionHistory
import LightEar.Swarm

/-!
# Effects that are carried out

The connection state decides, and the network layer does what the effects ask.  A dial that the
layer refuses is told to the connection state as a failure, while other effects still wait.

All the same the connection state is that after a history of calls, with the failures among them,
and everything that its effects ask for is done (`KeepsUp.tell`).
-/

namespace LightEar

open Foundation

/-! ## Carrying out effects -/

/-- What an effect asks of the network layer. -/
def ConnectionEffect.request? : ConnectionEffect → Option SwarmRequest
  | dialDirect peerId addresses => some (.dial peerId addresses .always)
  | closeRelayConnections _ connectionIds _ => some (.closeConnections connectionIds)
  | closeEarlyDirectConnection _ connectionId => some (.closeConnections {connectionId})
  | _ => none

/-- Whether a request comes of an effect; the others come of the search for peers. -/
def SwarmRequest.ofEffect : SwarmRequest → Bool
  | dial _ _ .always | closeConnections _ => true
  | dial _ _ .disconnected | register _ | discover _ _ => false

/-- What an effect asks comes of an effect. -/
theorem ConnectionEffect.ofEffect_of_request {effect : ConnectionEffect} {asked : SwarmRequest}
    (h : effect.request? = some asked) : asked.ofEffect = true := by
  cases effect with
  | dialDirect peerId addresses => cases h; rfl
  | closeRelayConnections peerId connectionIds reason => cases h; rfl
  | closeEarlyDirectConnection peerId connectionId => cases h; rfl
  | _ => cases h

/-- A dial that has been refused. -/
structure DialFailure where
  /-- The peer. -/
  peerId : PeerId
  /-- What has been said. -/
  reason : String
  /-- When. -/
  now : Instant

/-- The connection state after it has been told of failures to reach peers. -/
def ConnectionState.failAll (s : ConnectionState) (failures : List DialFailure) :
    ConnectionState :=
  failures.foldl (fun state failure =>
    (state.recordDirectPromotionFailure failure.peerId failure.reason failure.now).state) s

namespace SwarmState

variable {config : SwarmConfig} {env : SwarmEnv} {s t : SwarmState}

/-- Effects are carried out one after the other: what they bring is texts. -/
theorem applyConnectionEffects_eq_foldl (env : SwarmEnv) (effects : List ConnectionEffect)
    (s : SwarmState) : s.applyConnectionEffects env effects =
      effects.foldl (fun s effect => (applyEffect env effect s).2) s := by
  refine Worker.drain_eq_foldl (w := effectWorker env) ?_ effects s
  intro effect s brought hbrought
  have hmem : brought ∈ (applyEffect env effect s).1 := hbrought
  rcases applyEffect_fst env effect s with hnone | ⟨text, hone, -⟩
  · rw [hnone] at hmem
    exact absurd hmem List.not_mem_nil
  · rw [hone] at hmem
    rw [List.mem_singleton.1 hmem]
    exact fun _ => rfl

/-- What carrying out effects does to a state. -/
structure CarriesOut (effects : List ConnectionEffect) (s t : SwarmState) : Prop where
  /-- Connections are opened and closed later. -/
  opened : t.opened = s.opened
  /-- The search for peers goes on as it does. -/
  recovery : t.zeroPeerRecovery = s.zeroPeerRecovery
  /-- The gossip layer is told of comings and goings. -/
  explicit : t.explicitPeers = (gossipToggles effects).foldl Toggle.apply s.explicitPeers
  /-- What the effects ask for is asked for, in order. -/
  requests : t.requests = s.requests ++ effects.filterMap ConnectionEffect.request?
  /-- The connection state is told of the dials that have failed. -/
  failures : ∃ failures, t.connections = s.connections.failAll failures

/-- One effect. -/
theorem applyEffect_carriesOut (env : SwarmEnv) (effect : ConnectionEffect) (s : SwarmState) :
    CarriesOut [effect] s (applyEffect env effect s).2 := by
  cases effect with
  | dialDirect peerId addresses =>
    unfold applyEffect
    dsimp only
    split
    · exact ⟨rfl, rfl, rfl, rfl, [], rfl⟩
    · rename_i error _
      exact ⟨rfl, rfl, rfl, rfl, [⟨peerId, s!"dial request failed: {error}", _⟩], rfl⟩
  | status text => exact ⟨rfl, rfl, rfl, (List.append_nil _).symm, [], rfl⟩
  | resetBackoff peerId => exact ⟨rfl, rfl, rfl, (List.append_nil _).symm, [], rfl⟩
  | trackGossipPeer peerId => exact ⟨rfl, rfl, rfl, (List.append_nil _).symm, [], rfl⟩
  | untrackGossipPeer peerId => exact ⟨rfl, rfl, rfl, (List.append_nil _).symm, [], rfl⟩
  | closeRelayConnections peerId connectionIds reason => exact ⟨rfl, rfl, rfl, rfl, [], rfl⟩
  | closeEarlyDirectConnection peerId connectionId => exact ⟨rfl, rfl, rfl, rfl, [], rfl⟩

/-- Effects may be carried out after others. -/
theorem CarriesOut.append {effects later : List ConnectionEffect} {u : SwarmState}
    (h : CarriesOut effects s t) (hlater : CarriesOut later t u) :
    CarriesOut (effects ++ later) s u := by
  obtain ⟨failures, hfailures⟩ := h.failures
  obtain ⟨others, hothers⟩ := hlater.failures
  refine ⟨hlater.opened.trans h.opened, hlater.recovery.trans h.recovery, ?_, ?_,
    failures ++ others, ?_⟩
  · rw [hlater.explicit, h.explicit, gossipToggles, gossipToggles, gossipToggles,
      List.filterMap_append, List.foldl_append]
  · rw [hlater.requests, h.requests, List.filterMap_append, List.append_assoc]
  · rw [hothers, hfailures]
    exact List.foldl_append.symm

/-- Any effects. -/
theorem applyConnectionEffects_carriesOut (env : SwarmEnv) (effects : List ConnectionEffect)
    (s : SwarmState) : CarriesOut effects s (s.applyConnectionEffects env effects) := by
  rw [applyConnectionEffects_eq_foldl]
  induction effects generalizing s with
  | nil => exact ⟨rfl, rfl, rfl, (List.append_nil _).symm, [], rfl⟩
  | cons effect effects ih => exact (applyEffect_carriesOut env effect s).append (ih _)

end SwarmState

/-! ## Calls in a row -/

/-- The peer that a call has the gossip layer keep or drop. -/
def ConnectionCall.gossip? : ConnectionCall → Option (Toggle PeerId)
  | connectionEstablished peerId _ _ false => some (.add peerId)
  | connectionClosed peerId _ _ 0 => some (.drop peerId)
  | trackGossipPeer peerId _ => some (.add peerId)
  | untrackGossipPeer peerId => some (.drop peerId)
  | _ => none

/-- Whether a call reports a change of the links. -/
def ConnectionCall.isReport : ConnectionCall → Bool
  | connectionEstablished .. | connectionClosed .. | chatSubscribed _ | chatUnsubscribed _ => true
  | _ => false

/-- A call that reports nothing leaves the links and fits them. -/
theorem Links.next_of_not_isReport {call : ConnectionCall} (h : call.isReport = false)
    (links : Links) : links.next call = links ∧ links.Allows call := by
  cases call with
  | connectionEstablished peerId connectionId isRelayed isRendezvousNode => cases h
  | connectionClosed peerId connectionId wasRelayed remainingEstablished => cases h
  | chatSubscribed peerId => cases h
  | chatUnsubscribed peerId => cases h
  | _ => exact ⟨rfl, trivial⟩

namespace ConnectionState

section Gossip

variable (s : ConnectionState) (peerId : PeerId) (now : Instant)

theorem trackGossipPeer_gossipPeers (status : Option String) :
    (s.trackGossipPeer peerId status).state.gossipPeers = insert peerId s.gossipPeers := by
  unfold trackGossipPeer
  split
  · rename_i hmem
    exact (Finset.insert_eq_self.2 hmem).symm
  · rfl

theorem untrackGossipPeer_gossipPeers :
    (s.untrackGossipPeer peerId).state.gossipPeers = s.gossipPeers.erase peerId := by
  unfold untrackGossipPeer
  split
  · rfl
  · rename_i hnot
    exact (Finset.erase_eq_of_notMem hnot).symm

theorem scheduleRelayHandoff_gossipPeers :
    (s.scheduleRelayHandoff peerId now).state.gossipPeers = s.gossipPeers := by
  unfold scheduleRelayHandoff
  dsimp only
  split_ifs <;> rfl

theorem acceptDirect_gossipPeers (hasRelayedRoute : Bool) :
    (s.acceptDirect peerId hasRelayedRoute now).state.gossipPeers = s.gossipPeers := by
  have hreset : (s.resetBackoff peerId).state.gossipPeers = s.gossipPeers :=
    (s.resetBackoff_quiet peerId).gossip
  unfold acceptDirect ConnectionReply.andThen
  dsimp only
  split_ifs
  · exact (scheduleRelayHandoff_gossipPeers _ peerId now).trans hreset
  · exact hreset
  · exact hreset
  · exact hreset

theorem directEstablished_gossipPeers (connectionId : ConnectionId) :
    (s.directEstablished peerId connectionId now).state.gossipPeers = s.gossipPeers := by
  unfold directEstablished
  split
  · exact s.acceptDirect_gossipPeers peerId now _
  · have hallowed : (s.gossipWarmupAllowsPromotion peerId now).2.state.gossipPeers =
        s.gossipPeers := (s.gossipWarmupAllowsPromotion_quiet peerId now).gossip
    dsimp only
    split
    · exact (acceptDirect_gossipPeers _ peerId now _).trans hallowed
    · exact hallowed

theorem chatSubscribed_gossipPeers :
    (s.chatSubscribed peerId now).state.gossipPeers = s.gossipPeers := by
  unfold chatSubscribed ConnectionReply.andThen
  dsimp only
  set subscribed : ConnectionState := { s with
    chatSubscribers := insert peerId s.chatSubscribers
    warmups := s.warmups.erase peerId
    warmupCompleted := s.warmupCompleted.erase peerId }
  have hpromoted : (subscribed.maybePromoteRelayedPeer peerId now).state.gossipPeers =
      s.gossipPeers := (subscribed.maybePromoteRelayedPeer_quiet peerId now).gossip
  split
  · exact (scheduleRelayHandoff_gossipPeers _ peerId now).trans hpromoted
  · exact hpromoted

theorem closeRelays_gossipPeers (peers : List PeerId) :
    (forEach (fun peerId s => s.closeRelayAfterHandoff peerId) peers s).state.gossipPeers =
      s.gossipPeers := by
  induction peers generalizing s with
  | nil => rfl
  | cons peerId peers ih =>
    refine (ih (s.closeRelayAfterHandoff peerId).state).trans ?_
    rw [s.closeRelayAfterHandoff_state peerId]
    rfl

theorem warmupTick_gossipPeers (order : KeyOrder) :
    (s.warmupTick order now).state.gossipPeers = s.gossipPeers := by
  unfold warmupTick
  exact (closeRelays_gossipPeers _ _).trans
    (Quiet.forEach (fun peerId s => s.maybePromoteRelayedPeer_quiet peerId now) _ s).gossip

/-- What a call does to the peers that the gossip layer keeps. -/
theorem call_gossipPeers (call : ConnectionCall) : (s.call now call).state.gossipPeers =
    call.gossip?.toList.foldl Toggle.apply s.gossipPeers := by
  cases call with
  | connectionEstablished peerId connectionId isRelayed isRendezvousNode =>
    have hreaction : ∀ tracked : ConnectionState,
        (if isRelayed then tracked.relayEstablished peerId isRendezvousNode now
        else tracked.directEstablished peerId connectionId now).state.gossipPeers =
          tracked.gossipPeers := by
      intro tracked
      split
      · exact (tracked.relayEstablished_quiet peerId now isRendezvousNode).gossip
      · exact tracked.directEstablished_gossipPeers peerId now connectionId
    refine (hreaction _).trans ?_
    cases isRendezvousNode with
    | true => rfl
    | false => exact trackGossipPeer_gossipPeers _ peerId _
  | connectionClosed peerId connectionId wasRelayed remainingEstablished =>
    have hclosed := (s.closeRoute_frame peerId connectionId wasRelayed).2
    cases remainingEstablished with
    | zero =>
      refine (untrackGossipPeer_gossipPeers _ peerId).trans ?_
      exact congrArg (Finset.erase · peerId) hclosed
    | succ remaining => exact hclosed
  | trackGossipPeer peerId status => exact s.trackGossipPeer_gossipPeers peerId status
  | untrackGossipPeer peerId => exact s.untrackGossipPeer_gossipPeers peerId
  | learnDirectAddresses peerId addresses =>
    exact (s.learnDirectAddresses_quiet peerId now addresses).gossip
  | forgetDirectAddress peerId address => exact (s.forgetDirectAddress_quiet peerId address).gossip
  | chatSubscribed peerId => exact s.chatSubscribed_gossipPeers peerId now
  | chatUnsubscribed peerId => exact s.informed_gossipPeers (.chatUnsubscribed peerId)
  | promotionTick order =>
    exact (Quiet.forEach (fun peerId s => s.maybePromoteRelayedPeer_quiet peerId now) _ s).gossip
  | warmupTick order => exact s.warmupTick_gossipPeers now order
  | dcutrSucceeded peerId => exact (s.resetBackoff_quiet peerId).gossip
  | dcutrFailed peerId reason => exact (s.dcutrFailed_quiet peerId now reason).gossip
  | outgoingConnectionError peerId reason =>
    exact (s.outgoingConnectionError_quiet peerId now reason).gossip
  | recordDirectPromotionFailure peerId reason =>
    exact (s.recordDirectPromotionFailure_quiet peerId now reason).gossip

/-- What calls one after the other do to them. -/
theorem callAll_gossipPeers (calls : List ConnectionCall) :
    (callAll now calls s).state.gossipPeers =
      (calls.filterMap ConnectionCall.gossip?).foldl Toggle.apply s.gossipPeers := by
  induction calls generalizing s with
  | nil => rfl
  | cons call calls ih =>
    refine (ih (s.call now call).state).trans ?_
    rw [s.call_gossipPeers now call, List.filterMap_cons]
    cases call.gossip? <;> rfl

/-- The gossip layer is told what the calls do. -/
theorem callAll_toggles (calls : List ConnectionCall) :
    (gossipToggles (callAll now calls s).effects).foldl Toggle.apply s.gossipPeers =
      (callAll now calls s).state.gossipPeers := by
  induction calls generalizing s with
  | nil => rfl
  | cons call calls ih =>
    have hthis := (s.call_lawful now call).replay
    rw [s.informed_gossipPeers call] at hthis
    have hrest := ih (s.call now call).state
    change (gossipToggles ((s.call now call).effects ++ _)).foldl Toggle.apply s.gossipPeers = _
    rw [gossipToggles, List.filterMap_append, List.foldl_append]
    exact (congrArg (List.foldl _ · _) hthis).trans hrest

end Gossip

/-- Failures leave the peers that the gossip layer keeps. -/
theorem failAll_gossipPeers (failures : List DialFailure) (s : ConnectionState) :
    (s.failAll failures).gossipPeers = s.gossipPeers := by
  induction failures generalizing s with
  | nil => rfl
  | cons failure failures ih =>
    have hquiet := s.recordDirectPromotionFailure_quiet failure.peerId failure.now failure.reason
    exact (ih _).trans hquiet.gossip

end ConnectionState

theorem ConnectionReply.andThen_assoc (reply : ConnectionReply)
    (f g : ConnectionState → ConnectionReply) :
    (reply.andThen f).andThen g = reply.andThen fun s => (f s).andThen g := by
  unfold andThen
  rw [List.append_assoc]

/-- Calls one after the other go on with a history. -/
theorem replyTo_calls (localPeerId : PeerId) (history : List ConnectionInput) (now : Instant)
    (calls : List ConnectionCall) :
    replyTo localPeerId (history ++ calls.map (ConnectionInput.mk now)) =
      (replyTo localPeerId history).andThen (ConnectionState.callAll now calls) := by
  induction calls generalizing history with
  | nil =>
    rw [List.map_nil, List.append_nil]
    unfold ConnectionReply.andThen ConnectionState.callAll ConnectionState.keep
    rw [List.append_nil]
  | cons call calls ih =>
    rw [List.map_cons, List.append_cons, ih, replyTo_snoc, ConnectionReply.andThen_assoc]
    rfl

/-- Calls that fit the links go on with a history that fits them. -/
theorem fitsLinks_calls {history : List ConnectionInput} (h : FitsLinks history) (now : Instant)
    {calls : List ConnectionCall} (hallows : Along Links.next Links.Allows (Links.after history)
      calls) : FitsLinks (history ++ calls.map (ConnectionInput.mk now)) ∧
        Links.after (history ++ calls.map (ConnectionInput.mk now)) =
          calls.foldl Links.next (Links.after history) := by
  induction calls generalizing history with
  | nil =>
    rw [List.map_nil, List.append_nil]
    exact ⟨h, rfl⟩
  | cons call calls ih =>
    have hlinks := Links.after_snoc history ⟨now, call⟩
    have hfits : FitsLinks (history ++ [⟨now, call⟩]) := fitsLinks_snoc.2 ⟨h, hallows.1⟩
    rw [List.map_cons, List.append_cons, List.foldl_cons]
    have hrest := ih hfits (hlinks ▸ hallows.2)
    rwa [hlinks] at hrest

/-! ## Keeping up with the links -/

/-- The connection state is that after a history of calls which fits the links, and everything that
its effects ask for has been done, but for some effects that are still to be carried out. -/
structure KeepsUp (config : SwarmConfig) (links : Links) (history : List ConnectionInput)
    (owed : List ConnectionEffect) (s : SwarmState) : Prop where
  /-- The calls fit the links. -/
  fits : FitsLinks history
  /-- They lead to these links. -/
  links : Links.after history = links
  /-- The calls have led to the connection state. -/
  connections : (replyTo config.localPeerId history).state = s.connections
  /-- The gossip layer keeps the peers that it should. -/
  gossip : (gossipToggles owed).foldl Toggle.apply s.explicitPeers = s.connections.gossipPeers
  /-- The network layer has been asked for what the effects ask. -/
  requests : s.requests.filter SwarmRequest.ofEffect ++
      owed.filterMap ConnectionEffect.request? =
    (replyTo config.localPeerId history).effects.filterMap ConnectionEffect.request?

namespace KeepsUp

variable {config : SwarmConfig} {links : Links} {history : List ConnectionInput}
  {owed effects : List ConnectionEffect} {s t : SwarmState} {env : SwarmEnv}

/-- A failure is one more call. -/
theorem fail (h : KeepsUp config links history owed s) (now : Instant) (peerId : PeerId)
    (reason : String) :
    KeepsUp config links (history ++ [⟨now, .recordDirectPromotionFailure peerId reason⟩]) owed
      { s with connections :=
          (s.connections.recordDirectPromotionFailure peerId reason now).state } := by
  have hquiet := s.connections.recordDirectPromotionFailure_quiet peerId now reason
  have hnone : (s.connections.recordDirectPromotionFailure peerId reason now).effects.filterMap
      ConnectionEffect.request? = [] := by
    rcases SwarmState.recordDirectPromotionFailure_effects s.connections peerId reason now with
      hnone | ⟨text, hone⟩
    · rw [hnone]
      rfl
    · rw [hone]
      rfl
  refine ⟨fitsLinks_snoc.2 ⟨h.fits, trivial⟩, ?_, ?_, ?_, ?_⟩
  · rw [Links.after_snoc]
    exact h.links
  · rw [replyTo_snoc]
    exact congrArg (fun state : ConnectionState =>
      (state.recordDirectPromotionFailure peerId reason now).state) h.connections
  · exact h.gossip.trans hquiet.gossip.symm
  · rw [replyTo_snoc]
    change _ = ((replyTo config.localPeerId history).effects ++ _).filterMap _
    rw [List.filterMap_append, h.connections]
    exact h.requests.trans ((congrArg (_ ++ ·) hnone).trans (List.append_nil _)).symm

/-- Several failures. -/
theorem failAll (h : KeepsUp config links history owed s) (failures : List DialFailure) :
    ∃ later, KeepsUp config links later owed
      { s with connections := s.connections.failAll failures } := by
  induction failures generalizing history s with
  | nil => exact ⟨history, h⟩
  | cons failure failures ih => exact ih (h.fail failure.now failure.peerId failure.reason)

/-- Effects that are carried out are no longer owed. -/
theorem carryOut (h : KeepsUp config links history effects s)
    (hdone : SwarmState.CarriesOut effects s t) :
    ∃ later, KeepsUp config links later [] t := by
  obtain ⟨failures, hfailures⟩ := hdone.failures
  obtain ⟨later, hlater⟩ := h.failAll failures
  refine ⟨later, hlater.fits, hlater.links, hlater.connections.trans hfailures.symm, ?_, ?_⟩
  · rw [hfailures]
    exact hdone.explicit.trans hlater.gossip
  · have hasked : (effects.filterMap ConnectionEffect.request?).filter SwarmRequest.ofEffect =
        effects.filterMap ConnectionEffect.request? := by
      refine List.filter_eq_self.2 fun asked hmem => ?_
      obtain ⟨effect, -, hrequest⟩ := List.mem_filterMap.1 hmem
      exact ConnectionEffect.ofEffect_of_request hrequest
    rw [hdone.requests, List.filter_append, hasked, List.filterMap_nil, List.append_nil]
    exact hlater.requests

/-- Calls that fit the links, with all their effects. -/
theorem tell (h : KeepsUp config links history [] s) (env : SwarmEnv)
    {calls : List ConnectionCall} (hallows : Along Links.next Links.Allows links calls) :
    ∃ later, KeepsUp config (calls.foldl Links.next links) later [] (s.tell env calls) := by
  obtain ⟨hfits, hlinks⟩ := fitsLinks_calls h.fits env.now (h.links.symm ▸ hallows)
  have hgossip : s.explicitPeers = s.connections.gossipPeers := h.gossip
  have hrequests : s.requests.filter SwarmRequest.ofEffect =
      (replyTo config.localPeerId history).effects.filterMap ConnectionEffect.request? :=
    (List.append_nil _).symm.trans h.requests
  let reply := s.connections.callAll env.now calls
  have howes : KeepsUp config (calls.foldl Links.next links)
      (history ++ calls.map (ConnectionInput.mk env.now)) reply.effects
      { s with connections := reply.state } := by
    refine ⟨hfits, hlinks.trans (congrArg (calls.foldl Links.next) h.links), ?_, ?_, ?_⟩
    · rw [replyTo_calls]
      exact congrArg (fun state => (ConnectionState.callAll env.now calls state).state)
        h.connections
    · dsimp only
      rw [hgossip]
      exact s.connections.callAll_toggles env.now calls
    · rw [replyTo_calls]
      change _ = ((replyTo config.localPeerId history).effects ++ _).filterMap _
      rw [List.filterMap_append, ← hrequests, h.connections]
  exact howes.carryOut (SwarmState.applyConnectionEffects_carriesOut env _ _)

end KeepsUp

/-- The open connections are those of the links, and the connection state follows them. -/
structure InStep (config : SwarmConfig) (links : Links) (s : SwarmState) : Prop where
  /-- The network layer keeps the connections that it has reported. -/
  opened : s.opened = links.opened
  /-- The program knows of them. -/
  follows : ∃ history, KeepsUp config links history [] s

namespace InStep

variable {config : SwarmConfig} {links : Links} {s : SwarmState}

/-- The gossip layer keeps the peers that the connection state has it keep. -/
theorem explicitPeers_eq (h : InStep config links s) :
    s.explicitPeers = s.connections.gossipPeers := by
  obtain ⟨history, hfollows⟩ := h.follows
  exact hfollows.gossip

/-- The connection state knows the links. -/
theorem mirrors (h : InStep config links s) : s.connections.Mirrors links := by
  obtain ⟨history, hfollows⟩ := h.follows
  have htracks := tracks config.localPeerId hfollows.fits
  rw [← hfollows.connections, ← hfollows.links]
  exact htracks.mirrors

/-- Names are unique. -/
theorem named (h : InStep config links s) : links.Named := by
  obtain ⟨history, hfollows⟩ := h.follows
  rw [← hfollows.links]
  exact Links.named_after hfollows.fits

end InStep

end LightEar
