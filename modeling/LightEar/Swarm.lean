import LightEar.DirectAddresses
import LightEar.Foundation.WorkQueue
import LightEar.ZeroPeerRecovery
import Mathlib.Data.Finset.Image

/-!
# Finding peers and keeping up with them

The network layer reports connections, addresses, subscriptions and the answers of rendezvous
nodes.  The program tells its connection state of them, carries out the effects that come of it,
and searches for peers again when the last one of the room has gone.

What is asked of the network layer is noted in order (`SwarmRequest`).  The layer keeps the open
connections and the peers that gossip is exchanged with in any case; how it answers a dial is left
open.  What is told to the user, the announcements, and what becomes of names, music and operations
when a peer comes or goes, are modelled elsewhere.
-/

namespace LightEar

open Foundation

/-! ## The network layer -/

/-- The mark that a rendezvous node hands out with an answer, to ask for what is new since. -/
abbrev Cookie := String

/-- When a dial is made at all. -/
inductive PeerCondition where
  | disconnected
  | always
  deriving DecidableEq, Repr

/-- What the network layer is asked to do. -/
inductive SwarmRequest where
  | dial (peerId : PeerId) (addresses : List Multiaddr) (condition : PeerCondition)
  | closeConnections (connectionIds : Finset ConnectionId)
  | register (rendezvousNode : PeerId)
  | discover (rendezvousNode : PeerId) (cookie : Option Cookie)
  deriving DecidableEq

/-- What is taken from outside while an event is handled. -/
structure SwarmEnv where
  /-- The monotonic clock. -/
  now : Instant
  /-- The clock when the items of a report are gone through, for each of them. -/
  itemNow : Nat → Instant
  /-- The clock when a dial has been refused, after all that has been asked so far. -/
  refusedNow : List SwarmRequest → Instant
  /-- The answer to a dial, which may depend on all that has been asked so far. -/
  dial : List SwarmRequest → Except String Unit
  /-- Whether an external address has been confirmed. -/
  externalAddresses : Bool
  /-- The order in which hash sets list peers. -/
  order : KeyOrder

/-- When an item of a report is looked at. -/
def SwarmEnv.forItem (env : SwarmEnv) (number : Nat) : SwarmEnv :=
  { env with now := env.itemNow number }

/-- A peer that a rendezvous node knows of. -/
structure RendezvousRegistration where
  /-- The peer. -/
  peerId : PeerId
  /-- The addresses it has registered. -/
  addresses : List Multiaddr
  deriving DecidableEq

/-- What the program is started with. -/
structure SwarmConfig where
  /-- The peer itself. -/
  localPeerId : PeerId
  /-- The addresses of the relays, preferred ones first. -/
  relayAddrs : List Multiaddr

/-- The program's view of the network, and the network's state. -/
structure SwarmState where
  /-- What is known about connections. -/
  connections : ConnectionState
  /-- The last mark of each rendezvous node. -/
  rendezvousCookies : AList fun _ : PeerId => Cookie
  /-- The search for peers. -/
  zeroPeerRecovery : ZeroPeerRecovery
  /-- The open connections. -/
  opened : Finset Connection
  /-- The peers that gossip is exchanged with in any case. -/
  explicitPeers : Finset PeerId
  /-- What has been asked of the network layer. -/
  requests : List SwarmRequest

namespace Multiaddr

/-- The peer an address leads to. -/
def peerIdFromMultiaddr (address : Multiaddr) : Option PeerId := address.peers.getLast?

/-- An address of a peer, with its name; none for another peer's. -/
def normalizePeerAddress (peerId : PeerId) (address : Multiaddr) : Option Multiaddr :=
  if address.isUnspecifiedIpAddress then none
  else
    match address.peerIdFromMultiaddr with
    | some addressPeerId => if addressPeerId = peerId then some address else none
    | none => some (address.withPeer peerId)

end Multiaddr

/-- The addresses at which a registered peer may be dialled. -/
def RendezvousRegistration.usable (registration : RendezvousRegistration) : List Multiaddr :=
  registration.addresses.filterMap (Multiaddr.normalizePeerAddress registration.peerId)

/-- The peers that the relay addresses lead to, each once. -/
def SwarmConfig.nodes (config : SwarmConfig) : List PeerId :=
  (config.relayAddrs.filterMap Multiaddr.peerIdFromMultiaddr).dedup

/-- The peers that only help others to meet. -/
def SwarmConfig.rendezvousNodes (config : SwarmConfig) : Finset PeerId := config.nodes.toFinset

/-- The calls on the connection state one after the other, with all their effects. -/
def ConnectionState.callAll (now : Instant) :
    List ConnectionCall → ConnectionState → ConnectionReply
  | [], s => s.keep
  | call :: calls, s => (s.call now call).andThen (callAll now calls)

namespace SwarmState

/-- Before anything has happened. -/
def new (config : SwarmConfig) : SwarmState where
  connections := .new config.localPeerId
  rendezvousCookies := ∅
  zeroPeerRecovery := .default
  opened := ∅
  explicitPeers := ∅
  requests := []

/-- Asks the network layer for something. -/
def request (s : SwarmState) (asked : SwarmRequest) : SwarmState :=
  { s with requests := s.requests ++ [asked] }

/-- The peers with an open connection. -/
def connectedPeers (s : SwarmState) : Finset PeerId := s.opened.image Connection.peerId

/-- Whether there is a connection to a peer. -/
def isPeerConnected (s : SwarmState) (peerId : PeerId) : Bool := peerId ∈ s.connectedPeers

/-- The connected peers of the room. -/
def connectedRoomPeers (s : SwarmState) (config : SwarmConfig) : Finset PeerId :=
  s.connectedPeers \ config.rendezvousNodes

/-- How many there are. -/
def connectedRoomPeerCount (s : SwarmState) (config : SwarmConfig) : Nat :=
  (s.connectedRoomPeers config).card

/-! ## Effects -/

/-- Carries out an effect; gives the effects that come of it. -/
def applyEffect (env : SwarmEnv) (effect : ConnectionEffect) (s : SwarmState) :
    List ConnectionEffect × SwarmState :=
  match effect with
  | .status _ | .resetBackoff _ => ([], s)
  | .trackGossipPeer peerId => ([], { s with explicitPeers := insert peerId s.explicitPeers })
  | .untrackGossipPeer peerId => ([], { s with explicitPeers := s.explicitPeers.erase peerId })
  | .dialDirect peerId addresses =>
    let asked := s.request (.dial peerId addresses .always)
    match env.dial asked.requests with
    | .ok () => ([], asked)
    | .error error =>
      let reply := asked.connections.recordDirectPromotionFailure peerId
        s!"dial request failed: {error}" (env.refusedNow asked.requests)
      (reply.effects, { asked with connections := reply.state })
  | .closeRelayConnections _ connectionIds _ => ([], s.request (.closeConnections connectionIds))
  | .closeEarlyDirectConnection _ connectionId =>
    ([], s.request (.closeConnections {connectionId}))

/-- How heavy an effect is: a dial may bring a text. -/
def effectWeight : ConnectionEffect → Nat
  | .dialDirect _ _ => 2
  | _ => 1

/-- A failure that is counted brings at most one text. -/
theorem recordDirectPromotionFailure_effects (s : ConnectionState) (peerId : PeerId)
    (reason : String) (now : Instant) :
    (s.recordDirectPromotionFailure peerId reason now).effects = [] ∨
      ∃ text, (s.recordDirectPromotionFailure peerId reason now).effects = [.status text] := by
  unfold ConnectionState.recordDirectPromotionFailure
  dsimp only
  split
  · exact .inl rfl
  · exact .inr ⟨_, rfl⟩
  · exact .inr ⟨_, rfl⟩

/-- An effect brings nothing, or one text if it is a dial. -/
theorem applyEffect_fst (env : SwarmEnv) (effect : ConnectionEffect) (s : SwarmState) :
    (applyEffect env effect s).1 = [] ∨
      ∃ text, (applyEffect env effect s).1 = [.status text] ∧ effectWeight effect = 2 := by
  cases effect with
  | dialDirect peerId addresses =>
    unfold applyEffect
    dsimp only
    split
    · exact .inl rfl
    · rcases recordDirectPromotionFailure_effects _ peerId _ _ with hnone | ⟨text, hone⟩
      · exact .inl hnone
      · exact .inr ⟨text, hone, rfl⟩
  | _ => exact .inl rfl

/-- Carries out effects. -/
def effectWorker (env : SwarmEnv) : Worker ConnectionEffect SwarmState where
  handle := applyEffect env
  weight := effectWeight
  lighter effect s := by
    rcases applyEffect_fst env effect s with hnone | ⟨text, hone, hheavy⟩
    · rw [hnone]
      cases effect <;> exact Nat.succ_pos _
    · rw [hone, hheavy]
      exact Nat.lt_succ_self 1

/-- Carries out effects and what comes of them. -/
def applyConnectionEffects (env : SwarmEnv) (effects : List ConnectionEffect) (s : SwarmState) :
    SwarmState :=
  (effectWorker env).drain effects s

/-- Tells the connection state of something, and carries out what comes of it. -/
def tell (env : SwarmEnv) (calls : List ConnectionCall) (s : SwarmState) : SwarmState :=
  applyConnectionEffects env (s.connections.callAll env.now calls).effects
    { s with connections := (s.connections.callAll env.now calls).state }

/-! ## Rendezvous -/

/-- Whether to ask for everything or for what is new. -/
inductive RendezvousDiscoverMode where
  | incremental
  | full
  deriving DecidableEq, Repr

/-- The mark to ask with. -/
def rendezvousCookieForMode (mode : RendezvousDiscoverMode)
    (cookies : AList fun _ : PeerId => Cookie) (rendezvousNode : PeerId) : Option Cookie :=
  match mode with
  | .incremental => cookies.lookup rendezvousNode
  | .full => none

/-- Registers with a node, once there is an address to register. -/
def registerWithRendezvousNode (env : SwarmEnv) (rendezvousNode : PeerId) (s : SwarmState) :
    SwarmState :=
  if env.externalAddresses then s.request (.register rendezvousNode) else s

/-- Does something for each connected rendezvous node. -/
def forConnectedNodes (config : SwarmConfig) (env : SwarmEnv)
    (f : PeerId → SwarmState → SwarmState) (s : SwarmState) : SwarmState :=
  (env.order.list config.nodes).foldl
    (fun s node => if s.isPeerConnected node then f node s else s) s

/-- Registers with the connected nodes. -/
def registerWithRendezvousNodes (config : SwarmConfig) (env : SwarmEnv) (s : SwarmState) :
    SwarmState :=
  s.forConnectedNodes config env (registerWithRendezvousNode env)

/-- Asks a node for peers. -/
def discoverRendezvousNode (rendezvousNode : PeerId) (cookie : Option Cookie) (s : SwarmState) :
    SwarmState :=
  s.request (.discover rendezvousNode cookie)

/-- Asks the connected nodes for peers. -/
def discoverRendezvousPeers (config : SwarmConfig) (env : SwarmEnv)
    (mode : RendezvousDiscoverMode) (s : SwarmState) : SwarmState :=
  s.forConnectedNodes config env fun node s =>
    s.discoverRendezvousNode node (rendezvousCookieForMode mode s.rendezvousCookies node)

/-- Dials a rendezvous node at a relay address, unless it is connected. -/
def ensureRendezvousConnection (config : SwarmConfig) (s : SwarmState) (relayAddr : Multiaddr) :
    SwarmState :=
  match relayAddr.peerIdFromMultiaddr with
  | none => s
  | some peerId =>
    if peerId ∉ config.rendezvousNodes ∨ s.isPeerConnected peerId then s
    else s.request (.dial peerId [relayAddr] .disconnected)

/-- Dials the rendezvous nodes that are not connected. -/
def ensureRendezvousConnections (config : SwarmConfig) (s : SwarmState) : SwarmState :=
  config.relayAddrs.foldl (ensureRendezvousConnection config) s

/-- A search for peers. -/
def runZeroPeerRecovery (config : SwarmConfig) (env : SwarmEnv) (s : SwarmState) : SwarmState :=
  ((s.ensureRendezvousConnections config).registerWithRendezvousNodes config
    env).discoverRendezvousPeers config env .full

/-- What a registration leads to: a connected peer is kept and its addresses are learnt, another
one is dialled.  The peer itself and peers without a usable address are passed over; says whether
the registration counts. -/
def dialRegistration (config : SwarmConfig) (env : SwarmEnv) (registration : RendezvousRegistration)
    (s : SwarmState) : Bool × SwarmState :=
  let peerId := registration.peerId
  if peerId = config.localPeerId then (false, s)
  else if registration.usable = [] then (false, s)
  else if s.isPeerConnected peerId then
    (true, s.tell env [
      .trackGossipPeer peerId (some s!"tracking {peerId} as rendezvous gossip peer"),
      .learnDirectAddresses peerId registration.usable])
  else
    (true, s.request (.dial peerId (prioritizeMultiaddrs registration.usable) .disconnected))

/-- Goes through the registrations in an answer, which are numbered; gives how many count. -/
def dialRendezvousRegistrations (config : SwarmConfig) (env : SwarmEnv) :
    List (RendezvousRegistration × Nat) → SwarmState → Nat × SwarmState
  | [], s => (0, s)
  | (registration, number) :: registrations, s =>
    let (counts, s') := s.dialRegistration config (env.forItem number) registration
    let (discovered, s'') := dialRendezvousRegistrations config env registrations s'
    ((if counts then 1 else 0) + discovered, s'')

end SwarmState

/-! ## Events -/

/-- What happens: reports of the network layer, of which subscriptions are those to the chat, and
ticks of the timers. -/
inductive SwarmEvent where
  | externalAddrConfirmed (address : Multiaddr)
  | connectionEstablished (peerId : PeerId) (connectionId : ConnectionId) (isRelayed : Bool)
  | connectionClosed (peerId : PeerId) (connectionId : ConnectionId) (wasRelayed : Bool)
      (numEstablished : Nat)
  | mdnsDiscovered (list : List (PeerId × Multiaddr))
  | mdnsExpired (list : List (PeerId × Multiaddr))
  | newExternalAddrOfPeer (peerId : PeerId) (address : Multiaddr)
  | identified (peerId : PeerId) (listenAddrs : List Multiaddr)
  | rendezvousDiscovered (rendezvousNode : PeerId) (registrations : List RendezvousRegistration)
      (cookie : Cookie)
  | subscribed (peerId : PeerId)
  | unsubscribed (peerId : PeerId)
  | dcutr (remotePeerId : PeerId) (result : Except String Unit)
  | outgoingConnectionError (peerId : Option PeerId) (error : String)
  | directPromotionTick
  | gossipWarmupTick
  | rendezvousRegisterTick
  | rendezvousDiscoverTick
  | zeroPeerRecoveryTick

namespace SwarmState

/-- A connection has been opened. -/
def handleEstablished (config : SwarmConfig) (env : SwarmEnv) (peerId : PeerId)
    (connectionId : ConnectionId) (isRelayed : Bool) (s : SwarmState) : SwarmState :=
  let isNode := decide (peerId ∈ config.rendezvousNodes)
  let s := { s with opened := insert (⟨peerId, connectionId, isRelayed⟩ : Connection) s.opened }
  let s := s.tell env [.connectionEstablished peerId connectionId isRelayed isNode]
  let s :=
    if isNode then
      (s.registerWithRendezvousNode env peerId).discoverRendezvousNode peerId
        (s.rendezvousCookies.lookup peerId)
    else s
  if 0 < s.connectedRoomPeerCount config ∧ !isNode then
    { s with zeroPeerRecovery := s.zeroPeerRecovery.finish.2 }
  else s

/-- A connection has been closed. -/
def handleClosed (config : SwarmConfig) (env : SwarmEnv) (peerId : PeerId)
    (connectionId : ConnectionId) (wasRelayed : Bool) (numEstablished : Nat) (s : SwarmState) :
    SwarmState :=
  let s := { s with opened := s.opened.erase ⟨peerId, connectionId, wasRelayed⟩ }
  let s := s.tell env [.connectionClosed peerId connectionId wasRelayed numEstablished]
  if numEstablished = 0 ∧ s.connectedRoomPeerCount config = 0 ∧
      peerId ∉ config.rendezvousNodes then
    { s with zeroPeerRecovery := (s.zeroPeerRecovery.start env.now).2 }
  else s

/-- A peer has shown itself in the local network. -/
def handleMdnsDiscovered (env : SwarmEnv) (s : SwarmState) :
    (PeerId × Multiaddr) × Nat → SwarmState
  | ((peerId, address), number) => s.tell (env.forItem number)
      [.trackGossipPeer peerId none, .learnDirectAddresses peerId [address]]

/-- An address in the local network is gone, and with it a peer that is not connected. -/
def handleMdnsExpired (env : SwarmEnv) (s : SwarmState) (lost : PeerId × Multiaddr) :
    SwarmState :=
  let s := s.tell env [.forgetDirectAddress lost.1 lost.2]
  if s.isPeerConnected lost.1 then s else s.tell env [.untrackGossipPeer lost.1]

/-- The reaction to an event. -/
def handle (config : SwarmConfig) (env : SwarmEnv) (s : SwarmState) : SwarmEvent → SwarmState
  | .externalAddrConfirmed address =>
    if address.isRelayAddress then s.registerWithRendezvousNodes config env else s
  | .connectionEstablished peerId connectionId isRelayed =>
    s.handleEstablished config env peerId connectionId isRelayed
  | .connectionClosed peerId connectionId wasRelayed numEstablished =>
    s.handleClosed config env peerId connectionId wasRelayed numEstablished
  | .mdnsDiscovered list => list.zipIdx.foldl (handleMdnsDiscovered env) s
  | .mdnsExpired list => list.foldl (handleMdnsExpired env) s
  | .newExternalAddrOfPeer peerId address => s.tell env [.learnDirectAddresses peerId [address]]
  | .identified peerId listenAddrs => s.tell env [.learnDirectAddresses peerId listenAddrs]
  | .rendezvousDiscovered rendezvousNode registrations cookie =>
    let s := { s with
      rendezvousCookies := s.rendezvousCookies.insert rendezvousNode cookie }
    (s.dialRendezvousRegistrations config env registrations.zipIdx).2
  | .subscribed peerId => s.tell env [.chatSubscribed peerId]
  | .unsubscribed peerId => s.tell env [.chatUnsubscribed peerId]
  | .dcutr remotePeerId (.ok ()) => s.tell env [.dcutrSucceeded remotePeerId]
  | .dcutr remotePeerId (.error error) => s.tell env [.dcutrFailed remotePeerId error]
  | .outgoingConnectionError (some peerId) error =>
    s.tell env [.outgoingConnectionError peerId s!"outgoing direct dial failed: {error}"]
  | .outgoingConnectionError none _ => s
  | .directPromotionTick => s.tell env [.promotionTick env.order]
  | .gossipWarmupTick => s.tell env [.warmupTick env.order]
  | .rendezvousRegisterTick => s.registerWithRendezvousNodes config env
  | .rendezvousDiscoverTick => s.discoverRendezvousPeers config env .incremental
  | .zeroPeerRecoveryTick =>
    let (due, recovery) := s.zeroPeerRecovery.popDueDiscovery env.now
    let s := { s with zeroPeerRecovery := recovery }
    if due then s.runZeroPeerRecovery config env else s

/-- What happens, and what is taken from outside with it. -/
abbrev Input := SwarmEnv × SwarmEvent

/-- The state after some events. -/
def run (config : SwarmConfig) (s : SwarmState) (inputs : List Input) : SwarmState :=
  inputs.foldl (fun s input => s.handle config input.1 input.2) s

end SwarmState

end LightEar
