import LightEar.ConnectionState
import Mathlib

/-!
# What the relay shows

The relay is a program of its own.  It keeps a table of the peers that are connected to it, a table
of what has been registered with it, and the latest events, and shows all three on a page.  It
changes them as the network reports events: a link opens or closes, a peer says what it is, a peer
registers, is unregistered or expires.

A registration is filed under one text made of namespace and peer.
-/

namespace LightEar

open Std (TreeMap TreeSet)

/-! ## Data -/

/-- How many events are shown. -/
def eventLogLimit : Nat := 80

/-- An event on the page. -/
structure TopologyEvent where
  /-- When it came. -/
  atMillis : Nat
  /-- What it is about. -/
  kind : String
  /-- What has happened. -/
  detail : String
  deriving DecidableEq, Repr

/-- What is known of a peer. -/
structure PeerState where
  /-- How many links it has. -/
  connections : Nat
  /-- The addresses it has come from or has named. -/
  addresses : TreeSet String
  /-- The protocols it has named. -/
  protocols : TreeSet String
  /-- The program it says it runs. -/
  agentVersion : Option String
  /-- When it was last heard of. -/
  lastSeenMillis : Nat

/-- A peer of which nothing is known. -/
def PeerState.default : PeerState := ⟨0, ∅, ∅, none, 0⟩

/-- A registration on the page. -/
structure RendezvousRegistrationState where
  /-- Who has registered. -/
  peerId : String
  /-- What for. -/
  namespaceName : String
  /-- Where the peer is to be found. -/
  addresses : List String
  /-- When the peer has registered. -/
  registeredAtMillis : Nat
  /-- When it has last renewed the registration. -/
  refreshedAtMillis : Nat
  deriving DecidableEq, Repr

/-- What the relay shows. -/
structure TopologyState where
  /-- The relay itself. -/
  localPeerId : String
  /-- When it was started. -/
  startedAtMillis : Nat
  /-- When the page last changed. -/
  updatedAtMillis : Nat
  /-- Where it listens. -/
  listenAddresses : TreeSet String
  /-- Where it is seen from outside. -/
  externalAddresses : TreeSet String
  /-- The peers, by their names. -/
  peers : TreeMap String PeerState
  /-- The registrations, by namespace and peer. -/
  rendezvousRegistrations : TreeMap String RendezvousRegistrationState
  /-- The latest events, newest first. -/
  recentEvents : List TopologyEvent

/-- What a peer says of itself. -/
structure IdentifyInfo where
  /-- Where the peer sees the relay. -/
  observedAddr : Multiaddr
  /-- The program it runs. -/
  agentVersion : String
  /-- Where it listens. -/
  listenAddrs : List String
  /-- The protocols it knows. -/
  protocols : List String

/-- A registration as the network reports it. -/
structure Registration where
  /-- The peer that the record is about. -/
  peerId : PeerId
  /-- What it registers for. -/
  namespaceName : String
  /-- Where it is to be found. -/
  addresses : List String

/-- What the network reports to the relay.  Much is only put among the events. -/
inductive RelayEvent where
  | newListenAddr (address : Multiaddr)
  | externalAddr (address : Multiaddr)
  | connectionEstablished (peerId : PeerId) (remoteAddress : String)
  | connectionClosed (peerId : PeerId) (numEstablished : Nat)
  | identified (peerId : PeerId) (info : IdentifyInfo)
  | peerRegistered (peer : PeerId) (registration : Registration)
  | peerUnregistered (peer : PeerId) (namespaceName : String)
  | registrationExpired (registration : Registration)
  | recorded (kind detail : String)

/-- The text under which a registration is filed. -/
def rendezvousKey (peerId : PeerId) (namespaceName : String) : String :=
  namespaceName ++ "|" ++ peerId

/-- The address with the relay's own name, unless it names a peer. -/
def ensurePeerId (address : Multiaddr) (peerId : PeerId) : Multiaddr :=
  if address.protocols.any fun
    | .p2p _ => true
    | _ => false
  then address else address.withPeer peerId

namespace TopologyState

/-! ## Changes -/

/-- A relay that has just started. -/
def new (localPeerId : PeerId) (now : Nat) : TopologyState where
  localPeerId := localPeerId
  startedAtMillis := now
  updatedAtMillis := now
  listenAddresses := ∅
  externalAddresses := ∅
  peers := ∅
  rendezvousRegistrations := ∅
  recentEvents := []

/-- Notes that the page has changed. -/
def touch (t : TopologyState) (now : Nat) : TopologyState := { t with updatedAtMillis := now }

/-- Puts an event in front, and drops the oldest beyond the limit. -/
def pushEvent (t : TopologyState) (now : Nat) (kind detail : String) : TopologyState :=
  { t with
    updatedAtMillis := now
    recentEvents := (⟨now, kind, detail⟩ :: t.recentEvents).take eventLogLimit }

/-- The relay listens at an address. -/
def addListenAddress (t : TopologyState) (now : Nat) (address : Multiaddr) : TopologyState :=
  { t with listenAddresses := t.listenAddresses.insert address.text }.pushEvent now "listen"
    ("listening on " ++ address.text)

/-- The relay is seen at an address. -/
def addExternalAddress (t : TopologyState) (now : Nat) (address : Multiaddr) : TopologyState :=
  { t with externalAddresses := t.externalAddresses.insert address.text }.pushEvent now "external"
    ("advertising " ++ address.text)

/-- A link to a peer opens. -/
def peerConnected (t : TopologyState) (now : Nat → Nat) (peerId : PeerId)
    (address : Option String) : TopologyState :=
  let before := t.peers.getD peerId .default
  let peer := { before with
    connections := satAdd before.connections 1
    lastSeenMillis := now 0
    addresses := address.elim before.addresses before.addresses.insert }
  ({ t with peers := t.peers.insert peerId peer }.touch (now 1)).pushEvent (now 2) "peer"
    (peerId ++ " connected (" ++ toString peer.connections ++ " link(s))")

/-- A link to a peer closes. -/
def peerDisconnected (t : TopologyState) (now : Nat → Nat) (peerId : PeerId)
    (remainingConnections : Nat) : TopologyState :=
  let t :=
    if remainingConnections = 0 then { t with peers := t.peers.erase peerId }
    else
      match t.peers[peerId]? with
      | none => t
      | some peer =>
        let peer := { peer with connections := remainingConnections, lastSeenMillis := now 0 }
        { t with peers := t.peers.insert peerId peer }
  (t.touch (now 1)).pushEvent (now 2) "peer"
    (peerId ++ " disconnected (" ++ toString remainingConnections ++ " link(s) remain)")

/-- A peer says what it is. -/
def updateIdentify (t : TopologyState) (now : Nat → Nat) (peerId : PeerId) (info : IdentifyInfo) :
    TopologyState :=
  let before := t.peers.getD peerId .default
  let peer := { before with
    lastSeenMillis := now 0
    agentVersion := some info.agentVersion
    addresses := info.listenAddrs.foldl TreeSet.insert before.addresses
    protocols := info.protocols.foldl TreeSet.insert before.protocols }
  { t with peers := t.peers.insert peerId peer }.touch (now 1)

/-- A peer registers, or renews its registration. -/
def registerRendezvous (t : TopologyState) (now : Nat → Nat) (peerId : PeerId)
    (registration : Registration) : TopologyState :=
  let key := rendezvousKey peerId registration.namespaceName
  let entry := t.rendezvousRegistrations.getD key
    ⟨peerId, registration.namespaceName, [], now 0, now 0⟩
  let entry := { entry with
    addresses := registration.addresses
    refreshedAtMillis := now 0 }
  ({ t with rendezvousRegistrations := t.rendezvousRegistrations.insert key entry }.touch
    (now 1)).pushEvent (now 2) "rendezvous"
      (peerId ++ " registered in " ++ registration.namespaceName)

/-- A peer takes its registration back. -/
def unregisterRendezvous (t : TopologyState) (now : Nat → Nat) (peerId : PeerId)
    (namespaceName : String) : TopologyState :=
  let registrations := t.rendezvousRegistrations.erase (rendezvousKey peerId namespaceName)
  ({ t with rendezvousRegistrations := registrations }.touch (now 0)).pushEvent (now 1)
    "rendezvous" (peerId ++ " unregistered from " ++ namespaceName)

/-- A registration expires. -/
def expireRendezvous (t : TopologyState) (now : Nat → Nat) (registration : Registration) :
    TopologyState :=
  let key := rendezvousKey registration.peerId registration.namespaceName
  ({ t with rendezvousRegistrations := t.rendezvousRegistrations.erase key }.touch
    (now 0)).pushEvent (now 1) "rendezvous"
      (registration.peerId ++ " registration expired in " ++ registration.namespaceName)

/-- The reaction to what the network reports, with the readings of the clock on the way. -/
def react (t : TopologyState) (now : Nat → Nat) : RelayEvent → TopologyState
  | .newListenAddr address => t.addListenAddress (now 0) (ensurePeerId address t.localPeerId)
  | .externalAddr address => t.addExternalAddress (now 0) (ensurePeerId address t.localPeerId)
  | .connectionEstablished peerId remoteAddress => t.peerConnected now peerId (some remoteAddress)
  | .connectionClosed peerId numEstablished => t.peerDisconnected now peerId numEstablished
  | .identified peerId info =>
    let t := t.addExternalAddress (now 0) (ensurePeerId info.observedAddr t.localPeerId)
    let t := t.updateIdentify (fun reading => now (reading + 1)) peerId info
    t.pushEvent (now 3) "identify" ("identified " ++ peerId)
  | .peerRegistered peer registration => t.registerRendezvous now peer registration
  | .peerUnregistered peer namespaceName => t.unregisterRendezvous now peer namespaceName
  | .registrationExpired registration => t.expireRendezvous now registration
  | .recorded kind detail => t.pushEvent (now 0) kind detail

end TopologyState

/-! ## The page -/

/-- A peer on the page. -/
structure TopologyPeer where
  /-- The peer. -/
  peerId : String
  /-- How many links it has. -/
  connections : Nat
  /-- The addresses it has come from or has named. -/
  addresses : List String
  /-- The protocols it has named. -/
  protocols : List String
  /-- The program it says it runs. -/
  agentVersion : Option String
  /-- When it was last heard of. -/
  lastSeenMillis : Nat
  deriving DecidableEq, Repr

/-- The page. -/
structure TopologySnapshot where
  /-- The relay itself. -/
  localPeerId : String
  /-- When it was started. -/
  startedAtMillis : Nat
  /-- When the page last changed. -/
  updatedAtMillis : Nat
  /-- Where it listens. -/
  listenAddresses : List String
  /-- Where it is seen from outside. -/
  externalAddresses : List String
  /-- The peers. -/
  connectedPeers : List TopologyPeer
  /-- The registrations. -/
  rendezvousRegistrations : List RendezvousRegistrationState
  /-- The latest events, newest first. -/
  recentEvents : List TopologyEvent
  deriving DecidableEq, Repr

/-- A peer as it is shown. -/
def PeerState.view (peerId : String) (peer : PeerState) : TopologyPeer where
  peerId := peerId
  connections := peer.connections
  addresses := peer.addresses.toList
  protocols := peer.protocols.toList
  agentVersion := peer.agentVersion
  lastSeenMillis := peer.lastSeenMillis

/-- The page as it is now. -/
def TopologyState.snapshot (t : TopologyState) : TopologySnapshot where
  localPeerId := t.localPeerId
  startedAtMillis := t.startedAtMillis
  updatedAtMillis := t.updatedAtMillis
  listenAddresses := t.listenAddresses.toList
  externalAddresses := t.externalAddresses.toList
  connectedPeers := t.peers.toList.map fun entry => entry.2.view entry.1
  rendezvousRegistrations := t.rendezvousRegistrations.toList.map Prod.snd
  recentEvents := t.recentEvents

end LightEar
