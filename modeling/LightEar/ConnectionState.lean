import LightEar.Core
import Mathlib.Data.List.Sort

/-!
# Routes to the other peers

A peer may be reached through relays and directly.  The connection state records the open
connections of every peer and answers each report about them with a list of effects: what to
dial, what to close, whom to tell the gossip layer about.  A relayed peer is dialled directly once
it has subscribed to the chat or has been waited for; with both kinds of connection open, the
relay is closed after a grace period.

Times are those of the monotonic clock.  A hash map lists its keys in an order of its own, which
is left open as a `KeyOrder`.
-/

namespace LightEar

/-! ## Constants -/

/-- The largest `u32`. -/
def u32Max : Nat := 2 ^ 32 - 1

/-- How long to wait for another try to reach a peer directly. -/
def directPromotionRetryInterval : Instant := millis 30000

/-- How long to wait after some failures. -/
def directPromotionMediumRetryInterval : Instant := millis 120000

/-- How long to wait after many failures. -/
def directPromotionSlowRetryInterval : Instant := millis 600000

/-- After how many failures the wait becomes longer. -/
def directPromotionMediumRetryFailures : Nat := 3

/-- After how many failures it becomes long. -/
def directPromotionSlowRetryFailures : Nat := 6

/-- After how many failures no more tries are made. -/
def directPromotionMaxFailures : Nat := 10

/-- Failures that come together count once. -/
def directPromotionFailureDedupWindow : Instant := millis 5000

/-- How long to wait for a chat subscription. -/
def gossipWarmupTimeout : Instant := millis 5000

/-- How long relay and direct connection are kept side by side. -/
def directRelayHandoffGrace : Instant := millis 10000

/-! ## Addresses -/

/-- The parts of an address that matter here. -/
inductive Protocol where
  | ip4 (address : BitVec 32)
  | ip6 (address : BitVec 128)
  | p2p (peerId : PeerId)
  | p2pCircuit
  | other
  deriving DecidableEq

/-- An address: its parts, and how it is printed. -/
structure Multiaddr where
  /-- The parts, outermost first. -/
  protocols : List Protocol
  /-- The printed form. -/
  text : String
  deriving DecidableEq

namespace Multiaddr

/-- The address with the peer it belongs to. -/
def withPeer (address : Multiaddr) (peerId : PeerId) : Multiaddr where
  protocols := address.protocols ++ [.p2p peerId]
  text := address.text ++ "/p2p/" ++ peerId

/-- Whether the address leads through a relay. -/
def isRelayAddress (address : Multiaddr) : Bool := address.protocols.contains .p2pCircuit

/-- Whether the address names no host. -/
def isUnspecifiedIpAddress (address : Multiaddr) : Bool :=
  address.protocols.any fun
    | .ip4 address => address == 0
    | .ip6 address => address == 0
    | _ => false

/-- The peers an address names. -/
def peers (address : Multiaddr) : List PeerId :=
  address.protocols.filterMap fun
    | .p2p peerId => some peerId
    | _ => none

/-- A direct address of a peer, with its name; none for another peer's or a relay's. -/
def normalizeDirectPeerAddress (peerId : PeerId) (address : Multiaddr) : Option Multiaddr :=
  if address.isRelayAddress || address.isUnspecifiedIpAddress then none
  else if address.peers.any (· != peerId) then none
  else if address.peers.isEmpty then some (address.withPeer peerId)
  else some address

/-- Whether the printed form contains a text. -/
def mentions (address : Multiaddr) (needle : String) : Bool :=
  decide (needle.toList <:+: address.text.toList)

/-- Later protocols are preferred. -/
def ipv6PreferenceScore (address : Multiaddr) : Nat :=
  if address.mentions "/ip6/" || address.mentions "/dns6/" then 2
  else if address.mentions "/ip4/" || address.mentions "/dns4/" then 1
  else 0

end Multiaddr

/-- Preferred addresses first, in the given order otherwise. -/
def prioritizeMultiaddrs (addresses : List Multiaddr) : List Multiaddr :=
  addresses.insertionSort fun a b => b.ipv6PreferenceScore ≤ a.ipv6PreferenceScore

/-! ## Records -/

/-- Names a connection. -/
abbrev ConnectionId := Nat

/-- Why relayed connections are closed. -/
inductive RelayCloseReason where
  | handoffSettled
  deriving DecidableEq, Repr

/-- What is to be done. -/
inductive ConnectionEffect where
  | status (text : String)
  | trackGossipPeer (peerId : PeerId)
  | untrackGossipPeer (peerId : PeerId)
  | resetBackoff (peerId : PeerId)
  | dialDirect (peerId : PeerId) (addresses : List Multiaddr)
  | closeRelayConnections (peerId : PeerId) (connectionIds : Finset ConnectionId)
      (reason : RelayCloseReason)
  | closeEarlyDirectConnection (peerId : PeerId) (connectionId : ConnectionId)
  deriving DecidableEq

/-- The open connections of a peer. -/
structure PeerConnectionRoutes where
  /-- Those without a relay. -/
  direct : Finset ConnectionId
  /-- Those through a relay. -/
  relayed : Finset ConnectionId
  deriving DecidableEq

namespace PeerConnectionRoutes

/-- No connection. -/
def empty : PeerConnectionRoutes := ⟨∅, ∅⟩

/-- With another connection. -/
def add (routes : PeerConnectionRoutes) (connectionId : ConnectionId) (isRelayed : Bool) :
    PeerConnectionRoutes :=
  if isRelayed then { routes with relayed := insert connectionId routes.relayed }
  else { routes with direct := insert connectionId routes.direct }

/-- Without a connection. -/
def remove (routes : PeerConnectionRoutes) (connectionId : ConnectionId) (wasRelayed : Bool) :
    PeerConnectionRoutes :=
  if wasRelayed then { routes with relayed := routes.relayed.erase connectionId }
  else { routes with direct := routes.direct.erase connectionId }

/-- Whether there is no connection. -/
def isEmpty (routes : PeerConnectionRoutes) : Bool := routes.direct = ∅ ∧ routes.relayed = ∅

/-- Whether there is a direct connection. -/
def hasDirect (routes : PeerConnectionRoutes) : Bool := routes.direct ≠ ∅

/-- Whether there is a relayed connection. -/
def hasRelayed (routes : PeerConnectionRoutes) : Bool := routes.relayed ≠ ∅

/-- Whether the peer is reached through relays only. -/
def isRelayOnly (routes : PeerConnectionRoutes) : Bool :=
  !routes.hasDirect && routes.hasRelayed

end PeerConnectionRoutes

/-- How a failure is counted. -/
inductive DirectPromotionFailureOutcome where
  | counted (failures : Nat) (retryAfter : Option Instant)
  | duplicate
  deriving DecidableEq, Repr

/-- The tries to reach a peer directly. -/
structure DirectPromotionBackoff where
  /-- How many tries there were. -/
  attempts : Nat
  /-- How many have failed. -/
  failures : Nat
  /-- When the last try was. -/
  lastAttempt : Option Instant
  /-- When the last failure was. -/
  lastFailure : Option Instant
  /-- Whether a try is on its way. -/
  inFlight : Bool
  /-- Whether it has been said that no more tries are made. -/
  suspendedReported : Bool
  deriving DecidableEq, Repr

namespace DirectPromotionBackoff

/-- No try so far. -/
def new : DirectPromotionBackoff where
  attempts := 0
  failures := 0
  lastAttempt := none
  lastFailure := none
  inFlight := false
  suspendedReported := false

/-- How long to wait for another try. -/
def retryInterval (backoff : DirectPromotionBackoff) : Instant :=
  if backoff.failures < directPromotionMediumRetryFailures then directPromotionRetryInterval
  else if backoff.failures < directPromotionSlowRetryFailures then
    directPromotionMediumRetryInterval
  else directPromotionSlowRetryInterval

/-- How much of the wait is left, if it has not passed. -/
def retryRemaining (backoff : DirectPromotionBackoff) (now : Instant) : Option Instant :=
  backoff.lastAttempt.bind fun lastAttempt =>
    if now - lastAttempt ≤ backoff.retryInterval then
      some (backoff.retryInterval - (now - lastAttempt))
    else none

/-- Whether to try now. -/
def shouldAttempt (backoff : DirectPromotionBackoff) (now : Instant) : Bool :=
  !backoff.inFlight && backoff.failures < directPromotionMaxFailures &&
    (backoff.retryRemaining now).isNone

/-- Counts a try. -/
def markAttempt (backoff : DirectPromotionBackoff) (now : Instant) : DirectPromotionBackoff :=
  { backoff with
    attempts := min (backoff.attempts + 1) u32Max
    lastAttempt := some now
    inFlight := true }

/-- Counts a failure, unless another was counted a moment ago. -/
def markFailure (backoff : DirectPromotionBackoff) (now : Instant) :
    DirectPromotionFailureOutcome × DirectPromotionBackoff :=
  if backoff.lastFailure.any (now - · < directPromotionFailureDedupWindow) then
    (.duplicate, { backoff with inFlight := false })
  else
    let failed := { backoff with
      inFlight := false
      lastFailure := some now
      failures := min (backoff.failures + 1) u32Max
      suspendedReported := false }
    (.counted failed.failures
      (if failed.failures < directPromotionMaxFailures then some failed.retryInterval else none),
      failed)

end DirectPromotionBackoff

/-- A duration, in minutes and seconds. -/
def formatRetryDuration (duration : Instant) : String :=
  let seconds := duration / 1000000000
  if seconds < 60 then s!"{seconds}s"
  else if seconds % 60 = 0 then s!"{seconds / 60}m"
  else s!"{seconds / 60}m {seconds % 60}s"

/-- The order in which a hash map lists its keys. -/
structure KeyOrder where
  /-- The keys in that order. -/
  list : List PeerId → List PeerId
  /-- Every key is listed once. -/
  perm : ∀ keys, (list keys).Perm keys

/-- The connections and what is known about the peers behind them. -/
structure ConnectionState where
  /-- The peer itself. -/
  localPeerId : PeerId
  /-- The open connections of each peer. -/
  routes : AList fun _ : PeerId => PeerConnectionRoutes
  /-- The direct addresses of each peer. -/
  directAddresses : AList fun _ : PeerId => List Multiaddr
  /-- The tries to reach each peer directly. -/
  backoffs : AList fun _ : PeerId => DirectPromotionBackoff
  /-- Since when each peer's subscription is waited for. -/
  warmups : AList fun _ : PeerId => Instant
  /-- The peers that have been waited for in vain. -/
  warmupCompleted : Finset PeerId
  /-- When to close each peer's relayed connections. -/
  relayHandoffs : AList fun _ : PeerId => Instant
  /-- The peers that have subscribed to the chat. -/
  chatSubscribers : Finset PeerId
  /-- The peers the gossip layer has been told about. -/
  gossipPeers : Finset PeerId

/-- What a call returns, and the state it leaves. -/
structure ConnectionReply where
  /-- The effects, in order. -/
  effects : List ConnectionEffect
  /-- The state after the call. -/
  state : ConnectionState

namespace ConnectionReply

/-- Goes on in the state that has been left. -/
def andThen (reply : ConnectionReply) (f : ConnectionState → ConnectionReply) :
    ConnectionReply where
  effects := reply.effects ++ (f reply.state).effects
  state := (f reply.state).state

end ConnectionReply

namespace ConnectionState

/-- No connections. -/
def new (localPeerId : PeerId) : ConnectionState where
  localPeerId := localPeerId
  routes := ∅
  directAddresses := ∅
  backoffs := ∅
  warmups := ∅
  warmupCompleted := ∅
  relayHandoffs := ∅
  chatSubscribers := ∅
  gossipPeers := ∅

/-- A reply that changes nothing. -/
def keep (s : ConnectionState) : ConnectionReply := ⟨[], s⟩

/-- The same for each of some peers, one after the other. -/
def forEach (f : PeerId → ConnectionState → ConnectionReply) :
    List PeerId → ConnectionState → ConnectionReply
  | [], s => s.keep
  | peerId :: peers, s => (f peerId s).andThen (forEach f peers)

/-! ## Routes -/

/-- The open connections of a peer. -/
def routesOf (s : ConnectionState) (peerId : PeerId) : PeerConnectionRoutes :=
  (s.routes.lookup peerId).getD .empty

/-- Whether a peer has subscribed to the chat. -/
def isChatSubscribed (s : ConnectionState) (peerId : PeerId) : Bool := peerId ∈ s.chatSubscribers

/-- Whether a peer is reached through relays only. -/
def isRelayOnly (s : ConnectionState) (peerId : PeerId) : Bool :=
  (s.routes.lookup peerId).any PeerConnectionRoutes.isRelayOnly

/-- Whether a peer is reached directly. -/
def hasDirect (s : ConnectionState) (peerId : PeerId) : Bool :=
  (s.routes.lookup peerId).any PeerConnectionRoutes.hasDirect

/-- Whether a peer is reached through a relay. -/
def hasRelayed (s : ConnectionState) (peerId : PeerId) : Bool :=
  (s.routes.lookup peerId).any PeerConnectionRoutes.hasRelayed

/-- The relayed connections of a peer. -/
def relayConnections (s : ConnectionState) (peerId : PeerId) : Finset ConnectionId :=
  ((s.routes.lookup peerId).map PeerConnectionRoutes.relayed).getD ∅

/-- Records a connection. -/
def addRoute (s : ConnectionState) (peerId : PeerId) (connectionId : ConnectionId)
    (isRelayed : Bool) : ConnectionState :=
  { s with routes := s.routes.insert peerId ((s.routesOf peerId).add connectionId isRelayed) }

/-- Forgets a connection, and with the last one the peer's routes. -/
def removeRoute (s : ConnectionState) (peerId : PeerId) (connectionId : ConnectionId)
    (wasRelayed : Bool) : ConnectionState :=
  match s.routes.lookup peerId with
  | none => s
  | some routes =>
    if (routes.remove connectionId wasRelayed).isEmpty then
      { s with routes := s.routes.erase peerId }
    else
      { s with routes := s.routes.insert peerId (routes.remove connectionId wasRelayed) }

/-- Forgets when to close a peer's relayed connections. -/
def cancelHandoff (s : ConnectionState) (peerId : PeerId) : ConnectionState :=
  { s with relayHandoffs := s.relayHandoffs.erase peerId }

/-! ## Gossip and backoff -/

/-- Has the gossip layer keep a peer, if it does not yet. -/
def trackGossipPeer (s : ConnectionState) (peerId : PeerId) (status : Option String) :
    ConnectionReply :=
  if peerId ∈ s.gossipPeers then s.keep
  else
    ⟨.trackGossipPeer peerId :: (status.map ConnectionEffect.status).toList,
      { s with gossipPeers := insert peerId s.gossipPeers }⟩

/-- Has the gossip layer drop a peer, if it keeps it. -/
def untrackGossipPeer (s : ConnectionState) (peerId : PeerId) : ConnectionReply :=
  if peerId ∈ s.gossipPeers then
    ⟨[.untrackGossipPeer peerId], { s with gossipPeers := s.gossipPeers.erase peerId }⟩
  else s.keep

/-- Forgets the tries to reach a peer directly. -/
def resetBackoff (s : ConnectionState) (peerId : PeerId) : ConnectionReply :=
  if (s.backoffs.lookup peerId).isSome then
    ⟨[.resetBackoff peerId], { s with backoffs := s.backoffs.erase peerId }⟩
  else s.keep

/-- Counts a failure to reach a peer directly. -/
def recordDirectPromotionFailure (s : ConnectionState) (peerId : PeerId) (reason : String)
    (now : Instant) : ConnectionReply :=
  let (outcome, backoff) := ((s.backoffs.lookup peerId).getD .new).markFailure now
  match outcome with
  | .duplicate => ⟨[], { s with backoffs := s.backoffs.insert peerId backoff }⟩
  | .counted failures (some retryAfter) =>
    let retry := formatRetryDuration retryAfter
    ⟨[.status (s!"direct promotion failed for {peerId} " ++
        s!"({failures}/{directPromotionMaxFailures}): {reason}; retrying in {retry}")],
      { s with backoffs := s.backoffs.insert peerId backoff }⟩
  | .counted failures none =>
    let reported := { backoff with suspendedReported := true }
    ⟨[.status (s!"direct promotion suspended for {peerId} after {failures} failures: " ++
        s!"{reason}; waiting for new direct addresses")],
      { s with backoffs := s.backoffs.insert peerId reported }⟩

/-! ## Waiting for the chat subscription -/

/-- Whether a peer has been waited for long enough. -/
def warmupIsExpired (startedAt now : Instant) : Bool := gossipWarmupTimeout ≤ now - startedAt

/-- Begins to wait for a peer's chat subscription. -/
def startGossipWarmup (s : ConnectionState) (peerId : PeerId) (now : Instant) :
    ConnectionReply :=
  if peerId ∈ s.warmupCompleted then s.keep
  else if (s.warmups.lookup peerId).isSome then s.keep
  else
    let timeout := formatRetryDuration gossipWarmupTimeout
    ⟨[.status (s!"waiting up to {timeout} for {peerId} to subscribe to chat " ++
        "before direct promotion")],
      { s with warmups := s.warmups.insert peerId now }⟩

/-- Whether a peer may be reached directly: it has subscribed, or has been waited for. -/
def gossipWarmupAllowsPromotion (s : ConnectionState) (peerId : PeerId) (now : Instant) :
    Bool × ConnectionReply :=
  if s.isChatSubscribed peerId then
    (true, ⟨[], { s with
      warmups := s.warmups.erase peerId
      warmupCompleted := s.warmupCompleted.erase peerId }⟩)
  else if peerId ∈ s.warmupCompleted then (true, s.keep)
  else
    match s.warmups.lookup peerId with
    | none => (false, s.startGossipWarmup peerId now)
    | some startedAt =>
      if warmupIsExpired startedAt now then
        (true, ⟨[.status (s!"gossipsub warmup timed out for {peerId}; " ++
            "trying direct promotion anyway")],
          { s with
            warmups := s.warmups.erase peerId
            warmupCompleted := insert peerId s.warmupCompleted }⟩)
      else (false, s.keep)

/-! ## Direct promotion -/

/-- Dials a peer directly unless it is too soon or too often. -/
def dialDirect (s : ConnectionState) (peerId : PeerId) (addresses : List Multiaddr)
    (now : Instant) : ConnectionReply :=
  let backoff := (s.backoffs.lookup peerId).getD .new
  if directPromotionMaxFailures ≤ backoff.failures then
    if backoff.suspendedReported then
      ⟨[], { s with backoffs := s.backoffs.insert peerId backoff }⟩
    else
      let failures := backoff.failures
      let reported := { backoff with suspendedReported := true }
      ⟨[.status (s!"direct promotion suspended for {peerId} after {failures} failures; " ++
          "waiting for new direct addresses")],
        { s with backoffs := s.backoffs.insert peerId reported }⟩
  else if backoff.shouldAttempt now then
    let prioritized := prioritizeMultiaddrs addresses
    let addressCount := prioritized.length
    ⟨[.dialDirect peerId prioritized,
        .status s!"trying direct connection to {peerId} ({addressCount} candidate address(es))"],
      { s with backoffs := s.backoffs.insert peerId (backoff.markAttempt now) }⟩
  else
    ⟨[], { s with backoffs := s.backoffs.insert peerId backoff }⟩

/-- Tries to reach a relayed peer directly. -/
def maybePromoteRelayedPeer (s : ConnectionState) (peerId : PeerId) (now : Instant) :
    ConnectionReply :=
  if peerId = s.localPeerId ∨ s.isRelayOnly peerId = false then s.keep
  else
    match s.directAddresses.lookup peerId with
    | none => s.keep
    | some [] => s.keep
    | some addresses =>
      let (allowed, reply) := s.gossipWarmupAllowsPromotion peerId now
      if allowed then reply.andThen fun s => s.dialDirect peerId addresses now else reply

/-! ## Handoff -/

/-- Sets the time at which a peer's relayed connections are to be closed. -/
def scheduleRelayHandoff (s : ConnectionState) (peerId : PeerId) (now : Instant) :
    ConnectionReply :=
  if s.hasDirect peerId = false ∨ s.hasRelayed peerId = false then
    (s.cancelHandoff peerId).keep
  else
    let grace := formatRetryDuration directRelayHandoffGrace
    let scheduled := { s with
      relayHandoffs := s.relayHandoffs.insert peerId (now + directRelayHandoffGrace) }
    if (s.relayHandoffs.lookup peerId).isNone then
      ⟨[.status s!"direct connection ready with {peerId}; keeping relay for {grace} handoff"],
        scheduled⟩
    else ⟨[], scheduled⟩

/-- Closes a peer's relayed connections, if the direct one is there to replace them. -/
def closeRelayAfterHandoff (s : ConnectionState) (peerId : PeerId) : ConnectionReply :=
  if s.hasDirect peerId = false ∨ s.hasRelayed peerId = false then
    (s.cancelHandoff peerId).keep
  else if s.isChatSubscribed peerId = false then
    (s.cancelHandoff peerId).keep
  else if s.relayConnections peerId = ∅ then
    (s.cancelHandoff peerId).keep
  else
    ⟨[.closeRelayConnections peerId (s.relayConnections peerId) .handoffSettled],
      s.cancelHandoff peerId⟩

/-! ## Connections -/

/-- A direct connection to a peer has been opened and may stay. -/
def acceptDirect (s : ConnectionState) (peerId : PeerId) (hasRelayedRoute : Bool)
    (now : Instant) : ConnectionReply :=
  (s.resetBackoff peerId).andThen fun s =>
    if s.isChatSubscribed peerId then
      if s.hasRelayed peerId then s.scheduleRelayHandoff peerId now
      else ⟨[.status s!"connected {peerId} directly"], s⟩
    else if hasRelayedRoute then
      ⟨[.status (s!"promoted {peerId} to direct connection after gossip warmup timeout; " ++
        "keeping relay until chat subscription is ready")], s⟩
    else ⟨[.status s!"connected {peerId} directly"], s⟩

/-- A direct connection to a peer has been opened: next to a relayed one it may stay only if the
peer may be reached directly by now. -/
def directEstablished (s : ConnectionState) (peerId : PeerId) (connectionId : ConnectionId)
    (now : Instant) : ConnectionReply :=
  if s.hasRelayed peerId = false ∨ s.isChatSubscribed peerId then
    s.acceptDirect peerId (s.hasRelayed peerId) now
  else
    let (allowed, reply) := s.gossipWarmupAllowsPromotion peerId now
    if allowed then reply.andThen fun s' => s'.acceptDirect peerId (s.hasRelayed peerId) now
    else reply.andThen fun s' => ⟨[.closeEarlyDirectConnection peerId connectionId], s'⟩

/-- A relayed connection to a peer has been opened. -/
def relayEstablished (s : ConnectionState) (peerId : PeerId) (isRendezvousNode : Bool)
    (now : Instant) : ConnectionReply :=
  let connected : ConnectionReply := ⟨[.status s!"connected {peerId} via relay"], s⟩
  (connected.andThen fun s =>
    if !isRendezvousNode && !s.isChatSubscribed peerId then s.startGossipWarmup peerId now
    else s.keep).andThen fun s => s.maybePromoteRelayedPeer peerId now

/-- A connection to a peer has been opened. -/
def connectionEstablished (s : ConnectionState) (peerId : PeerId) (connectionId : ConnectionId)
    (isRelayed isRendezvousNode : Bool) (now : Instant) : ConnectionReply :=
  let added := s.addRoute peerId connectionId isRelayed
  let tracked :=
    if isRendezvousNode then added.keep
    else added.trackGossipPeer peerId (some s!"tracking {peerId} as gossip peer")
  tracked.andThen fun s =>
    if isRelayed then s.relayEstablished peerId isRendezvousNode now
    else s.directEstablished peerId connectionId now

/-- Forgets a connection, and the handoff of a peer that no longer has both kinds. -/
def closeRoute (s : ConnectionState) (peerId : PeerId) (connectionId : ConnectionId)
    (wasRelayed : Bool) : ConnectionState :=
  let removed := s.removeRoute peerId connectionId wasRelayed
  if removed.hasDirect peerId = false ∨ removed.hasRelayed peerId = false then
    removed.cancelHandoff peerId
  else removed

/-- Forgets what belongs to a peer without connections. -/
def forgetPeer (s : ConnectionState) (peerId : PeerId) : ConnectionState :=
  { s with
    backoffs := s.backoffs.erase peerId
    chatSubscribers := s.chatSubscribers.erase peerId
    directAddresses := s.directAddresses.erase peerId
    warmups := s.warmups.erase peerId
    warmupCompleted := s.warmupCompleted.erase peerId
    relayHandoffs := s.relayHandoffs.erase peerId }

/-- A connection to a peer has been closed. -/
def connectionClosed (s : ConnectionState) (peerId : PeerId) (connectionId : ConnectionId)
    (wasRelayed : Bool) (remainingEstablished : Nat) : ConnectionReply :=
  let closed := s.closeRoute peerId connectionId wasRelayed
  if 0 < remainingEstablished then
    let route := if wasRelayed then "relay" else "direct"
    ⟨[.status s!"{route} connection closed {peerId}; {remainingEstablished} link(s) remain"],
      closed⟩
  else
    ConnectionReply.andThen ⟨[.status s!"disconnected {peerId}"], closed.forgetPeer peerId⟩
      fun s => s.untrackGossipPeer peerId

/-! ## Addresses -/

/-- Notes direct addresses of a peer; gives how many were new. -/
def rememberDirectAddresses (s : ConnectionState) (peerId : PeerId) (addresses : List Multiaddr) :
    Nat × ConnectionState :=
  let normalized := addresses.filterMap (Multiaddr.normalizeDirectPeerAddress peerId)
  if normalized = [] then (0, s)
  else
    let known := (s.directAddresses.lookup peerId).getD []
    let known' := normalized.foldl (fun known address => known.insert address) known
    (known'.length - known.length,
      { s with directAddresses := s.directAddresses.insert peerId known' })

/-- Learns direct addresses of a peer; new ones are reason to try them. -/
def learnDirectAddresses (s : ConnectionState) (peerId : PeerId) (addresses : List Multiaddr)
    (now : Instant) : ConnectionReply :=
  let (added, remembered) := s.rememberDirectAddresses peerId addresses
  if added = 0 then remembered.keep
  else (remembered.resetBackoff peerId).andThen fun s => s.maybePromoteRelayedPeer peerId now

/-- Forgets a direct address of a peer; says whether it was known. -/
def forgetDirectAddress (s : ConnectionState) (peerId : PeerId) (address : Multiaddr) :
    Bool × ConnectionState :=
  match address.normalizeDirectPeerAddress peerId with
  | none => (false, s)
  | some address =>
    match s.directAddresses.lookup peerId with
    | none => (false, s)
    | some known =>
      let remaining := known.filter (· != address)
      (known.contains address, { s with
        directAddresses :=
          if remaining = [] then s.directAddresses.erase peerId
          else s.directAddresses.insert peerId remaining })

/-! ## Chat -/

/-- A peer has subscribed to the chat. -/
def chatSubscribed (s : ConnectionState) (peerId : PeerId) (now : Instant) : ConnectionReply :=
  let subscribed := { s with
    chatSubscribers := insert peerId s.chatSubscribers
    warmups := s.warmups.erase peerId
    warmupCompleted := s.warmupCompleted.erase peerId }
  (ConnectionReply.andThen ⟨[.status s!"peer {peerId} subscribed to chat"], subscribed⟩ fun s =>
    s.maybePromoteRelayedPeer peerId now).andThen fun s =>
      if s.hasDirect peerId then s.scheduleRelayHandoff peerId now else s.keep

/-- A peer has left the chat. -/
def chatUnsubscribed (s : ConnectionState) (peerId : PeerId) : ConnectionReply :=
  let unsubscribed := { s with chatSubscribers := s.chatSubscribers.erase peerId }
  if (s.routes.lookup peerId).isSome then
    ⟨[.status (s!"peer {peerId} unsubscribed from chat while still connected; " ++
        "room messages require gossipsub readiness")],
      unsubscribed.cancelHandoff peerId⟩
  else ⟨[.status s!"peer {peerId} unsubscribed from chat"], unsubscribed⟩

/-! ## Timers and failures -/

/-- Tries to reach the relayed peers directly. -/
def promotionTick (s : ConnectionState) (order : KeyOrder) (now : Instant) : ConnectionReply :=
  s.forEach (fun peerId s => s.maybePromoteRelayedPeer peerId now) (order.list s.routes.keys)

/-- Goes on with the peers that have been waited for, and closes relayed connections whose time
has come. -/
def warmupTick (s : ConnectionState) (order : KeyOrder) (now : Instant) : ConnectionReply :=
  let peers := (order.list s.warmups.keys).filter fun peerId =>
    (s.warmups.lookup peerId).any (warmupIsExpired · now)
  let handoffs := (order.list s.relayHandoffs.keys).filter fun peerId =>
    (s.relayHandoffs.lookup peerId).any fun deadline => decide (deadline ≤ now)
  (forEach (fun peerId s => s.maybePromoteRelayedPeer peerId now) peers s).andThen
    (forEach (fun peerId s => s.closeRelayAfterHandoff peerId) handoffs)

/-- A hole has been punched to a peer. -/
def dcutrSucceeded (s : ConnectionState) (peerId : PeerId) : ConnectionReply :=
  s.resetBackoff peerId

/-- Hole punching to a peer has failed. -/
def dcutrFailed (s : ConnectionState) (peerId : PeerId) (reason : String) (now : Instant) :
    ConnectionReply :=
  if s.isRelayOnly peerId then
    s.recordDirectPromotionFailure peerId s!"DCUtR failed: {reason}" now
  else ⟨[.status s!"direct upgrade failed with {peerId}: {reason}"], s⟩

/-- Dialling a peer has failed. -/
def outgoingConnectionError (s : ConnectionState) (peerId : PeerId) (reason : String)
    (now : Instant) : ConnectionReply :=
  if (s.backoffs.lookup peerId).any DirectPromotionBackoff.inFlight then
    s.recordDirectPromotionFailure peerId reason now
  else ⟨[.status s!"outgoing connection error {peerId}: {reason}"], s⟩

end ConnectionState

/-! ## Calls -/

/-- What the connection state is told. -/
inductive ConnectionCall where
  | connectionEstablished (peerId : PeerId) (connectionId : ConnectionId)
      (isRelayed isRendezvousNode : Bool)
  | connectionClosed (peerId : PeerId) (connectionId : ConnectionId) (wasRelayed : Bool)
      (remainingEstablished : Nat)
  | trackGossipPeer (peerId : PeerId) (status : Option String)
  | untrackGossipPeer (peerId : PeerId)
  | learnDirectAddresses (peerId : PeerId) (addresses : List Multiaddr)
  | forgetDirectAddress (peerId : PeerId) (address : Multiaddr)
  | chatSubscribed (peerId : PeerId)
  | chatUnsubscribed (peerId : PeerId)
  | promotionTick (order : KeyOrder)
  | warmupTick (order : KeyOrder)
  | dcutrSucceeded (peerId : PeerId)
  | dcutrFailed (peerId : PeerId) (reason : String)
  | outgoingConnectionError (peerId : PeerId) (reason : String)
  | recordDirectPromotionFailure (peerId : PeerId) (reason : String)

/-- The reply to a call. -/
def ConnectionState.call (s : ConnectionState) (now : Instant) : ConnectionCall → ConnectionReply
  | .connectionEstablished peerId connectionId isRelayed isRendezvousNode =>
    s.connectionEstablished peerId connectionId isRelayed isRendezvousNode now
  | .connectionClosed peerId connectionId wasRelayed remainingEstablished =>
    s.connectionClosed peerId connectionId wasRelayed remainingEstablished
  | .trackGossipPeer peerId status => s.trackGossipPeer peerId status
  | .untrackGossipPeer peerId => s.untrackGossipPeer peerId
  | .learnDirectAddresses peerId addresses => s.learnDirectAddresses peerId addresses now
  | .forgetDirectAddress peerId address => (s.forgetDirectAddress peerId address).2.keep
  | .chatSubscribed peerId => s.chatSubscribed peerId now
  | .chatUnsubscribed peerId => s.chatUnsubscribed peerId
  | .promotionTick order => s.promotionTick order now
  | .warmupTick order => s.warmupTick order now
  | .dcutrSucceeded peerId => s.dcutrSucceeded peerId
  | .dcutrFailed peerId reason => s.dcutrFailed peerId reason now
  | .outgoingConnectionError peerId reason => s.outgoingConnectionError peerId reason now
  | .recordDirectPromotionFailure peerId reason =>
    s.recordDirectPromotionFailure peerId reason now

end LightEar
