import LightEar.Chat
import LightEar.Backend.Step

/-!
# Chat, names and history between peers

Besides the messages about the music the peers of a room exchange what is said, the names they go
by, and their histories: a peer announces how many records it has and how new the last of them
is, and a peer that judges this to be newer than its own history asks for it.

A `ChatPeer` is a peer with this side of its state.  It reacts to the messages of the chat, to the
events of the main loop, of which the loss of the last connection to a peer makes it forget the
name of that peer, and to the news that peers of the local network have gone.
-/

namespace LightEar

open Foundation

/-! ## Messages -/

/-- The messages about chat, names and history. -/
inductive ChatMessage where
  | chat (id : Option String) (peerId : String) (joinedAt : Option Int) (seq : Nat)
      (causalFrontier : CausalFrontier) (name text : String) (sentAt : Int)
  | nameClaim (peerId name : String) (joinedAt : Option Int)
  | historySummary (peerId : String) (count : Nat) (newestAt : Option Int)
  | historyRequest (requester target : String) (knownCount : Nat)
  | historyResponse (target : Option String) (messages : List ChatRecord)

/-- What the reaction to one of these messages takes from outside. -/
structure ChatEnv where
  /-- The reading of the monotonic clock. -/
  now : Instant
  /-- The parser of peer identifiers. -/
  parse : String → Option PeerId
  /-- The network's answer to a message. -/
  gossipsub : ChatMessage → Except PublishError Unit
  /-- A name for a message that comes without one. -/
  newMessageId : PeerId → Int → Nat → String → String

namespace ChatEnv

/-- The peer a text names; the empty text names none. -/
def parsePeerId (env : ChatEnv) (value : String) : Option PeerId :=
  if value = "" then none else env.parse value

/-- Whether a field names the source of a message. -/
def peerFieldMatchesSource (env : ChatEnv) (value : String) (source : PeerId) : Bool :=
  env.parsePeerId value == some source

end ChatEnv

/-- The field of a message that has to name its source, if there is one, and the complaint if it
does not.  Old clients leave the field of a chat message empty; the records of a response may be
by anybody. -/
def ChatMessage.sourceField : ChatMessage → Option (String × String)
  | chat _ peerId _ _ _ _ _ _ =>
    if peerId = "" then none else some (peerId, "chat peer_id does not match source")
  | nameClaim peerId _ _ => some (peerId, "name claim peer_id does not match source")
  | historySummary peerId _ _ => some (peerId, "history summary peer_id does not match source")
  | historyRequest requester _ _ =>
    some (requester, "history request requester does not match source")
  | historyResponse _ _ => none

/-- Checks that a message comes from the peer it names. -/
def ChatEnv.validateWireSource (env : ChatEnv) (message : ChatMessage) (source : PeerId) :
    Except String Unit :=
  match message.sourceField with
  | none => .ok ()
  | some (value, complaint) =>
    if env.peerFieldMatchesSource value source then .ok () else .error complaint

/-! ## Summaries -/

/-- How long a peer is not asked for its history again. -/
def historyRequestCooldown : Instant := millis 5000

/-- Whether a peer may be asked for its history. -/
def shouldRequestHistory (historyRequestTimes : AList fun _ : String => Instant) (peerId : String)
    (now : Instant) : Bool :=
  (historyRequestTimes.lookup peerId).all fun last => now - last ≥ historyRequestCooldown

/-- The latest time in a history. -/
def historyNewestAt (history : List ChatRecord) : Option Int :=
  (history.map fun record => normalizeTimestampMicros record.sentAt).max?

/-- Whether a summary tells of records that are missing: there are more of them, or the newest is
newer than anything here. -/
def historySummaryIsNewer (history : List ChatRecord) (remoteCount : Nat)
    (remoteNewestAt : Option Int) : Bool :=
  if remoteCount > history.length then true
  else
    match remoteNewestAt.map normalizeTimestampMicros with
    | none => false
    | some remoteNewestAt =>
      match historyNewestAt history with
      | none => decide (remoteCount > 0)
      | some localNewestAt => decide (remoteNewestAt > localNewestAt)

/-- What the summary of a history says of its newest record: the time of the last one. -/
def ChatHistory.announcedAt (c : ChatHistory) : Option Int :=
  c.history.getLast?.map fun record => normalizeTimestampMicros record.sentAt

/-! ## State -/

/-- The name a peer goes by. -/
structure PeerNameClaim where
  /-- The name. -/
  name : String
  /-- When the peer joined the room. -/
  joinedAt : Option Int
  deriving DecidableEq

/-- A peer with the chat side of its state. -/
structure ChatPeer where
  /-- The other side. -/
  backend : Backend
  /-- What has been said. -/
  chat : ChatHistory
  /-- The names of the other peers. -/
  peerNames : AList fun _ : PeerId => PeerNameClaim
  /-- When each peer was last asked for its history. -/
  historyRequestTimes : AList fun _ : String => Instant
  /-- History: the messages handed to the network. -/
  handedOn : List ChatMessage

namespace ChatPeer

/-- A peer that has just started. -/
def new (backend : Backend) : ChatPeer where
  backend := backend
  chat := .empty
  peerNames := ∅
  historyRequestTimes := ∅
  handedOn := []

/-- The peer itself. -/
def localPeerId (p : ChatPeer) : PeerId := p.backend.localPeerId

/-- Hands a message to the network. -/
def handOn (p : ChatPeer) (message : ChatMessage) : ChatPeer :=
  { p with handedOn := p.handedOn ++ [message] }

/-- The summary a peer publishes: how many records it has, and the time of the last. -/
def historySummary (p : ChatPeer) : ChatMessage :=
  .historySummary p.localPeerId p.chat.history.length p.chat.announcedAt

/-- Publishes the summary. -/
def publishHistorySummary (p : ChatPeer) : ChatPeer := p.handOn p.historySummary

/-! ## Names -/

/-- Notes the name of another peer. -/
def rememberPeerName (p : ChatPeer) (peerId : PeerId) (name : String) (joinedAt : Option Int) :
    ChatPeer :=
  if peerId = p.localPeerId then p
  else { p with peerNames := p.peerNames.insert peerId { name, joinedAt } }

/-- Drops the name of a peer. -/
def forgetPeerName (p : ChatPeer) (peerId : PeerId) : ChatPeer :=
  { p with peerNames := p.peerNames.erase peerId }

/-- The name noted for a peer. -/
def nameOf (p : ChatPeer) (peerId : PeerId) : Option String :=
  (p.peerNames.lookup peerId).map PeerNameClaim.name

/-! ## Reactions -/

/-- Takes a record into the history. -/
def insertRecord (p : ChatPeer) (record : ChatRecord) : ChatPeer :=
  { p with chat := (p.chat.insertRecord record).2 }

/-- Something is said. -/
def applyChatMessage (env : ChatEnv) (p : ChatPeer) (id : Option String) (peerId : String)
    (joinedAt : Option Int) (seq : Nat) (causalFrontier : CausalFrontier) (name text : String)
    (sentAt : Int) (source : PeerId) : ChatPeer :=
  let claimedPeerId := (env.parsePeerId peerId).getD source
  (p.rememberPeerName claimedPeerId name joinedAt).insertRecord {
    id := id.getD (env.newMessageId source sentAt 0 text)
    peerId := claimedPeerId
    joinedAt := joinedAt
    seq := seq
    causalFrontier := causalFrontier
    author := name
    text := text
    sentAt := sentAt }

/-- A peer says what it is called. -/
def handleNameClaim (env : ChatEnv) (p : ChatPeer) (peerId name : String)
    (joinedAt : Option Int) : ChatPeer :=
  match env.parsePeerId peerId with
  | some peerId => p.rememberPeerName peerId name joinedAt
  | none => p

/-- A peer tells what it has; it is asked for it if that is newer.  A request that reaches nobody
does not count as one. -/
def handleHistorySummary (env : ChatEnv) (p : ChatPeer) (peerId : String) (count : Nat)
    (newestAt : Option Int) : ChatPeer :=
  if peerId ≠ p.localPeerId ∧ historySummaryIsNewer p.chat.history count newestAt ∧
      shouldRequestHistory p.historyRequestTimes peerId env.now then
    let request : ChatMessage := .historyRequest p.localPeerId peerId p.chat.history.length
    match classifyRoomPublish (env.gossipsub request) with
    | .ok .published =>
      { p.handOn request with
        historyRequestTimes := p.historyRequestTimes.insert peerId env.now }
    | .ok .noSubscribers | .ok .congested | .error _ => p.handOn request
  else p

/-- A peer asks for the history, and gets it if it is longer than its own. -/
def handleHistoryRequest (p : ChatPeer) (requester target : String) (knownCount : Nat) :
    ChatPeer :=
  if target = p.localPeerId ∧ requester ≠ p.localPeerId ∧ p.chat.history.length > knownCount then
    p.handOn (.historyResponse (some requester) p.chat.history)
  else p

/-- Takes in one record of a response, and the name of its author. -/
def mergeRecord (env : ChatEnv) (p : ChatPeer) (record : ChatRecord) : ChatPeer :=
  match env.parsePeerId record.peerId with
  | some peerId =>
    (p.rememberPeerName peerId record.author record.joinedAt).insertRecord record
  | none => p.insertRecord record

/-- A history arrives; it is for the peer it names, or for everybody. -/
def handleHistoryResponse (env : ChatEnv) (p : ChatPeer) (target : Option String)
    (messages : List ChatRecord) : ChatPeer :=
  if target.all (· == p.localPeerId) then messages.foldl (mergeRecord env) p else p

/-- The reaction to a message from the network. -/
def applyWireMessage (env : ChatEnv) (p : ChatPeer) (source : PeerId) (message : ChatMessage) :
    ChatPeer :=
  match env.validateWireSource message source with
  | .error _ => p
  | .ok () =>
    match message with
    | .chat id peerId joinedAt seq causalFrontier name text sentAt =>
      applyChatMessage env p id peerId joinedAt seq causalFrontier name text sentAt source
    | .nameClaim peerId name joinedAt => p.handleNameClaim env peerId name joinedAt
    | .historySummary peerId count newestAt => p.handleHistorySummary env peerId count newestAt
    | .historyRequest requester target knownCount =>
      p.handleHistoryRequest requester target knownCount
    | .historyResponse target messages => p.handleHistoryResponse env target messages

end ChatPeer

/-! ## Events -/

/-- What a peer reacts to. -/
inductive ChatEvent where
  | chat (env : ChatEnv) (source : PeerId) (message : ChatMessage)
  | backend (event : Event)
  | mdnsExpired (peers : List PeerId)

/-- The peers whose names an event makes a peer forget: those that are no longer connected, or no
longer on the local network. -/
def ChatEvent.forgotten : ChatEvent → List PeerId
  | backend (.connectionClosed _ peerId 0) => [peerId]
  | mdnsExpired peers => peers
  | _ => []

/-- The state after an event. -/
def ChatPeer.step (p : ChatPeer) : ChatEvent → ChatPeer
  | .chat env source message => p.applyWireMessage env source message
  | .backend event =>
    (ChatEvent.backend event).forgotten.foldl forgetPeerName
      { p with backend := p.backend.step event }
  | .mdnsExpired peers => (ChatEvent.mdnsExpired peers).forgotten.foldl forgetPeerName p

/-- An environment in which every message is published and every text names a peer. -/
def ChatEnv.plain : ChatEnv where
  now := 0
  parse value := some value
  gossipsub _ := .ok ()
  newMessageId peerId sentAt _ text := peerId ++ "-" ++ toString sentAt ++ "-" ++ text

/-! ## What a reaction does -/

namespace ChatPeer

/-- A summary makes a peer hand on a request, and perhaps note that it has asked, or it does
nothing. -/
theorem handleHistorySummary_cases (env : ChatEnv) (p : ChatPeer) (peerId : String) (count : Nat)
    (newestAt : Option Int) :
    ((peerId ≠ p.localPeerId ∧ historySummaryIsNewer p.chat.history count newestAt = true ∧
        shouldRequestHistory p.historyRequestTimes peerId env.now = true) ∧
      ∃ times, p.handleHistorySummary env peerId count newestAt =
        { p.handOn (.historyRequest p.localPeerId peerId p.chat.history.length) with
          historyRequestTimes := times }) ∨
    (¬ (peerId ≠ p.localPeerId ∧ historySummaryIsNewer p.chat.history count newestAt = true ∧
        shouldRequestHistory p.historyRequestTimes peerId env.now = true) ∧
      p.handleHistorySummary env peerId count newestAt = p) := by
  unfold handleHistorySummary
  split
  · rename_i hasks
    refine .inl ⟨hasks, ?_⟩
    dsimp only
    split
    · exact ⟨_, rfl⟩
    · exact ⟨_, rfl⟩
    · exact ⟨_, rfl⟩
    · exact ⟨_, rfl⟩
  · rename_i hsilent
    exact .inr ⟨hsilent, rfl⟩

@[simp] theorem nameOf_insertRecord (p : ChatPeer) (record : ChatRecord) (peerId : PeerId) :
    (p.insertRecord record).nameOf peerId = p.nameOf peerId := rfl

@[simp] theorem localPeerId_insertRecord (p : ChatPeer) (record : ChatRecord) :
    (p.insertRecord record).localPeerId = p.localPeerId := rfl

@[simp] theorem localPeerId_rememberPeerName (p : ChatPeer) (peerId : PeerId) (name : String)
    (joinedAt : Option Int) :
    (p.rememberPeerName peerId name joinedAt).localPeerId = p.localPeerId := by
  unfold rememberPeerName
  split
  · rfl
  · rfl

/-- A name that is noted is the name of that peer, unless it is the peer itself. -/
theorem nameOf_rememberPeerName (p : ChatPeer) (named peerId : PeerId) (name : String)
    (joinedAt : Option Int) :
    (p.rememberPeerName named name joinedAt).nameOf peerId =
      if named = peerId ∧ peerId ≠ p.localPeerId then some name else p.nameOf peerId := by
  unfold rememberPeerName
  by_cases hlocal : named = p.localPeerId
  · rw [if_pos hlocal, if_neg]
    rintro ⟨rfl, hne⟩
    exact hne hlocal
  · rw [if_neg hlocal]
    unfold nameOf
    dsimp only
    by_cases hnamed : named = peerId
    · subst hnamed
      rw [AList.lookup_insert, if_pos ⟨rfl, hlocal⟩]
      rfl
    · rw [AList.lookup_insert_ne (Ne.symm hnamed), if_neg fun h => hnamed h.1]

/-- Forgetting some peers leaves the names of the others alone. -/
theorem nameOf_foldl_forgetPeerName (p : ChatPeer) (peers : List PeerId) {peerId : PeerId}
    (h : peerId ∉ peers) : (peers.foldl forgetPeerName p).nameOf peerId = p.nameOf peerId := by
  induction peers generalizing p with
  | nil => rfl
  | cons first rest ih =>
    rw [List.mem_cons, not_or] at h
    rw [List.foldl_cons, ih _ h.2]
    unfold forgetPeerName nameOf
    dsimp only
    rw [AList.lookup_erase_ne h.1]

end ChatPeer

end LightEar
