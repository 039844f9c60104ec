import LightEar.ChatConvergence
import LightEar.Foundation.Gossip
import LightEar.PeerNames

/-!
# The chat as gossip

A peer sends what is said in the room, announces what it has, asks others for theirs and is
answered with a copy of the whole history.  Every message may arrive late, more than once or
never.  As long as no more than 300 messages have been said, nothing gets lost on the way: whatever
the order of events, a peer shows exactly the messages that have reached it by any chain of
messages and copies, in the causal order of these messages.

The ideal to compare with (`Gossip` over sets of records) has no order, no index and no cap; it
merges by union.  The peers follow it step by step.
-/

namespace LightEar

open Foundation ChatHistory

/-! ## What the reactions do to a history -/

namespace ChatPeer

/-- Taking in one record of a response. -/
theorem chat_mergeRecord (env : ChatEnv) (p : ChatPeer) (record : ChatRecord) :
    (p.mergeRecord env record).chat = (p.chat.insertRecord record).2 := by
  unfold mergeRecord
  split
  · unfold rememberPeerName
    split
    · rfl
    · rfl
  · rfl

/-- Taking in the records of a response, one by one. -/
theorem chat_foldl_mergeRecord (env : ChatEnv) (p : ChatPeer) (messages : List ChatRecord) :
    (messages.foldl (mergeRecord env) p).chat = p.chat.insertRecords messages := by
  induction messages generalizing p with
  | nil => rfl
  | cons record messages ih =>
    rw [List.foldl_cons, ih, chat_mergeRecord]
    rfl

/-- A message is taken in as a record of the peer it comes from. -/
theorem chat_applyChatMessage (env : ChatEnv) (p : ChatPeer) (id : String) (peerId : String)
    (joinedAt : Option Int) (seq : Nat) (causalFrontier : CausalFrontier) (name text : String)
    (sentAt : Int) (source : PeerId) :
    (p.applyChatMessage env (some id) peerId joinedAt seq causalFrontier name text sentAt
      source).chat = (p.chat.insertRecord {
        id, joinedAt, seq, causalFrontier, text, sentAt
        peerId := (env.parsePeerId peerId).getD source
        author := name }).2 := by
  unfold applyChatMessage rememberPeerName insertRecord
  dsimp only
  split
  · rfl
  · rfl

end ChatPeer

/-! ## Histories of a known set of records -/

namespace ChatHistory

/-- How a client takes in messages and histories. -/
def merging : Merging ChatHistory ChatRecord where
  learn c record := (c.insertRecord record).2
  merge c copy := c.insertRecords copy.history

/-- The records of a history. -/
def recordSet (c : ChatHistory) : Finset ChatRecord := c.history.toFinset

/-- A history after some deliveries of given records. -/
def ComesFrom (records : Finset ChatRecord) (c : ChatHistory) : Prop :=
  ∃ log : List ChatRecord, (∀ r ∈ log, r ∈ records) ∧ c = empty.insertRecords log

variable {records : Finset ChatRecord} {c copy : ChatHistory}

theorem comesFrom_empty : empty.ComesFrom records := ⟨[], List.forall_mem_nil _, rfl⟩

/-- What a history holds has been delivered. -/
theorem ComesFrom.subset (h : c.ComesFrom records) : ∀ r ∈ c.history, r ∈ records := by
  obtain ⟨log, hlog, rfl⟩ := h
  intro r hr
  rcases mem_or_mem_of_mem_insertRecords hr with hr | hr
  · cases hr
  · exact hlog r hr

/-- More deliveries of the records. -/
theorem ComesFrom.insertRecords (h : c.ComesFrom records) {messages : List ChatRecord}
    (hmessages : ∀ r ∈ messages, r ∈ records) : (c.insertRecords messages).ComesFrom records := by
  obtain ⟨log, hlog, rfl⟩ := h
  refine ⟨log ++ messages, fun r hr => ?_, (insertRecords_append _ _ _).symm⟩
  exact (List.mem_append.1 hr).elim (hlog r) (hmessages r)

/-- Deliveries come from deliveries. -/
theorem kept_comesFrom : Gossip.Kept merging (ComesFrom records) (· ∈ records) where
  learn _ _ h hrecord := h.insertRecords (List.forall_mem_singleton.2 hrecord)
  merge _ _ h hcopy := h.insertRecords hcopy.subset

section Capped

variable (hids : Set.InjOn ChatRecord.id (records : Set ChatRecord))
  (hcard : records.card ≤ maxMessages)

include hids hcard

/-- Below the cap a history holds everything that has been delivered. -/
theorem recordSet_insertRecords {log : List ChatRecord} (hlog : ∀ r ∈ log, r ∈ records) :
    (empty.insertRecords log).recordSet = log.toFinset := by
  have hsubset : log.toFinset ⊆ records := fun r hr => hlog r (List.mem_toFinset.1 hr)
  have hdedup : log.dedup.toFinset = log.toFinset := by
    ext r
    rw [List.mem_toFinset, List.mem_toFinset, List.mem_dedup]
  have hsort := history_eq_sort (idsDistinct_of_subset hids hlog)
    ((Finset.card_le_card hsubset).trans hcard) log.nodup_dedup hdedup
  unfold recordSet
  rw [hsort, List.toFinset_eq_of_perm _ _ (sortHistoryCausally_perm _), hdedup]

/-- Below the cap a history is determined by its records. -/
theorem ComesFrom.history_eq (h : c.ComesFrom records) {l : List ChatRecord} (hnodup : l.Nodup)
    (hl : l.toFinset = c.recordSet) : c.history = sortHistoryCausally l := by
  obtain ⟨log, hlog, rfl⟩ := h
  have hsubset : log.toFinset ⊆ records := fun r hr => hlog r (List.mem_toFinset.1 hr)
  refine history_eq_sort (idsDistinct_of_subset hids hlog)
    ((Finset.card_le_card hsubset).trans hcard) hnodup ?_
  rw [hl, recordSet_insertRecords hids hcard hlog]

/-- Below the cap records that are taken in are added to those that are there. -/
theorem ComesFrom.recordSet_insertRecords (h : c.ComesFrom records) {messages : List ChatRecord}
    (hmessages : ∀ r ∈ messages, r ∈ records) :
    (c.insertRecords messages).recordSet = c.recordSet ∪ messages.toFinset := by
  obtain ⟨log, hlog, rfl⟩ := h
  have hboth : ∀ r ∈ log ++ messages, r ∈ records := fun r hr =>
    (List.mem_append.1 hr).elim (hlog r) (hmessages r)
  rw [← insertRecords_append, ChatHistory.recordSet_insertRecords hids hcard hboth,
    ChatHistory.recordSet_insertRecords hids hcard hlog, List.toFinset_append]

end Capped

end ChatHistory

/-! ## The ideal -/

/-- Sets of records merge by union. -/
def unionMerging : Merging (Finset ChatRecord) ChatRecord where
  learn records record := records ∪ {record}
  merge records copy := records ∪ copy

/-- Below the cap a history is, but for its order, the set of its records. -/
theorem hom_recordSet {records : Finset ChatRecord}
    (hids : Set.InjOn ChatRecord.id (records : Set ChatRecord))
    (hcard : records.card ≤ maxMessages) :
    Gossip.Hom merging unionMerging recordSet (ComesFrom records) (· ∈ records) where
  learn _ _ h hrecord :=
    h.recordSet_insertRecords hids hcard (List.forall_mem_singleton.2 hrecord)
  merge _ _ h hcopy := h.recordSet_insertRecords hids hcard hcopy.subset

/-! ## The protocol -/

/-- The message by which a record is sent. -/
def ChatRecord.toMessage (r : ChatRecord) : ChatMessage :=
  .chat (some r.id) r.peerId r.joinedAt r.seq r.causalFrontier r.author r.text r.sentAt

/-- What a peer records of something that it says. -/
def ChatPeer.ownRecord (p : ChatPeer) (id author text : String) (joinedAt : Int) (seq : Nat)
    (sentAt : Int) : ChatRecord where
  id := id
  peerId := p.localPeerId
  joinedAt := some joinedAt
  seq := seq
  causalFrontier := historyFrontier p.chat.history
  author := author
  text := text
  sentAt := sentAt

/-- A peer says something: the record is taken in and sent. -/
def ChatPeer.say (p : ChatPeer) (id author text : String) (joinedAt : Int) (seq : Nat)
    (sentAt : Int) : ChatPeer :=
  let record := p.ownRecord id author text joinedAt seq sentAt
  (p.insertRecord record).handOn record.toMessage

/-- The peers of a room; `reached` only observes. -/
structure ChatNet where
  /-- The peers.  Whatever they have handed to the network may still arrive. -/
  peer : PeerId → ChatPeer
  /-- The messages that have reached each peer, and had when it sent each of its messages. -/
  reached : Gossip PeerId (Finset ChatRecord)

/-- What may happen in a room. -/
inductive ChatNetAction where
  | say (i : PeerId) (id author text : String) (joinedAt : Int) (seq : Nat) (sentAt : Int)
  | announce (i : PeerId)
  | deliver (i source : PeerId) (sent : Nat) (env : ChatEnv)
  | backend (i : PeerId) (event : Event)
  | mdnsExpired (i : PeerId) (peers : List PeerId)

namespace ChatNetAction

/-- The peer that something happens to. -/
def actor : ChatNetAction → PeerId
  | say i .. | announce i | deliver i .. | backend i _ | mdnsExpired i _ => i

/-- The identifier of what is said. -/
def saidId? : ChatNetAction → Option String
  | say _ id .. => some id
  | announce _ | deliver .. | backend .. | mdnsExpired .. => none

end ChatNetAction

/-- What a peer that has checked a message learns from it. -/
def ChatMessage.heard (i source : PeerId) (sent : Nat) :
    ChatMessage → List (GossipAction PeerId ChatRecord)
  | chat (some id) _ joinedAt seq causalFrontier name text sentAt =>
    [.hear i ⟨id, source, joinedAt, seq, causalFrontier, name, text, sentAt⟩]
  | historyResponse target _ => if target.all (· == i) then [.takeIn i source sent] else []
  | chat none .. | nameClaim .. | historySummary .. | historyRequest .. => []

namespace ChatNet

/-- A room of peers that have just started. -/
def new (backend : PeerId → Backend) : ChatNet where
  peer i := .new (backend i)
  reached := ⟨fun _ => ∅, fun _ => []⟩

/-- What becomes of the peer that something happens to. -/
def react (net : ChatNet) : ChatNetAction → ChatPeer
  | .say i id author text joinedAt seq sentAt =>
    (net.peer i).say id author text joinedAt seq sentAt
  | .announce i => (net.peer i).publishHistorySummary
  | .deliver i source sent env =>
    match (net.peer source).handedOn[sent]? with
    | none => net.peer i
    | some message => (net.peer i).step (.chat env source message)
  | .backend i event => (net.peer i).step (.backend event)
  | .mdnsExpired i peers => (net.peer i).step (.mdnsExpired peers)

/-- What it learns. -/
def heard (net : ChatNet) : ChatNetAction → List (GossipAction PeerId ChatRecord)
  | .say i id author text joinedAt seq sentAt =>
    [.hear i ((net.peer i).ownRecord id author text joinedAt seq sentAt)]
  | .deliver i source sent env =>
    match (net.peer source).handedOn[sent]? with
    | none => []
    | some message =>
      match env.validateWireSource message source with
      | .error _ => []
      | .ok () => message.heard i source sent
  | .announce _ | .backend .. | .mdnsExpired .. => []

/-- The room after an action. -/
def step (net : ChatNet) (action : ChatNetAction) : ChatNet :=
  let after := net.react action
  let count := after.handedOn.length - (net.peer action.actor).handedOn.length
  { peer := Function.update net.peer action.actor after
    reached := net.reached.run unionMerging
      (net.heard action ++ List.replicate count (.handOut action.actor)) }

/-- The room after a list of actions. -/
def run (net : ChatNet) (actions : List ChatNetAction) : ChatNet := actions.foldl step net

/-- What an action says. -/
def saidIn (net : ChatNet) : ChatNetAction → List ChatRecord
  | .say i id author text joinedAt seq sentAt =>
    [(net.peer i).ownRecord id author text joinedAt seq sentAt]
  | .announce _ | .deliver .. | .backend .. | .mdnsExpired .. => []

/-- What is said in a run. -/
def saidAlong (net : ChatNet) : List ChatNetAction → List ChatRecord
  | [] => []
  | action :: actions => net.saidIn action ++ (net.step action).saidAlong actions

/-- What is said goes by the identifiers of the actions. -/
theorem map_id_saidAlong (net : ChatNet) (actions : List ChatNetAction) :
    (net.saidAlong actions).map ChatRecord.id = actions.filterMap ChatNetAction.saidId? := by
  induction actions generalizing net with
  | nil => rfl
  | cons action actions ih =>
    unfold saidAlong
    rw [List.map_append, ih]
    cases action with
    | say i id author text joinedAt seq sentAt => rfl
    | announce i => rfl
    | deliver i source sent env => rfl
    | backend i event => rfl
    | mdnsExpired i peers => rfl

end ChatNet

/-! ## The peers follow the ideal -/

/-- What a message of a peer says is what is known of the history that the peer had. -/
def ChatMessage.Carries (records : Finset ChatRecord) (i : PeerId) (copy : ChatHistory) :
    ChatMessage → Prop
  | chat id peerId joinedAt seq causalFrontier name text sentAt =>
    ∃ record ∈ records, record.peerId = i ∧
      record.toMessage = chat id peerId joinedAt seq causalFrontier name text sentAt
  | historyResponse _ messages => messages = copy.history
  | nameClaim .. | historySummary .. | historyRequest .. => True

/-- How a peer comes out of something that happens to it in a room of histories. -/
structure ChatPeer.Follows (records : Finset ChatRecord) (i : PeerId) (p p' : ChatPeer)
    (g : Gossip PeerId ChatHistory) (heard : List (GossipAction PeerId ChatRecord)) : Prop where
  /-- It stays who it is. -/
  self : p'.localPeerId = p.localPeerId
  /-- Its history is what becomes of it by what is heard. -/
  chat : g.run merging heard = g.put i p'.chat
  /-- Nothing is heard that was not said. -/
  news : ∀ action ∈ heard, ∀ record ∈ action.news?, record ∈ records
  /-- What it sends is about its history. -/
  sent : ∃ sent, p'.handedOn = p.handedOn ++ sent ∧
    ∀ message ∈ sent, message.Carries records i p'.chat

/-- The peers have the histories of a room of histories that comes from given records, and what
is noted to have reached them are the records of these. -/
structure ChatNet.Follows (records : Finset ChatRecord) (net : ChatNet)
    (g : Gossip PeerId ChatHistory) : Prop where
  /-- Every peer knows who it is. -/
  self : ∀ i, (net.peer i).localPeerId = i
  /-- The histories are those of the peers. -/
  chat : ∀ i, (net.peer i).chat = g.replica i
  /-- The copies are those that the messages carry. -/
  carried : ∀ i, List.Forall₂ (fun message copy => message.Carries records i copy)
    (net.peer i).handedOn (g.copies i)
  /-- The records are those of the histories. -/
  reached : net.reached = g.map recordSet
  /-- The histories come from the records. -/
  comesFrom : g.All (ComesFrom records)

namespace ChatPeer

variable {records : Finset ChatRecord} {i source : PeerId} {p p' : ChatPeer} {env : ChatEnv}
  {g : Gossip PeerId ChatHistory}

/-- Whatever leaves the history alone and sends no history follows. -/
theorem Follows.idle (hchat : p.chat = g.replica i) (hself : p'.localPeerId = p.localPeerId)
    (hsame : p'.chat = p.chat)
    (hsent : ∃ sent, p'.handedOn = p.handedOn ++ sent ∧
      ∀ message ∈ sent, message.Carries records i p'.chat) : Follows records i p p' g [] where
  self := hself
  chat := by
    rw [hsame, hchat]
    unfold Gossip.put
    rw [Function.update_eq_self]
    rfl
  news := List.forall_mem_nil _
  sent := hsent

theorem handedOn_rememberPeerName (p : ChatPeer) (peerId : PeerId) (name : String)
    (joinedAt : Option Int) : (p.rememberPeerName peerId name joinedAt).handedOn = p.handedOn := by
  unfold rememberPeerName
  split
  · rfl
  · rfl

theorem chat_rememberPeerName (p : ChatPeer) (peerId : PeerId) (name : String)
    (joinedAt : Option Int) : (p.rememberPeerName peerId name joinedAt).chat = p.chat := by
  unfold rememberPeerName
  split
  · rfl
  · rfl

theorem handedOn_foldl_mergeRecord (env : ChatEnv) (p : ChatPeer) (messages : List ChatRecord) :
    (messages.foldl (mergeRecord env) p).handedOn = p.handedOn := by
  induction messages generalizing p with
  | nil => rfl
  | cons record messages ih =>
    rw [List.foldl_cons, ih]
    unfold mergeRecord
    split
    · exact handedOn_rememberPeerName p _ _ _
    · rfl

/-- Saying something. -/
theorem follows_say (hchat : p.chat = g.replica i) (hself : p.localPeerId = i)
    (id author text : String) (joinedAt : Int) (seq : Nat) (sentAt : Int)
    (hsaid : p.ownRecord id author text joinedAt seq sentAt ∈ records) :
    Follows records i p (p.say id author text joinedAt seq sentAt) g
      [.hear i (p.ownRecord id author text joinedAt seq sentAt)] where
  self := rfl
  chat := by
    change g.put i (g.replica i |>.insertRecord _).2 = g.put i (p.chat.insertRecord _).2
    rw [hchat]
  news := by
    intro action haction record hrecord
    rw [List.mem_singleton.1 haction] at hrecord
    rwa [← Option.mem_some_iff.1 hrecord]
  sent := ⟨[_], rfl, fun message hmessage => by
    rw [List.mem_singleton.1 hmessage]
    exact ⟨_, hsaid, hself, rfl⟩⟩

/-- A summary leads to a request at most. -/
theorem follows_handleHistorySummary (hchat : p.chat = g.replica i) (peerId : String)
    (count : Nat) (newestAt : Option Int) :
    Follows records i p (p.handleHistorySummary env peerId count newestAt) g [] := by
  rcases p.handleHistorySummary_cases env peerId count newestAt with
    ⟨-, times, hasks⟩ | ⟨-, hsilent⟩
  · rw [hasks]
    refine .idle hchat rfl rfl
      ⟨[.historyRequest p.localPeerId peerId p.chat.history.length], rfl, ?_⟩
    intro request hrequest
    rw [List.mem_singleton.1 hrequest]
    trivial
  · rw [hsilent]
    exact .idle hchat rfl rfl ⟨[], (List.append_nil _).symm, List.forall_mem_nil _⟩

/-- A response is a copy of the history of its sender. -/
theorem follows_handleHistoryResponse (hchat : p.chat = g.replica i) (hself : p.localPeerId = i)
    {sent : Nat} {copy : ChatHistory} (hcopy : (g.copies source)[sent]? = some copy)
    (target : Option String) :
    Follows records i p (p.handleHistoryResponse env target copy.history) g
      (if target.all (· == i) then [.takeIn i source sent] else []) := by
  unfold handleHistoryResponse
  rw [hself]
  split
  · refine ⟨localPeerId_foldl_mergeRecord _, ?_, ?_, [], ?_, List.forall_mem_nil _⟩
    · rw [chat_foldl_mergeRecord, hchat]
      change g.act merging (.takeIn i source sent) = _
      unfold Gossip.act
      dsimp only
      rw [hcopy]
      rfl
    · intro action haction news hnews
      rw [List.mem_singleton.1 haction] at hnews
      cases hnews
    · exact (handedOn_foldl_mergeRecord env p _).trans (List.append_nil _).symm
  · exact .idle hchat rfl rfl ⟨[], (List.append_nil _).symm, List.forall_mem_nil _⟩

/-- A message of somebody else, that has been checked. -/
theorem follows_applyWireMessage (hchat : p.chat = g.replica i) (hself : p.localPeerId = i)
    {message : ChatMessage} {sent : Nat} {copy : ChatHistory}
    (hcopy : (g.copies source)[sent]? = some copy) (hcarries : message.Carries records source copy)
    (hvalid : env.validateWireSource message source = .ok ()) :
    Follows records i p (p.applyWireMessage env source message) g
      (message.heard i source sent) := by
  have hsame : (p.applyWireMessage env source message).localPeerId = p.localPeerId :=
    localPeerId_applyWireMessage message
  unfold applyWireMessage at hsame ⊢
  rw [hvalid] at hsame ⊢
  cases message with
  | chat id peerId joinedAt seq causalFrontier name text sentAt =>
    obtain ⟨record, hrecord, rfl, hmessage⟩ := hcarries
    cases hmessage
    refine ⟨hsame, ?_, ?_, [], ?_, List.forall_mem_nil _⟩
    · change g.put i (g.replica i |>.insertRecord _).2 = g.put i _
      rw [chat_applyChatMessage, ChatEnv.claimed_of_validate hvalid, hchat]
    · intro action haction news hnews
      rw [List.mem_singleton.1 haction] at hnews
      rwa [← Option.mem_some_iff.1 hnews]
    · exact (handedOn_rememberPeerName p _ _ _).trans (List.append_nil _).symm
  | nameClaim peerId name joinedAt =>
    refine .idle hchat hsame ?_ ⟨[], ?_, List.forall_mem_nil _⟩
    · dsimp only
      unfold handleNameClaim
      split
      · exact chat_rememberPeerName p _ _ _
      · rfl
    · rw [List.append_nil]
      dsimp only
      unfold handleNameClaim
      split
      · exact handedOn_rememberPeerName p _ _ _
      · rfl
  | historySummary peerId count newestAt => exact follows_handleHistorySummary hchat _ _ _
  | historyRequest requester target knownCount =>
    unfold handleHistoryRequest
    dsimp only
    split
    · refine .idle hchat rfl rfl ⟨[_], rfl, ?_⟩
      intro response hresponse
      rw [List.mem_singleton.1 hresponse]
      rfl
    · exact .idle hchat rfl rfl ⟨[], (List.append_nil _).symm, List.forall_mem_nil _⟩
  | historyResponse target messages =>
    obtain rfl : messages = copy.history := hcarries
    exact follows_handleHistoryResponse hchat hself hcopy target

/-- What is not about the chat leaves it alone. -/
theorem follows_forget (hchat : p.chat = g.replica i) (backend : Backend) (peers : List PeerId)
    (hself : (peers.foldl forgetPeerName { p with backend }).localPeerId = p.localPeerId) :
    Follows records i p (peers.foldl forgetPeerName { p with backend }) g [] := by
  have hrest : ∀ q : ChatPeer, (peers.foldl forgetPeerName q).chat = q.chat ∧
      (peers.foldl forgetPeerName q).handedOn = q.handedOn := by
    intro q
    refine List.foldlRecOn peers forgetPeerName
      (motive := fun q' => q'.chat = q.chat ∧ q'.handedOn = q.handedOn) ⟨rfl, rfl⟩ ?_
    exact fun _ hq' _ _ => hq'
  obtain ⟨hsame, hsilent⟩ := hrest { p with backend }
  exact .idle hchat hself hsame ⟨[], hsilent.trans (List.append_nil _).symm, List.forall_mem_nil _⟩

end ChatPeer

namespace ChatNet

variable {records : Finset ChatRecord} {net : ChatNet} {g : Gossip PeerId ChatHistory}

/-- What is carried by a message that was sent. -/
theorem exists_carried {R : ChatMessage → ChatHistory → Prop} {sent : List ChatMessage}
    {copies : List ChatHistory} (h : List.Forall₂ R sent copies) {k : Nat} {message : ChatMessage}
    (hmessage : sent[k]? = some message) : ∃ copy, copies[k]? = some copy ∧ R message copy := by
  induction h generalizing k with
  | nil => cases hmessage
  | cons hfirst hrest ih =>
    cases k with
    | zero =>
      cases hmessage
      exact ⟨_, rfl, hfirst⟩
    | succ k => exact ih hmessage

/-- Messages that all carry one thing. -/
theorem forall₂_replicate {R : ChatMessage → ChatHistory → Prop} {sent : List ChatMessage}
    {copy : ChatHistory} (h : ∀ message ∈ sent, R message copy) :
    List.Forall₂ R sent (List.replicate sent.length copy) := by
  rw [← List.map_const', List.forall₂_map_right_iff, List.forall₂_same]
  exact h

/-- Whatever happens to a peer, it follows. -/
theorem Follows.react (h : net.Follows records g) {action : ChatNetAction}
    (hsaid : ∀ record ∈ net.saidIn action, record ∈ records) :
    (net.peer action.actor).Follows records action.actor (net.react action) g
      (net.heard action) := by
  cases action with
  | say i id author text joinedAt seq sentAt =>
    exact ChatPeer.follows_say (h.chat i) (h.self i) _ _ _ _ _ _
      (hsaid _ (List.mem_singleton_self _))
  | announce i =>
    refine .idle (h.chat i) rfl rfl ⟨[(net.peer i).historySummary], rfl, ?_⟩
    intro summary hsummary
    rw [List.mem_singleton.1 hsummary]
    trivial
  | deliver i source sent env =>
    unfold ChatNet.react heard
    dsimp only [ChatNetAction.actor]
    cases hmessage : (net.peer source).handedOn[sent]? with
    | none => exact .idle (h.chat i) rfl rfl ⟨[], (List.append_nil _).symm, List.forall_mem_nil _⟩
    | some message =>
      dsimp only [ChatPeer.step]
      cases hvalid : env.validateWireSource message source with
      | error complaint =>
        unfold ChatPeer.applyWireMessage
        rw [hvalid]
        exact .idle (h.chat i) rfl rfl ⟨[], (List.append_nil _).symm, List.forall_mem_nil _⟩
      | ok valid =>
        obtain ⟨copy, hcopy, hcarries⟩ := exists_carried (h.carried source) hmessage
        exact ChatPeer.follows_applyWireMessage (h.chat i) (h.self i) hcopy hcarries hvalid
  | backend i event =>
    exact ChatPeer.follows_forget (h.chat i) _ _ (ChatPeer.localPeerId_step (.backend event))
  | mdnsExpired i peers =>
    exact ChatPeer.follows_forget (h.chat i) _ _ (ChatPeer.localPeerId_step (.mdnsExpired peers))

/-- One action of the room is some actions of the room of histories. -/
theorem Follows.step (h : net.Follows records g)
    (hids : Set.InjOn ChatRecord.id (records : Set ChatRecord))
    (hcard : records.card ≤ maxMessages) {action : ChatNetAction}
    (hsaid : ∀ record ∈ net.saidIn action, record ∈ records) :
    ∃ g', (net.step action).Follows records g' := by
  obtain ⟨hself, hchat, hnews, sent, hsent, hcarries⟩ := h.react hsaid
  have hcount : (net.react action).handedOn.length - (net.peer action.actor).handedOn.length =
      sent.length := by
    rw [hsent, List.length_append, Nat.add_sub_cancel_left]
  have hactions : ∀ heard ∈ net.heard action ++ List.replicate sent.length (.handOut action.actor),
      ∀ record ∈ heard.news?, record ∈ records := by
    intro heard hheard record hrecord
    rcases List.mem_append.1 hheard with hheard | hheard
    · exact hnews heard hheard record hrecord
    · rw [List.eq_of_mem_replicate hheard] at hrecord
      cases hrecord
  have hrun : g.run merging
      (net.heard action ++ List.replicate sent.length (.handOut action.actor)) =
        { g.put action.actor (net.react action).chat with
          copies := Function.update g.copies action.actor (g.copies action.actor ++
            List.replicate sent.length (net.react action).chat) } := by
    rw [Gossip.run_append, hchat, Gossip.run_handOut, Gossip.put_replica_self]
    rfl
  refine ⟨g.run merging (net.heard action ++ List.replicate sent.length (.handOut action.actor)),
    ⟨fun i => ?_, fun i => ?_, fun i => ?_, ?_, h.comesFrom.run kept_comesFrom hactions⟩⟩
  · change (Function.update net.peer action.actor _ i).localPeerId = i
    by_cases hi : i = action.actor
    · rw [hi, Function.update_self, hself, h.self]
    · rw [Function.update_of_ne hi, h.self]
  · rw [hrun]
    change (Function.update net.peer action.actor _ i).chat = _
    by_cases hi : i = action.actor
    · rw [hi, Function.update_self]
      exact (g.put_replica_self _ _).symm
    · rw [Function.update_of_ne hi, h.chat]
      exact (g.put_replica_of_ne hi _).symm
  · rw [hrun]
    change List.Forall₂ _ (Function.update net.peer action.actor _ i).handedOn
      (Function.update g.copies action.actor _ i)
    by_cases hi : i = action.actor
    · rw [hi, Function.update_self, Function.update_self, hsent]
      exact List.rel_append (h.carried action.actor) (forall₂_replicate hcarries)
    · rw [Function.update_of_ne hi, Function.update_of_ne hi]
      exact h.carried i
  · change net.reached.run unionMerging _ = _
    rw [h.reached, hcount]
    exact (Gossip.map_run h.comesFrom kept_comesFrom (hom_recordSet hids hcard) hactions).symm

/-- Every run of the room is one of the room of histories. -/
theorem Follows.run (h : net.Follows records g)
    (hids : Set.InjOn ChatRecord.id (records : Set ChatRecord))
    (hcard : records.card ≤ maxMessages) {actions : List ChatNetAction}
    (hsaid : ∀ record ∈ net.saidAlong actions, record ∈ records) :
    ∃ g', (net.run actions).Follows records g' := by
  induction actions generalizing net g with
  | nil => exact ⟨g, h⟩
  | cons action actions ih =>
    obtain ⟨hfirst, hrest⟩ := List.forall_mem_append.1 hsaid
    obtain ⟨g', h'⟩ := h.step hids hcard hfirst
    exact ih h' hrest

/-- A room of peers that have just started. -/
theorem follows_new {backend : PeerId → Backend} (hself : ∀ i, (backend i).localPeerId = i) :
    (new backend).Follows records ⟨fun _ => .empty, fun _ => []⟩ :=
  ⟨hself, fun _ => rfl, fun _ => .nil, rfl, fun _ => comesFrom_empty, fun _ =>
    List.forall_mem_nil _⟩

end ChatNet

/-! ## Main result -/

/-- While no more than 300 messages have been said, every peer shows exactly the messages that have
reached it, in the causal order of these messages. -/
theorem chat_gossip_complete {backend : PeerId → Backend}
    (hself : ∀ i, (backend i).localPeerId = i) {actions : List ChatNetAction}
    (hids : (actions.filterMap ChatNetAction.saidId?).Nodup)
    (hfew : (actions.filterMap ChatNetAction.saidId?).length ≤ maxMessages) (i : PeerId)
    {l : List ChatRecord} (hnodup : l.Nodup)
    (hl : l.toFinset = ((ChatNet.new backend).run actions).reached.replica i) :
    (((ChatNet.new backend).run actions).peer i).chat.history = sortHistoryCausally l := by
  set said := (ChatNet.new backend).saidAlong actions with hsaid
  have hmap : said.map ChatRecord.id = actions.filterMap ChatNetAction.saidId? :=
    (ChatNet.new backend).map_id_saidAlong actions
  have hinj : Set.InjOn ChatRecord.id (said.toFinset : Set ChatRecord) := by
    intro r hr r' hr' heq
    exact List.inj_on_of_nodup_map (hmap ▸ hids) (List.mem_toFinset.1 hr)
      (List.mem_toFinset.1 hr') heq
  have hcard : said.toFinset.card ≤ maxMessages := by
    refine said.toFinset_card_le.trans ?_
    rwa [← List.length_map ChatRecord.id, hmap]
  have hheld : ∀ record ∈ (ChatNet.new backend).saidAlong actions, record ∈ said.toFinset :=
    fun record hrecord => List.mem_toFinset.2 hrecord
  obtain ⟨g, hg⟩ := (ChatNet.follows_new hself).run hinj hcard hheld
  rw [hg.chat i]
  refine (hg.comesFrom.replica i).history_eq hinj hcard hnodup (hl.trans ?_)
  rw [hg.reached]
  rfl

/-- Alice says something to Bob, and Carol asks Bob for what she has missed. -/
def throughBob : List ChatNetAction := [
  .say "alice" "m" "Alice" "hello" 1 1 1700000000000000,
  .deliver "bob" "alice" 0 .plain,
  .announce "bob",
  .deliver "carol" "bob" 0 .plain,
  .deliver "bob" "carol" 0 .plain,
  .deliver "carol" "bob" 1 .plain]

/-- The main result for Carol, who has the message out of the history of Bob. -/
theorem chat_gossip_complete_throughBob :
    (((ChatNet.new fun i => .new i ∅ false 0).run throughBob).peer "carol").chat.history =
      sortHistoryCausally [⟨"m", "alice", some 1, 1, ∅, "Alice", "hello", 1700000000000000⟩] :=
  chat_gossip_complete (fun _ => rfl) (by decide) (by decide) "carol" (List.nodup_singleton _) rfl

end LightEar
