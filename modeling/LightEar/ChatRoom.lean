import LightEar.Chat
import Mathlib.Logic.Function.Basic
import Mathlib.Logic.Relation

/-!
# The chat of a room

Any number of clients write to the chat and take in what others have written, directly or out of
the history of a third, in any order, with repetitions and with records missing or forgotten.  The
frontier of a record keeps only the greatest number of each author, so the dependency relation is
coarser than what the author really held.  It still never runs against the order in which the
records were written, and that order, which no client sees, is the rank by which every history
turns out to be sorted.
-/

namespace LightEar

universe u

/-! ## The room -/

/-- The clients of a room: every run of the program by a peer, each under its own key. -/
structure ChatClients (C : Type u) where
  /-- The peer that runs the client. -/
  peerId : C → PeerId
  /-- When the client joined. -/
  joinedAt : C → Int
  /-- A peer has a name. -/
  peerId_ne_empty : ∀ c, peerId c ≠ ""
  /-- No two clients share a key. -/
  actorKey_injective : Function.Injective fun c => chatActorKey (peerId c) (some (joinedAt c))

/-- A message with the client that wrote it and the history which that client had before it. -/
structure Sending (C : Type u) where
  /-- The author. -/
  client : C
  /-- The history of the author before the message. -/
  held : List ChatRecord
  /-- The message. -/
  record : ChatRecord

/-- The clients' histories and counts; `sent` only observes, first message first. -/
structure ChatRoom (C : Type u) where
  /-- What each client shows. -/
  chat : C → ChatHistory
  /-- How much each client has written. -/
  messageSeq : C → Nat
  /-- Everything ever written. -/
  sent : List (Sending C)

namespace ChatRoom

variable {C : Type u}

/-- Nobody has written anything. -/
def new : ChatRoom C where
  chat _ := .empty
  messageSeq _ := 0
  sent := []

/-- The records ever written. -/
def records (room : ChatRoom C) : List ChatRecord := room.sent.map Sending.record

/-- The record of the next message of a client. -/
def nextRecord (clients : ChatClients C) (room : ChatRoom C) (c : C) (id author text : String)
    (sentAt : Int) : ChatRecord where
  id := id
  peerId := clients.peerId c
  joinedAt := some (clients.joinedAt c)
  seq := room.messageSeq c + 1
  causalFrontier := historyFrontier (room.chat c).history
  author := author
  text := text
  sentAt := sentAt

section Steps

variable [DecidableEq C]

/-- A client writes a message and takes it in itself. -/
def sendChat (clients : ChatClients C) (room : ChatRoom C) (c : C) (id author text : String)
    (sentAt : Int) : ChatRoom C :=
  let record := room.nextRecord clients c id author text sentAt
  { chat := Function.update room.chat c ((room.chat c).insertRecord record).2
    messageSeq := Function.update room.messageSeq c (room.messageSeq c + 1)
    sent := room.sent ++ [⟨c, (room.chat c).history, record⟩] }

theorem records_sendChat (clients : ChatClients C) (room : ChatRoom C) (c : C)
    (id author text : String) (sentAt : Int) :
    (room.sendChat clients c id author text sentAt).records =
      room.records ++ [room.nextRecord clients c id author text sentAt] :=
  List.map_append

/-- A client takes in records that were written before: one message, or a history. -/
def deliver (room : ChatRoom C) (c : C) (messages : List ChatRecord) : ChatRoom C :=
  { room with chat := Function.update room.chat c ((room.chat c).insertRecords messages) }

/-- What may happen in a room. -/
inductive Step (clients : ChatClients C) : ChatRoom C → ChatRoom C → Prop
  /-- Somebody writes a message under an identifier that was not used before. -/
  | sendChat (room : ChatRoom C) (c : C) (id author text : String) (sentAt : Int)
      (hfresh : ∀ r ∈ room.records, r.id ≠ id) :
      Step clients room (room.sendChat clients c id author text sentAt)
  /-- Somebody hears of messages. -/
  | deliver (room : ChatRoom C) (c : C) (messages : List ChatRecord)
      (hsent : messages ⊆ room.records) : Step clients room (room.deliver c messages)

/-- A room that can come about. -/
def Reachable (clients : ChatClients C) (room : ChatRoom C) : Prop :=
  Relation.ReflTransGen (Step clients) new room

end Steps

/-! ## The order of writing -/

/-- What is known of everything written. -/
structure Archive (clients : ChatClients C) (room : ChatRoom C) : Prop where
  /-- A record carries the key of its author and a number the author has reached. -/
  signed : ∀ s ∈ room.sent,
    chatRecordActorKey s.record =
        some (chatActorKey (clients.peerId s.client) (some (clients.joinedAt s.client))) ∧
      s.record.seq ≤ room.messageSeq s.client
  /-- A record carries the frontier of what its author held. -/
  marked : ∀ s ∈ room.sent, s.record.causalFrontier = historyFrontier s.held
  /-- Identifiers differ and the numbers of an author go up. -/
  numbered : room.sent.Pairwise fun earlier later =>
    earlier.record.id ≠ later.record.id ∧
      (earlier.client = later.client → earlier.record.seq < later.record.seq)
  /-- What an author held was written before. -/
  earlier : ∀ (i : Nat) (s : Sending C), room.sent[i]? = some s →
    ∀ m ∈ s.held, ∃ (j : Nat) (t : Sending C), j < i ∧ room.sent[j]? = some t ∧ t.record = m

/-- Of two records of one author the one with the smaller number was written first. -/
theorem Archive.lt_of_seq_lt {clients : ChatClients C} {room : ChatRoom C}
    (h : Archive clients room) {i j : Nat} {s t : Sending C} (hi : room.sent[i]? = some s)
    (hj : room.sent[j]? = some t) (hclient : t.client = s.client)
    (hseq : t.record.seq < s.record.seq) : j < i := by
  obtain ⟨hi', rfl⟩ := List.getElem?_eq_some_iff.1 hi
  obtain ⟨hj', rfl⟩ := List.getElem?_eq_some_iff.1 hj
  rcases Nat.lt_trichotomy j i with hlt | rfl | hlt
  · exact hlt
  · exact absurd hseq (Nat.lt_irrefl _)
  · have hnumbered := List.pairwise_iff_getElem.1 h.numbered i j hi' hj' hlt
    exact absurd (hnumbered.2 hclient.symm) hseq.not_gt

/-- Dependencies go back in the order of writing. -/
theorem Archive.lt_of_dependsOn {clients : ChatClients C} {room : ChatRoom C}
    (h : Archive clients room) {i j : Nat} {s t : Sending C} (hi : room.sent[i]? = some s)
    (hj : room.sent[j]? = some t) (hdepends : chatDependsOn s.record t.record) : j < i := by
  have hs := List.mem_of_getElem? hi
  have ht := List.mem_of_getElem? hj
  obtain ⟨-, key, hkey, hcases⟩ := hdepends
  rw [Option.mem_def, (h.signed t ht).1, Option.some.injEq] at hkey
  subst hkey
  rcases hcases with ⟨hsame, -, hseq⟩ | ⟨latest, hlookup, hle⟩
  · rw [(h.signed s hs).1, Option.some.injEq] at hsame
    exact h.lt_of_seq_lt hi hj (clients.actorKey_injective hsame).symm hseq
  · -- the entry is the number of a record that the author held, by the same author as `t`
    rw [Option.mem_def, h.marked s hs] at hlookup
    obtain ⟨m, hm, hmkey, hmseq⟩ := exists_of_mem_historyFrontier hlookup
    obtain ⟨k, v, hk, hv, rfl⟩ := h.earlier i s hi m hm
    rw [(h.signed v (List.mem_of_getElem? hv)).1, Option.some.injEq] at hmkey
    have hclient := clients.actorKey_injective hmkey
    rcases Nat.lt_or_ge k j with hlt | hge
    · obtain ⟨hk', rfl⟩ := List.getElem?_eq_some_iff.1 hv
      obtain ⟨hj', rfl⟩ := List.getElem?_eq_some_iff.1 hj
      have hnumbered := (List.pairwise_iff_getElem.1 h.numbered k j hk' hj' hlt).2 hclient
      omega
    · omega

/-- The place of a record among everything written is a rank for the dependencies. -/
theorem Archive.idxOf_lt {clients : ChatClients C} {room : ChatRoom C}
    (h : Archive clients room) : ∀ r ∈ room.records, ∀ d ∈ room.records,
      chatDependsOn r d → room.records.idxOf d < room.records.idxOf r := by
  have hplace : ∀ r ∈ room.records, ∃ s, room.sent[room.records.idxOf r]? = some s ∧
      s.record = r := by
    intro r hr
    have hget : room.records[room.records.idxOf r]? = some r := List.getElem?_idxOf hr
    unfold records at hget ⊢
    rw [List.getElem?_map, Option.map_eq_some_iff] at hget
    exact hget
  intro r hr d hd hdepends
  obtain ⟨s, hs, rfl⟩ := hplace r hr
  obtain ⟨t, ht, rfl⟩ := hplace d hd
  exact h.lt_of_dependsOn hs ht hdepends

/-- A record depends on everything its author held. -/
theorem Archive.dependsOn_of_held {clients : ChatClients C} {room : ChatRoom C}
    (h : Archive clients room) {s : Sending C} (hs : s ∈ room.sent) {m : ChatRecord}
    (hm : m ∈ s.held) : chatDependsOn s.record m := by
  obtain ⟨i, hi⟩ := List.mem_iff_getElem?.1 hs
  obtain ⟨j, t, hlt, hj, rfl⟩ := h.earlier i s hi m hm
  have hkey := (h.signed t (List.mem_of_getElem? hj)).1
  obtain ⟨latest, hlookup, hle⟩ := le_historyFrontier hm hkey
  rw [← h.marked s hs] at hlookup
  refine ⟨?_, _, hkey, .inr ⟨latest, hlookup, hle⟩⟩
  obtain ⟨hi', rfl⟩ := List.getElem?_eq_some_iff.1 hi
  obtain ⟨hj', rfl⟩ := List.getElem?_eq_some_iff.1 hj
  exact (List.pairwise_iff_getElem.1 h.numbered j i hj' hi' hlt).1.symm

/-! ## What a step preserves -/

/-- What holds of a room at all times. -/
structure Invariant (clients : ChatClients C) (room : ChatRoom C) : Prop where
  /-- The records are in order. -/
  archive : Archive clients room
  /-- Every history is sorted. -/
  histories : ∀ c, (room.chat c).OrderedFrom room.records

section Sent

variable [DecidableEq C] {clients : ChatClients C} {room : ChatRoom C} (c : C)
  {id author text : String} {sentAt : Int}

/-- A new message has the next number of its author, and the others stay within theirs. -/
theorem Archive.signed_sendChat (h : Archive clients room) :
    ∀ s ∈ (room.sendChat clients c id author text sentAt).sent,
      chatRecordActorKey s.record =
          some (chatActorKey (clients.peerId s.client) (some (clients.joinedAt s.client))) ∧
        s.record.seq ≤ (room.sendChat clients c id author text sentAt).messageSeq s.client := by
  intro s hs
  rcases List.mem_append.1 hs with hs | hs
  · obtain ⟨hkey, hseq⟩ := h.signed s hs
    refine ⟨hkey, hseq.trans ?_⟩
    change _ ≤ Function.update room.messageSeq c _ s.client
    by_cases hclient : s.client = c
    · rw [hclient, Function.update_self]
      exact Nat.le_succ _
    · rw [Function.update_of_ne hclient]
  · rw [List.mem_singleton.1 hs]
    constructor
    · change chatRecordActorKey (room.nextRecord clients c id author text sentAt) = _
      simp [chatRecordActorKey, nextRecord, clients.peerId_ne_empty]
    · change room.messageSeq c + 1 ≤ Function.update room.messageSeq c _ c
      rw [Function.update_self]

/-- A new message is the last one, so what any author held was written before. -/
theorem Invariant.earlier_sendChat (h : Invariant clients room) (i : Nat) (s : Sending C)
    (hi : (room.sendChat clients c id author text sentAt).sent[i]? = some s) :
    ∀ m ∈ s.held, ∃ (j : Nat) (t : Sending C), j < i ∧
      (room.sendChat clients c id author text sentAt).sent[j]? = some t ∧ t.record = m := by
  intro m hm
  change (room.sent ++ [_])[i]? = some s at hi
  change ∃ j t, j < i ∧ (room.sent ++ [_])[j]? = some t ∧ t.record = m
  have hold : ∀ {j t last}, room.sent[j]? = some t → (room.sent ++ [last])[j]? = some t :=
    fun hj => (List.getElem?_append_left (List.getElem?_eq_some_iff.1 hj).1).trans hj
  rcases Nat.lt_or_ge i room.sent.length with hlt | hge
  · rw [List.getElem?_append_left hlt] at hi
    obtain ⟨j, t, hji, hj, ht⟩ := h.archive.earlier i s hi m hm
    exact ⟨j, t, hji, hold hj, ht⟩
  · -- the last message: its author held what is in its history
    have hs : s = ⟨c, (room.chat c).history, room.nextRecord clients c id author text sentAt⟩ := by
      rw [List.getElem?_append_right hge] at hi
      exact List.mem_singleton.1 (List.mem_of_getElem? hi)
    subst hs
    obtain ⟨t, ht, htm⟩ := List.mem_map.1 ((h.histories c).subset hm)
    obtain ⟨j, hj⟩ := List.mem_iff_getElem?.1 ht
    have hjlt := (List.getElem?_eq_some_iff.1 hj).1
    exact ⟨j, t, hjlt.trans_le hge, hold hj, htm⟩

/-- The archive after a message that comes from the author's own history and count. -/
theorem Invariant.archive_sendChat (h : Invariant clients room)
    (hfresh : ∀ r ∈ room.records, r.id ≠ id) :
    Archive clients (room.sendChat clients c id author text sentAt) where
  signed := h.archive.signed_sendChat c
  marked s hs := by
    rcases List.mem_append.1 hs with hs | hs
    · exact h.archive.marked s hs
    · rw [List.mem_singleton.1 hs]
      rfl
  numbered := by
    refine List.pairwise_append.2 ⟨h.archive.numbered, List.pairwise_singleton _ _, ?_⟩
    intro s hs t ht
    rw [List.mem_singleton.1 ht]
    refine ⟨hfresh _ (List.mem_map_of_mem hs), ?_⟩
    rintro rfl
    exact Nat.lt_succ_of_le (h.archive.signed s hs).2
  earlier := h.earlier_sendChat c

end Sent

section Steps

variable [DecidableEq C] {clients : ChatClients C} {room room' : ChatRoom C}

/-- Every step keeps the invariant. -/
theorem Step.invariant (hstep : Step clients room room') (h : Invariant clients room) :
    Invariant clients room' := by
  cases hstep with
  | sendChat c id author text sentAt hfresh =>
    have harchive : Archive clients (room.sendChat clients c id author text sentAt) :=
      h.archive_sendChat c hfresh
    refine ⟨harchive, fun c' => ?_⟩
    have hmore : room.records ⊆ (room.sendChat clients c id author text sentAt).records := by
      rw [records_sendChat]
      exact List.subset_append_left _ _
    have hnew : room.nextRecord clients c id author text sentAt ∈
        (room.sendChat clients c id author text sentAt).records := by
      rw [records_sendChat]
      exact List.mem_append_right _ (List.mem_singleton_self _)
    change (Function.update room.chat c _ c').OrderedFrom _
    by_cases hc : c' = c
    · rw [hc, Function.update_self]
      exact ((h.histories c).mono hmore).insertRecord harchive.idxOf_lt hnew
    · rw [Function.update_of_ne hc]
      exact (h.histories c').mono hmore
  | deliver c messages hsent =>
    refine ⟨⟨h.archive.signed, h.archive.marked, h.archive.numbered, h.archive.earlier⟩,
      fun c' => ?_⟩
    change (Function.update room.chat c _ c').OrderedFrom room.records
    by_cases hc : c' = c
    · rw [hc, Function.update_self]
      exact (h.histories c).insertRecords h.archive.idxOf_lt hsent
    · rw [Function.update_of_ne hc]
      exact h.histories c'

/-- The invariant holds of every room that can come about. -/
theorem Reachable.invariant (h : Reachable clients room) : Invariant clients room := by
  induction h with
  | refl =>
    refine ⟨⟨nofun, nofun, .nil, nofun⟩, fun c => ⟨List.nil_subset _, .nil⟩⟩
  | tail _ hstep ih => exact hstep.invariant ih

end Steps

end ChatRoom

/-! ## A room of two -/

/-- Alice and Bob, who join at the same moment. -/
def aliceAndBob : ChatClients Bool where
  peerId c := if c then "alice" else "bob"
  joinedAt _ := 1
  peerId_ne_empty := by decide
  actorKey_injective := by
    intro c c' h
    revert c c'
    decide

/-- Alice asks, Bob hears of it and answers by a clock that is behind hers; Alice hears of the
answer. -/
def questionAndAnswer : ChatRoom Bool :=
  let asked := ChatRoom.new.sendChat aliceAndBob true "q" "Alice" "question" 1700000000200000
  let heard := asked.deliver false asked.records
  let answered := heard.sendChat aliceAndBob false "a" "Bob" "answer" 1700000000100000
  answered.deliver true answered.records

theorem questionAndAnswer_reachable : questionAndAnswer.Reachable aliceAndBob := by
  refine .tail (.tail (.tail (.single (.sendChat _ _ _ _ _ _ nofun))
    (.deliver _ _ _ (List.Subset.refl _))) (.sendChat _ _ _ _ _ _ ?_))
    (.deliver _ _ _ (List.Subset.refl _))
  decide

/-! ## Main result -/

/-- In every room that can come about, every history shows what an author held when it wrote
before what it wrote, and no record depends on itself through others. -/
theorem chat_in_causal_order {C : Type u} [DecidableEq C] {clients : ChatClients C}
    {room : ChatRoom C} (h : room.Reachable clients) :
    (∀ s ∈ room.sent, ∀ m ∈ s.held, ∀ (c : C) (i j : Nat),
      (room.chat c).history[i]? = some m → (room.chat c).history[j]? = some s.record → i < j) ∧
    ∀ r, ¬ Relation.TransGen
      (fun r d => r ∈ room.records ∧ d ∈ room.records ∧ chatDependsOn r d) r r := by
  have hroom := h.invariant
  refine ⟨fun s hs m hm c i j hi hj => ?_, fun r hcycle => ?_⟩
  · have hdepends := hroom.archive.dependsOn_of_held hs hm
    obtain ⟨hi', hm'⟩ := List.getElem?_eq_some_iff.1 hi
    obtain ⟨hj', hs'⟩ := List.getElem?_eq_some_iff.1 hj
    rcases Nat.lt_trichotomy i j with hlt | rfl | hlt
    · exact hlt
    · rw [← hm', ← hs'] at hdepends
      exact absurd rfl hdepends.1
    · have hordered := List.pairwise_iff_getElem.1 (hroom.histories c).ordered j i hj' hi' hlt
      rw [hs', hm'] at hordered
      exact absurd hdepends hordered
  · -- along every dependency the place in the order of writing goes down
    have hdown : Relation.TransGen (· > ·) (room.records.idxOf r) (room.records.idxOf r) :=
      hcycle.lift room.records.idxOf fun a b hab =>
        hroom.archive.idxOf_lt a hab.1 b hab.2.1 hab.2.2
    rw [Relation.transGen_eq_self] at hdown
    exact Nat.lt_irrefl _ hdown

/-- The main result where the clocks disagree with the order of writing. -/
theorem chat_in_causal_order_questionAndAnswer :
    (∀ s ∈ questionAndAnswer.sent, ∀ m ∈ s.held, ∀ (c : Bool) (i j : Nat),
      (questionAndAnswer.chat c).history[i]? = some m →
        (questionAndAnswer.chat c).history[j]? = some s.record → i < j) ∧
    ∀ r, ¬ Relation.TransGen
      (fun r d => r ∈ questionAndAnswer.records ∧ d ∈ questionAndAnswer.records ∧
        chatDependsOn r d) r r :=
  chat_in_causal_order questionAndAnswer_reachable

/-- Both show the question before the answer. -/
example : ∀ c, (questionAndAnswer.chat c).history.map ChatRecord.id = ["q", "a"] := by decide

end LightEar
