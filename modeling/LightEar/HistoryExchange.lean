import LightEar.ChatConvergence
import LightEar.ChatMessages

/-!
# The exchange of histories

Two peers exchange summaries, and one asks the other for its history if it judges the summary to
be newer than what it has.  A summary is a number and a time, so it cannot tell two histories apart
that differ in the middle.  What silence on both sides does say is that there are equally many
records on both sides; as a history holds no message twice, one side then lacks a message only if
the other lacks one too (`silent_exchange`).

The peer that is asked compares the numbers only.  A request that was made because of the time is
answered exactly if the number would have been a reason as well (`request_answered_iff`).
-/

namespace LightEar

open ChatHistory

namespace ChatHistory

/-! ## The messages of a history -/

/-- The messages in a history. -/
def ids (c : ChatHistory) : Finset String := (c.history.map ChatRecord.id).toFinset

/-- A history is indexed after any deliveries. -/
theorem indexed_insertRecords (log : List ChatRecord) : (empty.insertRecords log).Indexed := by
  induction log using List.reverseRecOn with
  | nil => exact .empty
  | append_singleton log record ih =>
    rw [insertRecords_concat]
    exact ih.insertRecord record

theorem Indexed.card_ids {c : ChatHistory} (h : c.Indexed) : c.ids.card = c.history.length := by
  unfold ids
  rw [List.toFinset_card_of_nodup h.nodup, List.length_map]

/-- Of two histories of one length, neither is a part of the other unless they hold the same
messages. -/
theorem Indexed.ids_eq_or {a b : ChatHistory} (ha : a.Indexed) (hb : b.Indexed)
    (hlength : a.history.length = b.history.length) :
    a.ids = b.ids ∨ (∃ id ∈ a.ids, id ∉ b.ids) ∧ ∃ id ∈ b.ids, id ∉ a.ids := by
  have hcard : a.ids.card = b.ids.card := by rw [ha.card_ids, hb.card_ids, hlength]
  by_cases hsame : a.ids = b.ids
  · exact .inl hsame
  · right
    have hnot : ¬ a.ids ⊆ b.ids := fun hsubset =>
      hsame (Finset.eq_of_subset_of_card_le hsubset hcard.ge)
    have hnot' : ¬ b.ids ⊆ a.ids := fun hsubset =>
      hsame (Finset.eq_of_subset_of_card_le hsubset hcard.le).symm
    exact ⟨Finset.not_subset.1 hnot, Finset.not_subset.1 hnot'⟩

/-! ## Judging a summary -/

/-- A history judges the summary of another to be newer. -/
def JudgesNewer (b a : ChatHistory) : Prop :=
  historySummaryIsNewer b.history a.history.length a.announcedAt = true

/-- The last record of a history is newer than everything in another, as the other sees it. -/
def LastIsNewer (a b : ChatHistory) : Prop :=
  ∃ last ∈ a.history.getLast?, ∀ record ∈ b.history,
    normalizeTimestampMicros record.sentAt <
      normalizeTimestampMicros (normalizeTimestampMicros last.sentAt)

end ChatHistory

/-- The latest time is before another if all times are. -/
theorem historyNewestAt_lt_iff {history : List ChatRecord} {newest t : Int}
    (h : historyNewestAt history = some newest) :
    newest < t ↔ ∀ record ∈ history, normalizeTimestampMicros record.sentAt < t := by
  obtain ⟨hmem, hmax⟩ := List.max?_eq_some_iff.1 h
  constructor
  · intro hlt record hrecord
    exact (hmax _ (List.mem_map_of_mem hrecord)).trans_lt hlt
  · intro hall
    obtain ⟨record, hrecord, rfl⟩ := List.mem_map.1 hmem
    exact hall record hrecord

namespace ChatHistory

/-- A summary is judged newer by its number or by its time. -/
theorem judgesNewer_iff {a b : ChatHistory} :
    b.JudgesNewer a ↔ b.history.length < a.history.length ∨ a.LastIsNewer b := by
  unfold JudgesNewer historySummaryIsNewer announcedAt LastIsNewer
  by_cases hcount : a.history.length > b.history.length
  · rw [if_pos hcount]
    exact iff_of_true rfl (.inl hcount)
  · rw [if_neg hcount, or_iff_right hcount]
    cases hlast : a.history.getLast? with
    | none => simp
    | some last =>
      simp only [Option.map_some, Option.mem_some_iff, exists_eq_left']
      cases hnewest : historyNewestAt b.history with
      | none =>
        -- an empty history is shorter than one with a last record
        have hempty : b.history = [] := by
          unfold historyNewestAt at hnewest
          rwa [List.max?_eq_none_iff, List.map_eq_nil_iff] at hnewest
        have hnonempty : 0 < a.history.length :=
          List.length_pos_of_mem (List.mem_of_getLast? hlast)
        rw [hempty] at hcount
        exact absurd hnonempty hcount
      | some newest => rw [← historyNewestAt_lt_iff hnewest, decide_eq_true_eq, gt_iff_lt]

end ChatHistory

/-! ## Silence -/

/-- If neither side judges the summary of the other to be newer, they hold equally many records,
the last record of neither is newer than everything the other holds, and they hold the same
messages unless each lacks one that the other has. -/
theorem silent_exchange (log log' : List ChatRecord)
    (h : ¬ (empty.insertRecords log').JudgesNewer (empty.insertRecords log))
    (h' : ¬ (empty.insertRecords log).JudgesNewer (empty.insertRecords log')) :
    (empty.insertRecords log).history.length = (empty.insertRecords log').history.length ∧
    (¬ (empty.insertRecords log).LastIsNewer (empty.insertRecords log') ∧
      ¬ (empty.insertRecords log').LastIsNewer (empty.insertRecords log)) ∧
    ((empty.insertRecords log).ids = (empty.insertRecords log').ids ∨
      (∃ id ∈ (empty.insertRecords log).ids, id ∉ (empty.insertRecords log').ids) ∧
        ∃ id ∈ (empty.insertRecords log').ids, id ∉ (empty.insertRecords log).ids) := by
  rw [judgesNewer_iff, not_or, not_lt] at h h'
  have hlength := h.1.antisymm h'.1
  exact ⟨hlength, ⟨h.2, h'.2⟩,
    (indexed_insertRecords log).ids_eq_or (indexed_insertRecords log') hlength⟩

/-- Said between the greeting and the answer, by somebody who had seen neither. -/
def aside : ChatRecord where
  id := "m-3"
  peerId := "cyril"
  joinedAt := some 3
  seq := 1
  causalFrontier := ∅
  author := "Cyril"
  text := "anybody here?"
  sentAt := 1700000002

/-- One peer has the greeting and the answer and the other the aside and the answer; neither asks
for anything, and both lack a message. -/
theorem not_complete_when_silent : ¬ ∀ log log' : List ChatRecord,
    ¬ (empty.insertRecords log').JudgesNewer (empty.insertRecords log) →
    ¬ (empty.insertRecords log).JudgesNewer (empty.insertRecords log') →
    (empty.insertRecords log).ids = (empty.insertRecords log').ids := by
  intro h
  have hsame := h [greeting, answer] [aside, answer] (by unfold JudgesNewer; decide)
    (by unfold JudgesNewer; decide)
  revert hsame
  decide

/-- These two hold two messages each. -/
theorem silent_exchange_aside :
    (empty.insertRecords [greeting, answer]).history.length =
      (empty.insertRecords [aside, answer]).history.length :=
  (silent_exchange [greeting, answer] [aside, answer] (by unfold JudgesNewer; decide)
    (by unfold JudgesNewer; decide)).1

/-! ## Requests -/

namespace ChatPeer

variable {env : ChatEnv} {p : ChatPeer}

theorem handOn_injective {message message' : ChatMessage} :
    p.handedOn ++ [message] = p.handedOn ++ [message'] ↔ message = message' := by
  rw [List.append_cancel_left_eq, List.cons.injEq, and_iff_left rfl]

/-- A summary makes a peer hand on a request, with the number of its records, if it comes from
another, is judged newer, and the other has not just been asked. -/
theorem handleHistorySummary_asks_iff {peerId : String} {count : Nat} {newestAt : Option Int}
    {request : ChatMessage} :
    (p.handleHistorySummary env peerId count newestAt).handedOn = p.handedOn ++ [request] ↔
      (peerId ≠ p.localPeerId ∧ historySummaryIsNewer p.chat.history count newestAt = true ∧
        shouldRequestHistory p.historyRequestTimes peerId env.now = true) ∧
      request = .historyRequest p.localPeerId peerId p.chat.history.length := by
  rcases p.handleHistorySummary_cases env peerId count newestAt with
    ⟨hasks, times, hrequest⟩ | ⟨hsilent, hnothing⟩
  · rw [hrequest, and_iff_right hasks, eq_comm, ← handOn_injective (p := p)]
    rfl
  · rw [hnothing]
    refine iff_of_false (fun h => ?_) fun h => hsilent h.1
    exact List.cons_ne_nil _ _ (List.self_eq_append_right.1 h)

/-- A request is answered if it is for this peer, comes from another, and names a smaller
number. -/
theorem handleHistoryRequest_answers_iff {requester target : String} {knownCount : Nat} :
    p.handleHistoryRequest requester target knownCount =
        p.handOn (.historyResponse (some requester) p.chat.history) ↔
      target = p.localPeerId ∧ requester ≠ p.localPeerId ∧
        knownCount < p.chat.history.length := by
  unfold handleHistoryRequest
  split
  · rename_i hanswers
    exact iff_of_true rfl hanswers
  · rename_i hanswers
    refine iff_of_false (fun h => ?_) hanswers
    exact List.cons_ne_nil _ _ (List.self_eq_append_right.1 (congrArg handedOn h))

end ChatPeer

/-- Whoever holds the second history and is told of the first by a peer that holds it gets an
answer to the request it makes, if it makes one. -/
def RequestsAnswered (a b : ChatHistory) : Prop :=
  ∀ (env : ChatEnv) (p q : ChatPeer), p.chat = a → q.chat = b → p.localPeerId ≠ q.localPeerId →
    ∀ request, (q.handleHistorySummary env p.localPeerId a.history.length a.announcedAt).handedOn =
        q.handedOn ++ [request] →
      ∃ requester target knownCount, request = .historyRequest requester target knownCount ∧
        p.handleHistoryRequest requester target knownCount =
          p.handOn (.historyResponse (some q.localPeerId) a.history)

/-- A peer with a given history. -/
def peerWith (localPeerId : PeerId) (chat : ChatHistory) : ChatPeer :=
  { ChatPeer.new (.new localPeerId ∅ false 0) with chat := chat }

/-- If requests are answered, every summary that is judged newer tells of more records. -/
theorem RequestsAnswered.lt {a b : ChatHistory} (h : RequestsAnswered a b)
    (hnewer : b.JudgesNewer a) : b.history.length < a.history.length := by
  let p := peerWith "ann" a
  let q := peerWith "bob" b
  have hne : p.localPeerId ≠ q.localPeerId := by
    change "ann" ≠ "bob"
    decide
  obtain ⟨requester, target, knownCount, hrequest, hanswer⟩ :=
    h .plain p q rfl rfl hne _ (ChatPeer.handleHistorySummary_asks_iff.2 ⟨⟨hne, hnewer, rfl⟩, rfl⟩)
  cases hrequest
  exact (ChatPeer.handleHistoryRequest_answers_iff.1 hanswer).2.2

/-- Requests for one history by the holders of another are answered exactly if the first is longer,
or is not judged newer by its time either. -/
theorem request_answered_iff (a b : ChatHistory) : RequestsAnswered a b ↔
    b.history.length < a.history.length ∨ ¬ a.LastIsNewer b := by
  constructor
  · intro h
    by_cases hnewer : a.LastIsNewer b
    · exact .inl (h.lt (judgesNewer_iff.2 (.inr hnewer)))
    · exact .inr hnewer
  · rintro h env p q rfl rfl hne request hasks
    obtain ⟨⟨-, hnewer, -⟩, rfl⟩ := ChatPeer.handleHistorySummary_asks_iff.1 hasks
    have hlonger : q.chat.history.length < p.chat.history.length :=
      h.elim id fun hnot => (judgesNewer_iff.1 hnewer).resolve_right hnot
    exact ⟨_, _, _, rfl,
      ChatPeer.handleHistoryRequest_answers_iff.2 ⟨rfl, hne.symm, hlonger⟩⟩

/-- One peer has the answer only and the other the greeting only: the other asks and is not
answered. -/
theorem not_request_answered_answer :
    ¬ RequestsAnswered (empty.insertRecords [answer]) (empty.insertRecords [greeting]) := by
  intro h
  have hnewer : (empty.insertRecords [greeting]).JudgesNewer (empty.insertRecords [answer]) := by
    unfold JudgesNewer
    decide
  have hlonger := h.lt hnewer
  revert hlonger
  decide

end LightEar
