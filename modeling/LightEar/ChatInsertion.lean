import LightEar.ChatConvergence
import LightEar.HistoryExchange

/-!
# Sorting a record in

The causal order of a history is a canonical one (`sortHistoryCausally_canonical`): every history
has one, it holds the same records, without a cycle every record stands behind those it depends on,
and with distinct identifiers it does not depend on the order in which the records are given.

`insertRecord` answers that a record is new as soon as its message was not seen, also when the
history is full and the record is itself the first in causal order, so that it is dropped at once.
Where no record is dropped in the call that brings it, every answer says whether the record has
come in (`insertRecord_truthful_iff`).
-/

namespace LightEar

open Foundation ChatHistory

/-! ## The causal order -/

/-- Some record depends on itself, directly or through other records of the history. -/
def HasCycle (history : List ChatRecord) : Prop :=
  ∃ record, Relation.TransGen (DependsWithin chatDependsOn history) record record

/-- Without a cycle every record stands behind the records it depends on. -/
theorem lt_of_chatDependsOn_sorted {history : List ChatRecord} (hacyclic : ¬ HasCycle history)
    {i j : Nat} {record dependency : ChatRecord}
    (hrecord : (sortHistoryCausally history)[i]? = some record)
    (hdependency : (sortHistoryCausally history)[j]? = some dependency)
    (hdepends : chatDependsOn record dependency) : j < i := by
  obtain ⟨rank, hrank⟩ := exists_rank fun record hcycle => hacyclic ⟨record, hcycle⟩
  have hordered : CausallyOrdered (sortHistoryCausally history) :=
    sortHistoryCausally_causallyOrdered hrank
  obtain ⟨hi, rfl⟩ := List.getElem?_eq_some_iff.1 hrecord
  obtain ⟨hj, rfl⟩ := List.getElem?_eq_some_iff.1 hdependency
  by_contra hle
  rcases (not_lt.1 hle).lt_or_eq with hlt | rfl
  · exact List.pairwise_iff_getElem.1 hordered i j hi hj hlt hdepends
  · exact hdepends.1 rfl

/-- The causal order of any history: the rounds suffice, it is a rearrangement of the history, it
puts dependencies first unless they run in a cycle, and where identifiers are distinct it is the
same for every arrangement of the records. -/
theorem sortHistoryCausally_canonical (history : List ChatRecord) :
    (∀ rounds, history.length ≤ rounds →
      layeredSort chatDependsOn chatFallbackOrder rounds history = sortHistoryCausally history) ∧
    (sortHistoryCausally history).Perm history ∧
    (¬ HasCycle history → ∀ (i j : Nat) (record dependency : ChatRecord),
      (sortHistoryCausally history)[i]? = some record →
      (sortHistoryCausally history)[j]? = some dependency →
      chatDependsOn record dependency → j < i) ∧
    ((history.map ChatRecord.id).Nodup → ∀ arranged, history.Perm arranged →
      sortHistoryCausally arranged = sortHistoryCausally history) := by
  refine ⟨fun rounds hrounds => ?_, sortHistoryCausally_perm history, ?_, ?_⟩
  · exact layeredSort_eq_of_length_le le_rfl hrounds
  · intro hacyclic i j record dependency hrecord hdependency hdepends
    exact lt_of_chatDependsOn_sorted hacyclic hrecord hdependency hdepends
  · intro hnodup arranged hperm
    have hids : IdsDistinct history := fun r hr s hs => List.inj_on_of_nodup_map hnodup hr hs
    exact (sortHistoryCausally_eq_of_perm hperm hids).symm

/-- A message that claims to know the next one. -/
def chicken : ChatRecord := { greeting with id := "m-3", causalFrontier := .singleton "bob@2" 1 }

/-- The greeting stands before its answer, and two messages that claim to know each other have one
order. -/
theorem sortHistoryCausally_canonical_answer :
    (∀ i j : Nat, (sortHistoryCausally [answer, greeting])[i]? = some answer →
      (sortHistoryCausally [answer, greeting])[j]? = some greeting → j < i) ∧
    HasCycle [answer, chicken] ∧
    sortHistoryCausally [chicken, answer] = sortHistoryCausally [answer, chicken] := by
  have hacyclic : ¬ HasCycle [answer, greeting] := by
    have honly : ∀ r d, DependsWithin chatDependsOn [answer, greeting] r d →
        r = answer ∧ d = greeting := by
      have hnot : ¬ chatDependsOn greeting answer ∧ ¬ chatDependsOn greeting greeting ∧
          ¬ chatDependsOn answer answer := by decide
      rintro r d ⟨hr, hd, hdepends⟩
      simp only [List.mem_cons, List.not_mem_nil, or_false] at hr hd
      rcases hr with rfl | rfl <;> rcases hd with rfl | rfl
      · exact absurd hdepends hnot.2.2
      · exact ⟨rfl, rfl⟩
      · exact absurd hdepends hnot.1
      · exact absurd hdepends hnot.2.1
    rintro ⟨record, hcycle⟩
    obtain ⟨d, hfirst, -⟩ := Relation.TransGen.head'_iff.1 hcycle
    obtain ⟨r, -, hlast⟩ := Relation.TransGen.tail'_iff.1 hcycle
    have hid := congrArg ChatRecord.id ((honly _ _ hfirst).1.symm.trans (honly _ _ hlast).2)
    exact absurd hid (by decide)
  have hforth : DependsWithin chatDependsOn [answer, chicken] answer chicken :=
    ⟨List.mem_cons_self, List.mem_cons_of_mem _ List.mem_cons_self, by decide⟩
  have hback : DependsWithin chatDependsOn [answer, chicken] chicken answer :=
    ⟨List.mem_cons_of_mem _ List.mem_cons_self, List.mem_cons_self, by decide⟩
  refine ⟨fun i j hi hj => ?_, ⟨answer, .tail (.single hforth) hback⟩, ?_⟩
  · exact (sortHistoryCausally_canonical [answer, greeting]).2.2.1 hacyclic i j answer greeting hi
      hj (by decide)
  · exact (sortHistoryCausally_canonical [answer, chicken]).2.2.2 (by decide) [chicken, answer]
      (.swap chicken answer [])

/-! ## Answers -/

namespace ChatHistory

variable {c : ChatHistory} {record : ChatRecord}

/-- The answer to a record says whether the record has come in. -/
def Truthful (c : ChatHistory) (record : ChatRecord) : Prop :=
  (c.insertRecord record).1 = true ↔
    record ∈ (c.insertRecord record).2.history ∧ record ∉ c.history

/-- A new record finds the history full, and comes first among those that may: the records that
depend on nothing there, or all of them if every record depends on another. -/
def PushedOut (c : ChatHistory) (record : ChatRecord) : Prop :=
  record.id ∉ c.seenMessages ∧ maxMessages ≤ c.history.length ∧
    IsNext chatDependsOn (c.history ++ [record]) record ∧
    ∀ other ∈ c.history, IsNext chatDependsOn (c.history ++ [record]) other →
      chatFallbackOrder record other

/-- The history never holds more than it may. -/
theorem length_insertRecord_le (h : c.history.length ≤ maxMessages) (record : ChatRecord) :
    (c.insertRecord record).2.history.length ≤ maxMessages := by
  have hlength := (sortHistoryCausally_perm (c.history ++ [record])).length_eq
  rw [List.length_append, List.length_singleton] at hlength
  rcases insertRecord_eq_cases h record with
    ⟨-, hnext⟩ | ⟨-, hroom, hnext⟩ | ⟨-, hfull, first, rest, hsorted, hnext⟩
  · rw [hnext]
    exact h
  · rw [hnext]
    exact hlength.trans_le hroom
  · rw [hsorted, List.length_cons, hfull] at hlength
    rw [hnext]
    exact (Nat.succ.inj hlength).le

/-- So it is after any records. -/
theorem length_insertRecords_le (log : List ChatRecord) :
    (empty.insertRecords log).history.length ≤ maxMessages := by
  induction log using List.reverseRecOn with
  | nil => exact Nat.zero_le _
  | append_singleton log record ih =>
    rw [insertRecords_concat]
    exact length_insertRecord_le ih record

/-- A message that was not seen is new. -/
theorem insertRecord_fst (hnew : record.id ∉ c.seenMessages) :
    (c.insertRecord record).1 = true := by
  unfold ChatHistory.insertRecord
  dsimp only
  rw [if_neg hnew]
  split <;> rfl

/-- When a new record comes first in causal order. -/
theorem Indexed.head?_sorted_iff (h : c.Indexed) (hnew : record.id ∉ c.seenMessages) :
    (sortHistoryCausally (c.history ++ [record])).head? = some record ↔
      IsNext chatDependsOn (c.history ++ [record]) record ∧
        ∀ other ∈ c.history, IsNext chatDependsOn (c.history ++ [record]) other →
          chatFallbackOrder record other := by
  have hnodup : ((c.history ++ [record]).map ChatRecord.id).Nodup := by
    rw [List.map_append, List.map_singleton, ← List.concat_eq_append]
    exact h.nodup.concat fun hid => hnew ((h.seen _).2 hid)
  have hids : IdsDistinct (c.history ++ [record]) :=
    fun r hr s hs => List.inj_on_of_nodup_map hnodup hr hs
  have hmem : record ∈ c.history ++ [record] :=
    List.mem_append_right _ (List.mem_singleton_self record)
  have hanti : ∀ r ∈ c.history ++ [record], ∀ s ∈ c.history ++ [record],
      chatFallbackOrder r s → chatFallbackOrder s r → r = s := by
    intro r hr s hs hle hge
    rw [chatFallbackOrder_iff] at hle hge
    exact hids.eq_of_chatKey hr hs (le_antisymm hle hge)
  refine (head?_layeredSort_eq_some_iff le_rfl hmem hanti).trans (and_congr_right fun _ => ?_)
  constructor
  · exact fun hleast other hother => hleast other (List.mem_append_left _ hother)
  · intro hleast other hother hnext
    rcases List.mem_append.1 hother with hother | hother
    · exact hleast other hother hnext
    · rw [List.mem_singleton.1 hother, chatFallbackOrder_iff]

/-- The answer is right exactly if the record is not pushed out. -/
theorem Indexed.truthful_iff (h : c.Indexed) (hlength : c.history.length ≤ maxMessages) :
    c.Truthful record ↔ ¬ c.PushedOut record := by
  have hold : record.id ∉ c.seenMessages → record ∉ c.history :=
    fun hnew hmem => hnew ((h.seen _).2 (List.mem_map_of_mem hmem))
  have hthere : record ∈ sortHistoryCausally (c.history ++ [record]) :=
    (sortHistoryCausally_perm _).mem_iff.2
      (List.mem_append_right _ (List.mem_singleton_self record))
  unfold Truthful PushedOut
  rcases insertRecord_eq_cases hlength record with
    ⟨hseen, hnext⟩ | ⟨hnew, hroom, hnext⟩ | ⟨hnew, hfull, first, rest, hsorted, hnext⟩
  · rw [hnext]
    refine iff_of_true (iff_of_false Bool.false_ne_true fun hboth => hboth.2 hboth.1) ?_
    exact fun hpushed => hpushed.1 hseen
  · rw [hnext]
    refine iff_of_true (iff_of_true rfl ⟨hthere, hold hnew⟩) ?_
    exact fun hpushed => hpushed.2.1.not_gt hroom
  · have hnodup : (c.history ++ [record]).Nodup := by
      rw [← List.concat_eq_append]
      exact (h.nodup.of_map _).concat (hold hnew)
    rw [← (sortHistoryCausally_perm _).nodup_iff, hsorted] at hnodup
    rw [hsorted] at hthere
    rw [hnext, ← h.head?_sorted_iff hnew, hsorted, List.head?_cons, Option.some.injEq]
    constructor
    · rintro htruth ⟨-, -, rfl⟩
      exact (List.nodup_cons.1 hnodup).1 (htruth.1 rfl).1
    · intro hkept
      have hne : record ≠ first := fun heq => hkept ⟨hnew, hfull.ge, heq.symm⟩
      exact iff_of_true rfl ⟨(List.mem_cons.1 hthere).resolve_left hne, hold hnew⟩

/-- In a run of calls the history and the messages that count as seen agree, and every answer is
right. -/
structure TellsTruth (log : List ChatRecord) : Prop where
  /-- The messages that count as seen are those in the history. -/
  seen : ∀ messages, messages <+: log → ∀ id, id ∈ (empty.insertRecords messages).seenMessages ↔
    ∃ record ∈ (empty.insertRecords messages).history, record.id = id
  /-- No message is in the history twice. -/
  nodup : ∀ messages, messages <+: log →
    ((empty.insertRecords messages).history.map ChatRecord.id).Nodup
  /-- The history holds at most 300 records. -/
  length_le : ∀ messages, messages <+: log → (empty.insertRecords messages).history.length ≤ 300
  /-- Every answer says whether the record has come in. -/
  truthful : ∀ messages record, messages ++ [record] <+: log →
    (empty.insertRecords messages).Truthful record

end ChatHistory

/-- In every run of calls from an empty history, history and seen messages agree and every answer
is right, exactly if no record is pushed out by the call that brings it. -/
theorem insertRecord_tellsTruth_iff (log : List ChatRecord) :
    TellsTruth log ↔ ∀ messages record, messages ++ [record] <+: log →
      ¬ (empty.insertRecords messages).PushedOut record := by
  have hcall : ∀ messages record, (empty.insertRecords messages).Truthful record ↔
      ¬ (empty.insertRecords messages).PushedOut record := fun messages record =>
    (indexed_insertRecords messages).truthful_iff (length_insertRecords_le messages)
  constructor
  · exact fun h messages record hbegins => (hcall _ _).1 (h.truthful messages record hbegins)
  · intro h
    refine ⟨fun messages _ id => ?_, fun messages _ => (indexed_insertRecords messages).nodup,
      fun messages _ => length_insertRecords_le messages, fun messages record hbegins => ?_⟩
    · rw [(indexed_insertRecords messages).seen, List.mem_map]
    · exact (hcall _ _).2 (h messages record hbegins)

/-- With 300 messages in the history, the answer to an older one is that it is new, and it is not
there afterwards. -/
theorem lateReply_not_truthful : ¬ TellsTruth (oldMessages ++ [lateReply]) := by
  have hnew : lateReply.id ∉ (empty.insertRecords oldMessages).seenMessages := by
    rw [(indexed_insertRecords oldMessages).seen, List.mem_map]
    rintro ⟨r, hr, hid⟩
    have hold : r ∈ oldMessages :=
      (mem_or_mem_of_mem_insertRecords hr).resolve_left (List.not_mem_nil)
    obtain ⟨i, -, rfl⟩ := mem_oldMessages.1 hold
    have hlen : (oldMessage i).id.length = 2 := congrArg String.length hid
    simp [oldMessage] at hlen
  intro h
  have htruth := h.truthful oldMessages lateReply (List.prefix_refl _)
  unfold Truthful at htruth
  rw [← insertRecords_concat] at htruth
  exact lateReply_not_mem (htruth.1 (insertRecord_fst hnew)).1

end LightEar
