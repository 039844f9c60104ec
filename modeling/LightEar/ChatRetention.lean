import LightEar.Chat
import LightEar.Foundation.TopK
import Mathlib.Data.Prod.Lex
import Mathlib.Data.String.Basic

/-!
# What a client keeps of the chat

A client takes in records one by one, in whatever order and however often they come, and keeps at
most 300 of them: when there is one too many, the first in causal order goes.  It may come back and
is then weighed again.

A history is indexed by the messages it has seen (`Indexed`).  `Kept` says what it is worth after
any list of deliveries; `Kept.insertRecord_cases` says what one more record does to it.  If clocks
go up along dependencies, the record that goes is the one with the least time, so that the newest
records are kept (`newest_retained`).
-/

namespace LightEar

open Foundation

/-! ## The fallback order as a linear order -/

/-- Time and identifier of a record. -/
def chatKey (record : ChatRecord) : Int ×ₗ String :=
  toLex (normalizeTimestampMicros record.sentAt, record.id)

theorem chatFallbackOrder_iff {left right : ChatRecord} :
    chatFallbackOrder left right ↔ chatKey left ≤ chatKey right := by
  unfold chatFallbackOrder chatKey
  rw [Prod.Lex.toLex_le_toLex]

theorem chatKey_lt_iff {left right : ChatRecord} :
    chatKey left < chatKey right ↔
      normalizeTimestampMicros left.sentAt < normalizeTimestampMicros right.sentAt ∨
        normalizeTimestampMicros left.sentAt = normalizeTimestampMicros right.sentAt ∧
          left.id < right.id := by
  unfold chatKey
  rw [Prod.Lex.toLex_lt_toLex]

instance : Std.Total chatFallbackOrder where
  total left right := by
    simp only [chatFallbackOrder_iff]
    exact le_total (chatKey left) (chatKey right)

instance : IsTrans ChatRecord chatFallbackOrder where
  trans left middle right h h' := by
    rw [chatFallbackOrder_iff] at *
    exact h.trans h'

/-- No two of the records share an identifier. -/
def IdsDistinct (records : List ChatRecord) : Prop :=
  ∀ r ∈ records, ∀ s ∈ records, r.id = s.id → r = s

theorem IdsDistinct.mono {records more : List ChatRecord} (h : IdsDistinct more)
    (hsubset : records ⊆ more) : IdsDistinct records :=
  fun r hr s hs => h r (hsubset hr) s (hsubset hs)

/-- Records with distinct identifiers have distinct keys. -/
theorem IdsDistinct.eq_of_chatKey {records : List ChatRecord} (h : IdsDistinct records)
    {r s : ChatRecord} (hr : r ∈ records) (hs : s ∈ records) (hkey : chatKey r = chatKey s) :
    r = s :=
  h r hr s hs (congrArg (fun key => (ofLex key).2) hkey)

/-- The causal order does not depend on the order in which the records have come. -/
theorem sortHistoryCausally_eq_of_perm {history history' : List ChatRecord}
    (h : history.Perm history') (hids : IdsDistinct history) :
    sortHistoryCausally history = sortHistoryCausally history' := by
  unfold sortHistoryCausally
  rw [h.length_eq]
  refine layeredSort_eq_of_perm h fun r hr s hs hle hge => ?_
  rw [chatFallbackOrder_iff] at hle hge
  exact hids.eq_of_chatKey hr hs (le_antisymm hle hge)

/-! ## The oldest record -/

/-- Clocks go up along dependencies. -/
def ClocksGoUp (records : List ChatRecord) : Prop :=
  ∀ r ∈ records, ∀ d ∈ records, chatDependsOn r d →
    normalizeTimestampMicros d.sentAt < normalizeTimestampMicros r.sentAt

instance (records : List ChatRecord) : Decidable (ClocksGoUp records) :=
  inferInstanceAs (Decidable (∀ _ ∈ _, ∀ _ ∈ _, _ → _))

theorem ClocksGoUp.mono {records more : List ChatRecord} (h : ClocksGoUp more)
    (hsubset : records ⊆ more) : ClocksGoUp records :=
  fun r hr d hd => h r (hsubset hr) d (hsubset hd)

/-- Where a record depends on nothing, the first in causal order is the oldest such record. -/
theorem exists_sort_eq_cons {records : List ChatRecord} {r : ChatRecord} (hr : r ∈ records)
    (hfree : IsFree chatDependsOn records r) :
    ∃ first rest, sortHistoryCausally records = first :: rest ∧
      IsFree chatDependsOn records first ∧
      ∀ d ∈ records, IsFree chatDependsOn records d → chatKey first ≤ chatKey d := by
  obtain ⟨fuel, hfuel⟩ := Nat.exists_eq_succ_of_ne_zero (List.length_pos_of_mem hr).ne'
  unfold sortHistoryCausally
  rw [hfuel]
  obtain ⟨first, rest, hsorted, -, hfirst, hleast⟩ :
      ∃ first rest, layeredSort chatDependsOn chatFallbackOrder (fuel + 1) records = first :: rest ∧
        first ∈ records ∧ IsFree chatDependsOn records first ∧
        ∀ d ∈ records, IsFree chatDependsOn records d → chatFallbackOrder first d :=
    exists_layeredSort_eq_cons fuel hr hfree
  exact ⟨first, rest, hsorted, hfirst, fun d hd hd' => chatFallbackOrder_iff.1 (hleast d hd hd')⟩

/-- If clocks go up along dependencies, the first record in causal order is the oldest. -/
theorem first_le_of_clocksGoUp {records rest : List ChatRecord} {first : ChatRecord}
    (hclocks : ClocksGoUp records) (hsorted : sortHistoryCausally records = first :: rest) :
    ∀ r ∈ records, chatKey first ≤ chatKey r := by
  intro r hr
  obtain ⟨oldest, holdest, hleast⟩ := records.toFinset.exists_min_image chatKey
    ⟨r, List.mem_toFinset.2 hr⟩
  rw [List.mem_toFinset] at holdest
  -- nothing that is oldest depends on anything
  have hfree : IsFree chatDependsOn records oldest := by
    intro d hd hdepends
    have hlt : chatKey d < chatKey oldest :=
      chatKey_lt_iff.2 (.inl (hclocks oldest holdest d hd hdepends))
    exact (hleast d (List.mem_toFinset.2 hd)).not_gt hlt
  obtain ⟨first', rest', hsorted', -, hfirst⟩ := exists_sort_eq_cons holdest hfree
  rw [hsorted] at hsorted'
  obtain ⟨rfl, -⟩ := List.cons.inj hsorted'
  exact (hfirst oldest holdest hfree).trans (hleast r (List.mem_toFinset.2 hr))

/-! ## The index of a history -/

namespace ChatHistory

/-- A history holds no message twice, and the messages it takes for seen are those in it. -/
structure Indexed (c : ChatHistory) : Prop where
  /-- No message is there twice. -/
  nodup : (c.history.map ChatRecord.id).Nodup
  /-- Exactly the messages that are there count as seen. -/
  seen : ∀ id, id ∈ c.seenMessages ↔ id ∈ c.history.map ChatRecord.id

theorem Indexed.empty : ChatHistory.empty.Indexed :=
  ⟨List.nodup_nil, fun id => by simp [ChatHistory.empty]⟩

/-- Removing messages one by one leaves those that are not among them. -/
theorem mem_foldl_erase {removed : List ChatRecord} {seen : Finset String} {id : String} :
    id ∈ removed.foldl (fun seen removed => seen.erase removed.id) seen ↔
      id ∈ seen ∧ id ∉ removed.map ChatRecord.id := by
  induction removed generalizing seen with
  | nil => simp
  | cons first rest ih =>
    rw [List.foldl_cons, ih, Finset.mem_erase, List.map_cons, List.mem_cons, not_or]
    constructor
    · rintro ⟨⟨hne, hseen⟩, hrest⟩
      exact ⟨hseen, hne, hrest⟩
    · rintro ⟨hseen, hne, hrest⟩
      exact ⟨⟨hne, hseen⟩, hrest⟩

/-- Taking in a record keeps the index right. -/
theorem Indexed.insertRecord {c : ChatHistory} (h : c.Indexed) (record : ChatRecord) :
    (c.insertRecord record).2.Indexed := by
  unfold ChatHistory.insertRecord
  dsimp only
  by_cases hseen : record.id ∈ c.seenMessages
  · rw [if_pos hseen]
    exact h
  · rw [if_neg hseen]
    have hperm := (sortHistoryCausally_perm (c.history ++ [record])).map ChatRecord.id
    have hnodup : ((sortHistoryCausally (c.history ++ [record])).map ChatRecord.id).Nodup := by
      rw [hperm.nodup_iff, List.map_append]
      refine List.nodup_append.2 ⟨h.nodup, List.nodup_singleton _, fun id hid other hother => ?_⟩
      rintro rfl
      rw [List.map_singleton, List.mem_singleton] at hother
      exact hseen ((h.seen _).2 (hother ▸ hid))
    have hmember : ∀ id, id ∈ insert record.id c.seenMessages ↔
        id ∈ (sortHistoryCausally (c.history ++ [record])).map ChatRecord.id := fun id => by
      rw [hperm.mem_iff, List.map_append, List.mem_append, List.map_singleton, List.mem_singleton,
        Finset.mem_insert, h.seen, or_comm]
    generalize sortHistoryCausally (c.history ++ [record]) = sorted at hnodup hmember
    by_cases hlong : sorted.length > maxMessages
    · rw [if_pos hlong]
      -- what is dropped and what is kept have no message in common
      generalize sorted.length - maxMessages = overflow
      have hsplit : (sorted.take overflow).map ChatRecord.id ++
          (sorted.drop overflow).map ChatRecord.id = sorted.map ChatRecord.id := by
        rw [← List.map_append, List.take_append_drop]
      rw [← hsplit] at hnodup
      obtain ⟨-, hkept, hdisjoint⟩ := List.nodup_append.1 hnodup
      refine ⟨hkept, fun id => ?_⟩
      rw [mem_foldl_erase, hmember, ← hsplit, List.mem_append]
      constructor
      · rintro ⟨hid, hdropped⟩
        exact hid.resolve_left hdropped
      · intro hid
        exact ⟨.inr hid, fun hdropped => hdisjoint id hdropped id hid rfl⟩
    · rw [if_neg hlong]
      exact ⟨hnodup, hmember⟩

/-- A message that was seen is refused, a new record is sorted in, and if there is one too many then
the first in causal order goes. -/
theorem insertRecord_eq_cases {c : ChatHistory} (h : c.history.length ≤ maxMessages)
    (record : ChatRecord) :
    (record.id ∈ c.seenMessages ∧ c.insertRecord record = (false, c)) ∨
    (record.id ∉ c.seenMessages ∧ c.history.length < maxMessages ∧ c.insertRecord record =
      (true, ⟨sortHistoryCausally (c.history ++ [record]), insert record.id c.seenMessages⟩)) ∨
    (record.id ∉ c.seenMessages ∧ c.history.length = maxMessages ∧ ∃ first rest,
      sortHistoryCausally (c.history ++ [record]) = first :: rest ∧ c.insertRecord record =
        (true, ⟨rest, (insert record.id c.seenMessages).erase first.id⟩)) := by
  have hlength : (sortHistoryCausally (c.history ++ [record])).length = c.history.length + 1 := by
    rw [(sortHistoryCausally_perm _).length_eq, List.length_append, List.length_singleton]
  unfold ChatHistory.insertRecord
  dsimp only
  by_cases hseen : record.id ∈ c.seenMessages
  · rw [if_pos hseen]
    exact .inl ⟨hseen, rfl⟩
  · rw [if_neg hseen]
    right
    by_cases hroom : c.history.length < maxMessages
    · rw [if_neg (by omega)]
      exact .inl ⟨hseen, hroom, rfl⟩
    · have hfull : c.history.length = maxMessages := le_antisymm h (not_lt.1 hroom)
      refine .inr ⟨hseen, hfull, ?_⟩
      rw [if_pos (by omega)]
      cases hsorted : sortHistoryCausally (c.history ++ [record]) with
      | nil => simp [hsorted] at hlength
      | cons first rest =>
        rw [hsorted, hfull] at hlength
        refine ⟨first, rest, rfl, ?_⟩
        rw [hlength, Nat.add_sub_cancel_left]
        rfl

/-! ## What a history is worth -/

/-- A history after some deliveries: it holds delivered records, each once, and remembers which;
and it is full if one of them is missing. -/
structure Kept (c : ChatHistory) (log : List ChatRecord) : Prop where
  /-- What is kept has been delivered. -/
  subset : c.history ⊆ log
  /-- Nothing is kept twice. -/
  nodup : c.history.Nodup
  /-- The messages seen are those kept. -/
  seen : ∀ id, id ∈ c.seenMessages ↔ ∃ record ∈ c.history, record.id = id
  /-- No more is kept than may be. -/
  length_le : c.history.length ≤ maxMessages
  /-- Nothing is missing unless the history is full. -/
  full : ∀ record ∈ log, record ∉ c.history → c.history.length = maxMessages

theorem Kept.empty : ChatHistory.empty.Kept [] :=
  ⟨List.Subset.refl _, .nil, fun _ => by simp [ChatHistory.empty], Nat.zero_le _, nofun⟩

variable {c : ChatHistory} {log : List ChatRecord} {record : ChatRecord}

/-- A record counts as seen exactly if it is kept. -/
theorem Kept.id_mem_seenMessages_iff (h : c.Kept log) (hids : IdsDistinct (log ++ [record])) :
    record.id ∈ c.seenMessages ↔ record ∈ c.history := by
  rw [h.seen]
  refine ⟨fun ⟨kept, hkept, hid⟩ => ?_, fun hmem => ⟨record, hmem, rfl⟩⟩
  have hsame : kept = record := hids kept (List.mem_append_left _ (h.subset hkept)) record
    (List.mem_append_right _ (List.mem_singleton_self record)) hid
  exact hsame ▸ hkept

/-- What is kept together with the record delivered has been delivered. -/
theorem Kept.append_subset (h : c.Kept log) : c.history ++ [record] ⊆ log ++ [record] :=
  List.append_subset.2
    ⟨List.subset_append_of_subset_left _ h.subset, List.subset_append_right _ _⟩

/-- What is kept and a new record are different records. -/
theorem Kept.nodup_append (h : c.Kept log) (hmem : record ∉ c.history) :
    (c.history ++ [record]).Nodup := by
  rw [← List.concat_eq_append]
  exact h.nodup.concat hmem

/-- A new record is sorted in once. -/
theorem Kept.sorted_nodup (h : c.Kept log) (hmem : record ∉ c.history) :
    (sortHistoryCausally (c.history ++ [record])).Nodup :=
  (sortHistoryCausally_perm _).nodup_iff.2 (h.nodup_append hmem)

/-- A record that is kept is refused, a new one is sorted in, and if there is one too many then
the first in causal order goes. -/
theorem Kept.insertRecord_cases (h : c.Kept log) (hids : IdsDistinct (log ++ [record])) :
    (record ∈ c.history ∧ (c.insertRecord record).2 = c) ∨
    (record ∉ c.history ∧ c.history.length < maxMessages ∧ (c.insertRecord record).2 =
      ⟨sortHistoryCausally (c.history ++ [record]), insert record.id c.seenMessages⟩) ∨
    (record ∉ c.history ∧ c.history.length = maxMessages ∧ ∃ first rest,
      sortHistoryCausally (c.history ++ [record]) = first :: rest ∧
      (c.insertRecord record).2 = ⟨rest, (insert record.id c.seenMessages).erase first.id⟩) := by
  rw [← h.id_mem_seenMessages_iff hids]
  rcases insertRecord_eq_cases h.length_le record with
    ⟨hseen, hnext⟩ | ⟨hseen, hroom, hnext⟩ | ⟨hseen, hfull, first, rest, hsorted, hnext⟩
  · exact .inl ⟨hseen, by rw [hnext]⟩
  · exact .inr (.inl ⟨hseen, hroom, by rw [hnext]⟩)
  · exact .inr (.inr ⟨hseen, hfull, first, rest, hsorted, by rw [hnext]⟩)

/-- What is kept is indexed. -/
theorem Kept.indexed (h : c.Kept log) (hids : IdsDistinct log) : c.Indexed := by
  refine ⟨?_, fun id => by rw [h.seen, List.mem_map]⟩
  refine (List.nodup_map_iff_inj_on h.nodup).2 fun r hr s hs hid => ?_
  exact hids r (h.subset hr) s (h.subset hs) hid

/-- One more delivery. -/
theorem Kept.insertRecord (h : c.Kept log) (hids : IdsDistinct (log ++ [record])) :
    (c.insertRecord record).2.Kept (log ++ [record]) := by
  have hsubset : c.history ++ [record] ⊆ log ++ [record] := h.append_subset
  have hperm := sortHistoryCausally_perm (c.history ++ [record])
  have hindexed := (h.indexed (hids.mono (List.subset_append_left _ _))).insertRecord record
  have hseen : ∀ id, id ∈ (c.insertRecord record).2.seenMessages ↔
      ∃ kept ∈ (c.insertRecord record).2.history, kept.id = id :=
    fun id => by rw [hindexed.seen, List.mem_map]
  rcases h.insertRecord_cases hids with
    ⟨hmem, hsame⟩ | ⟨hmem, hroom, hnext⟩ | ⟨hmem, hfull, first, rest, hsorted, hnext⟩
  · rw [hsame] at hseen ⊢
    refine ⟨List.subset_append_of_subset_left _ h.subset, h.nodup, hseen, h.length_le,
      fun r hr hnot => ?_⟩
    rcases List.mem_append.1 hr with hr | hr
    · exact h.full r hr hnot
    · exact absurd (List.mem_singleton.1 hr ▸ hmem) hnot
  · rw [hnext] at hseen ⊢
    refine ⟨fun r hr => hsubset (hperm.subset hr), h.sorted_nodup hmem, hseen, ?_,
      fun r hr hnot => ?_⟩
    · dsimp only
      rw [hperm.length_eq, List.length_append, List.length_singleton]
      exact hroom
    · rw [hperm.mem_iff, List.mem_append, not_or] at hnot
      rcases List.mem_append.1 hr with hr | hr
      · exact absurd (h.full r hr hnot.1) hroom.ne
      · exact absurd hr hnot.2
  · have hnodup := h.sorted_nodup hmem
    rw [hsorted] at hperm hnodup
    have hlength : rest.length = maxMessages := by
      have hcount := hperm.length_eq
      rw [List.length_cons, List.length_append, List.length_singleton, hfull] at hcount
      exact Nat.succ.inj hcount
    rw [hnext] at hseen ⊢
    exact ⟨fun r hr => hsubset (hperm.subset (List.mem_cons_of_mem _ hr)),
      (List.nodup_cons.1 hnodup).2, hseen, hlength.le, fun _ _ _ => hlength⟩

theorem insertRecords_append (c : ChatHistory) (messages later : List ChatRecord) :
    c.insertRecords (messages ++ later) = (c.insertRecords messages).insertRecords later :=
  List.foldl_append ..

theorem insertRecords_concat (c : ChatHistory) (messages : List ChatRecord) (last : ChatRecord) :
    c.insertRecords (messages ++ [last]) = ((c.insertRecords messages).insertRecord last).2 :=
  List.foldl_concat ..

/-- Any list of deliveries. -/
theorem kept_insertRecords (hids : IdsDistinct log) : (empty.insertRecords log).Kept log := by
  induction log using List.reverseRecOn with
  | nil => exact .empty
  | append_singleton log record ih =>
    rw [insertRecords_concat]
    exact (ih (hids.mono (List.subset_append_left _ _))).insertRecord hids

/-! ## The newest records -/

/-- One more delivery keeps the newest records. -/
theorem Kept.isTop_insertRecord (h : c.Kept log) (hids : IdsDistinct (log ++ [record]))
    (hclocks : ClocksGoUp (log ++ [record]))
    (htop : IsTop chatKey maxMessages log.toFinset c.history.toFinset) :
    IsTop chatKey maxMessages (log ++ [record]).toFinset
      (c.insertRecord record).2.history.toFinset := by
  have hlog : (log ++ [record]).toFinset = insert record log.toFinset := by
    ext r
    simp
  have hcard : c.history.toFinset.card = c.history.length :=
    List.toFinset_card_of_nodup h.nodup
  have hperm := sortHistoryCausally_perm (c.history ++ [record])
  have hmember : ∀ r, r ∈ sortHistoryCausally (c.history ++ [record]) ↔
      r ∈ insert record c.history.toFinset := fun r => by
    rw [hperm.mem_iff, Finset.mem_insert, List.mem_append, List.mem_singleton, List.mem_toFinset,
      or_comm]
  rw [hlog]
  rcases h.insertRecord_cases hids with
    ⟨hmem, hsame⟩ | ⟨hmem, hroom, hnext⟩ | ⟨hmem, hfull, first, rest, hsorted, hnext⟩
  · rw [hsame, Finset.insert_eq_self.2 (List.mem_toFinset.2 (h.subset hmem))]
    exact htop
  · have hkept : (sortHistoryCausally (c.history ++ [record])).toFinset =
        insert record c.history.toFinset := by
      ext r
      rw [List.mem_toFinset, hmember]
    rw [hnext, hkept]
    exact htop.insert (mt List.mem_toFinset.1 hmem) (hcard ▸ hroom)
  · have hfirst := first_le_of_clocksGoUp (hclocks.mono h.append_subset) hsorted
    have hnodup := h.sorted_nodup hmem
    rw [hsorted] at hperm hmember hnodup
    have hkept : rest.toFinset = (insert record c.history.toFinset).erase first := by
      ext r
      rw [List.mem_toFinset, Finset.mem_erase, ← hmember, List.mem_cons]
      refine ⟨fun hr => ⟨?_, .inr hr⟩, fun hr => hr.2.resolve_left hr.1⟩
      rintro rfl
      exact (List.nodup_cons.1 hnodup).1 hr
    rw [hnext, hkept]
    refine htop.insert_erase (mt List.mem_toFinset.1 hmem) ?_ (hcard.trans hfull)
      ((hmember first).1 List.mem_cons_self) fun r hr => ?_
    · intro r hr s hs hkey
      rw [← hlog, Finset.mem_coe, List.mem_toFinset] at hr hs
      exact hids.eq_of_chatKey hr hs hkey
    · exact hfirst r (hperm.subset ((hmember r).2 hr))

/-- Any list of deliveries keeps the newest records. -/
theorem isTop_insertRecords (hids : IdsDistinct log) (hclocks : ClocksGoUp log) :
    IsTop chatKey maxMessages log.toFinset (empty.insertRecords log).history.toFinset := by
  induction log using List.reverseRecOn with
  | nil => exact .empty
  | append_singleton log record ih =>
    have hsubset : log ⊆ log ++ [record] := List.subset_append_left _ _
    rw [insertRecords_concat]
    exact (kept_insertRecords (hids.mono hsubset)).isTop_insertRecord hids hclocks
      (ih (hids.mono hsubset) (hclocks.mono hsubset))

end ChatHistory

/-- If clocks go up along dependencies and a message has one content, a client keeps the 300 newest
of the records it has been given, by time and identifier, or all of them if there are no more:
whatever the order, and however often each has come. -/
theorem newest_retained (log : List ChatRecord) (hids : IdsDistinct log)
    (hclocks : ClocksGoUp log) :
    (ChatHistory.empty.insertRecords log).history ⊆ log ∧
    (ChatHistory.empty.insertRecords log).history.Nodup ∧
    (ChatHistory.empty.insertRecords log).history.length =
      min 300 (log.map ChatRecord.id).toFinset.card ∧
    ∀ kept ∈ (ChatHistory.empty.insertRecords log).history, ∀ other ∈ log,
      other ∉ (ChatHistory.empty.insertRecords log).history →
        normalizeTimestampMicros other.sentAt < normalizeTimestampMicros kept.sentAt ∨
          normalizeTimestampMicros other.sentAt = normalizeTimestampMicros kept.sentAt ∧
            other.id < kept.id := by
  have hkept := ChatHistory.kept_insertRecords hids
  have htop := ChatHistory.isTop_insertRecords hids hclocks
  refine ⟨hkept.subset, hkept.nodup, ?_, fun kept hmem other hother hnot => ?_⟩
  · have hcount : (log.map ChatRecord.id).toFinset.card = log.toFinset.card := by
      have himage : (log.map ChatRecord.id).toFinset = log.toFinset.image ChatRecord.id := by
        ext id
        simp
      rw [himage]
      refine Finset.card_image_of_injOn fun r hr s hs => ?_
      rw [Finset.mem_coe, List.mem_toFinset] at hr hs
      exact hids r hr s hs
    have hcard := htop.card
    rw [List.toFinset_card_of_nodup hkept.nodup] at hcard
    rw [hcount]
    exact hcard
  · exact chatKey_lt_iff.1 (htop.above kept (List.mem_toFinset.2 hmem) other
      (List.mem_toFinset.2 hother) (mt List.mem_toFinset.1 hnot))

/-- A first message. -/
def greeting : ChatRecord where
  id := "m-1"
  peerId := "ann"
  joinedAt := some 1
  seq := 1
  causalFrontier := ∅
  author := "Ann"
  text := "hello"
  sentAt := 1700000000

/-- A message written in the knowledge of the first. -/
def answer : ChatRecord where
  id := "m-2"
  peerId := "bob"
  joinedAt := some 2
  seq := 1
  causalFrontier := AList.singleton "ann@1" 1
  author := "Bob"
  text := "hi"
  sentAt := 1700000005

/-- The `i`th of many old messages, from a client that does not number them. -/
def oldMessage (i : Nat) : ChatRecord where
  id := String.ofList (List.replicate (i + 3) 'x')
  peerId := "ann"
  joinedAt := none
  seq := 0
  causalFrontier := ∅
  author := "Ann"
  text := "old"
  sentAt := i + 10

/-- The length of an identifier tells the old messages apart. -/
theorem oldMessage_id_injective : Function.Injective fun i => (oldMessage i).id := by
  intro i j hid
  have hlength : (oldMessage i).id.length = (oldMessage j).id.length := congrArg String.length hid
  simpa [oldMessage] using hlength

/-- Nothing depends on an old message. -/
theorem not_dependsOn_oldMessage (r : ChatRecord) (i : Nat) : ¬ chatDependsOn r (oldMessage i) := by
  rintro ⟨-, key, hkey, -⟩
  cases hkey

/-- One old message more than a client keeps, of which the oldest comes once more at the end. -/
def crowd : List ChatRecord := (List.range 301).map oldMessage ++ [oldMessage 0]

theorem eq_oldMessage_of_mem_crowd {r : ChatRecord} (h : r ∈ crowd) : ∃ i, r = oldMessage i := by
  rcases List.mem_append.1 h with h | h
  · obtain ⟨i, -, rfl⟩ := List.mem_map.1 h
    exact ⟨i, rfl⟩
  · exact ⟨0, List.mem_singleton.1 h⟩

theorem idsDistinct_crowd : IdsDistinct crowd := by
  intro r hr s hs hid
  obtain ⟨i, rfl⟩ := eq_oldMessage_of_mem_crowd hr
  obtain ⟨j, rfl⟩ := eq_oldMessage_of_mem_crowd hs
  exact congrArg oldMessage (oldMessage_id_injective hid)

theorem clocksGoUp_crowd : ClocksGoUp crowd := by
  intro r _ d hd hdepends
  obtain ⟨i, rfl⟩ := eq_oldMessage_of_mem_crowd hd
  exact absurd hdepends (not_dependsOn_oldMessage r i)

/-- The crowd has 301 messages. -/
theorem card_crowd : (crowd.map ChatRecord.id).toFinset.card = 301 := by
  have hagain : (oldMessage 0).id ∈ (List.range 301).map fun i => (oldMessage i).id :=
    List.mem_map_of_mem (List.mem_range.2 (by decide))
  have hids : (crowd.map ChatRecord.id).toFinset =
      ((List.range 301).map fun i => (oldMessage i).id).toFinset := by
    ext name
    rw [List.mem_toFinset, List.mem_toFinset, crowd, List.map_append, List.map_map,
      List.mem_append]
    refine ⟨fun h => h.elim id fun hlast => ?_, .inl⟩
    rw [List.mem_singleton.1 hlast]
    exact hagain
  rw [hids, List.toFinset_card_of_nodup (List.nodup_range.map oldMessage_id_injective),
    List.length_map, List.length_range]

/-- One of the 301 messages is gone, although the oldest has come back. -/
theorem newest_retained_crowd :
    (crowd.map ChatRecord.id).toFinset.card = 301 ∧
      (ChatHistory.empty.insertRecords crowd).history.length = 300 := by
  refine ⟨card_crowd, ?_⟩
  obtain ⟨-, -, hlength, -⟩ := newest_retained crowd idsDistinct_crowd clocksGoUp_crowd
  rw [hlength, card_crowd]
  rfl

end LightEar
