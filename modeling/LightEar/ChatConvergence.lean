import LightEar.ChatRetention

/-!
# When histories converge

Two clients that are given the same records should end with the same history, whatever the order
and however often each record comes.  With at most 300 records they do: nothing is dropped, and
the causal order does not depend on the order of delivery (`history_eq_sort`).

With more, the record that is dropped is the first in the causal order of the 301 that are there,
and this order is not recomputed after the drop.  Where a record stands may hang on one that has
been dropped, and which records have met decides which one is first.  So histories converge exactly
if there are 300 records, in some order, that no crowd can push out and that stay in this order
whatever else comes by (`converges_iff`).
-/

namespace LightEar

open Foundation ChatHistory

/-- All deliveries of the same records, in any order and with any repetitions, end with the same
history. -/
def Converges (records : Finset ChatRecord) : Prop :=
  ∀ log log' : List ChatRecord, log.toFinset = records → log'.toFinset = records →
    (empty.insertRecords log).history = (empty.insertRecords log').history

/-- A full history that the given records settle on. -/
structure Settles (records : Finset ChatRecord) (kept : List ChatRecord) : Prop where
  /-- It holds some of the records. -/
  subset : ∀ record ∈ kept, record ∈ records
  /-- It holds none twice. -/
  nodup : kept.Nodup
  /-- It is full. -/
  length : kept.length = maxMessages
  /-- Where there is one record too many, it is not one of these that comes first. -/
  safe : ∀ crowd : List ChatRecord, crowd.Nodup → (∀ record ∈ crowd, record ∈ records) →
    crowd.length = maxMessages + 1 → ∀ first ∈ (sortHistoryCausally crowd).head?, first ∉ kept
  /-- Any other record comes first among them and leaves them in their order. -/
  stable : ∀ record ∈ records, record ∉ kept →
    sortHistoryCausally (record :: kept) = record :: kept

section Deliveries

variable {records : Finset ChatRecord} {log : List ChatRecord}

/-- Records delivered from a set with distinct identifiers have distinct identifiers. -/
theorem idsDistinct_of_subset (hids : Set.InjOn ChatRecord.id (records : Set ChatRecord))
    (hlog : ∀ record ∈ log, record ∈ records) : IdsDistinct log :=
  fun r hr s hs => hids (Finset.mem_coe.2 (hlog r hr)) (Finset.mem_coe.2 (hlog s hs))

/-- What is in a history was there before or has been delivered since. -/
theorem mem_or_mem_of_mem_insertRecords {c : ChatHistory} {messages : List ChatRecord}
    {r : ChatRecord} (h : r ∈ (c.insertRecords messages).history) :
    r ∈ c.history ∨ r ∈ messages := by
  induction messages using List.reverseRecOn with
  | nil => exact .inl h
  | append_singleton messages record ih =>
    rw [insertRecords_concat] at h
    rcases (c.insertRecords messages).insertRecord_cases record with hsame | ⟨overflow, hhistory⟩
    · have hbefore : r ∈ (c.insertRecords messages).history := by
        rw [hsame] at h
        exact h
      exact (ih hbefore).imp_right (List.mem_append_left _)
    · have hsorted : r ∈ (c.insertRecords messages).history ++ [record] := by
        rw [hhistory] at h
        exact (sortHistoryCausally_perm _).subset (List.mem_of_mem_drop h)
      rcases List.mem_append.1 hsorted with hbefore | hnew
      · exact (ih hbefore).imp_right (List.mem_append_left _)
      · exact .inr (List.mem_append_right _ hnew)

/-- While no more records have come than fit, the history holds them all, in causal order. -/
theorem history_eq_sort (hids : IdsDistinct log) (hcard : log.toFinset.card ≤ maxMessages)
    {l : List ChatRecord} (hnodup : l.Nodup) (hl : l.toFinset = log.toFinset) :
    (empty.insertRecords log).history = sortHistoryCausally l := by
  induction log using List.reverseRecOn generalizing l with
  | nil =>
    have hempty : l = [] := by simpa using hl
    rw [hempty]
    rfl
  | append_singleton log record ih =>
    have hbefore := hids.mono (List.subset_append_left log [record])
    have hkept := kept_insertRecords hbefore
    have hnext : log.toFinset ⊆ (log ++ [record]).toFinset := by
      rw [List.toFinset_append]
      exact Finset.subset_union_left
    rw [insertRecords_concat]
    rcases hkept.insertRecord_cases hids with
      ⟨hmem, hsame⟩ | ⟨hmem, hroom, hinserted⟩ | ⟨hmem, hfull, -⟩
    · rw [hsame]
      refine ih hbefore ((Finset.card_le_card hnext).trans hcard) hnodup (hl.trans ?_)
      rw [List.toFinset_append]
      exact Finset.union_eq_left.2 (by simpa using hkept.subset hmem)
    · -- nothing has been dropped, so the history and the record are all that has come
      rw [hinserted]
      refine sortHistoryCausally_eq_of_perm ?_ (hids.mono hkept.append_subset)
      refine List.perm_of_nodup_nodup_toFinset_eq (hkept.nodup_append hmem) hnodup ?_
      rw [hl]
      refine Finset.Subset.antisymm (fun r hr => ?_) fun r hr => ?_
      · exact List.mem_toFinset.2 (hkept.append_subset (List.mem_toFinset.1 hr))
      · rw [List.mem_toFinset, List.mem_append] at hr ⊢
        refine hr.imp_left fun hr => ?_
        by_contra hmissing
        exact hroom.ne (hkept.full r hr hmissing)
    · have hsubset : ((empty.insertRecords log).history ++ [record]).toFinset ⊆
          (log ++ [record]).toFinset := fun r hr =>
        List.mem_toFinset.2 (hkept.append_subset (List.mem_toFinset.1 hr))
      have hle := Finset.card_le_card hsubset
      rw [List.toFinset_card_of_nodup (hkept.nodup_append hmem), List.length_append, hfull,
        List.length_singleton] at hle
      omega

/-- A crowd of one too many loses the first of it in causal order. -/
theorem sort_crowd (hids : IdsDistinct log) (hnodup : log.Nodup)
    (hlength : log.length = maxMessages + 1) :
    ∃ first, sortHistoryCausally log = first :: (empty.insertRecords log).history := by
  obtain ⟨before, record, rfl⟩ : ∃ before record, log = before ++ [record] := by
    refine ⟨log.dropLast, log.getLast ?_, (List.dropLast_append_getLast _).symm⟩
    exact List.ne_nil_of_length_eq_add_one hlength
  rw [List.length_append, List.length_singleton] at hlength
  have hbefore : before.Nodup := (List.nodup_append.1 hnodup).1
  have hnew : record ∉ before := fun hmem =>
    (List.nodup_append.1 hnodup).2.2 record hmem record (List.mem_singleton_self _) rfl
  have hids' := hids.mono (List.subset_append_left before [record])
  have hcard : before.toFinset.card ≤ maxMessages := by
    rw [List.toFinset_card_of_nodup hbefore]
    omega
  have hperm : (empty.insertRecords before).history.Perm before := by
    rw [history_eq_sort hids' hcard hbefore rfl]
    exact sortHistoryCausally_perm before
  rw [insertRecords_concat]
  rcases (kept_insertRecords hids').insertRecord_cases hids with
    ⟨hmem, -⟩ | ⟨-, hroom, -⟩ | ⟨-, -, first, rest, hsorted, hnext⟩
  · exact absurd (hperm.mem_iff.1 hmem) hnew
  · rw [hperm.length_eq] at hroom
    omega
  · rw [hnext]
    refine ⟨first, ?_⟩
    rw [← hsorted]
    exact sortHistoryCausally_eq_of_perm (hperm.symm.append_right _) hids

/-- If no clock goes back, a crowd of one too many keeps whatever something in it is older
than. -/
theorem mem_history_of_newer (hids : IdsDistinct log) (hnodup : log.Nodup)
    (hlength : log.length = maxMessages + 1) (hclocks : ClocksGoUp log) {r s : ChatRecord}
    (hr : r ∈ log) (hs : s ∈ log) (holder : chatKey s < chatKey r) :
    r ∈ (empty.insertRecords log).history := by
  obtain ⟨first, hsorted⟩ := sort_crowd hids hnodup hlength
  have hle := first_le_of_clocksGoUp hclocks hsorted s hs
  have hmem := (sortHistoryCausally_perm log).mem_iff.2 hr
  rw [hsorted] at hmem
  refine (List.mem_cons.1 hmem).resolve_left ?_
  rintro rfl
  exact absurd holder hle.not_gt

/-- It loses the oldest. -/
theorem not_mem_history_of_oldest (hids : IdsDistinct log) (hnodup : log.Nodup)
    (hlength : log.length = maxMessages + 1) (hclocks : ClocksGoUp log) {r : ChatRecord}
    (hr : r ∈ log) (holdest : ∀ s ∈ log, s ≠ r → chatKey r < chatKey s) :
    r ∉ (empty.insertRecords log).history := by
  obtain ⟨first, hsorted⟩ := sort_crowd hids hnodup hlength
  have hle := first_le_of_clocksGoUp hclocks hsorted r hr
  have hperm := sortHistoryCausally_perm log
  have hnodup' := hperm.nodup_iff.2 hnodup
  rw [hsorted] at hperm hnodup'
  have hfirst : first = r := by
    by_contra hne
    exact absurd (holdest first (hperm.subset List.mem_cons_self) hne) hle.not_gt
  rw [hfirst] at hnodup'
  exact (List.nodup_cons.1 hnodup').1

/-- Once a record has been dropped, the history stands in the order of the last crowd. -/
theorem exists_stable_of_dropped (hids : IdsDistinct log)
    (hdropped : ∃ r ∈ log, r ∉ (empty.insertRecords log).history) :
    ∃ first ∈ log, first ∉ (empty.insertRecords log).history ∧
      sortHistoryCausally (first :: (empty.insertRecords log).history) =
        first :: (empty.insertRecords log).history := by
  induction log using List.reverseRecOn with
  | nil =>
    obtain ⟨r, hr, -⟩ := hdropped
    cases hr
  | append_singleton log record ih =>
    have hbefore := hids.mono (List.subset_append_left log [record])
    have hkept := kept_insertRecords hbefore
    obtain ⟨r, hr, hmissing⟩ := hdropped
    rw [insertRecords_concat] at hmissing ⊢
    rcases hkept.insertRecord_cases hids with
      ⟨hmem, hsame⟩ | ⟨hmem, hroom, hinserted⟩ | ⟨hmem, hfull, first, rest, hsorted, hnext⟩
    · rw [hsame] at hmissing ⊢
      have hr : r ∈ log := by
        rcases List.mem_append.1 hr with hr | hr
        · exact hr
        · exact absurd (List.mem_singleton.1 hr ▸ hmem) hmissing
      obtain ⟨first, hfirst, hrest⟩ := ih hbefore ⟨r, hr, hmissing⟩
      exact ⟨first, List.mem_append_left _ hfirst, hrest⟩
    · rw [hinserted, (sortHistoryCausally_perm _).mem_iff, List.mem_append, not_or] at hmissing
      rcases List.mem_append.1 hr with hr | hr
      · exact absurd (hkept.full r hr hmissing.1) hroom.ne
      · exact absurd hr hmissing.2
    · have hperm := sortHistoryCausally_perm ((empty.insertRecords log).history ++ [record])
      have hnodup := hkept.sorted_nodup hmem
      rw [hsorted] at hperm hnodup
      rw [hnext]
      refine ⟨first, hkept.append_subset (hperm.subset List.mem_cons_self),
        (List.nodup_cons.1 hnodup).1, ?_⟩
      have hids' : IdsDistinct (first :: rest) :=
        hids.mono fun r hr => hkept.append_subset (hperm.subset hr)
      rw [sortHistoryCausally_eq_of_perm hperm hids', hsorted]

/-- A delivered record that the records settle on is not dropped. -/
theorem Settles.mem_history {kept : List ChatRecord} (h : Settles records kept)
    (hids : Set.InjOn ChatRecord.id (records : Set ChatRecord))
    (hlog : ∀ record ∈ log, record ∈ records) :
    ∀ r ∈ log, r ∈ kept → r ∈ (empty.insertRecords log).history := by
  induction log using List.reverseRecOn with
  | nil => exact nofun
  | append_singleton log record ih =>
    have hids' := idsDistinct_of_subset hids hlog
    have hbefore : ∀ r ∈ log, r ∈ records := fun r hr => hlog r (List.mem_append_left _ hr)
    have hinv := kept_insertRecords (hids'.mono (List.subset_append_left log [record]))
    intro r hr hkept
    have hhere : r ∈ (empty.insertRecords log).history ++ [record] := by
      rcases List.mem_append.1 hr with hr | hr
      · exact List.mem_append_left _ (ih hbefore r hr hkept)
      · exact List.mem_append_right _ hr
    have hperm := sortHistoryCausally_perm ((empty.insertRecords log).history ++ [record])
    rw [insertRecords_concat]
    rcases hinv.insertRecord_cases hids' with
      ⟨hmem, hsame⟩ | ⟨hmem, hroom, hinserted⟩ | ⟨hmem, hfull, first, rest, hsorted, hnext⟩
    · rw [hsame]
      rcases List.mem_append.1 hhere with hhere | hhere
      · exact hhere
      · exact List.mem_singleton.1 hhere ▸ hmem
    · rw [hinserted]
      exact hperm.mem_iff.2 hhere
    · have hfirst : first ∉ kept := by
        refine h.safe _ (hinv.nodup_append hmem)
          (fun s hs => hlog s (hinv.append_subset hs)) ?_ first ?_
        · rw [List.length_append, hfull, List.length_singleton]
        · rw [hsorted]
          rfl
      rw [hsorted] at hperm
      rw [hnext]
      refine (List.mem_cons.1 (hperm.mem_iff.2 hhere)).resolve_left fun heq => ?_
      exact hfirst (heq ▸ hkept)

/-- If more records come than fit, one of them is dropped, and the history is full. -/
theorem exists_dropped (hids : IdsDistinct log) (hlog : log.toFinset = records)
    (hmany : maxMessages < records.card) :
    (∃ r ∈ log, r ∉ (empty.insertRecords log).history) ∧
      (empty.insertRecords log).history.length = maxMessages := by
  have hkept := kept_insertRecords hids
  have hdropped : ∃ r ∈ log, r ∉ (empty.insertRecords log).history := by
    by_contra hall
    simp only [not_exists, not_and, not_not] at hall
    have hle : records.card ≤ (empty.insertRecords log).history.toFinset.card := by
      rw [← hlog]
      exact Finset.card_le_card fun r hr =>
        List.mem_toFinset.2 (hall r (List.mem_toFinset.1 hr))
    rw [List.toFinset_card_of_nodup hkept.nodup] at hle
    have hlength := hkept.length_le
    omega
  obtain ⟨r, hr, hmissing⟩ := hdropped
  exact ⟨⟨r, hr, hmissing⟩, hkept.full r hr hmissing⟩

/-- If the records settle on a history, every delivery ends with it. -/
theorem Settles.history_eq {kept : List ChatRecord} (h : Settles records kept)
    (hids : Set.InjOn ChatRecord.id (records : Set ChatRecord))
    (hmany : maxMessages < records.card) (hlog : log.toFinset = records) :
    (empty.insertRecords log).history = kept := by
  have hmem : ∀ r, r ∈ log ↔ r ∈ records := fun r => by rw [← hlog, List.mem_toFinset]
  have hids' := idsDistinct_of_subset hids fun r hr => (hmem r).1 hr
  have hkept := kept_insertRecords hids'
  obtain ⟨hdropped, hfull⟩ := exists_dropped hids' hlog hmany
  -- all of the settled history is there, and there is no room for anything else
  have hperm : kept.Perm (empty.insertRecords log).history := by
    refine (List.subperm_of_subset h.nodup fun r hr => ?_).perm_of_length_le ?_
    · exact h.mem_history hids (fun r hr => (hmem r).1 hr) r ((hmem r).2 (h.subset r hr)) hr
    · rw [hfull, h.length]
  obtain ⟨first, hfirst, hnew, hstands⟩ := exists_stable_of_dropped hids' hdropped
  have hstable := h.stable first ((hmem first).1 hfirst) (mt hperm.mem_iff.1 hnew)
  have hdistinct : IdsDistinct (first :: kept) := hids'.mono
    (List.cons_subset.2 ⟨hfirst, fun r hr => hkept.subset (hperm.subset hr)⟩)
  rw [sortHistoryCausally_eq_of_perm (hperm.cons first) hdistinct, hstands] at hstable
  exact (List.cons.inj hstable).2

/-- If all deliveries end with the same history, the records settle on it. -/
theorem Converges.settles (h : Converges records)
    (hids : Set.InjOn ChatRecord.id (records : Set ChatRecord))
    (hmany : maxMessages < records.card) (hlog : log.toFinset = records) :
    Settles records (empty.insertRecords log).history := by
  have hmem : ∀ r, r ∈ log ↔ r ∈ records := fun r => by rw [← hlog, List.mem_toFinset]
  have hids' := idsDistinct_of_subset hids fun r hr => (hmem r).1 hr
  have hkept := kept_insertRecords hids'
  obtain ⟨-, hfull⟩ := exists_dropped hids' hlog hmany
  refine ⟨fun r hr => (hmem r).1 (hkept.subset hr), hkept.nodup, hfull,
    fun crowd hnodup hcrowd hlength first hfirst hstays => ?_, fun r hr hnew => ?_⟩
  · -- the crowd comes first and loses its first record, then come the others
    have hcrowdIds := idsDistinct_of_subset hids hcrowd
    obtain ⟨gone, hsorted⟩ := sort_crowd hcrowdIds hnodup hlength
    rw [hsorted] at hfirst
    cases hfirst
    have hgone : first ∉ (empty.insertRecords crowd).history := by
      have hnodup' := (sortHistoryCausally_perm crowd).nodup_iff.2 hnodup
      rw [hsorted] at hnodup'
      exact (List.nodup_cons.1 hnodup').1
    have hthere : first ∈ crowd := by
      refine (sortHistoryCausally_perm crowd).subset ?_
      rw [hsorted]
      exact List.mem_cons_self
    have hrest : (crowd ++ log.filter fun r => r ∉ crowd).toFinset = records := by
      ext r
      simp only [List.mem_toFinset, List.mem_append, List.mem_filter, decide_eq_true_eq, hmem]
      refine ⟨fun hr => hr.elim (hcrowd r) fun hr => hr.1, fun hr => ?_⟩
      exact or_iff_not_imp_left.2 fun hr' => ⟨hr, hr'⟩
    rw [h log _ hlog hrest, insertRecords_append] at hstays
    rcases mem_or_mem_of_mem_insertRecords hstays with hbefore | hlater
    · exact hgone hbefore
    · exact of_decide_eq_true (List.mem_filter.1 hlater).2 hthere
  · -- the record comes once more
    have hagain : (log ++ [r]).toFinset = records := by
      rw [List.toFinset_append, hlog]
      exact Finset.union_eq_left.2 (by simpa using hr)
    have hsame := h _ _ hagain hlog
    have hidsAgain := idsDistinct_of_subset hids fun s hs =>
      (by rw [← hagain, List.mem_toFinset]; exact hs : s ∈ records)
    rw [insertRecords_concat] at hsame
    rcases hkept.insertRecord_cases hidsAgain with
      ⟨hthere, -⟩ | ⟨-, hroom, -⟩ | ⟨-, -, first, rest, hsorted, hnext⟩
    · exact absurd hthere hnew
    · exact absurd hfull hroom.ne
    · rw [hnext] at hsame
      dsimp only at hsame
      have hperm := sortHistoryCausally_perm ((empty.insertRecords log).history ++ [r])
      rw [hsorted, hsame] at hperm
      have hfirst : first = r := by
        have hr' : r ∈ first :: (empty.insertRecords log).history :=
          hperm.mem_iff.2 (List.mem_append_right _ (List.mem_singleton_self r))
        exact ((List.mem_cons.1 hr').resolve_right hnew).symm
      rw [hsame, hfirst] at hsorted
      rw [hfirst] at hperm
      have hdistinct : IdsDistinct (r :: (empty.insertRecords log).history) :=
        hidsAgain.mono fun s hs => hkept.append_subset (hperm.subset hs)
      rw [sortHistoryCausally_eq_of_perm hperm hdistinct, hsorted]

end Deliveries

/-- For every finite set of records with distinct identifiers: all deliveries of them end with the
same history exactly if there are at most 300 of them, or they settle on a history of 300. -/
theorem converges_iff (records : Finset ChatRecord)
    (hids : Set.InjOn ChatRecord.id (records : Set ChatRecord)) :
    Converges records ↔ records.card ≤ maxMessages ∨ ∃ kept, Settles records kept := by
  by_cases hmany : maxMessages < records.card
  · constructor
    · intro h
      exact .inr ⟨_, h.settles hids hmany (Finset.toList_toFinset records)⟩
    · rintro (hfew | ⟨kept, hkept⟩)
      · exact absurd hfew (not_le.2 hmany)
      · intro log log' hlog hlog'
        rw [hkept.history_eq hids hmany hlog, hkept.history_eq hids hmany hlog']
  · refine ⟨fun _ => .inl (not_lt.1 hmany), fun _ log log' hlog hlog' => ?_⟩
    have hsort : ∀ {l : List ChatRecord}, l.toFinset = records →
        (empty.insertRecords l).history = sortHistoryCausally records.toList := by
      intro l hl
      refine history_eq_sort ?_ (hl ▸ not_lt.1 hmany) (Finset.nodup_toList records) ?_
      · exact idsDistinct_of_subset hids fun r hr => by rw [← hl]; exact List.mem_toFinset.2 hr
      · rw [Finset.toList_toFinset, hl]
    rw [hsort hlog, hsort hlog']

/-! ## Records that do not converge -/

/-- As many old messages as fit. -/
def oldMessages : List ChatRecord := (List.range maxMessages).map oldMessage

/-- The newest message. -/
def news : ChatRecord where
  id := "a"
  peerId := "bob"
  joinedAt := none
  seq := 1
  causalFrontier := ∅
  author := "Bob"
  text := "news"
  sentAt := 1000

/-- A reply to it, by a clock that is behind. -/
def lateReply : ChatRecord where
  id := "bb"
  peerId := "cyril"
  joinedAt := none
  seq := 1
  causalFrontier := AList.singleton "bob" 1
  author := "Cyril"
  text := "really?"
  sentAt := 1

/-- All of these. -/
def unsettled : Finset ChatRecord := (oldMessages ++ [news, lateReply]).toFinset

theorem mem_oldMessages {r : ChatRecord} :
    r ∈ oldMessages ↔ ∃ i < maxMessages, oldMessage i = r := by
  simp [oldMessages]

/-- A time given in seconds. -/
theorem normalizeTimestampMicros_of_seconds {t : Int} (h : 0 ≤ t) (hlt : t ≤ 1000) :
    normalizeTimestampMicros t = t * 1000000 := by
  have hsmall : satI64 t.natAbs < timestampSecondsCutoff := by
    unfold satI64 i64Min i64Max timestampSecondsCutoff
    omega
  unfold normalizeTimestampMicros
  dsimp only
  rw [if_pos hsmall]
  unfold satI64 i64Min i64Max
  omega

/-- An old message depends on nothing. -/
theorem oldMessage_not_dependsOn (i : Nat) (d : ChatRecord) : ¬ chatDependsOn (oldMessage i) d := by
  rintro ⟨-, key, -, ⟨hkey, -⟩ | ⟨seq, hseq, -⟩⟩
  · cases hkey
  · cases hseq

/-- The length of an identifier tells these messages apart. -/
theorem unsettled_injOn : Set.InjOn ChatRecord.id (unsettled : Set ChatRecord) := by
  have hlength : ∀ r ∈ unsettled, (∃ i, r = oldMessage i ∧ r.id.length = i + 3) ∨
      (r = news ∧ r.id.length = 1) ∨ (r = lateReply ∧ r.id.length = 2) := by
    intro r hr
    simp only [unsettled, List.mem_toFinset, List.mem_append, mem_oldMessages, List.mem_cons,
      List.not_mem_nil, or_false] at hr
    rcases hr with ⟨i, -, rfl⟩ | rfl | rfl
    · exact .inl ⟨i, rfl, by simp [oldMessage]⟩
    · exact .inr (.inl ⟨rfl, rfl⟩)
    · exact .inr (.inr ⟨rfl, rfl⟩)
  intro r hr s hs hid
  have hsame : r.id.length = s.id.length := congrArg String.length hid
  rcases hlength r hr with ⟨i, hri, hi⟩ | ⟨hri, hi⟩ | ⟨hri, hi⟩ <;>
    rcases hlength s hs with ⟨j, hsj, hj⟩ | ⟨hsj, hj⟩ | ⟨hsj, hj⟩ <;>
    rw [hi, hj] at hsame
  · rw [hri, hsj, Nat.add_right_cancel hsame]
  · omega
  · omega
  · omega
  · rw [hri, hsj]
  · omega
  · omega
  · omega
  · rw [hri, hsj]

theorem oldMessages_nodup : oldMessages.Nodup :=
  List.nodup_range.map fun _ _ heq => oldMessage_id_injective (congrArg ChatRecord.id heq)

/-- One of the two with the old messages is a crowd of one too many. -/
theorem oldMessages_crowd {r : ChatRecord} (hr : r = news ∨ r = lateReply) :
    IdsDistinct (oldMessages ++ [r]) ∧ (oldMessages ++ [r]).Nodup ∧
      (oldMessages ++ [r]).length = maxMessages + 1 ∧ ClocksGoUp (oldMessages ++ [r]) := by
  have hnot : r ∉ oldMessages := by
    rw [mem_oldMessages]
    rintro ⟨i, -, rfl⟩
    rcases hr with hr | hr
    · have hseq := congrArg ChatRecord.seq hr
      cases hseq
    · have hseq := congrArg ChatRecord.seq hr
      cases hseq
  refine ⟨idsDistinct_of_subset unsettled_injOn fun s hs => ?_, ?_, ?_,
    fun s hs d hd hdepends => ?_⟩
  · rw [unsettled, List.mem_toFinset]
    rcases List.mem_append.1 hs with hs | hs
    · exact List.mem_append_left _ hs
    · rw [List.mem_singleton.1 hs]
      rcases hr with rfl | rfl
      · exact List.mem_append_right _ List.mem_cons_self
      · exact List.mem_append_right _ (List.mem_cons_of_mem _ (List.mem_singleton_self _))
  · rw [← List.concat_eq_append]
    exact oldMessages_nodup.concat hnot
  · simp [oldMessages]
  · -- nothing depends on anything here
    rcases List.mem_append.1 hd with hd | hd
    · obtain ⟨i, -, rfl⟩ := mem_oldMessages.1 hd
      exact absurd hdepends (not_dependsOn_oldMessage s i)
    · rcases List.mem_append.1 hs with hs | hs
      · obtain ⟨i, -, rfl⟩ := mem_oldMessages.1 hs
        exact absurd hdepends (oldMessage_not_dependsOn i d)
      · rw [List.mem_singleton.1 hs, List.mem_singleton.1 hd] at hdepends
        exact absurd rfl hdepends.1

theorem oldMessage_time {i : Nat} (h : i < maxMessages) :
    normalizeTimestampMicros (oldMessage i).sentAt = (i + 10 : Int) * 1000000 := by
  unfold maxMessages at h
  have hfrom : (0 : Int) ≤ i + 10 := by omega
  have hto : (i + 10 : Int) ≤ 1000 := by omega
  exact normalizeTimestampMicros_of_seconds hfrom hto

theorem chatKey_lateReply_lt (i : Nat) (h : i < maxMessages) :
    chatKey lateReply < chatKey (oldMessage i) := by
  refine chatKey_lt_iff.2 (.inl ?_)
  rw [oldMessage_time h, show normalizeTimestampMicros lateReply.sentAt = 1000000 by decide]
  omega

theorem chatKey_lt_news (i : Nat) (h : i < maxMessages) :
    chatKey (oldMessage i) < chatKey news := by
  refine chatKey_lt_iff.2 (.inl ?_)
  rw [oldMessage_time h, show normalizeTimestampMicros news.sentAt = 1000000000 by decide]
  unfold maxMessages at h
  omega

/-- Before the message it replies to, the late reply is the oldest and is dropped. -/
theorem lateReply_not_mem :
    lateReply ∉ (empty.insertRecords (oldMessages ++ [lateReply])).history := by
  obtain ⟨hids, hnodup, hlength, hclocks⟩ := oldMessages_crowd (.inr rfl)
  refine not_mem_history_of_oldest hids hnodup hlength hclocks
    (List.mem_append_right _ (List.mem_singleton_self _)) fun s hs hne => ?_
  rcases List.mem_append.1 hs with hold | hlast
  · obtain ⟨i, hi, rfl⟩ := mem_oldMessages.1 hold
    exact chatKey_lateReply_lt i hi
  · exact absurd (List.mem_singleton.1 hlast) hne

/-- It is dropped for good. -/
theorem lateReply_dropped :
    lateReply ∉ (empty.insertRecords (oldMessages ++ [lateReply, news])).history := by
  intro hmem
  have happend : oldMessages ++ [lateReply, news] = oldMessages ++ [lateReply] ++ [news] := by simp
  rw [happend, insertRecords_append] at hmem
  rcases mem_or_mem_of_mem_insertRecords hmem with hbefore | hlast
  · exact lateReply_not_mem hbefore
  · have hid := congrArg ChatRecord.id (List.mem_singleton.1 hlast)
    exact absurd hid (by decide)

/-- After the message it replies to, the late reply is not free, and is kept. -/
theorem lateReply_kept :
    lateReply ∈ (empty.insertRecords (oldMessages ++ [news, lateReply])).history := by
  obtain ⟨hids, hnodup, hlength, hclocks⟩ := oldMessages_crowd (.inl rfl)
  have hold : oldMessage 0 ∈ oldMessages := mem_oldMessages.2 ⟨0, by decide, rfl⟩
  -- the news are the newest, so they are not dropped
  have hnews : news ∈ (empty.insertRecords (oldMessages ++ [news])).history :=
    mem_history_of_newer hids hnodup hlength hclocks
      (List.mem_append_right _ (List.mem_singleton_self _)) (List.mem_append_left _ hold)
      (chatKey_lt_news 0 (by decide))
  have happend : oldMessages ++ [news, lateReply] = oldMessages ++ [news] ++ [lateReply] := by simp
  have hids' : IdsDistinct (oldMessages ++ [news] ++ [lateReply]) :=
    idsDistinct_of_subset unsettled_injOn fun r hr => by
      rw [unsettled, happend]
      exact List.mem_toFinset.2 hr
  have hkept := kept_insertRecords hids
  have hperm' := sortHistoryCausally_perm
    ((empty.insertRecords (oldMessages ++ [news])).history ++ [lateReply])
  have hlate : lateReply ∈ sortHistoryCausally
      ((empty.insertRecords (oldMessages ++ [news])).history ++ [lateReply]) :=
    hperm'.mem_iff.2 (List.mem_append_right _ (List.mem_singleton_self _))
  rw [happend, insertRecords_concat]
  rcases hkept.insertRecord_cases hids' with
    ⟨hmem, hsame⟩ | ⟨-, -, hinserted⟩ | ⟨hmem, -, oldest, rest, hsorted', hnext⟩
  · rw [hsame]
    exact hmem
  · rw [hinserted]
    dsimp only
    exact hlate
  · have hnewsThere : news ∈ (empty.insertRecords (oldMessages ++ [news])).history ++ [lateReply] :=
      List.mem_append_left _ hnews
    have hfree : IsFree chatDependsOn
        ((empty.insertRecords (oldMessages ++ [news])).history ++ [lateReply]) news := by
      intro d hd
      rcases List.mem_append.1 (hkept.append_subset hd) with hd | hd
      · rcases List.mem_append.1 hd with hd | hd
        · obtain ⟨i, -, rfl⟩ := mem_oldMessages.1 hd
          exact not_dependsOn_oldMessage news i
        · rw [List.mem_singleton.1 hd]
          decide
      · rw [List.mem_singleton.1 hd]
        decide
    obtain ⟨first', rest', hsorted'', hfirst, -⟩ := exists_sort_eq_cons hnewsThere hfree
    rw [hsorted'] at hsorted'' hlate
    obtain ⟨rfl, -⟩ := List.cons.inj hsorted''
    rw [hnext]
    refine (List.mem_cons.1 hlate).resolve_left ?_
    rintro rfl
    exact hfirst news hnewsThere (by decide)

/-- Two deliveries of the same 302 records end with different histories. -/
theorem not_converges_unsettled :
    Set.InjOn ChatRecord.id (unsettled : Set ChatRecord) ∧ ¬ Converges unsettled := by
  refine ⟨unsettled_injOn, fun h => lateReply_dropped ?_⟩
  have hsame : (oldMessages ++ [lateReply, news]).toFinset = unsettled := by
    ext r
    simp only [unsettled, List.mem_toFinset, List.mem_append, List.mem_cons]
    exact or_congr_right or_left_comm
  rw [h _ (oldMessages ++ [news, lateReply]) hsame rfl]
  exact lateReply_kept

/-- The same as a case of the equivalence. -/
theorem unsettled_converges_iff : Converges unsettled ↔
    unsettled.card ≤ maxMessages ∨ ∃ kept, Settles unsettled kept :=
  converges_iff unsettled unsettled_injOn

end LightEar
