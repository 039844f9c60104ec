import LightEar.Core
import LightEar.Foundation.LayeredSort

/-!
# The chat of one client

Every record of the chat carries the number its author gave it and, for each author, the greatest
number that the author of the record had seen.  From these marks a client tells which records
depend on which, and keeps its history sorted so that dependencies come first; clocks only decide
between records that do not depend on one another.  The history is bounded, and what falls out at
the old end is forgotten.
-/

namespace LightEar

open Foundation

/-- The number of records a client keeps. -/
def maxMessages : Nat := 300

/-- For each author the greatest number seen. -/
abbrev CausalFrontier := AList fun _ : String => Nat

/-- One message of the chat. -/
structure ChatRecord where
  /-- Names the message. -/
  id : String
  /-- The peer that wrote it. -/
  peerId : PeerId
  /-- When that peer joined the room; absent for old clients. -/
  joinedAt : Option Int
  /-- The author's count of its messages; zero for old clients. -/
  seq : Nat
  /-- What the author had seen. -/
  causalFrontier : CausalFrontier
  /-- The name the author goes by. -/
  author : String
  /-- What the author wrote. -/
  text : String
  /-- The author's clock, in seconds, milliseconds or microseconds. -/
  sentAt : Int
  deriving DecidableEq

/-! ## The fallback order -/

/-- Below this a timestamp counts seconds. -/
def timestampSecondsCutoff : Int := 10000000000

/-- Below this a timestamp counts milliseconds. -/
def timestampMillisCutoff : Int := 10000000000000

/-- Brings a timestamp to microseconds, guessing its unit from its size. -/
def normalizeTimestampMicros (timestamp : Int) : Int :=
  let abs := satI64 timestamp.natAbs
  if abs < timestampSecondsCutoff then satI64 (timestamp * 1000000)
  else if abs < timestampMillisCutoff then satI64 (timestamp * 1000)
  else timestamp

/-- The order of records that do not depend on one another: by time, then by identifier. -/
def chatFallbackOrder (left right : ChatRecord) : Prop :=
  normalizeTimestampMicros left.sentAt < normalizeTimestampMicros right.sentAt ∨
    normalizeTimestampMicros left.sentAt = normalizeTimestampMicros right.sentAt ∧
      left.id ≤ right.id

instance : DecidableRel chatFallbackOrder := fun _ _ => inferInstanceAs (Decidable (_ ∨ _ ∧ _))

/-! ## Dependencies -/

/-- The name of one stay of a peer in the room. -/
def chatActorKey (peerId : PeerId) (joinedAt : Option Int) : String :=
  match joinedAt with
  | none => peerId
  | some joinedAt => peerId ++ "@" ++ toString joinedAt

/-- The author of a record, if the record is numbered. -/
def chatRecordActorKey (record : ChatRecord) : Option String :=
  if record.seq = 0 ∨ record.peerId = "" then none
  else some (chatActorKey record.peerId record.joinedAt)

/-- Whether a record may have been written in the knowledge of another: a later record of the
same author, or one whose author had seen as much of the other's author. -/
def chatDependsOn (record candidateDependency : ChatRecord) : Prop :=
  record.id ≠ candidateDependency.id ∧
    ∃ candidateKey ∈ chatRecordActorKey candidateDependency,
      (chatRecordActorKey record = some candidateKey ∧ 0 < record.seq ∧
          candidateDependency.seq < record.seq) ∨
        ∃ latestSeen ∈ record.causalFrontier.lookup candidateKey,
          candidateDependency.seq ≤ latestSeen

instance : DecidableRel chatDependsOn := fun _ _ => inferInstanceAs (Decidable (_ ∧ _))

/-- Notes one record in a frontier. -/
def noteRecord (frontier : CausalFrontier) (record : ChatRecord) : CausalFrontier :=
  match chatRecordActorKey record with
  | none => frontier
  | some actorKey =>
    match frontier.lookup actorKey with
    | some seq => frontier.insert actorKey (max seq record.seq)
    | none => frontier.insert actorKey record.seq

/-- For each author the greatest number in a history. -/
def historyFrontier (history : List ChatRecord) : CausalFrontier :=
  history.foldl noteRecord ∅

/-! ## The history -/

/-- What a client shows, and the messages it has taken in. -/
structure ChatHistory where
  /-- The records, first to last. -/
  history : List ChatRecord
  /-- The identifiers of the records in the history. -/
  seenMessages : Finset String

/-- Dependencies first, by time where there are none; a record for each round, so that the
rounds suffice. -/
def sortHistoryCausally (history : List ChatRecord) : List ChatRecord :=
  layeredSort chatDependsOn chatFallbackOrder history.length history

namespace ChatHistory

/-- Nothing said yet. -/
def empty : ChatHistory where
  history := []
  seenMessages := ∅

/-- Takes in a record; tells whether it was new. -/
def insertRecord (c : ChatHistory) (record : ChatRecord) : Bool × ChatHistory :=
  if record.id ∈ c.seenMessages then (false, c)
  else
    let sorted := sortHistoryCausally (c.history ++ [record])
    let seen := insert record.id c.seenMessages
    if sorted.length > maxMessages then
      let overflow := sorted.length - maxMessages
      (true, {
        history := sorted.drop overflow
        seenMessages := (sorted.take overflow).foldl (fun seen removed => seen.erase removed.id)
          seen })
    else (true, { history := sorted, seenMessages := seen })

/-- Takes in the records of a response, first to last. -/
def insertRecords (c : ChatHistory) (messages : List ChatRecord) : ChatHistory :=
  messages.foldl (fun c record => (c.insertRecord record).2) c

end ChatHistory

/-! ## What the frontier says -/

/-- Noting a record raises the entry of its author and leaves the others alone. -/
theorem lookup_noteRecord (frontier : CausalFrontier) (record : ChatRecord) (key : String) :
    (noteRecord frontier record).lookup key =
      if chatRecordActorKey record = some key then
        some (max ((frontier.lookup key).getD 0) record.seq)
      else frontier.lookup key := by
  unfold noteRecord
  cases hkey : chatRecordActorKey record with
  | none => simp
  | some actorKey =>
    simp only [Option.some.injEq]
    by_cases h : actorKey = key
    · subst h
      rw [if_pos rfl]
      cases frontier.lookup actorKey with
      | none => simp
      | some seq => simp
    · rw [if_neg h]
      cases frontier.lookup actorKey with
      | none => exact AList.lookup_insert_ne (Ne.symm h)
      | some seq => exact AList.lookup_insert_ne (Ne.symm h)

/-- The frontier of a history covers every numbered record in it. -/
theorem le_historyFrontier {history : List ChatRecord} {record : ChatRecord} {key : String}
    (hmem : record ∈ history) (hkey : chatRecordActorKey record = some key) :
    ∃ latest ∈ (historyFrontier history).lookup key, record.seq ≤ latest := by
  induction history using List.reverseRecOn with
  | nil => cases hmem
  | append_singleton history last ih =>
    unfold historyFrontier at ih ⊢
    rw [List.foldl_concat, lookup_noteRecord]
    rcases List.mem_append.1 hmem with hmem | hmem
    · obtain ⟨latest, hlookup, hle⟩ := ih hmem
      split
      · refine ⟨_, rfl, hle.trans ?_⟩
        rw [Option.mem_def.1 hlookup]
        exact Nat.le_max_left _ _
      · exact ⟨latest, hlookup, hle⟩
    · rw [← List.mem_singleton.1 hmem, if_pos hkey]
      exact ⟨_, rfl, Nat.le_max_right _ _⟩

/-- An entry of the frontier of a history is the number of a record in it. -/
theorem exists_of_mem_historyFrontier {history : List ChatRecord} {key : String} {latest : Nat}
    (h : (historyFrontier history).lookup key = some latest) :
    ∃ record ∈ history, chatRecordActorKey record = some key ∧ record.seq = latest := by
  induction history using List.reverseRecOn generalizing latest with
  | nil => cases h
  | append_singleton history last ih =>
    unfold historyFrontier at ih h
    rw [List.foldl_concat, lookup_noteRecord] at h
    have hold : ∀ {seq}, (history.foldl noteRecord ∅).lookup key = some seq →
        ∃ record ∈ history ++ [last], chatRecordActorKey record = some key ∧ record.seq = seq := by
      intro seq hseq
      obtain ⟨record, hmem, hrecord⟩ := ih hseq
      exact ⟨record, List.mem_append_left _ hmem, hrecord⟩
    split at h
    · rename_i hkey
      have hlast : last ∈ history ++ [last] :=
        List.mem_append_right _ (List.mem_singleton_self last)
      cases hlookup : (history.foldl noteRecord ∅).lookup key with
      | none =>
        rw [hlookup, Option.getD_none, Nat.zero_max, Option.some.injEq] at h
        exact ⟨last, hlast, hkey, h⟩
      | some seq =>
        rw [hlookup, Option.getD_some, Option.some.injEq] at h
        rcases Nat.le_total seq last.seq with hle | hle
        · exact ⟨last, hlast, hkey, (Nat.max_eq_right hle).symm.trans h⟩
        · rw [← h, Nat.max_eq_left hle]
          exact hold hlookup
    · exact hold h

/-! ## Keeping a history in order -/

/-- Nothing in the history depends on anything behind it. -/
def CausallyOrdered (history : List ChatRecord) : Prop :=
  history.Pairwise fun earlier later => ¬ chatDependsOn earlier later

/-- Sorting keeps exactly the records. -/
theorem sortHistoryCausally_perm (history : List ChatRecord) :
    (sortHistoryCausally history).Perm history :=
  layeredSort_perm (Nat.le_refl _)

/-- If dependencies go down along a rank, sorting puts them first. -/
theorem sortHistoryCausally_causallyOrdered {history : List ChatRecord} {rank : ChatRecord → Nat}
    (hrank : ∀ r ∈ history, ∀ d ∈ history, chatDependsOn r d → rank d < rank r) :
    CausallyOrdered (sortHistoryCausally history) :=
  layeredSort_pairwise _ hrank

namespace ChatHistory

/-- Taking in a record leaves the history alone or keeps the end of the sorted extension. -/
theorem insertRecord_cases (c : ChatHistory) (record : ChatRecord) :
    (c.insertRecord record).2 = c ∨
      ∃ overflow, (c.insertRecord record).2.history =
        (sortHistoryCausally (c.history ++ [record])).drop overflow := by
  unfold insertRecord
  dsimp only
  by_cases hseen : record.id ∈ c.seenMessages
  · rw [if_pos hseen]
    exact .inl rfl
  · rw [if_neg hseen]
    right
    by_cases hlong : (sortHistoryCausally (c.history ++ [record])).length > maxMessages
    · rw [if_pos hlong]
      refine ⟨(sortHistoryCausally (c.history ++ [record])).length - maxMessages, ?_⟩
      dsimp only
    · rw [if_neg hlong]
      exact ⟨0, List.drop_zero.symm⟩

/-- A history from a given set of records, in causal order. -/
structure OrderedFrom (c : ChatHistory) (records : List ChatRecord) : Prop where
  /-- Every record is among the given ones. -/
  subset : c.history ⊆ records
  /-- Dependencies come first. -/
  ordered : CausallyOrdered c.history

theorem OrderedFrom.mono {c : ChatHistory} {records more : List ChatRecord}
    (h : c.OrderedFrom records) (hmore : records ⊆ more) : c.OrderedFrom more :=
  ⟨List.Subset.trans h.subset hmore, h.ordered⟩

/-- Taking in one of the records keeps the order, if dependencies go down along a rank. -/
theorem OrderedFrom.insertRecord {c : ChatHistory} {records : List ChatRecord}
    (h : c.OrderedFrom records) {rank : ChatRecord → Nat}
    (hrank : ∀ r ∈ records, ∀ d ∈ records, chatDependsOn r d → rank d < rank r)
    {record : ChatRecord} (hrecord : record ∈ records) :
    (c.insertRecord record).2.OrderedFrom records := by
  rcases c.insertRecord_cases record with hsame | ⟨overflow, hhistory⟩
  · rw [hsame]
    exact h
  · have hsubset : c.history ++ [record] ⊆ records :=
      List.append_subset.2 ⟨h.subset, List.cons_subset.2 ⟨hrecord, List.nil_subset _⟩⟩
    refine ⟨?_, ?_⟩
    · rw [hhistory]
      intro r hr
      exact hsubset ((sortHistoryCausally_perm _).subset (List.mem_of_mem_drop hr))
    · have hbelow : ∀ r ∈ c.history ++ [record], ∀ d ∈ c.history ++ [record],
          chatDependsOn r d → rank d < rank r :=
        fun r hr d hd => hrank r (hsubset hr) d (hsubset hd)
      unfold CausallyOrdered
      rw [hhistory]
      exact (sortHistoryCausally_causallyOrdered hbelow).sublist (List.drop_sublist _ _)

/-- Taking in any of the records, one after the other, keeps the order. -/
theorem OrderedFrom.insertRecords {c : ChatHistory} {records messages : List ChatRecord}
    (h : c.OrderedFrom records) {rank : ChatRecord → Nat}
    (hrank : ∀ r ∈ records, ∀ d ∈ records, chatDependsOn r d → rank d < rank r)
    (hmessages : messages ⊆ records) : (c.insertRecords messages).OrderedFrom records := by
  unfold ChatHistory.insertRecords
  induction messages generalizing c with
  | nil => exact h
  | cons record messages ih =>
    obtain ⟨hrecord, hrest⟩ := List.cons_subset.1 hmessages
    exact ih (h.insertRecord hrank hrecord) hrest

end ChatHistory

end LightEar
