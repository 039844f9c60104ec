import LightEar.DirectAddresses
import Mathlib.Data.Finset.Option

/-!
# Direct dials over whole histories

What is known of a peer's addresses (`knownAddresses`), since when it has been waited for
(`WaitedFor`) and what has been tried (`promotionTrace`) is read off the history of calls.  Every
dial goes to the known addresses of a relayed peer that has subscribed or has been waited for, and
is in keeping with the ledger (`direct_dials_respect`).  A dial stays in flight for ever when it is
answered by a direct connection that is closed early (`dial_answered_iff`).
-/

namespace LightEar

open Foundation

/-! ## Addresses -/

/-- The addresses known of a peer after a call. -/
def ConnectionCall.addressesAfter (peerId : PeerId) (known : Finset Multiaddr) :
    ConnectionCall → Finset Multiaddr
  | learnDirectAddresses p addresses =>
    if p = peerId then
      known ∪ (addresses.filterMap (Multiaddr.normalizeDirectPeerAddress peerId)).toFinset
    else known
  | forgetDirectAddress p address =>
    if p = peerId then known \ (address.normalizeDirectPeerAddress peerId).toFinset else known
  | connectionClosed p _ _ 0 => if p = peerId then ∅ else known
  | _ => known

namespace ConnectionState

/-- These are the addresses recorded of a peer, once each and normalised. -/
structure KnowsAddresses (s : ConnectionState) (peerId : PeerId) (known : Finset Multiaddr) :
    Prop where
  /-- None is recorded twice. -/
  nodup : (s.addressesOf peerId).Nodup
  /-- They are the ones known. -/
  toFinset : (s.addressesOf peerId).toFinset = known
  /-- They are normalised. -/
  normal : ∀ address ∈ known, address.normalizeDirectPeerAddress peerId = some address

variable {s : ConnectionState} {peerId : PeerId} {known : Finset Multiaddr}

theorem nodup_foldl_insert {known : List Multiaddr} (h : known.Nodup)
    (addresses : List Multiaddr) :
    (addresses.foldl (fun known address => known.insert address) known).Nodup := by
  induction addresses generalizing known with
  | nil => exact h
  | cons address addresses ih => exact ih h.insert

/-- Other addresses for one peer. -/
theorem addressesOf_insert (s : ConnectionState) (peerId : PeerId) (addresses : List Multiaddr)
    (p : PeerId) :
    addressesOf { s with directAddresses := s.directAddresses.insert peerId addresses } p =
      if p = peerId then addresses else s.addressesOf p := by
  unfold addressesOf
  by_cases hp : p = peerId
  · subst hp
    rw [if_pos rfl, AList.lookup_insert, Option.getD_some]
  · rw [if_neg hp, AList.lookup_insert_ne hp]

/-- No addresses for one peer. -/
theorem addressesOf_erase (s : ConnectionState) (peerId p : PeerId) :
    addressesOf { s with directAddresses := s.directAddresses.erase peerId } p =
      if p = peerId then [] else s.addressesOf p := by
  unfold addressesOf
  by_cases hp : p = peerId
  · subst hp
    rw [if_pos rfl, AList.lookup_erase, Option.getD_none]
  · rw [if_neg hp, AList.lookup_erase_ne hp]

theorem addressesOf_rememberDirectAddresses (s : ConnectionState) (peerId : PeerId)
    (addresses : List Multiaddr) (p : PeerId) :
    (s.rememberDirectAddresses peerId addresses).2.addressesOf p =
      if p = peerId then
        (addresses.filterMap (Multiaddr.normalizeDirectPeerAddress peerId)).foldl
          (fun known address => known.insert address) (s.addressesOf peerId)
      else s.addressesOf p := by
  unfold rememberDirectAddresses
  dsimp only
  split
  · rename_i hnone
    rw [hnone, List.foldl_nil]
    split
    · rename_i hp
      rw [hp]
    · rfl
  · exact s.addressesOf_insert peerId _ p

theorem addressesOf_forgetDirectAddress (s : ConnectionState) (peerId : PeerId)
    (address : Multiaddr) (p : PeerId) :
    (s.forgetDirectAddress peerId address).2.addressesOf p =
      if p = peerId then
        (s.addressesOf peerId).filter (· ∉ address.normalizeDirectPeerAddress peerId)
      else s.addressesOf p := by
  unfold forgetDirectAddress
  cases hnormal : address.normalizeDirectPeerAddress peerId with
  | none =>
    simp only [Option.not_mem_none, not_false_eq_true, decide_true, List.filter_true]
    split
    · rename_i hp
      rw [hp]
    · rfl
  | some normal =>
    dsimp only
    cases hknown : s.directAddresses.lookup peerId with
    | none =>
      dsimp only
      split
      · rename_i hp
        subst hp
        simp [addressesOf, hknown]
      · rfl
    | some known =>
      have hfilter : (s.addressesOf peerId).filter (· ∉ some normal) =
          known.filter (· != normal) := by
        rw [addressesOf, hknown, Option.getD_some]
        refine List.filter_congr fun a _ => ?_
        have hother : a ∉ some normal ↔ a ≠ normal := by
          rw [Option.mem_some_iff, ne_comm]
        exact Bool.eq_iff_iff.2 (decide_eq_true_iff.trans (hother.trans bne_iff_ne.symm))
      rw [hfilter]
      dsimp only
      split
      · rename_i hempty
        rw [hempty]
        exact s.addressesOf_erase peerId p
      · exact s.addressesOf_insert peerId _ p

theorem addressesOf_briefed_closed (s : ConnectionState) (peerId : PeerId)
    (connectionId : ConnectionId) (wasRelayed : Bool) (remainingEstablished : Nat) (p : PeerId) :
    (s.briefed (.connectionClosed peerId connectionId wasRelayed remainingEstablished)).addressesOf
        p =
      match remainingEstablished with
      | 0 => if p = peerId then [] else s.addressesOf p
      | _ + 1 => s.addressesOf p := by
  obtain ⟨routes, relayHandoffs, hclosed⟩ := s.closeRoute_eq peerId connectionId wasRelayed
  unfold briefed informed
  dsimp only
  rw [hclosed]
  cases remainingEstablished with
  | zero => exact s.addressesOf_erase peerId p
  | succ remaining => rfl

theorem KnowsAddresses.of_eq (h : s.KnowsAddresses peerId known) {s' : ConnectionState}
    (heq : s'.addressesOf peerId = s.addressesOf peerId) : s'.KnowsAddresses peerId known :=
  ⟨heq ▸ h.nodup, heq ▸ h.toFinset, h.normal⟩

/-- What a call tells of the addresses of a peer is recorded. -/
theorem KnowsAddresses.briefed (h : s.KnowsAddresses peerId known) (call : ConnectionCall) :
    (s.briefed call).KnowsAddresses peerId (call.addressesAfter peerId known) := by
  cases call with
  | learnDirectAddresses p addresses =>
    unfold ConnectionCall.addressesAfter
    have hlearnt := s.addressesOf_rememberDirectAddresses p addresses peerId
    by_cases hp : p = peerId
    · subst hp
      rw [if_pos rfl] at hlearnt
      dsimp only
      rw [if_pos rfl]
      refine ⟨?_, ?_, fun address hmem => ?_⟩
      · exact hlearnt ▸ nodup_foldl_insert h.nodup _
      · ext a
        refine List.mem_toFinset.trans ?_
        rw [Finset.mem_union, ← h.toFinset, List.mem_toFinset, List.mem_toFinset,
          ← mem_foldl_insert]
        exact hlearnt ▸ Iff.rfl
      · rcases Finset.mem_union.1 hmem with hmem | hmem
        · exact h.normal address hmem
        · obtain ⟨raw, -, hraw⟩ := List.mem_filterMap.1 (List.mem_toFinset.1 hmem)
          exact Multiaddr.normalizeDirectPeerAddress_self hraw
    · rw [if_neg (Ne.symm hp)] at hlearnt
      dsimp only
      rw [if_neg hp]
      exact h.of_eq hlearnt
  | forgetDirectAddress p address =>
    unfold ConnectionCall.addressesAfter
    have hforgotten := s.addressesOf_forgetDirectAddress p address peerId
    by_cases hp : p = peerId
    · subst hp
      rw [if_pos rfl] at hforgotten
      dsimp only
      rw [if_pos rfl]
      refine ⟨?_, ?_, fun address hmem => h.normal address (Finset.mem_sdiff.1 hmem).1⟩
      · exact hforgotten ▸ h.nodup.filter _
      · ext a
        refine List.mem_toFinset.trans ?_
        rw [Finset.mem_sdiff, ← h.toFinset, List.mem_toFinset, Option.mem_toFinset]
        exact hforgotten ▸ List.mem_filter.trans (and_congr_right fun _ => decide_eq_true_iff)
    · rw [if_neg (Ne.symm hp)] at hforgotten
      dsimp only
      rw [if_neg hp]
      exact h.of_eq hforgotten
  | connectionClosed p connectionId wasRelayed remainingEstablished =>
    have hclosed := s.addressesOf_briefed_closed p connectionId wasRelayed remainingEstablished
    cases remainingEstablished with
    | succ remaining => exact h.of_eq (hclosed peerId)
    | zero =>
      have hgone : _ = if peerId = p then [] else _ := hclosed peerId
      have hafter : ConnectionCall.addressesAfter peerId known
          (.connectionClosed p connectionId wasRelayed 0) = if p = peerId then ∅ else known := rfl
      rw [hafter]
      by_cases hp : p = peerId
      · subst hp
        rw [if_pos rfl] at hgone
        rw [if_pos rfl]
        exact ⟨hgone ▸ List.nodup_nil, hgone ▸ List.toFinset_nil,
          fun _ hmem => absurd hmem (Finset.notMem_empty _)⟩
      · rw [if_neg (Ne.symm hp)] at hgone
        rw [if_neg hp]
        exact h.of_eq hgone
  | chatUnsubscribed p =>
    unfold ConnectionState.briefed informed chatUnsubscribed
    dsimp only
    split
    · exact ⟨h.nodup, h.toFinset, h.normal⟩
    · exact ⟨h.nodup, h.toFinset, h.normal⟩
  | _ => exact ⟨h.nodup, h.toFinset, h.normal⟩

end ConnectionState

/-- The addresses known of a peer after a history: those learnt and not forgotten since its last
connection was closed. -/
def knownAddresses (peerId : PeerId) (inputs : List ConnectionInput) : Finset Multiaddr :=
  inputs.foldl (fun known input => input.call.addressesAfter peerId known) ∅

theorem knownAddresses_snoc (peerId : PeerId) (inputs : List ConnectionInput)
    (input : ConnectionInput) : knownAddresses peerId (inputs ++ [input]) =
      input.call.addressesAfter peerId (knownAddresses peerId inputs) :=
  List.foldl_concat ..

/-! ## Waiting -/

/-- The call says that the last connection to a peer is closed. -/
def ConnectionCall.isLast (peerId : PeerId) : ConnectionCall → Bool
  | connectionClosed p _ _ 0 => p = peerId
  | _ => false

/-- The subscription of a peer began to be waited for at a time, and the peer has not left
since. -/
def WaitedFor (localPeerId peerId : PeerId) (inputs : List ConnectionInput) (t : Instant) : Prop :=
  ∃ past input later, inputs = past ++ input :: later ∧ input.now = t ∧
    (replyTo localPeerId (past ++ [input])).state.warmups.lookup peerId = some t ∧
    ∀ call ∈ later.map ConnectionInput.call, call.isLast peerId = false

section WaitedFor

variable {localPeerId peerId : PeerId} {inputs : List ConnectionInput} {input : ConnectionInput}
  {t : Instant}

/-- A wait goes on until the peer leaves. -/
theorem WaitedFor.extend (h : WaitedFor localPeerId peerId inputs t)
    (hstays : input.call.isLast peerId = false) :
    WaitedFor localPeerId peerId (inputs ++ [input]) t := by
  obtain ⟨past, first, later, rfl, htime, hbegan, hlater⟩ := h
  refine ⟨past, first, later ++ [input], by simp, htime, hbegan, fun call hcall => ?_⟩
  rw [List.map_append, List.mem_append] at hcall
  rcases hcall with hcall | hcall
  · exact hlater call hcall
  · rw [List.mem_singleton.1 hcall]
    exact hstays

/-- A wait begins. -/
theorem WaitedFor.start
    (h : (replyTo localPeerId (inputs ++ [input])).state.warmups.lookup peerId =
      some input.now) : WaitedFor localPeerId peerId (inputs ++ [input]) input.now :=
  ⟨inputs, input, [], rfl, rfl, h, fun _ hcall => absurd hcall List.not_mem_nil⟩

end WaitedFor

namespace ConnectionState

/-- A call tells of no waits, except that it ends those for a peer that leaves. -/
theorem waits_briefed (s : ConnectionState) (call : ConnectionCall) (peerId : PeerId) :
    (call.isLast peerId = false ∧
        (s.briefed call).warmups.lookup peerId = s.warmups.lookup peerId ∧
        (peerId ∈ (s.briefed call).warmupCompleted ↔ peerId ∈ s.warmupCompleted)) ∨
      (s.briefed call).warmups.lookup peerId = none ∧
        peerId ∉ (s.briefed call).warmupCompleted := by
  cases call with
  | learnDirectAddresses p addresses =>
    obtain ⟨directAddresses, hlearnt⟩ := s.rememberDirectAddresses_frame p addresses
    rw [briefed, hlearnt]
    exact .inl ⟨rfl, rfl, Iff.rfl⟩
  | forgetDirectAddress p address =>
    obtain ⟨directAddresses, hforgotten⟩ := s.forgetDirectAddress_frame p address
    rw [briefed, hforgotten]
    exact .inl ⟨rfl, rfl, Iff.rfl⟩
  | connectionClosed p connectionId wasRelayed remainingEstablished =>
    obtain ⟨routes, relayHandoffs, hclosed⟩ := s.closeRoute_eq p connectionId wasRelayed
    unfold briefed informed
    dsimp only
    rw [hclosed]
    cases remainingEstablished with
    | succ remaining => exact .inl ⟨rfl, rfl, Iff.rfl⟩
    | zero =>
      by_cases hp : p = peerId
      · subst hp
        exact .inr ⟨AList.lookup_erase _ _, Finset.notMem_erase _ _⟩
      · refine .inl ⟨decide_eq_false hp, AList.lookup_erase_ne (Ne.symm hp), ?_⟩
        exact Finset.mem_erase.trans (and_iff_right (Ne.symm hp))
  | chatUnsubscribed p =>
    unfold briefed informed chatUnsubscribed
    dsimp only
    split
    · exact .inl ⟨rfl, rfl, Iff.rfl⟩
    · exact .inl ⟨rfl, rfl, Iff.rfl⟩
  | _ => exact .inl ⟨rfl, rfl, Iff.rfl⟩

/-- A call does not tell of attempts. -/
theorem backoffOf_briefed (s : ConnectionState) (call : ConnectionCall) (peerId : PeerId) :
    (s.briefed call).backoffOf peerId = s.backoffOf peerId := by
  cases call with
  | learnDirectAddresses p addresses =>
    obtain ⟨directAddresses, hlearnt⟩ := s.rememberDirectAddresses_frame p addresses
    rw [briefed, hlearnt]
    rfl
  | forgetDirectAddress p address =>
    obtain ⟨directAddresses, hforgotten⟩ := s.forgetDirectAddress_frame p address
    rw [briefed, hforgotten]
    rfl
  | _ => rfl

/-! ## Histories -/

/-- What a call enters into the ledger of a peer: its news, then its dials. -/
def retryEvents (s : ConnectionState) (peerId : PeerId) (input : ConnectionInput) :
    List RetryEvent :=
  newsOf (s.news input.now input.call) peerId ++
    dialEvents peerId input.now (s.call input.now input.call).effects

end ConnectionState

/-- What a history enters into the ledger of a peer. -/
def promotionTrace (peerId : PeerId) : ConnectionState → List ConnectionInput → List RetryEvent
  | _, [] => []
  | s, input :: inputs =>
    s.retryEvents peerId input ++ promotionTrace peerId (s.call input.now input.call).state inputs

theorem promotionTrace_append (peerId : PeerId) (s : ConnectionState)
    (inputs later : List ConnectionInput) : promotionTrace peerId s (inputs ++ later) =
      promotionTrace peerId s inputs ++ promotionTrace peerId
        (inputs.foldl (fun s input => (s.call input.now input.call).state) s) later := by
  induction inputs generalizing s with
  | nil => rfl
  | cons input inputs ih =>
    rw [List.cons_append, promotionTrace, promotionTrace, ih, List.append_assoc, List.foldl_cons]

theorem replyTo_state (localPeerId : PeerId) (inputs : List ConnectionInput) :
    (replyTo localPeerId inputs).state =
      inputs.foldl (fun s input => (s.call input.now input.call).state) (.new localPeerId) := by
  induction inputs using List.reverseRecOn with
  | nil => rfl
  | append_singleton inputs input ih =>
    rw [replyTo_snoc, List.foldl_concat, ← ih]
    rfl

theorem promotionTrace_snoc (localPeerId peerId : PeerId) (inputs : List ConnectionInput)
    (input : ConnectionInput) : promotionTrace peerId (.new localPeerId) (inputs ++ [input]) =
      promotionTrace peerId (.new localPeerId) inputs ++
        (replyTo localPeerId inputs).state.retryEvents peerId input := by
  rw [promotionTrace_append, replyTo_state, promotionTrace, promotionTrace, List.append_nil]

/-- What is true of a peer after every history. -/
structure Follows (localPeerId peerId : PeerId) (inputs : List ConnectionInput)
    (s : ConnectionState) : Prop where
  /-- Its addresses are known. -/
  addresses : s.KnowsAddresses peerId (knownAddresses peerId inputs)
  /-- When it is waited for, it has been so since the time on record. -/
  warmups : ∀ t ∈ s.warmups.lookup peerId, WaitedFor localPeerId peerId inputs t
  /-- When it has been waited for in vain, that was for long enough. -/
  completed : peerId ∈ s.warmupCompleted → ∃ t, WaitedFor localPeerId peerId inputs t ∧
    ∃ input ∈ inputs, t + gossipWarmupTimeout ≤ input.now
  /-- Every attempt was allowed. -/
  respects : RetryLedger.Respects promotionPolicy (promotionTrace peerId (.new localPeerId) inputs)
  /-- The backoff follows the ledger. -/
  backoff : (s.backoffOf peerId).Matches
    (.after promotionPolicy (promotionTrace peerId (.new localPeerId) inputs))

/-- A peer that has been waited for in vain has been so for long enough. -/
theorem Follows.waited {localPeerId peerId : PeerId} {inputs : List ConnectionInput}
    {s : ConnectionState} (h : Follows localPeerId peerId inputs s) {input : ConnectionInput}
    (hwarmed : (s.briefed input.call).WarmedUp peerId input.now) :
    ∃ t, WaitedFor localPeerId peerId (inputs ++ [input]) t ∧
      ∃ i ∈ inputs ++ [input], t + gossipWarmupTimeout ≤ i.now := by
  rcases s.waits_briefed input.call peerId with ⟨hstays, hwarmups, hcompleted⟩ | ⟨hnone, hnot⟩
  · rcases hwarmed with hmem | ⟨t, ht, hexpired⟩
    · obtain ⟨t, hwaited, i, hi, hlong⟩ := h.completed (hcompleted.1 hmem)
      exact ⟨t, hwaited.extend hstays, i, List.mem_append_left _ hi, hlong⟩
    · rw [hwarmups] at ht
      have hlong : gossipWarmupTimeout ≤ input.now - t := of_decide_eq_true hexpired
      have hpositive : 0 < gossipWarmupTimeout := by decide
      have hpast : t < input.now := Nat.sub_pos_iff_lt.1 (Nat.lt_of_lt_of_le hpositive hlong)
      refine ⟨t, (h.warmups t ht).extend hstays, input, by simp, ?_⟩
      rw [Nat.add_comm]
      exact Nat.add_le_of_le_sub (Nat.le_of_lt hpast) hlong
  · rcases hwarmed with hmem | ⟨t, ht, -⟩
    · exact absurd hmem hnot
    · rw [hnone] at ht
      cases ht

/-- One more call. -/
theorem Follows.snoc {localPeerId peerId : PeerId} {inputs : List ConnectionInput}
    (h : Follows localPeerId peerId inputs (replyTo localPeerId inputs).state)
    (input : ConnectionInput) :
    Follows localPeerId peerId (inputs ++ [input])
      (replyTo localPeerId (inputs ++ [input])).state := by
  let s := (replyTo localPeerId inputs).state
  have hcall := s.call_answers input.now input.call
  have hstate : (replyTo localPeerId (inputs ++ [input])).state =
      (s.call input.now input.call).state := by
    rw [replyTo_snoc]
    rfl
  obtain ⟨hrespects, hbackoff⟩ := hcall.ledger peerId _
    (s.backoffOf_briefed input.call peerId ▸ h.backoff)
  refine ⟨?_, fun t ht => ?_, fun hmem => h.waited (hcall.completed peerId (hstate ▸ hmem)),
    ?_, ?_⟩
  · rw [knownAddresses_snoc, hstate]
    refine (h.addresses.briefed input.call).of_eq ?_
    rw [ConnectionState.addressesOf, ConnectionState.addressesOf, hcall.addresses]
  · have hrecorded : (s.call input.now input.call).state.warmups.lookup peerId = some t :=
      hstate ▸ ht
    rcases hcall.warmups peerId t hrecorded with hbefore | rfl
    · rcases s.waits_briefed input.call peerId with ⟨hstays, hwarmups, -⟩ | ⟨hnone, -⟩
      · exact (h.warmups t (hwarmups ▸ hbefore)).extend hstays
      · rw [hnone] at hbefore
        cases hbefore
    · exact .start ht
  · rw [promotionTrace_snoc, RetryLedger.Respects.append_iff]
    exact ⟨h.respects, hrespects⟩
  · rw [promotionTrace_snoc, RetryLedger.after_append, hstate]
    exact hbackoff

theorem follows (localPeerId peerId : PeerId) (inputs : List ConnectionInput) :
    Follows localPeerId peerId inputs (replyTo localPeerId inputs).state := by
  induction inputs using List.reverseRecOn with
  | nil =>
    refine ⟨⟨List.nodup_nil, rfl, fun _ hmem => absurd hmem (Finset.notMem_empty _)⟩,
      fun t ht => ?_, fun hmem => absurd hmem (Finset.notMem_empty _), trivial,
      DirectPromotionBackoff.matches_new⟩
    cases ht
  | append_singleton inputs input ih => exact ih.snoc input

/-! ## Dials -/

/-- The calls come in the order of their times. -/
def InOrder (inputs : List ConnectionInput) : Prop :=
  inputs.Pairwise fun earlier later => earlier.now ≤ later.now

instance (inputs : List ConnectionInput) : Decidable (InOrder inputs) := by
  unfold InOrder
  infer_instance

theorem ConnectionState.isRelayOnly_iff {s : ConnectionState} {peerId : PeerId} :
    s.isRelayOnly peerId = true ↔ s.hasRelayed peerId = true ∧ s.hasDirect peerId = false := by
  unfold isRelayOnly hasRelayed hasDirect PeerConnectionRoutes.isRelayOnly
  cases s.routes.lookup peerId with
  | none => simp
  | some routes => simp [and_comm]

/-- The dials of a peer in one call are attempts at that time. -/
theorem dialEvents_eq_cons {effects : List ConnectionEffect} {peerId : PeerId}
    {addresses : List Multiaddr} (h : .dialDirect peerId addresses ∈ effects) (now : Instant) :
    ∃ later, dialEvents peerId now effects = .attempt now :: later := by
  have hmem : RetryEvent.attempt now ∈ dialEvents peerId now effects :=
    List.mem_filterMap.2 ⟨_, h, if_pos rfl⟩
  cases hevents : dialEvents peerId now effects with
  | nil =>
    rw [hevents] at hmem
    cases hmem
  | cons event later =>
    have hfirst : event ∈ dialEvents peerId now effects := hevents ▸ List.mem_cons_self
    obtain ⟨effect, -, heffect⟩ := List.mem_filterMap.1 hfirst
    refine ⟨later, ?_⟩
    cases effect with
    | dialDirect p a =>
      dsimp only at heffect
      split at heffect
      · cases heffect
        rfl
      · cases heffect
    | _ => cases heffect

/-- In every history with times in order, a peer is dialled only when it has relayed connections
and no direct one, at exactly its known addresses, normalised and at least one, when it has
subscribed or has been waited for since it was last gone, and when the ledger allows it: since the
last reset no attempt is pending, fewer failures than the limit have been counted, and the interval
that goes with their number has passed.  Failures soon after a counted one are not counted, and
once the limit is reached there is no dial before a reset. -/
theorem direct_dials_respect (localPeerId peerId : PeerId) {inputs : List ConnectionInput}
    {input : ConnectionInput} (h : InOrder (inputs ++ [input])) :
    let s := (replyTo localPeerId inputs).state
    let reply := s.call input.now input.call
    let trace := promotionTrace peerId (.new localPeerId) inputs ++
      newsOf (s.news input.now input.call) peerId
    let ledger := RetryLedger.after promotionPolicy trace
    (∀ addresses, .dialDirect peerId addresses ∈ reply.effects →
        (reply.state.hasRelayed peerId = true ∧ reply.state.hasDirect peerId = false) ∧
        (addresses ≠ [] ∧ addresses.Nodup ∧
          addresses.toFinset = knownAddresses peerId (inputs ++ [input]) ∧
          ∀ address ∈ addresses, address.normalizeDirectPeerAddress peerId = some address) ∧
        (peerId ∈ reply.state.chatSubscribers ∨
          ∃ t, WaitedFor localPeerId peerId (inputs ++ [input]) t ∧
            t + gossipWarmupTimeout ≤ input.now) ∧
        ledger.Allows promotionPolicy (.attempt input.now) ∧
        ∀ past between, trace = past ++ between →
          directPromotionMaxFailures ≤ (RetryLedger.after promotionPolicy past).counted.length →
            .reset ∈ between) ∧
      (∀ now, ∀ last ∈ ledger.counted, now < last + directPromotionFailureDedupWindow →
        (ledger.next promotionPolicy (.failed now)).counted = ledger.counted) ∧
      (reply.state.backoffOf peerId).failures =
        min (RetryLedger.after promotionPolicy (promotionTrace peerId (.new localPeerId)
          (inputs ++ [input]))).counted.length u32Max := by
  intro s reply trace ledger
  have hfollows := follows localPeerId peerId inputs
  have hnext := hfollows.snoc input
  have hcall := s.call_answers input.now input.call
  have hwindow : 0 < promotionPolicy.window := by decide
  have hstate : (replyTo localPeerId (inputs ++ [input])).state = reply.state := by
    rw [replyTo_snoc]
    rfl
  refine ⟨fun addresses hdial => ?_, fun now last hlast hsoon => ?_, ?_⟩
  · obtain ⟨hrelayed, ⟨known, hknown, hnonempty, rfl⟩, hready⟩ :=
      hcall.dials peerId addresses hdial
    obtain ⟨later, hattempt⟩ := dialEvents_eq_cons hdial input.now
    have htrace : promotionTrace peerId (.new localPeerId) (inputs ++ [input]) =
        trace ++ .attempt input.now :: later := by
      rw [promotionTrace_snoc, ConnectionState.retryEvents, hattempt, List.append_assoc]
    have hrespects := hnext.respects
    rw [htrace] at hrespects
    refine ⟨?_, ?_, ?_, (RetryLedger.Respects.append_iff.1 hrespects).2.1,
      fun past between hbetween hlimit => ?_⟩
    · rw [← ConnectionState.isRelayOnly_iff, ConnectionState.isRelayOnly, hcall.routes]
      exact hrelayed
    · have hlist : known = (s.briefed input.call).addressesOf peerId := by
        rw [ConnectionState.addressesOf, hknown, Option.getD_some]
      have hperm : (prioritizeMultiaddrs known).Perm known := List.perm_insertionSort _ _
      obtain ⟨hnodup, htoFinset, hnormal⟩ := hfollows.addresses.briefed input.call
      rw [← hlist] at hnodup htoFinset
      rw [knownAddresses_snoc]
      refine ⟨fun hnil => hnonempty ?_, hperm.nodup_iff.2 hnodup,
        (List.toFinset_eq_of_perm _ _ hperm).trans htoFinset, fun address hmem => hnormal _ ?_⟩
      · rw [hnil] at hperm
        exact hperm.symm.eq_nil
      · rw [← htoFinset, List.mem_toFinset]
        exact hperm.mem_iff.1 hmem
    · refine hready.imp (fun hsubscribed => hcall.subscribers ▸ hsubscribed) fun hwarmed => ?_
      obtain ⟨t, hwaited, i, hi, hlong⟩ := hfollows.waited hwarmed
      refine ⟨t, hwaited, Nat.le_trans hlong ?_⟩
      rcases List.mem_append.1 hi with hi | hi
      · exact (List.pairwise_append.1 h).2.2 i hi input List.mem_cons_self
      · rw [List.mem_singleton.1 hi]
    · rw [hbetween, List.append_assoc] at hrespects
      have hsince := (RetryLedger.Respects.append_iff.1 hrespects).2
      rw [List.append_cons] at hsince
      exact RetryLedger.reset_mem_of_limit (Along.append_iff.1 hsince).1 hlimit
  · exact (RetryLedger.spaced_after hwindow trace).counted_next_failed hwindow hlast hsoon
  · rw [← hstate]
    exact hnext.backoff.failures

/-- An address of the peer. -/
def hostAddress : Multiaddr := ⟨[.ip4 0x01020304#32, .other], "/ip4/1.2.3.4/tcp/4001"⟩

/-- A peer is reached through a relay, its address is learnt, and it is waited for. -/
def patience : List ConnectionInput := [
  ⟨millis 0, .connectionEstablished "b" 1 true false⟩,
  ⟨millis 500, .learnDirectAddresses "b" [hostAddress]⟩]

/-- The timer after the wait. -/
def waitOver : ConnectionInput := ⟨millis 6000, .warmupTick .asListed⟩

/-- The peer is dialled when the wait is over, and has been waited for. -/
theorem direct_dials_respect_patience :
    .dialDirect "b" [hostAddress.withPeer "b"] ∈
        ((replyTo "a" patience).state.call waitOver.now waitOver.call).effects ∧
      ∃ t, WaitedFor "a" "b" (patience ++ [waitOver]) t ∧
        t + gossipWarmupTimeout ≤ waitOver.now := by
  have hdial : .dialDirect "b" [hostAddress.withPeer "b"] ∈
      ((replyTo "a" patience).state.call waitOver.now waitOver.call).effects := by
    decide +kernel
  have horder : InOrder (patience ++ [waitOver]) := by decide
  refine ⟨hdial, ((direct_dials_respect "a" "b" horder).1 _ hdial).2.2.1.resolve_left ?_⟩
  decide +kernel

/-! ## Answers to dials -/

/-- The call says that a direct connection to a peer has been opened. -/
def ConnectionCall.opensDirect (peerId : PeerId) : ConnectionCall → Bool
  | connectionEstablished p _ false _ => p = peerId
  | _ => false

/-- The call answers a dial of a peer: a direct connection has been opened, or the dial has
failed. -/
def ConnectionCall.answersDial (peerId : PeerId) : ConnectionCall → Bool
  | outgoingConnectionError p _ | recordDirectPromotionFailure p _ => p = peerId
  | call => call.opensDirect peerId

namespace ConnectionState

variable {s : ConnectionState} {peerId : PeerId} {now : Instant} {call : ConnectionCall}

/-- An answer is no reason to dial the peer. -/
theorem dialEvents_answer (h : call.answersDial peerId = true) :
    dialEvents peerId now (s.call now call).effects = [] := by
  cases call with
  | connectionEstablished p connectionId isRelayed isRendezvousNode =>
    cases isRelayed with
    | true => cases h
    | false =>
      have hp : p = peerId := of_decide_eq_true h
      subst hp
      -- a peer with a direct connection is not dialled
      have hdirect : (s.addRoute p connectionId false).hasDirect p = true := by
        rw [hasDirect_eq, routesOf_addRoute, if_pos rfl]
        simp [PeerConnectionRoutes.add, PeerConnectionRoutes.hasDirect]
      refine List.filterMap_eq_nil_iff.2 fun effect heffect => ?_
      cases effect with
      | dialDirect q addresses =>
        refine if_neg ?_
        rintro rfl
        obtain ⟨hrelayed, -⟩ := (s.call_answers now _).dials q addresses heffect
        have hnone := (isRelayOnly_iff.1 hrelayed).2
        exact absurd (hnone.symm.trans hdirect) Bool.false_ne_true
      | _ => rfl
  | outgoingConnectionError p reason =>
    refine dialEvents_eq_nil ?_ peerId now
    change ∀ q a, .dialDirect q a ∉ (s.outgoingConnectionError p reason now).effects
    unfold outgoingConnectionError
    split
    · obtain ⟨effects, suspendedReported, hreply, heffects⟩ :=
        s.recordDirectPromotionFailure_eq p now reason
      rw [hreply]
      exact heffects
    · simp
  | recordDirectPromotionFailure p reason =>
    refine dialEvents_eq_nil ?_ peerId now
    change ∀ q a, .dialDirect q a ∉ (s.recordDirectPromotionFailure p reason now).effects
    obtain ⟨effects, suspendedReported, hreply, heffects⟩ :=
      s.recordDirectPromotionFailure_eq p now reason
    rw [hreply]
    exact heffects
  | _ => cases h

/-- An answer ends the flight of a dial, unless it is a direct connection that may not stay. -/
theorem inFlight_answer {l : RetryLedger} (hl : (s.backoffOf peerId).Matches l)
    (h : call.answersDial peerId = true) :
    ((s.call now call).state.backoffOf peerId).inFlight = false ↔
      (call.opensDirect peerId = true → (s.backoffOf peerId).inFlight = true →
        s.AcceptsDirect peerId now) := by
  have hafter := ((s.call_answers now call).ledger peerId l
    (s.backoffOf_briefed call peerId ▸ hl)).2.inFlight
  rw [dialEvents_answer h, List.append_nil] at hafter
  rw [hafter]
  have hpending := hl.inFlight
  cases call with
  | connectionEstablished p connectionId isRelayed isRendezvousNode =>
    cases isRelayed with
    | true => cases h
    | false =>
      have hp : p = peerId := of_decide_eq_true h
      subst hp
      have hnews : s.news now (.connectionEstablished p connectionId false isRendezvousNode) =
        if s.AcceptsDirect p now then some (p, .reset) else none := rfl
      rw [hnews]
      by_cases haccepts : s.AcceptsDirect p now
      · rw [if_pos haccepts, newsOf_some, if_pos rfl]
        exact iff_of_true rfl fun _ _ => haccepts
      · rw [if_neg haccepts, newsOf, List.foldl_nil, ← hpending]
        simp [ConnectionCall.opensDirect, haccepts]
  | outgoingConnectionError p reason =>
    have hp : p = peerId := of_decide_eq_true h
    subst hp
    refine iff_of_true ?_ fun hopens => by cases hopens
    unfold news
    dsimp only
    split
    · rw [newsOf_some, if_pos rfl]
      rfl
    · rename_i hidle
      rw [newsOf, List.foldl_nil, ← hpending]
      exact Bool.eq_false_iff.2 hidle
  | recordDirectPromotionFailure p reason =>
    have hp : p = peerId := of_decide_eq_true h
    subst hp
    refine iff_of_true ?_ fun hopens => by cases hopens
    unfold news
    rw [newsOf_some, if_pos rfl]
    rfl
  | _ => cases h

end ConnectionState

/-- In a history every answer to a dial of a peer leaves it without a dial in flight exactly when
every direct connection that is opened while one is in flight may stay. -/
theorem dial_answered_iff (localPeerId peerId : PeerId) (inputs : List ConnectionInput) :
    (∀ past answer later, inputs = past ++ answer :: later →
        answer.call.answersDial peerId = true →
          ((replyTo localPeerId (past ++ [answer])).state.backoffOf peerId).inFlight = false) ↔
      ∀ past answer later, inputs = past ++ answer :: later →
        answer.call.opensDirect peerId = true →
          ((replyTo localPeerId past).state.backoffOf peerId).inFlight = true →
            (replyTo localPeerId past).state.AcceptsDirect peerId answer.now := by
  have hanswer : ∀ past (answer : ConnectionInput), answer.call.answersDial peerId = true →
      (((replyTo localPeerId (past ++ [answer])).state.backoffOf peerId).inFlight = false ↔
        (answer.call.opensDirect peerId = true →
          ((replyTo localPeerId past).state.backoffOf peerId).inFlight = true →
            (replyTo localPeerId past).state.AcceptsDirect peerId answer.now)) := by
    intro past answer h
    rw [replyTo_snoc]
    exact ConnectionState.inFlight_answer (follows localPeerId peerId past).backoff h
  have hopens : ∀ call : ConnectionCall, call.opensDirect peerId = true →
      call.answersDial peerId = true := by
    intro call h
    cases call <;> first | exact h | cases h
  refine ⟨fun h past answer later hinputs hdirect => ?_,
    fun h past answer later hinputs hanswers => ?_⟩
  · have hanswers := hopens _ hdirect
    exact (hanswer past answer hanswers).1 (h past answer later hinputs hanswers) hdirect
  · exact (hanswer past answer hanswers).2 (h past answer later hinputs)

/-- A peer is dialled when it subscribes, and unsubscribes before the dial is answered. -/
def secondThoughts : List ConnectionInput := [
  ⟨millis 0, .connectionEstablished "b" 1 true false⟩,
  ⟨millis 500, .learnDirectAddresses "b" [hostAddress]⟩,
  ⟨millis 1000, .chatSubscribed "b"⟩,
  ⟨millis 1500, .chatUnsubscribed "b"⟩]

/-- The dial succeeds. -/
def opened : ConnectionInput := ⟨millis 2000, .connectionEstablished "b" 2 false false⟩

/-- The new connection closes again, the peer subscribes once more, and the timer goes off long
after. -/
def aftermath : List ConnectionInput := [
  ⟨millis 2100, .connectionClosed "b" 2 false 1⟩,
  ⟨millis 700000, .chatSubscribed "b"⟩,
  ⟨millis 1400000, .promotionTick .asListed⟩]

/-- The new connection is closed early, the dial stays in flight, and no other follows. -/
theorem secondThoughts_stays_in_flight :
    .dialDirect "b" [hostAddress.withPeer "b"] ∈ (replyTo "a" secondThoughts).effects ∧
      opened.call.answersDial "b" = true ∧
      .closeEarlyDirectConnection "b" 2 ∈ (replyTo "a" (secondThoughts ++ [opened])).effects ∧
      ((replyTo "a" (secondThoughts ++ [opened])).state.backoffOf "b").inFlight = true ∧
      promotionTrace "b" (.new "a") (secondThoughts ++ opened :: aftermath) =
        promotionTrace "b" (.new "a") secondThoughts := by
  decide +kernel

end LightEar
