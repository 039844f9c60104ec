import LightEar.DirectPromotion

/-!
# The direct addresses of the peers

An address that is learnt or forgotten is normalised first: relayed addresses, those that name no
host and those of other peers are turned away, and the peer is added where it is not named.  What
comes out is normal (`Multiaddr.IsNormal`), and a normal address stays as it is.

So the recorded addresses are normal after every history, and no peer is recorded without one
(`IsNormalTable`).  Forgetting undoes learning, as both normalise (`lookup_forget_learn`).
-/

namespace LightEar

open Foundation

/-! ## Normal addresses -/

namespace Multiaddr

/-- An address leads directly to a peer, and names this peer and no other. -/
structure IsNormal (address : Multiaddr) (peerId : PeerId) : Prop where
  /-- It leads through no relay. -/
  circuit : .p2pCircuit ∉ address.protocols
  /-- It names a host. -/
  ip4 : .ip4 0 ∉ address.protocols
  /-- It names a host in the other protocol, too. -/
  ip6 : .ip6 0 ∉ address.protocols
  /-- It names no other peer. -/
  peers : ∀ p, .p2p p ∈ address.protocols → p = peerId
  /-- It names the peer. -/
  named : .p2p peerId ∈ address.protocols

variable {address normal : Multiaddr} {peerId : PeerId}

theorem mem_peers {p : PeerId} : p ∈ address.peers ↔ .p2p p ∈ address.protocols := by
  unfold peers
  rw [List.mem_filterMap]
  constructor
  · rintro ⟨protocol, hmem, hpeer⟩
    cases protocol with
    | p2p q => exact Option.some.inj hpeer ▸ hmem
    | _ => cases hpeer
  · intro hmem
    exact ⟨_, hmem, rfl⟩

theorem isRelayAddress_iff : address.isRelayAddress = true ↔ .p2pCircuit ∈ address.protocols :=
  List.contains_iff_mem

theorem isUnspecifiedIpAddress_iff :
    address.isUnspecifiedIpAddress = true ↔
      .ip4 0 ∈ address.protocols ∨ .ip6 0 ∈ address.protocols := by
  unfold isUnspecifiedIpAddress
  rw [List.any_eq_true]
  constructor
  · rintro ⟨protocol, hmem, hzero⟩
    cases protocol with
    | ip4 host => exact .inl (beq_iff_eq.1 hzero ▸ hmem)
    | ip6 host => exact .inr (beq_iff_eq.1 hzero ▸ hmem)
    | _ => cases hzero
  · rintro (hmem | hmem)
    · exact ⟨_, hmem, rfl⟩
    · exact ⟨_, hmem, rfl⟩

/-- A normal address is as it should be. -/
theorem IsNormal.normalizeDirectPeerAddress (h : normal.IsNormal peerId) :
    normal.normalizeDirectPeerAddress peerId = some normal := by
  have hdirect : ¬ (normal.isRelayAddress || normal.isUnspecifiedIpAddress) = true := by
    rw [Bool.or_eq_true, isRelayAddress_iff, isUnspecifiedIpAddress_iff]
    rintro (hcircuit | hip4 | hip6)
    · exact h.circuit hcircuit
    · exact h.ip4 hip4
    · exact h.ip6 hip6
  have hothers : ¬ (normal.peers.any (· != peerId)) = true := by
    rw [List.any_eq_true]
    rintro ⟨p, hmem, hother⟩
    exact bne_iff_ne.1 hother (h.peers p (mem_peers.1 hmem))
  have hnamed : ¬ normal.peers.isEmpty = true := by
    rw [List.isEmpty_iff]
    exact List.ne_nil_of_mem (mem_peers.2 h.named)
  unfold Multiaddr.normalizeDirectPeerAddress
  rw [if_neg hdirect, if_neg hothers, if_neg hnamed]

/-- An address that is not turned away becomes normal. -/
theorem isNormal_of_normalizeDirectPeerAddress
    (h : address.normalizeDirectPeerAddress peerId = some normal) : normal.IsNormal peerId := by
  unfold normalizeDirectPeerAddress at h
  split at h
  · cases h
  · rename_i hdirect
    split at h
    · cases h
    · rename_i hothers
      rw [Bool.or_eq_true, isRelayAddress_iff, isUnspecifiedIpAddress_iff, not_or, not_or]
        at hdirect
      obtain ⟨hcircuit, hip4, hip6⟩ := hdirect
      have hpeers : ∀ p, .p2p p ∈ address.protocols → p = peerId := by
        intro p hmem
        by_contra hother
        exact hothers (List.any_eq_true.2 ⟨p, mem_peers.2 hmem, bne_iff_ne.2 hother⟩)
      split at h
      · -- the peer is added at the end
        obtain rfl := Option.some.inj h
        refine ⟨?_, ?_, ?_, ?_, ?_⟩
        · simpa [withPeer] using hcircuit
        · simpa [withPeer] using hip4
        · simpa [withPeer] using hip6
        · intro p hmem
          rcases List.mem_append.1 hmem with hold | hlast
          · exact hpeers p hold
          · exact Protocol.p2p.inj (List.mem_singleton.1 hlast)
        · exact List.mem_append_right _ (List.mem_singleton_self _)
      · rename_i hnamed
        obtain rfl := Option.some.inj h
        rw [List.isEmpty_iff] at hnamed
        obtain ⟨p, hmem⟩ := List.exists_mem_of_ne_nil _ hnamed
        have hp : p = peerId := hpeers p (mem_peers.1 hmem)
        exact ⟨hcircuit, hip4, hip6, hpeers, hp ▸ mem_peers.1 hmem⟩

/-- A normalised address is its own normal form. -/
theorem normalizeDirectPeerAddress_self
    (h : address.normalizeDirectPeerAddress peerId = some normal) :
    normal.normalizeDirectPeerAddress peerId = some normal :=
  (isNormal_of_normalizeDirectPeerAddress h).normalizeDirectPeerAddress

/-- Normalising twice is normalising once. -/
theorem normalizeDirectPeerAddress_bind (peerId : PeerId) (address : Multiaddr) :
    (address.normalizeDirectPeerAddress peerId).bind (normalizeDirectPeerAddress peerId) =
      address.normalizeDirectPeerAddress peerId := by
  cases hnormal : address.normalizeDirectPeerAddress peerId with
  | none => rfl
  | some normal => exact normalizeDirectPeerAddress_self hnormal

end Multiaddr

/-! ## The recorded addresses -/

/-- Every recorded peer has an address, and its addresses are normal. -/
def IsNormalTable (table : AList fun _ : PeerId => List Multiaddr) : Prop :=
  ∀ peerId known, table.lookup peerId = some known →
    known ≠ [] ∧ ∀ address ∈ known, address.IsNormal peerId

namespace IsNormalTable

variable {table : AList fun _ : PeerId => List Multiaddr}

theorem empty : IsNormalTable ∅ := by
  intro peerId known hknown
  cases hknown

/-- Normal addresses may be recorded. -/
theorem insert (h : IsNormalTable table) {peerId : PeerId} {known : List Multiaddr}
    (hknown : known ≠ []) (hnormal : ∀ address ∈ known, address.IsNormal peerId) :
    IsNormalTable (table.insert peerId known) := by
  intro p recorded hrecorded
  by_cases hp : p = peerId
  · subst hp
    rw [AList.lookup_insert] at hrecorded
    obtain rfl := Option.some.inj hrecorded
    exact ⟨hknown, hnormal⟩
  · rw [AList.lookup_insert_ne hp] at hrecorded
    exact h p recorded hrecorded

/-- A peer may be left out. -/
theorem erase (h : IsNormalTable table) (peerId : PeerId) : IsNormalTable (table.erase peerId) := by
  intro p recorded hrecorded
  by_cases hp : p = peerId
  · subst hp
    rw [AList.lookup_erase] at hrecorded
    cases hrecorded
  · rw [AList.lookup_erase_ne hp] at hrecorded
    exact h p recorded hrecorded

end IsNormalTable

namespace ConnectionState

theorem mem_foldl_insert (known addresses : List Multiaddr) (a : Multiaddr) :
    a ∈ addresses.foldl (fun known address => known.insert address) known ↔
      a ∈ known ∨ a ∈ addresses := by
  induction addresses generalizing known with
  | nil => simp
  | cons address addresses ih =>
    rw [List.foldl_cons, ih, List.mem_insert_iff, List.mem_cons]
    tauto

section Table

variable {s : ConnectionState} (h : IsNormalTable s.directAddresses) (peerId : PeerId)
include h

theorem isNormalTable_rememberDirectAddresses (addresses : List Multiaddr) :
    IsNormalTable (s.rememberDirectAddresses peerId addresses).2.directAddresses := by
  unfold rememberDirectAddresses
  dsimp only
  split
  · exact h
  · rename_i hsome
    refine h.insert ?_ ?_
    · obtain ⟨normal, hnormal⟩ := List.exists_mem_of_ne_nil _ hsome
      exact List.ne_nil_of_mem ((mem_foldl_insert _ _ normal).2 (.inr hnormal))
    · intro address haddress
      rcases (mem_foldl_insert _ _ address).1 haddress with hold | hnew
      · cases hknown : s.directAddresses.lookup peerId with
        | none =>
          rw [hknown] at hold
          exact absurd hold List.not_mem_nil
        | some known =>
          rw [hknown] at hold
          exact (h peerId known hknown).2 address hold
      · obtain ⟨raw, -, hraw⟩ := List.mem_filterMap.1 hnew
        exact Multiaddr.isNormal_of_normalizeDirectPeerAddress hraw

theorem isNormalTable_forgetDirectAddress (address : Multiaddr) :
    IsNormalTable (s.forgetDirectAddress peerId address).2.directAddresses := by
  unfold forgetDirectAddress
  split
  · exact h
  · split
    · exact h
    · rename_i known hknown
      dsimp only
      split
      · exact h.erase peerId
      · rename_i hleft
        refine h.insert hleft fun a ha => ?_
        exact (h peerId known hknown).2 a (List.mem_of_mem_filter ha)

/-- What a call tells of leaves the recorded addresses normal. -/
theorem isNormalTable_briefed (call : ConnectionCall) :
    IsNormalTable (s.briefed call).directAddresses := by
  cases call with
  | learnDirectAddresses p addresses => exact isNormalTable_rememberDirectAddresses h p addresses
  | forgetDirectAddress p address => exact isNormalTable_forgetDirectAddress h p address
  | connectionClosed p connectionId wasRelayed remainingEstablished =>
    obtain ⟨routes, relayHandoffs, hclosed⟩ := s.closeRoute_eq p connectionId wasRelayed
    unfold briefed informed
    dsimp only
    rw [hclosed]
    split
    · exact h
    · exact h.erase p
  | chatUnsubscribed p =>
    unfold briefed informed chatUnsubscribed
    dsimp only
    split
    · exact h
    · exact h
  | _ => exact h

/-- So does the call. -/
theorem isNormalTable_call (now : Instant) (call : ConnectionCall) :
    IsNormalTable (s.call now call).state.directAddresses := by
  rw [(s.call_answers now call).addresses]
  exact isNormalTable_briefed h call

end Table

/-- The recorded addresses are normal after every history. -/
theorem isNormalTable_replyTo (localPeerId : PeerId) (inputs : List ConnectionInput) :
    IsNormalTable (replyTo localPeerId inputs).state.directAddresses := by
  induction inputs using List.reverseRecOn with
  | nil => exact .empty
  | append_singleton inputs input ih =>
    rw [replyTo_snoc]
    exact isNormalTable_call ih input.now input.call

/-! ## Learning and forgetting -/

/-- Where no peer is recorded without an address, the addresses known decide what is recorded. -/
theorem lookup_of_addressesOf {s : ConnectionState} (h : IsNormalTable s.directAddresses)
    (peerId : PeerId) :
    s.directAddresses.lookup peerId =
      if s.addressesOf peerId = [] then none else some (s.addressesOf peerId) := by
  unfold addressesOf
  cases hknown : s.directAddresses.lookup peerId with
  | none => rfl
  | some known => exact (if_neg (h peerId known hknown).1).symm

/-- An address that is not known is recorded in its normal form. -/
theorem learnDirectAddresses_directAddresses (s : ConnectionState) {peerId : PeerId}
    {address normal : Multiaddr} (hnormal : address.normalizeDirectPeerAddress peerId = some normal)
    (hnew : normal ∉ s.addressesOf peerId) (now : Instant) :
    (s.learnDirectAddresses peerId [address] now).state.directAddresses =
      s.directAddresses.insert peerId (normal :: s.addressesOf peerId) := by
  have hanswer := (s.call_answers now (.learnDirectAddresses peerId [address])).addresses
  refine hanswer.trans ?_
  unfold briefed rememberDirectAddresses
  simp only [List.filterMap_cons, hnormal, List.filterMap_nil, List.cons_ne_nil, if_false,
    List.foldl_cons, List.foldl_nil]
  rw [← addressesOf, List.insert_of_not_mem hnew]

/-- An address that is turned away is not recorded. -/
theorem learnDirectAddresses_of_none (s : ConnectionState) {peerId : PeerId} {address : Multiaddr}
    (hnormal : address.normalizeDirectPeerAddress peerId = none) (now : Instant) :
    (s.learnDirectAddresses peerId [address] now).state.directAddresses = s.directAddresses := by
  have hanswer := (s.call_answers now (.learnDirectAddresses peerId [address])).addresses
  refine hanswer.trans ?_
  unfold briefed rememberDirectAddresses
  simp [hnormal]

/-- Forgetting an address undoes learning it, in whatever form it is given, if it was not known
before. -/
theorem lookup_forget_learn {s : ConnectionState} (h : IsNormalTable s.directAddresses)
    {peerId : PeerId} {learnt forgotten : Multiaddr}
    (hsame : forgotten.normalizeDirectPeerAddress peerId =
      learnt.normalizeDirectPeerAddress peerId)
    (hnew : ∀ normal ∈ learnt.normalizeDirectPeerAddress peerId, normal ∉ s.addressesOf peerId)
    (now : Instant) (p : PeerId) :
    ((s.learnDirectAddresses peerId [learnt] now).state.forgetDirectAddress peerId
      forgotten).2.directAddresses.lookup p = s.directAddresses.lookup p := by
  unfold forgetDirectAddress
  rw [hsame]
  cases hnormal : learnt.normalizeDirectPeerAddress peerId with
  | none =>
    dsimp only
    rw [s.learnDirectAddresses_of_none hnormal now]
  | some normal =>
    have hunknown : normal ∉ s.addressesOf peerId := hnew normal hnormal
    have hleft : (normal :: s.addressesOf peerId).filter (· != normal) =
        s.addressesOf peerId := by
      rw [List.filter_cons_of_neg (by simp), List.filter_eq_self]
      intro a ha
      exact bne_iff_ne.2 fun heq => hunknown (heq ▸ ha)
    rw [s.learnDirectAddresses_directAddresses hnormal hunknown now, AList.lookup_insert]
    dsimp only
    rw [hleft]
    by_cases hp : p = peerId
    · subst hp
      rw [lookup_of_addressesOf h]
      split
      · rw [AList.lookup_erase]
      · rw [AList.lookup_insert]
    · split
      · rw [AList.lookup_erase_ne hp, AList.lookup_insert_ne hp]
      · rw [AList.lookup_insert_ne hp, AList.lookup_insert_ne hp]

end ConnectionState

/-- An address is turned away or becomes normal, and stays so when it is normalised again.  After
every history each recorded peer has an address, all recorded addresses are normal, and learning
an address that is not known and then forgetting it leaves the same addresses. -/
theorem direct_addresses_normal :
    (∀ peerId (address : Multiaddr),
      (∀ normal, address.normalizeDirectPeerAddress peerId = some normal →
        normal.IsNormal peerId) ∧
      (address.normalizeDirectPeerAddress peerId).bind
          (Multiaddr.normalizeDirectPeerAddress peerId) =
        address.normalizeDirectPeerAddress peerId) ∧
    ∀ localPeerId (inputs : List ConnectionInput),
      let s := (replyTo localPeerId inputs).state
      (∀ peerId known, s.directAddresses.lookup peerId = some known →
        known ≠ [] ∧ ∀ address ∈ known, address.IsNormal peerId) ∧
      ∀ peerId learnt forgotten now,
        Multiaddr.normalizeDirectPeerAddress peerId forgotten =
          Multiaddr.normalizeDirectPeerAddress peerId learnt →
        (∀ normal ∈ Multiaddr.normalizeDirectPeerAddress peerId learnt,
          normal ∉ s.addressesOf peerId) →
        ∀ p, ((s.learnDirectAddresses peerId [learnt] now).state.forgetDirectAddress peerId
          forgotten).2.directAddresses.lookup p = s.directAddresses.lookup p := by
  refine ⟨fun peerId address => ⟨fun normal => ?_, ?_⟩, fun localPeerId inputs => ?_⟩
  · exact Multiaddr.isNormal_of_normalizeDirectPeerAddress
  · exact address.normalizeDirectPeerAddress_bind peerId
  · have hnormal := ConnectionState.isNormalTable_replyTo localPeerId inputs
    refine ⟨hnormal, ?_⟩
    intro peerId learnt forgotten now hsame hnew p
    exact ConnectionState.lookup_forget_learn hnormal hsame hnew now p

end LightEar
