import LightEar.Foundation.GuardedRun
import LightEar.Foundation.Text
import LightEar.RelayTopology

/-!
# The relay shows what has happened

What is on the page can be read off the list of all reports.  A peer is there if it has connected
or said what it is since it last left, with as many links as are open; a registration is there if
it was made since it was last removed, with the first and the last time it was made; and the events
are the last 80 of all.

Each report is about one peer, or about one registration, or about neither, and changes the entry
of that one only.  For registrations this rests on their texts: no two share one, since the name of
a peer has no bar in it.
-/

namespace LightEar

open Foundation
open Std (TreeMap TreeSet)

/-! ## Tables -/

section Tables

variable {β : Type} (table : TreeMap String β)

theorem getElem?_insert_table (key other : String) (value : β) :
    (table.insert key value)[other]? = if key = other then some value else table[other]? := by
  rw [TreeMap.getElem?_insert]
  simp only [Std.LawfulEqCmp.compare_eq_iff_eq]

theorem getElem?_erase_table (key other : String) :
    (table.erase key)[other]? = if key = other then none else table[other]? := by
  rw [TreeMap.getElem?_erase]
  simp only [Std.LawfulEqCmp.compare_eq_iff_eq]

theorem mem_foldl_insert_set (texts : List String) (set : TreeSet String) (text : String) :
    text ∈ texts.foldl TreeSet.insert set ↔ text ∈ set ∨ text ∈ texts := by
  induction texts generalizing set with
  | nil => simp
  | cons first texts ih =>
    rw [List.foldl_cons, ih, TreeSet.mem_insert, Std.LawfulEqCmp.compare_eq_iff_eq, List.mem_cons]
    tauto

end Tables

/-! ## Reports -/

/-- A report, with the readings of the clock while it is handled. -/
structure RelayReport where
  /-- The readings. -/
  now : Nat → Nat
  /-- What the network reports. -/
  event : RelayEvent

/-- The relay after some reports. -/
def TopologyState.after (localPeerId : PeerId) (start : Nat) (log : List RelayReport) :
    TopologyState :=
  log.foldl (fun t report => t.react report.now report.event) (.new localPeerId start)

theorem TopologyState.after_concat (localPeerId : PeerId) (start : Nat) (log : List RelayReport)
    (report : RelayReport) : after localPeerId start (log ++ [report]) =
      (after localPeerId start log).react report.now report.event :=
  List.foldl_concat ..

/-! ## Links -/

/-- How many links each peer has after an event. -/
def RelayEvent.links (links : PeerId → Nat) : RelayEvent → PeerId → Nat
  | connectionEstablished peerId _ => Function.update links peerId (links peerId + 1)
  | connectionClosed peerId _ => Function.update links peerId (links peerId - 1)
  | _ => links

/-- An event that the network can report: a link that closes was open, and the links that are
left are counted right. -/
def RelayEvent.FitsLinks (links : PeerId → Nat) : RelayEvent → Prop
  | connectionEstablished peerId _ => links peerId < u64Max
  | connectionClosed peerId numEstablished => links peerId = numEstablished + 1
  | _ => True

instance RelayEvent.decidableFitsLinks (links : PeerId → Nat) :
    (event : RelayEvent) → Decidable (event.FitsLinks links)
  | .connectionEstablished _ _ => inferInstanceAs (Decidable (_ < _))
  | .connectionClosed _ _ => inferInstanceAs (Decidable (_ = _))
  | .newListenAddr _ | .externalAddr _ | .identified .. | .peerRegistered .. |
    .peerUnregistered .. | .registrationExpired _ | .recorded .. => isTrue trivial

/-- How many links each peer has after some reports. -/
def linksAfter (log : List RelayReport) : PeerId → Nat :=
  log.foldl (fun links report => report.event.links links) fun _ => 0

/-- Every report is one that the network can make. -/
def FitsRelay (log : List RelayReport) : Prop :=
  Along (fun links report => report.event.links links)
    (fun (links : PeerId → Nat) (report : RelayReport) => report.event.FitsLinks links)
    (fun _ => 0) log

instance (log : List RelayReport) : Decidable (FitsRelay log) :=
  inferInstanceAs (Decidable (Along _ _ _ _))

theorem linksAfter_concat (log : List RelayReport) (report : RelayReport) :
    linksAfter (log ++ [report]) = report.event.links (linksAfter log) := List.foldl_concat ..

theorem fitsRelay_concat {log : List RelayReport} {report : RelayReport} :
    FitsRelay (log ++ [report]) ↔ FitsRelay log ∧ report.event.FitsLinks (linksAfter log) :=
  Along.append_iff.trans (and_congr_right fun _ => and_iff_left trivial)

/-! ## Peers -/

namespace RelayEvent

/-- The peer that an event is about. -/
def peer? : RelayEvent → Option PeerId
  | connectionEstablished peerId _ | connectionClosed peerId _ | identified peerId _ => some peerId
  | _ => none

/-- A peer has left. -/
def departs (peerId : PeerId) : RelayEvent → Bool
  | connectionClosed departed numEstablished => departed == peerId && numEstablished == 0
  | _ => false

/-- A peer has connected, or has said what it is. -/
def shows (peerId : PeerId) : RelayEvent → Bool
  | connectionEstablished shown _ | identified shown _ => shown == peerId
  | _ => false

/-- The addresses an event tells of a peer. -/
def addressesOf (peerId : PeerId) : RelayEvent → List String
  | connectionEstablished named address => if named = peerId then [address] else []
  | identified named info => if named = peerId then info.listenAddrs else []
  | _ => []

/-- The protocols an event tells of a peer. -/
def protocolsOf (peerId : PeerId) : RelayEvent → List String
  | identified named info => if named = peerId then info.protocols else []
  | _ => []

/-- The program a peer says it runs. -/
def versionOf (peerId : PeerId) : RelayEvent → Option String
  | identified named info => if named = peerId then some info.agentVersion else none
  | _ => none

/-- When a peer is heard of. -/
def seenAt (now : Nat → Nat) (peerId : PeerId) : RelayEvent → Option Nat
  | connectionEstablished named _ | connectionClosed named _ =>
    if named = peerId then some (now 0) else none
  | identified named _ => if named = peerId then some (now 1) else none
  | _ => none

/-- What an event does to the entry of the peer it is about. -/
def onPeer (now : Nat → Nat) : RelayEvent → Option PeerState → Option PeerState
  | connectionEstablished _ address, entry =>
    let before := entry.getD .default
    some { before with
      connections := satAdd before.connections 1
      lastSeenMillis := now 0
      addresses := before.addresses.insert address }
  | connectionClosed _ numEstablished, entry =>
    if numEstablished = 0 then none
    else entry.map fun peer =>
      { peer with connections := numEstablished, lastSeenMillis := now 0 }
  | identified _ info, entry =>
    let before := entry.getD .default
    some { before with
      lastSeenMillis := now 1
      agentVersion := some info.agentVersion
      addresses := info.listenAddrs.foldl TreeSet.insert before.addresses
      protocols := info.protocols.foldl TreeSet.insert before.protocols }
  | _, entry => entry

end RelayEvent

/-- The reports since a peer last left. -/
def presence (log : List RelayReport) (peerId : PeerId) : List RelayReport :=
  log.rtakeWhile fun report => !report.event.departs peerId

/-- An event changes the entry of the peer it is about, and no other. -/
theorem TopologyState.getElem?_peers_react (t : TopologyState) (now : Nat → Nat)
    (event : RelayEvent) (peerId : PeerId) : (t.react now event).peers[peerId]? =
      if event.peer? = some peerId then event.onPeer now t.peers[peerId]?
      else t.peers[peerId]? := by
  cases event with
  | connectionEstablished named address =>
    change (t.peers.insert named _)[peerId]? = if some named = some peerId then _ else _
    rw [getElem?_insert_table, TreeMap.getD_eq_getD_getElem?]
    simp only [Option.some.injEq]
    split
    · rename_i hnamed
      rw [hnamed]
      rfl
    · rfl
  | connectionClosed named numEstablished =>
    change (t.peerDisconnected now named numEstablished).peers[peerId]? =
      if some named = some peerId then _ else _
    unfold peerDisconnected RelayEvent.onPeer
    simp only [Option.some.injEq]
    by_cases hleft : numEstablished = 0
    · rw [if_pos hleft, if_pos hleft]
      exact getElem?_erase_table t.peers named peerId
    · rw [if_neg hleft, if_neg hleft]
      cases hentry : t.peers[named]? with
      | none =>
        change t.peers[peerId]? = _
        split
        · rename_i hnamed
          rw [← hnamed, hentry]
          rfl
        · rfl
      | some peer =>
        change (t.peers.insert named _)[peerId]? = _
        rw [getElem?_insert_table]
        split
        · rename_i hnamed
          rw [← hnamed, hentry]
          rfl
        · rfl
  | identified named info =>
    change (t.peers.insert named _)[peerId]? = if some named = some peerId then _ else _
    rw [getElem?_insert_table, TreeMap.getD_eq_getD_getElem?]
    simp only [Option.some.injEq]
    split
    · rename_i hnamed
      rw [hnamed]
      rfl
    · rfl
  | _ => rfl

/-- An entry has what the reports since the peer last left have told. -/
structure PeerState.Told (log : List RelayReport) (peerId : PeerId) (peer : PeerState) : Prop where
  /-- The links are those that are open. -/
  connections : peer.connections = linksAfter log peerId
  /-- The addresses are those that were told. -/
  addresses : ∀ address, address ∈ peer.addresses ↔
    ∃ report ∈ presence log peerId, address ∈ report.event.addressesOf peerId
  /-- The protocols are those that were told. -/
  protocols : ∀ protocol, protocol ∈ peer.protocols ↔
    ∃ report ∈ presence log peerId, protocol ∈ report.event.protocolsOf peerId
  /-- The program is the last that was told. -/
  agentVersion : peer.agentVersion =
    ((presence log peerId).filterMap fun report => report.event.versionOf peerId).getLast?

/-- A peer that has shown itself since it last left has an entry, and no other has. -/
def TellsPeer (log : List RelayReport) (peerId : PeerId) : Option PeerState → Prop
  | none => linksAfter log peerId = 0 ∧
    ∀ report ∈ presence log peerId, report.event.shows peerId = false
  | some peer => peer.Told log peerId ∧
    some peer.lastSeenMillis = ((presence log peerId).filterMap fun report =>
      report.event.seenAt report.now peerId).getLast? ∧
    ∃ report ∈ presence log peerId, report.event.shows peerId = true

theorem presence_concat (log : List RelayReport) (report : RelayReport) (peerId : PeerId) :
    presence (log ++ [report]) peerId =
      if report.event.departs peerId then [] else presence log peerId ++ [report] := by
  unfold presence
  rw [List.rtakeWhile_concat]
  cases report.event.departs peerId
  · rfl
  · rfl

namespace RelayEvent

variable {event : RelayEvent} {peerId : PeerId}

/-- An event in which a peer does not show itself tells nothing of it. -/
theorem of_not_shows (h : event.shows peerId = false) : event.addressesOf peerId = [] ∧
    event.protocolsOf peerId = [] ∧ event.versionOf peerId = none := by
  cases event with
  | connectionEstablished named address => exact ⟨if_neg (ne_of_beq_false h), rfl, rfl⟩
  | identified named info =>
    have hnamed := ne_of_beq_false h
    exact ⟨if_neg hnamed, if_neg hnamed, if_neg hnamed⟩
  | _ => exact ⟨rfl, rfl, rfl⟩

/-- An event that is about somebody else leaves the peer alone. -/
theorem of_other (h : event.peer? ≠ some peerId) (links : PeerId → Nat) (now : Nat → Nat) :
    event.links links peerId = links peerId ∧ event.departs peerId = false ∧
      event.shows peerId = false ∧ event.seenAt now peerId = none := by
  cases event with
  | connectionEstablished named address =>
    have hnamed : named ≠ peerId := fun heq => h (congrArg some heq)
    exact ⟨Function.update_of_ne hnamed.symm _ _, rfl, beq_false_of_ne hnamed, if_neg hnamed⟩
  | connectionClosed named numEstablished =>
    have hnamed : named ≠ peerId := fun heq => h (congrArg some heq)
    refine ⟨Function.update_of_ne hnamed.symm _ _, ?_, rfl, if_neg hnamed⟩
    simp [departs, hnamed]
  | identified named info =>
    have hnamed : named ≠ peerId := fun heq => h (congrArg some heq)
    exact ⟨rfl, rfl, beq_false_of_ne hnamed, if_neg hnamed⟩
  | _ => exact ⟨rfl, rfl, rfl, rfl⟩

end RelayEvent

section Told

variable {log : List RelayReport} {report : RelayReport} {peerId : PeerId}

/-- What was known of a peer before, if only that nothing was. -/
theorem TellsPeer.told {entry : Option PeerState} (h : TellsPeer log peerId entry) :
    (entry.getD .default).Told log peerId := by
  cases entry with
  | some peer => exact h.1
  | none =>
    obtain ⟨hlinks, hhidden⟩ := h
    refine ⟨hlinks.symm, fun address => ?_, fun protocol => ?_, ?_⟩
    · refine iff_of_false TreeSet.not_mem_emptyc ?_
      rintro ⟨report, hreport, htold⟩
      rw [(RelayEvent.of_not_shows (hhidden report hreport)).1] at htold
      exact List.not_mem_nil htold
    · refine iff_of_false TreeSet.not_mem_emptyc ?_
      rintro ⟨report, hreport, htold⟩
      rw [(RelayEvent.of_not_shows (hhidden report hreport)).2.1] at htold
      exact List.not_mem_nil htold
    · have hnone : (presence log peerId).filterMap (fun report =>
          report.event.versionOf peerId) = [] :=
        List.filterMap_eq_nil_iff.2 fun report hreport =>
          (RelayEvent.of_not_shows (hhidden report hreport)).2.2
      rw [hnone]
      rfl

/-- A report after which the peer is still there adds what it tells. -/
theorem PeerState.Told.concat {before peer : PeerState} (h : before.Told log peerId)
    (hstays : report.event.departs peerId = false)
    (hconnections : peer.connections = report.event.links (linksAfter log) peerId)
    (haddresses : ∀ address, address ∈ peer.addresses ↔
      address ∈ before.addresses ∨ address ∈ report.event.addressesOf peerId)
    (hprotocols : ∀ protocol, protocol ∈ peer.protocols ↔
      protocol ∈ before.protocols ∨ protocol ∈ report.event.protocolsOf peerId)
    (hversion : peer.agentVersion = (report.event.versionOf peerId).or before.agentVersion) :
    peer.Told (log ++ [report]) peerId := by
  have hpresence : presence (log ++ [report]) peerId = presence log peerId ++ [report] := by
    rw [presence_concat, hstays]
    rfl
  refine ⟨?_, fun address => ?_, fun protocol => ?_, ?_⟩
  · rw [hconnections, linksAfter_concat]
  · rw [haddresses, h.addresses, hpresence]
    simp [or_and_right, exists_or]
  · rw [hprotocols, h.protocols, hpresence]
    simp [or_and_right, exists_or]
  · rw [hversion, h.agentVersion, hpresence, List.filterMap_append]
    cases hnew : report.event.versionOf peerId with
    | none => simp [hnew]
    | some version => simp [hnew]

/-- A report that is not about a peer leaves what is known of it. -/
theorem TellsPeer.concat_of_other {entry : Option PeerState} (h : TellsPeer log peerId entry)
    (hother : report.event.peer? ≠ some peerId) : TellsPeer (log ++ [report]) peerId entry := by
  obtain ⟨hlinks, hstays, hhidden, hunseen⟩ :=
    RelayEvent.of_other hother (linksAfter log) report.now
  have hpresence : presence (log ++ [report]) peerId = presence log peerId ++ [report] := by
    rw [presence_concat, hstays]
    rfl
  cases entry with
  | none =>
    unfold TellsPeer
    rw [linksAfter_concat, hlinks, hpresence, List.forall_mem_append, List.forall_mem_singleton]
    exact ⟨h.1, h.2, hhidden⟩
  | some peer =>
    obtain ⟨htold, hseen, report', hreport', hshows⟩ := h
    obtain ⟨haddresses, hprotocols, hversion⟩ := RelayEvent.of_not_shows hhidden
    refine ⟨htold.concat hstays ?_ ?_ ?_ ?_, ?_, report', ?_, hshows⟩
    · rw [hlinks, htold.connections]
    · simp [haddresses]
    · simp [hprotocols]
    · rw [hversion, Option.none_or]
    · rw [hpresence, List.filterMap_append, hseen]
      simp [hunseen]
    · rw [hpresence]
      exact List.mem_append_left _ hreport'

/-- A report about a peer that stays. -/
theorem tellsPeer_concat_of_stays {peer : PeerState}
    (htold : peer.Told (log ++ [report]) peerId) (hstays : report.event.departs peerId = false)
    (hseen : report.event.seenAt report.now peerId = some peer.lastSeenMillis)
    (hshows : ∃ report' ∈ presence log peerId ++ [report], report'.event.shows peerId = true) :
    TellsPeer (log ++ [report]) peerId (some peer) := by
  have hpresence : presence (log ++ [report]) peerId = presence log peerId ++ [report] := by
    rw [presence_concat, hstays]
    rfl
  refine ⟨htold, ?_, hpresence ▸ hshows⟩
  rw [hpresence, List.filterMap_append]
  simp [hseen]

/-- A report about a peer. -/
theorem TellsPeer.concat_of_about {entry : Option PeerState} (h : TellsPeer log peerId entry)
    (hfits : report.event.FitsLinks (linksAfter log))
    (habout : report.event.peer? = some peerId) :
    TellsPeer (log ++ [report]) peerId (report.event.onPeer report.now entry) := by
  obtain ⟨now, event⟩ := report
  have hbefore := h.told
  cases event with
  | connectionEstablished named address =>
    obtain rfl : named = peerId := Option.some.inj habout
    refine tellsPeer_concat_of_stays (hbefore.concat rfl ?_ ?_ ?_ rfl) rfl (if_pos rfl) ?_
    · have hlinks : RelayEvent.links (linksAfter log) (.connectionEstablished named address) named =
          linksAfter log named + 1 := Function.update_self named _ (linksAfter log)
      rw [hlinks, ← hbefore.connections]
      exact Nat.min_eq_left (hbefore.connections ▸ hfits)
    · intro text
      change text ∈ TreeSet.insert _ address ↔ _ ∨ text ∈ ite _ _ _
      rw [TreeSet.mem_insert, Std.LawfulEqCmp.compare_eq_iff_eq, if_pos rfl, List.mem_singleton]
      tauto
    · exact fun protocol => (or_iff_left List.not_mem_nil).symm
    · exact ⟨_, List.mem_append_right _ (List.mem_singleton_self _), beq_self_eq_true named⟩
  | connectionClosed named numEstablished =>
    obtain rfl : named = peerId := Option.some.inj habout
    have hlinks : linksAfter log named = numEstablished + 1 := hfits
    have hafter : RelayEvent.links (linksAfter log)
        (.connectionClosed named numEstablished) named = numEstablished := by
      have hupdated : RelayEvent.links (linksAfter log)
          (.connectionClosed named numEstablished) named = linksAfter log named - 1 :=
        Function.update_self named _ (linksAfter log)
      rw [hupdated, hlinks, Nat.add_sub_cancel]
    unfold RelayEvent.onPeer
    dsimp only
    split
    · rename_i hleft
      subst hleft
      constructor
      · rw [linksAfter_concat]
        exact hafter
      · rw [presence_concat, if_pos (by simp [RelayEvent.departs])]
        exact List.forall_mem_nil _
    · rename_i hleft
      have hstays : (RelayEvent.connectionClosed named numEstablished).departs named = false := by
        simp [RelayEvent.departs, hleft]
      cases entry with
      | none => exact absurd (h.1.symm.trans hlinks) (Nat.succ_ne_zero numEstablished).symm
      | some peer =>
        obtain ⟨-, -, report', hreport', hshows⟩ := h
        refine tellsPeer_concat_of_stays (hbefore.concat hstays hafter.symm ?_ ?_ rfl) hstays
          (if_pos rfl) ⟨report', List.mem_append_left _ hreport', hshows⟩
        · exact fun text => (or_iff_left List.not_mem_nil).symm
        · exact fun protocol => (or_iff_left List.not_mem_nil).symm
  | identified named info =>
    obtain rfl : named = peerId := Option.some.inj habout
    refine tellsPeer_concat_of_stays (hbefore.concat rfl hbefore.connections ?_ ?_ ?_) rfl
      (if_pos rfl) ?_
    · intro text
      change text ∈ info.listenAddrs.foldl TreeSet.insert _ ↔ _ ∨ text ∈ ite _ _ _
      rw [mem_foldl_insert_set, if_pos rfl]
    · intro protocol
      change protocol ∈ info.protocols.foldl TreeSet.insert _ ↔ _ ∨ protocol ∈ ite _ _ _
      rw [mem_foldl_insert_set, if_pos rfl]
    · change some info.agentVersion = Option.or (ite _ _ _) _
      rw [if_pos rfl]
      rfl
    · exact ⟨_, List.mem_append_right _ (List.mem_singleton_self _), beq_self_eq_true named⟩
  | _ => cases habout

end Told

/-- The entry of every peer tells what the reports have told. -/
theorem tellsPeer_after (localPeerId : PeerId) (start : Nat) {log : List RelayReport}
    (h : FitsRelay log) (peerId : PeerId) :
    TellsPeer log peerId (TopologyState.after localPeerId start log).peers[peerId]? := by
  induction log using List.reverseRecOn with
  | nil =>
    have hnone : (TopologyState.after localPeerId start []).peers[peerId]? = none :=
      TreeMap.getElem?_emptyc
    rw [hnone]
    exact ⟨rfl, List.forall_mem_nil _⟩
  | append_singleton log report ih =>
    obtain ⟨hlog, hreport⟩ := fitsRelay_concat.1 h
    rw [TopologyState.after_concat, TopologyState.getElem?_peers_react]
    split
    · rename_i habout
      exact (ih hlog).concat_of_about hreport habout
    · rename_i hother
      exact (ih hlog).concat_of_other hother

/-! ## Registrations -/

/-- A registration is filed under a text of its own, if the names of peers have no bar. -/
theorem rendezvousKey_inj {peerId peerId' : PeerId} {namespaceName namespaceName' : String}
    (h : '|' ∉ peerId.toList) (h' : '|' ∉ peerId'.toList) :
    rendezvousKey peerId namespaceName = rendezvousKey peerId' namespaceName' ↔
      peerId = peerId' ∧ namespaceName = namespaceName' := by
  have hcut : ∀ (peerId : PeerId) (namespaceName : String), '|' ∉ peerId.toList →
      Text.splitOnce '|' (rendezvousKey peerId namespaceName).toList.reverse =
        some (peerId.toList.reverse, namespaceName.toList.reverse) := by
    intro peerId namespaceName hbar
    have hkey : (rendezvousKey peerId namespaceName).toList.reverse =
        peerId.toList.reverse ++ '|' :: namespaceName.toList.reverse := by
      simp [rendezvousKey, String.toList_append]
    rw [hkey, Text.splitOnce_append (mt List.mem_reverse.1 hbar)]
  constructor
  · intro heq
    have hparts := hcut peerId namespaceName h
    rw [heq, hcut peerId' namespaceName' h'] at hparts
    obtain ⟨hpeer, hnamespace⟩ := Prod.mk.inj (Option.some.inj hparts)
    exact ⟨String.toList_inj.1 (List.reverse_injective hpeer.symm),
      String.toList_inj.1 (List.reverse_injective hnamespace.symm)⟩
  · rintro ⟨rfl, rfl⟩
    rfl

namespace RelayEvent

/-- The registration that an event is about. -/
def registration? : RelayEvent → Option (PeerId × String)
  | peerRegistered peer registration => some (peer, registration.namespaceName)
  | peerUnregistered peer namespaceName => some (peer, namespaceName)
  | registrationExpired registration => some (registration.peerId, registration.namespaceName)
  | _ => none

/-- A registration is taken back or expires. -/
def removes (about : PeerId × String) (event : RelayEvent) : Bool :=
  match event with
  | peerRegistered .. => false
  | _ => event.registration? == some about

/-- A registration is made or renewed: when, and with which addresses. -/
def registers (now : Nat → Nat) (about : PeerId × String) (event : RelayEvent) :
    Option (Nat × List String) :=
  match event with
  | peerRegistered _ registration =>
    if event.registration? = some about then some (now 0, registration.addresses) else none
  | _ => none

/-- What an event does to the entry of the registration it is about. -/
def onRegistration (now : Nat → Nat) : RelayEvent → Option RendezvousRegistrationState →
    Option RendezvousRegistrationState
  | peerRegistered peer registration, entry =>
    some { entry.getD ⟨peer, registration.namespaceName, [], now 0, now 0⟩ with
      addresses := registration.addresses
      refreshedAtMillis := now 0 }
  | peerUnregistered .., _ | registrationExpired _, _ => none
  | _, entry => entry

end RelayEvent

/-- The times a registration was made since it was last removed. -/
def tenure (log : List RelayReport) (about : PeerId × String) : List (Nat × List String) :=
  (log.rtakeWhile fun report => !report.event.removes about).filterMap fun report =>
    report.event.registers report.now about

/-- The registration that has been made at some times. -/
def standing (about : PeerId × String) (made : List (Nat × List String)) :
    Option RendezvousRegistrationState :=
  made.getLast?.map fun last => {
    peerId := about.1
    namespaceName := about.2
    addresses := last.2
    registeredAtMillis := (made.headD last).1
    refreshedAtMillis := last.1 }

theorem TopologyState.registrations_peerDisconnected (t : TopologyState) (now : Nat → Nat)
    (peerId : PeerId) (remainingConnections : Nat) :
    (t.peerDisconnected now peerId remainingConnections).rendezvousRegistrations =
      t.rendezvousRegistrations := by
  unfold peerDisconnected
  dsimp only
  split
  · rfl
  · split
    · rfl
    · rfl

/-- An event changes the entry of the registration it is about, and no other. -/
theorem TopologyState.getElem?_registrations_react (t : TopologyState) (now : Nat → Nat)
    (event : RelayEvent) (key : String) : (t.react now event).rendezvousRegistrations[key]? =
      if ∃ about ∈ event.registration?, rendezvousKey about.1 about.2 = key then
        event.onRegistration now t.rendezvousRegistrations[key]?
      else t.rendezvousRegistrations[key]? := by
  cases event with
  | peerRegistered peer registration =>
    change (t.rendezvousRegistrations.insert _ _)[key]? =
      if ∃ about ∈ some (peer, registration.namespaceName), _ then _ else _
    rw [getElem?_insert_table, TreeMap.getD_eq_getD_getElem?]
    simp only [Option.mem_some_iff, exists_eq_left']
    split
    · rename_i hkey
      rw [hkey]
      rfl
    · rfl
  | peerUnregistered peer namespaceName =>
    change (t.rendezvousRegistrations.erase _)[key]? =
      if ∃ about ∈ some (peer, namespaceName), _ then _ else _
    rw [getElem?_erase_table]
    simp only [Option.mem_some_iff, exists_eq_left']
    rfl
  | registrationExpired registration =>
    change (t.rendezvousRegistrations.erase _)[key]? =
      if ∃ about ∈ some (registration.peerId, registration.namespaceName), _ then _ else _
    rw [getElem?_erase_table]
    simp only [Option.mem_some_iff, exists_eq_left']
    rfl
  | connectionClosed peerId numEstablished =>
    rw [if_neg (by simp [RelayEvent.registration?])]
    exact congrArg (·[key]?) (t.registrations_peerDisconnected now peerId numEstablished)
  | _ => exact (if_neg (by simp [RelayEvent.registration?])).symm

theorem tenure_concat (log : List RelayReport) (report : RelayReport) (about : PeerId × String) :
    tenure (log ++ [report]) about =
      if report.event.removes about then []
      else tenure log about ++ (report.event.registers report.now about).toList := by
  unfold tenure
  rw [List.rtakeWhile_concat]
  cases report.event.removes about
  · exact List.filterMap_append
  · rfl

/-- An event about another registration says nothing of one. -/
theorem RelayEvent.of_other_registration {event : RelayEvent} {about : PeerId × String}
    (h : event.registration? ≠ some about) (now : Nat → Nat) :
    event.removes about = false ∧ event.registers now about = none := by
  cases event with
  | peerRegistered peer registration => exact ⟨rfl, if_neg h⟩
  | _ => exact ⟨beq_false_of_ne h, rfl⟩

/-- An event about a registration makes its entry that of the times it was made. -/
theorem RelayEvent.onRegistration_standing {event : RelayEvent} {about : PeerId × String}
    (h : event.registration? = some about) (now : Nat → Nat) (made : List (Nat × List String)) :
    event.onRegistration now (standing about made) =
      standing about (if event.removes about then []
        else made ++ (event.registers now about).toList) := by
  cases event with
  | peerRegistered peer registration =>
    obtain rfl : (peer, registration.namespaceName) = about := Option.some.inj h
    have hregisters : (peerRegistered peer registration).registers now
        (peer, registration.namespaceName) = some (now 0, registration.addresses) := if_pos rfl
    rw [hregisters]
    unfold standing
    cases made with
    | nil => rfl
    | cons first made => simp [onRegistration, removes, List.getLast?_cons]
  | peerUnregistered peer namespaceName =>
    have hremoves : (peerUnregistered peer namespaceName).removes about = true :=
      beq_iff_eq.2 h
    rw [hremoves]
    rfl
  | registrationExpired registration =>
    have hremoves : (registrationExpired registration).removes about = true := beq_iff_eq.2 h
    rw [hremoves]
    rfl
  | _ => cases h

/-- No peer that registers, is unregistered or expires has a name with a bar in it. -/
def NoBars (log : List RelayReport) : Prop :=
  ∀ report ∈ log, ∀ about ∈ report.event.registration?, '|' ∉ about.1.toList

/-- What every entry of the registrations is. -/
structure TellsRegistrations (log : List RelayReport)
    (table : TreeMap String RendezvousRegistrationState) : Prop where
  /-- Under the text of a registration are the times it was made since it was last removed. -/
  entries : ∀ about : PeerId × String, '|' ∉ about.1.toList →
    table[rendezvousKey about.1 about.2]? = standing about (tenure log about)
  /-- Nothing is under another text. -/
  keys : ∀ key entry, table[key]? = some entry →
    key = rendezvousKey entry.peerId entry.namespaceName ∧ '|' ∉ entry.peerId.toList

/-- The registrations are what the reports have told. -/
theorem tellsRegistrations_after (localPeerId : PeerId) (start : Nat) {log : List RelayReport}
    (h : NoBars log) :
    TellsRegistrations log (TopologyState.after localPeerId start log).rendezvousRegistrations := by
  induction log using List.reverseRecOn with
  | nil =>
    refine ⟨fun _ _ => TreeMap.getElem?_emptyc, fun key entry hentry => ?_⟩
    have hnone : (TopologyState.after localPeerId start []).rendezvousRegistrations[key]? = none :=
      TreeMap.getElem?_emptyc
    rw [hnone] at hentry
    cases hentry
  | append_singleton log report ih =>
    obtain ⟨hlog, hreport⟩ := List.forall_mem_append.1 h
    have hbar := hreport report (List.mem_singleton_self _)
    obtain ⟨hentries, hkeys⟩ := ih hlog
    constructor
    · intro about habout
      rw [TopologyState.after_concat, TopologyState.getElem?_registrations_react,
        hentries about habout, tenure_concat]
      split
      · rename_i hkey
        obtain ⟨about', hmem, hkey⟩ := hkey
        have hsame := (rendezvousKey_inj (hbar about' hmem) habout).1 hkey
        obtain rfl : about' = about := Prod.ext hsame.1 hsame.2
        exact RelayEvent.onRegistration_standing hmem report.now _
      · rename_i hkey
        have hother : report.event.registration? ≠ some about := fun heq =>
          hkey ⟨about, heq, rfl⟩
        obtain ⟨hstays, hnothing⟩ := RelayEvent.of_other_registration hother report.now
        rw [hstays, hnothing]
        simp
    · intro key entry hentry
      rw [TopologyState.after_concat, TopologyState.getElem?_registrations_react] at hentry
      split at hentry
      · rename_i hkey
        obtain ⟨about, hmem, rfl⟩ := hkey
        rw [hentries about (hbar about hmem),
          RelayEvent.onRegistration_standing hmem report.now] at hentry
        obtain ⟨last, -, rfl⟩ := Option.map_eq_some_iff.1 hentry
        exact ⟨rfl, hbar about hmem⟩
      · exact hkeys key entry hentry

/-! ## Events -/

/-- What is put among the events, last one last, where the links after the report are known. -/
def RelayReport.notes (localPeerId : PeerId) (links : PeerId → Nat) (report : RelayReport) :
    List TopologyEvent :=
  let now := report.now
  match report.event with
  | .newListenAddr address =>
    [⟨now 0, "listen", "listening on " ++ (ensurePeerId address localPeerId).text⟩]
  | .externalAddr address =>
    [⟨now 0, "external", "advertising " ++ (ensurePeerId address localPeerId).text⟩]
  | .connectionEstablished peerId _ => [⟨now 2, "peer",
      peerId ++ " connected (" ++ toString (links peerId) ++ " link(s))"⟩]
  | .connectionClosed peerId _ => [⟨now 2, "peer",
      peerId ++ " disconnected (" ++ toString (links peerId) ++ " link(s) remain)"⟩]
  | .identified peerId info => [
      ⟨now 0, "external", "advertising " ++ (ensurePeerId info.observedAddr localPeerId).text⟩,
      ⟨now 3, "identify", "identified " ++ peerId⟩]
  | .peerRegistered peer registration => [⟨now 2, "rendezvous",
      peer ++ " registered in " ++ registration.namespaceName⟩]
  | .peerUnregistered peer namespaceName => [⟨now 1, "rendezvous",
      peer ++ " unregistered from " ++ namespaceName⟩]
  | .registrationExpired registration => [⟨now 1, "rendezvous",
      registration.peerId ++ " registration expired in " ++ registration.namespaceName⟩]
  | .recorded kind detail => [⟨now 0, kind, detail⟩]

/-- Everything that was ever put among the events, last one last. -/
def notesOf (localPeerId : PeerId) (links : PeerId → Nat) : List RelayReport → List TopologyEvent
  | [] => []
  | report :: log =>
    let links := report.event.links links
    report.notes localPeerId links ++ notesOf localPeerId links log

theorem notesOf_concat (localPeerId : PeerId) (links : PeerId → Nat) (log : List RelayReport)
    (report : RelayReport) : notesOf localPeerId links (log ++ [report]) =
      notesOf localPeerId links log ++ report.notes localPeerId
        (report.event.links (log.foldl (fun links report => report.event.links links) links)) := by
  induction log generalizing links with
  | nil => simp [notesOf]
  | cons first log ih =>
    rw [List.cons_append, notesOf, notesOf, ih, List.append_assoc]
    rfl

/-- Only the latest matter for what is kept. -/
theorem take_append_take {α : Type} (n : Nat) (l m : List α) :
    (l ++ m.take n).take n = (l ++ m).take n := by
  rw [List.take_append, List.take_append, List.take_take, Nat.min_eq_left (Nat.sub_le _ _)]

namespace TopologyState

theorem localPeerId_react (t : TopologyState) (now : Nat → Nat) (event : RelayEvent) :
    (t.react now event).localPeerId = t.localPeerId := by
  cases event with
  | connectionClosed peerId numEstablished =>
    change (t.peerDisconnected now peerId numEstablished).localPeerId = _
    unfold peerDisconnected
    dsimp only
    split
    · rfl
    · split
      · rfl
      · rfl
  | _ => rfl

theorem localPeerId_after (localPeerId : PeerId) (start : Nat) (log : List RelayReport) :
    (after localPeerId start log).localPeerId = localPeerId := by
  induction log using List.reverseRecOn with
  | nil => rfl
  | append_singleton log report ih => rw [after_concat, localPeerId_react, ih]

/-- What a report puts among the events. -/
theorem recentEvents_react {t : TopologyState} {links : PeerId → Nat} {report : RelayReport}
    (hconnections : ∀ peerId, (t.peers.getD peerId .default).connections = links peerId)
    (hfits : report.event.FitsLinks links) :
    (t.react report.now report.event).recentEvents =
      ((report.notes t.localPeerId (report.event.links links)).reverse ++
        t.recentEvents).take eventLogLimit := by
  obtain ⟨now, event⟩ := report
  cases event with
  | connectionEstablished peerId address =>
    have hlinks : RelayEvent.links links (.connectionEstablished peerId address) peerId =
        links peerId + 1 := Function.update_self peerId _ links
    have hcount : satAdd (t.peers.getD peerId .default).connections 1 = links peerId + 1 := by
      rw [hconnections]
      exact Nat.min_eq_left hfits
    unfold react peerConnected pushEvent RelayReport.notes
    dsimp only [touch]
    rw [hlinks, hcount]
    rfl
  | connectionClosed peerId numEstablished =>
    have hlinks : RelayEvent.links links (.connectionClosed peerId numEstablished) peerId =
        numEstablished := by
      have hupdated : RelayEvent.links links (.connectionClosed peerId numEstablished) peerId =
          links peerId - 1 := Function.update_self peerId _ links
      have hbefore : links peerId = numEstablished + 1 := hfits
      rw [hupdated, hbefore, Nat.add_sub_cancel]
    unfold RelayReport.notes
    dsimp only
    rw [hlinks]
    unfold react peerDisconnected
    dsimp only
    split
    · rfl
    · split
      · rfl
      · rfl
  | identified peerId info =>
    change (_ :: (_ :: t.recentEvents).take eventLogLimit).take eventLogLimit = _
    exact take_append_take eventLogLimit [_] (_ :: t.recentEvents)
  | _ => rfl

end TopologyState

/-- The events are the last 80. -/
theorem recentEvents_after (localPeerId : PeerId) (start : Nat) {log : List RelayReport}
    (h : FitsRelay log) : (TopologyState.after localPeerId start log).recentEvents =
      (notesOf localPeerId (fun _ => 0) log).reverse.take eventLogLimit := by
  induction log using List.reverseRecOn with
  | nil => rfl
  | append_singleton log report ih =>
    obtain ⟨hlog, hreport⟩ := fitsRelay_concat.1 h
    have hconnections : ∀ peerId, ((TopologyState.after localPeerId start log).peers.getD peerId
        .default).connections = linksAfter log peerId := by
      intro peerId
      rw [TreeMap.getD_eq_getD_getElem?]
      exact (tellsPeer_after localPeerId start hlog peerId).told.connections
    rw [TopologyState.after_concat, TopologyState.recentEvents_react hconnections hreport,
      ih hlog, TopologyState.localPeerId_after, take_append_take, notesOf_concat,
      List.reverse_append]
    rfl

/-! ## Main result -/

/-- The page says what the reports have told. -/
structure TopologySnapshot.Tells (page : TopologySnapshot) (localPeerId : PeerId)
    (log : List RelayReport) : Prop where
  /-- Every peer stands there once, in the order of the names. -/
  peersSorted : page.connectedPeers.Pairwise fun a b => compare a.peerId b.peerId = .lt
  /-- The peers are those that have shown themselves since they last left. -/
  peers : ∀ peerId, (∃ peer ∈ page.connectedPeers, peer.peerId = peerId) ↔
    ∃ report ∈ presence log peerId, report.event.shows peerId = true
  /-- A peer that is not there has no link. -/
  absent : ∀ peerId, (∀ peer ∈ page.connectedPeers, peer.peerId ≠ peerId) →
    linksAfter log peerId = 0
  /-- A peer has its open links, the addresses and protocols it was told to have, and the program
  it has last told. -/
  told : ∀ peer ∈ page.connectedPeers, peer.connections = linksAfter log peer.peerId ∧
    (∀ address, address ∈ peer.addresses ↔ ∃ report ∈ presence log peer.peerId,
      address ∈ report.event.addressesOf peer.peerId) ∧
    (∀ protocol, protocol ∈ peer.protocols ↔ ∃ report ∈ presence log peer.peerId,
      protocol ∈ report.event.protocolsOf peer.peerId) ∧
    peer.agentVersion = ((presence log peer.peerId).filterMap fun report =>
      report.event.versionOf peer.peerId).getLast? ∧
    some peer.lastSeenMillis = ((presence log peer.peerId).filterMap fun report =>
      report.event.seenAt report.now peer.peerId).getLast?
  /-- The registrations are those that stand. -/
  registrations : ∀ entry, entry ∈ page.rendezvousRegistrations ↔
    standing (entry.peerId, entry.namespaceName) (tenure log (entry.peerId, entry.namespaceName)) =
      some entry
  /-- The events are the last 80, newest first. -/
  events : page.recentEvents = (notesOf localPeerId (fun _ => 0) log).reverse.take eventLogLimit

/-- A registration stands only if it was made. -/
theorem bar_not_mem_of_standing {log : List RelayReport} (h : NoBars log)
    {about : PeerId × String} {entry : RendezvousRegistrationState}
    (hentry : standing about (tenure log about) = some entry) : '|' ∉ about.1.toList := by
  obtain ⟨last, hlast, -⟩ := Option.map_eq_some_iff.1 hentry
  obtain ⟨report, hreport, hregisters⟩ := List.mem_filterMap.1 (List.mem_of_getLast? hlast)
  have hmem : report ∈ log := (List.rtakeWhile_suffix _ _).subset hreport
  have habout : report.event.registration? = some about := by
    by_contra hother
    rw [(RelayEvent.of_other_registration hother report.now).2] at hregisters
    cases hregisters
  exact h report hmem about habout

/-- After every list of reports that the network can make, the page says what they have told. -/
theorem relay_page_tells (localPeerId : PeerId) (start : Nat) {log : List RelayReport}
    (hfits : FitsRelay log) (hbars : NoBars log) :
    ((TopologyState.after localPeerId start log).snapshot).Tells localPeerId log := by
  set t := TopologyState.after localPeerId start log with ht
  have hpeers : ∀ peerId, TellsPeer log peerId t.peers[peerId]? :=
    tellsPeer_after localPeerId start hfits
  obtain ⟨hentries, hkeys⟩ := tellsRegistrations_after localPeerId start hbars
  have hmem : ∀ view, view ∈ t.snapshot.connectedPeers ↔
      ∃ peer, t.peers[view.peerId]? = some peer ∧ peer.view view.peerId = view := by
    intro view
    unfold TopologyState.snapshot
    rw [List.mem_map]
    constructor
    · rintro ⟨⟨peerId, peer⟩, hentry, rfl⟩
      exact ⟨peer, TreeMap.mem_toList_iff_getElem?_eq_some.1 hentry, rfl⟩
    · rintro ⟨peer, hentry, hview⟩
      exact ⟨(view.peerId, peer), TreeMap.mem_toList_iff_getElem?_eq_some.2 hentry, hview⟩
  constructor
  · unfold TopologyState.snapshot
    rw [List.pairwise_map]
    exact TreeMap.ordered_keys_toList
  · intro peerId
    constructor
    · rintro ⟨view, hview, rfl⟩
      obtain ⟨peer, hentry, -⟩ := (hmem view).1 hview
      have htells := hpeers view.peerId
      rw [hentry] at htells
      exact htells.2.2
    · rintro ⟨report, hreport, hshows⟩
      have htells := hpeers peerId
      cases hentry : t.peers[peerId]? with
      | none =>
        rw [hentry] at htells
        exact absurd hshows (ne_true_of_eq_false (htells.2 report hreport))
      | some peer => exact ⟨peer.view peerId, (hmem _).2 ⟨peer, hentry, rfl⟩, rfl⟩
  · intro peerId habsent
    have htells := hpeers peerId
    cases hentry : t.peers[peerId]? with
    | none =>
      rw [hentry] at htells
      exact htells.1
    | some peer => exact absurd rfl (habsent (peer.view peerId) ((hmem _).2 ⟨peer, hentry, rfl⟩))
  · intro view hview
    obtain ⟨peer, hentry, hsame⟩ := (hmem view).1 hview
    have htells := hpeers view.peerId
    rw [hentry] at htells
    obtain ⟨htold, hseen, -⟩ := htells
    rw [← hsame]
    refine ⟨htold.connections, fun address => ?_, fun protocol => ?_, htold.agentVersion, hseen⟩
    · exact TreeSet.mem_toList.trans (htold.addresses address)
    · exact TreeSet.mem_toList.trans (htold.protocols protocol)
  · intro entry
    unfold TopologyState.snapshot
    rw [List.mem_map]
    constructor
    · rintro ⟨⟨key, entry⟩, hentry, rfl⟩
      have hkey := TreeMap.mem_toList_iff_getElem?_eq_some.1 hentry
      obtain ⟨rfl, hbar⟩ := hkeys key entry hkey
      exact (hentries (entry.peerId, entry.namespaceName) hbar).symm.trans hkey
    · intro hstands
      have hbar := bar_not_mem_of_standing hbars hstands
      have hkey := (hentries (entry.peerId, entry.namespaceName) hbar).trans hstands
      exact ⟨(_, entry), TreeMap.mem_toList_iff_getElem?_eq_some.2 hkey, rfl⟩
  · exact recentEvents_after localPeerId start hfits

/-- Somebody connects twice, registers twice and closes one of the links. -/
def twoLinks : List RelayReport := [
  ⟨fun _ => 1, .connectionEstablished "ann" "/ip4/1"⟩,
  ⟨fun _ => 2, .connectionEstablished "ann" "/ip4/2"⟩,
  ⟨fun _ => 3, .peerRegistered "ann" ⟨"ann", "room", ["/ip4/1"]⟩⟩,
  ⟨fun _ => 4, .peerRegistered "ann" ⟨"ann", "room", ["/ip4/2"]⟩⟩,
  ⟨fun _ => 5, .connectionClosed "ann" 1⟩]

/-- The main result for the two links. -/
theorem relay_page_tells_twoLinks :
    ((TopologyState.after "relay" 0 twoLinks).snapshot).Tells "relay" twoLinks :=
  relay_page_tells "relay" 0 (by decide) (by simp [NoBars, twoLinks, RelayEvent.registration?])

/-- One of the links is left, and the registration has the first time and the last. -/
example : (TopologyState.after "relay" 0 twoLinks).snapshot.connectedPeers =
      [⟨"ann", 1, ["/ip4/1", "/ip4/2"], [], none, 5⟩] ∧
    (TopologyState.after "relay" 0 twoLinks).snapshot.rendezvousRegistrations =
      [⟨"ann", "room", ["/ip4/2"], 3, 4⟩] := by decide

end LightEar
