import LightEar.ConnectionHistory
import LightEar.Foundation.RetryLedger

/-!
# Dialling relayed peers directly

A relayed peer is dialled at its direct addresses once it has subscribed to the chat or has been
waited for.  How often that is tried is a matter of a `RetryLedger` for each peer, with the policy
of the program (`promotionPolicy`); the backoff that the program keeps is what it needs of the
ledger (`Matches`).

A reaction may dial (`Promotes`, `Answers`); every call is walked over once (`call_answers`), and
what holds of all dials in a history follows by induction (`direct_dials_respect`).
-/

namespace LightEar

open Foundation

/-! ## The ledger of a peer -/

/-- How direct dials are spaced and limited. -/
def promotionPolicy : RetryPolicy where
  interval failures := { DirectPromotionBackoff.new with failures := failures }.retryInterval
  limit := directPromotionMaxFailures
  window := directPromotionFailureDedupWindow

/-- The backoff holds what is needed of the ledger. -/
structure DirectPromotionBackoff.Matches (backoff : DirectPromotionBackoff) (l : RetryLedger) :
    Prop where
  /-- The counted failures, as far as the counter goes. -/
  failures : backoff.failures = min l.counted.length u32Max
  /-- The last attempt. -/
  lastAttempt : backoff.lastAttempt = l.lastAttempt
  /-- The last failure that was counted. -/
  lastFailure : backoff.lastFailure = l.counted.head?
  /-- Whether an attempt is pending. -/
  inFlight : backoff.inFlight = l.pending

namespace DirectPromotionBackoff

variable {backoff : DirectPromotionBackoff} {l : RetryLedger}

theorem matches_new : DirectPromotionBackoff.new.Matches .new :=
  ⟨rfl, rfl, rfl, rfl⟩

/-- Whether the suspension has been reported is no matter of the ledger. -/
theorem Matches.reported (h : backoff.Matches l) (suspendedReported : Bool) :
    { backoff with suspendedReported }.Matches l :=
  ⟨h.failures, h.lastAttempt, h.lastFailure, h.inFlight⟩

/-- An attempt. -/
theorem Matches.markAttempt (h : backoff.Matches l) (now : Instant) :
    (backoff.markAttempt now).Matches (l.next promotionPolicy (.attempt now)) :=
  ⟨h.failures, rfl, h.lastFailure, rfl⟩

/-- A failure. -/
theorem Matches.markFailure (h : backoff.Matches l) (now : Instant) :
    (backoff.markFailure now).2.Matches (l.next promotionPolicy (.failed now)) := by
  have hrepeated : backoff.lastFailure.any (now - · < directPromotionFailureDedupWindow) =
      l.isRepeated promotionPolicy now := by
    rw [h.lastFailure]
    rfl
  unfold DirectPromotionBackoff.markFailure RetryLedger.next
  dsimp only
  rw [hrepeated]
  cases l.isRepeated promotionPolicy now with
  | true => exact ⟨h.failures, h.lastAttempt, h.lastFailure, rfl⟩
  | false =>
    refine ⟨?_, h.lastAttempt, rfl, rfl⟩
    have hcount : min (min l.counted.length u32Max + 1) u32Max =
        min (l.counted.length + 1) u32Max := by omega
    simpa [h.failures] using hcount

/-- The program tries only when the policy allows it. -/
theorem Matches.allows (h : backoff.Matches l) {now : Instant}
    (hattempt : backoff.shouldAttempt now = true) :
    l.Allows promotionPolicy (.attempt now) := by
  unfold shouldAttempt at hattempt
  rw [Bool.and_eq_true, Bool.and_eq_true, decide_eq_true_eq, Option.isNone_iff_eq_none,
    Bool.not_eq_true'] at hattempt
  obtain ⟨⟨hidle, hfew⟩, hwaited⟩ := hattempt
  have hmany : directPromotionMaxFailures ≤ u32Max := by decide
  have hcount : backoff.failures = l.counted.length := by
    have hfailures := h.failures
    omega
  have hinterval : promotionPolicy.interval l.counted.length = backoff.retryInterval := by
    unfold promotionPolicy retryInterval
    dsimp only
    rw [hcount]
  refine ⟨h.inFlight.symm.trans hidle, hcount ▸ hfew, fun last hlast => ?_⟩
  rw [hinterval]
  unfold retryRemaining at hwaited
  rw [h.lastAttempt, Option.mem_def.1 hlast, Option.bind_some] at hwaited
  by_contra hsoon
  have hleft : now - last ≤ backoff.retryInterval :=
    Nat.sub_le_iff_le_add'.2 (Nat.le_of_lt (Nat.not_le.1 hsoon))
  rw [if_pos hleft] at hwaited
  cases hwaited

end DirectPromotionBackoff

/-! ## Reactions that dial -/

/-- The dials of a peer among some effects. -/
def dialEvents (peerId : PeerId) (now : Instant) (effects : List ConnectionEffect) :
    List RetryEvent :=
  effects.filterMap fun
    | .dialDirect p _ => if p = peerId then some (.attempt now) else none
    | _ => none

/-- Without a dial there are none. -/
theorem dialEvents_eq_nil {effects : List ConnectionEffect}
    (h : ∀ peerId addresses, .dialDirect peerId addresses ∉ effects) (p : PeerId)
    (now : Instant) : dialEvents p now effects = [] := by
  refine List.filterMap_eq_nil_iff.2 fun effect heffect => ?_
  cases effect with
  | dialDirect peerId addresses => exact absurd heffect (h peerId addresses)
  | _ => rfl

/-- A dial and its announcement. -/
theorem dialEvents_dial (p peerId : PeerId) (now : Instant) (addresses : List Multiaddr)
    (text : String) :
    dialEvents p now [.dialDirect peerId addresses, .status text] =
      if peerId = p then [.attempt now] else [] := by
  unfold dialEvents
  split <;> simp_all

/-- What a call itself says about the tries to reach a peer. -/
def newsOf : Option (PeerId × RetryEvent) → PeerId → List RetryEvent
  | none, _ => []
  | some (p, event), peerId => if p = peerId then [event] else []

theorem newsOf_some (p peerId : PeerId) (event : RetryEvent) :
    newsOf (some (p, event)) peerId = if p = peerId then [event] else [] := rfl

namespace ConnectionState

/-- The tries to reach a peer directly, if only none. -/
def backoffOf (s : ConnectionState) (peerId : PeerId) : DirectPromotionBackoff :=
  (s.backoffs.lookup peerId).getD .new

/-- The subscription of the peer has been waited for in vain. -/
def WarmedUp (s : ConnectionState) (peerId : PeerId) (now : Instant) : Prop :=
  peerId ∈ s.warmupCompleted ∨
    ∃ startedAt ∈ s.warmups.lookup peerId, warmupIsExpired startedAt now = true

/-- The peer is relayed, these are its direct addresses, and it has subscribed or has been waited
for. -/
def DialTarget (s : ConnectionState) (peerId : PeerId) (addresses : List Multiaddr)
    (now : Instant) : Prop :=
  s.isRelayOnly peerId = true ∧
    (∃ known, s.directAddresses.lookup peerId = some known ∧ known ≠ [] ∧
      addresses = prioritizeMultiaddrs known) ∧
    (peerId ∈ s.chatSubscribers ∨ s.WarmedUp peerId now)

/-- What a reaction may do about direct dials in a state in which routes, subscriptions and
addresses are up to date. -/
structure Promotes (now : Instant) (events : PeerId → List RetryEvent) (s : ConnectionState)
    (reply : ConnectionReply) : Prop where
  /-- Routes stay. -/
  routes : reply.state.routes = s.routes
  /-- Subscriptions stay. -/
  subscribers : reply.state.chatSubscribers = s.chatSubscribers
  /-- Addresses stay. -/
  addresses : reply.state.directAddresses = s.directAddresses
  /-- Nobody has been waited for in vain too soon. -/
  completed : ∀ peerId ∈ reply.state.warmupCompleted, s.WarmedUp peerId now
  /-- Nobody is waited for since a time in the past that was not known. -/
  warmups : ∀ peerId startedAt, reply.state.warmups.lookup peerId = some startedAt →
    s.warmups.lookup peerId = some startedAt ∨ startedAt = now
  /-- Dials go to relayed peers that have subscribed or have been waited for. -/
  dials : ∀ peerId addresses, .dialDirect peerId addresses ∈ reply.effects →
    s.DialTarget peerId addresses now
  /-- The events are in keeping with the ledger, and the backoff follows it. -/
  ledger : ∀ peerId l, (s.backoffOf peerId).Matches l →
    Along (RetryLedger.next promotionPolicy) (RetryLedger.Allows promotionPolicy) l
        (events peerId) ∧
      (reply.state.backoffOf peerId).Matches
        ((events peerId).foldl (RetryLedger.next promotionPolicy) l)

/-- A reaction that enters some news into the ledgers, and its dials. -/
def Answers (now : Instant) (news : Option (PeerId × RetryEvent)) (s : ConnectionState)
    (reply : ConnectionReply) : Prop :=
  Promotes now (fun peerId => newsOf news peerId ++ dialEvents peerId now reply.effects) s reply

/-- A reaction without consequences for direct dials. -/
structure Undialled (now : Instant) (s : ConnectionState) (reply : ConnectionReply) : Prop where
  /-- Routes stay. -/
  routes : reply.state.routes = s.routes
  /-- Subscriptions stay. -/
  subscribers : reply.state.chatSubscribers = s.chatSubscribers
  /-- Addresses stay. -/
  addresses : reply.state.directAddresses = s.directAddresses
  /-- Nobody has been waited for in vain too soon. -/
  completed : ∀ peerId ∈ reply.state.warmupCompleted, s.WarmedUp peerId now
  /-- Nobody is waited for since a time in the past that was not known. -/
  warmups : ∀ peerId startedAt, reply.state.warmups.lookup peerId = some startedAt →
    s.warmups.lookup peerId = some startedAt ∨ startedAt = now
  /-- The backoffs stay. -/
  backoffs : reply.state.backoffs = s.backoffs
  /-- Nothing is dialled. -/
  effects : ∀ peerId addresses, .dialDirect peerId addresses ∉ reply.effects

section Rules

variable {now : Instant} {s : ConnectionState} {reply : ConnectionReply}
  {events : PeerId → List RetryEvent}

/-- Who has been waited for after a reaction had been before. -/
theorem Promotes.warmedUp (h : Promotes now events s reply) {peerId : PeerId}
    (hwarmed : reply.state.WarmedUp peerId now) : s.WarmedUp peerId now := by
  rcases hwarmed with hcompleted | ⟨startedAt, hstarted, hexpired⟩
  · exact h.completed peerId hcompleted
  · rcases h.warmups peerId startedAt hstarted with hbefore | rfl
    · exact .inr ⟨startedAt, hbefore, hexpired⟩
    · -- a wait that has just begun is not over
      have hzero : gossipWarmupTimeout ≤ startedAt - startedAt := of_decide_eq_true hexpired
      rw [Nat.sub_self] at hzero
      exact absurd hzero (by decide)

/-- A reaction may be followed by another. -/
theorem Promotes.andThen {f : ConnectionState → ConnectionReply}
    {later : PeerId → List RetryEvent} (h : Promotes now events s reply)
    (hf : Promotes now later reply.state (f reply.state)) :
    Promotes now (fun peerId => events peerId ++ later peerId) s (reply.andThen f) where
  routes := hf.routes.trans h.routes
  subscribers := hf.subscribers.trans h.subscribers
  addresses := hf.addresses.trans h.addresses
  completed peerId hcompleted := h.warmedUp (hf.completed peerId hcompleted)
  warmups peerId startedAt hstarted := by
    rcases hf.warmups peerId startedAt hstarted with hbefore | hnow
    · exact h.warmups peerId startedAt hbefore
    · exact .inr hnow
  dials peerId addresses hmem := by
    rcases List.mem_append.1 hmem with hfirst | hsecond
    · exact h.dials peerId addresses hfirst
    · obtain ⟨hrelayed, haddresses, hready⟩ := hf.dials peerId addresses hsecond
      refine ⟨?_, ?_, hready.imp (fun hmem => h.subscribers ▸ hmem) h.warmedUp⟩
      · rw [isRelayOnly, h.routes] at hrelayed
        exact hrelayed
      · rwa [h.addresses] at haddresses
  ledger peerId l hl := by
    obtain ⟨hfirst, hmatches⟩ := h.ledger peerId l hl
    obtain ⟨hsecond, hmatches'⟩ := hf.ledger peerId _ hmatches
    rw [List.foldl_append]
    exact ⟨Along.append_iff.2 ⟨hfirst, hsecond⟩, hmatches'⟩

/-- So may one that answers some news, by one without any. -/
theorem Answers.andThen {news : Option (PeerId × RetryEvent)}
    {f : ConnectionState → ConnectionReply} (h : Answers now news s reply)
    (hf : Answers now none reply.state (f reply.state)) : Answers now news s (reply.andThen f) := by
  have hevents : ∀ peerId, newsOf news peerId ++
      dialEvents peerId now (reply.andThen f).effects =
        newsOf news peerId ++ dialEvents peerId now reply.effects ++
          (newsOf none peerId ++ dialEvents peerId now (f reply.state).effects) := by
    intro peerId
    rw [List.append_assoc]
    exact congrArg _ List.filterMap_append
  unfold Answers
  simp only [hevents]
  exact Promotes.andThen h hf

/-- A reaction without consequences is none to any news. -/
theorem Undialled.promotes (h : Undialled now s reply) : Promotes now (fun _ => []) s reply := by
  refine ⟨h.routes, h.subscribers, h.addresses, h.completed, h.warmups,
    fun peerId addresses hmem => absurd hmem (h.effects peerId addresses), fun peerId l hl => ?_⟩
  refine ⟨trivial, ?_⟩
  unfold backoffOf at hl ⊢
  rw [h.backoffs]
  exact hl

/-- It may come before any other. -/
theorem Undialled.andThen {news : Option (PeerId × RetryEvent)}
    {f : ConnectionState → ConnectionReply} (h : Undialled now s reply)
    (hf : Answers now news reply.state (f reply.state)) :
    Answers now news s (reply.andThen f) := by
  have hevents : ∀ peerId, dialEvents peerId now (reply.andThen f).effects =
      dialEvents peerId now (f reply.state).effects := by
    intro peerId
    refine List.filterMap_append.trans ?_
    rw [← dialEvents, dialEvents_eq_nil h.effects, List.nil_append]
    rfl
  have hboth := h.promotes.andThen hf
  unfold Answers
  simp only [hevents]
  exact hboth

theorem Undialled.answers (h : Undialled now s reply) : Answers now none s reply := by
  unfold Answers
  simp only [dialEvents_eq_nil h.effects]
  exact h.promotes

theorem Undialled.keep : Undialled now s s.keep :=
  ⟨rfl, rfl, rfl, fun _ h => .inl h, fun _ _ h => .inl h, rfl, fun _ _ => List.not_mem_nil⟩

/-- What concerns handoffs and gossip only is without consequences. -/
theorem Undialled.frame {effects : List ConnectionEffect} (gossipPeers : Finset PeerId)
    (relayHandoffs : AList fun _ : PeerId => Instant)
    (h : ∀ peerId addresses, .dialDirect peerId addresses ∉ effects) :
    Undialled now s ⟨effects, { s with gossipPeers, relayHandoffs }⟩ :=
  ⟨rfl, rfl, rfl, fun _ h => .inl h, fun _ _ h => .inl h, rfl, h⟩

/-- One reaction for each of some peers. -/
theorem Answers.forEach {f : PeerId → ConnectionState → ConnectionReply}
    (hf : ∀ peerId s, Answers now none s (f peerId s)) (peers : List PeerId)
    (s : ConnectionState) : Answers now none s (forEach f peers s) := by
  induction peers generalizing s with
  | nil => exact Undialled.keep.answers
  | cons peerId peers ih => exact (hf peerId s).andThen (ih _)

end Rules

section Reactions

variable (s : ConnectionState) (peerId : PeerId) (now : Instant)

theorem startGossipWarmup_undialled : Undialled now s (s.startGossipWarmup peerId now) := by
  unfold startGossipWarmup
  split
  · exact .keep
  · split
    · exact .keep
    · refine ⟨rfl, rfl, rfl, fun _ h => .inl h, fun p startedAt h => ?_, rfl, by simp⟩
      by_cases hp : p = peerId
      · subst hp
        rw [AList.lookup_insert] at h
        exact .inr (Option.some.inj h).symm
      · rw [AList.lookup_insert_ne hp] at h
        exact .inl h

theorem gossipWarmupAllowsPromotion_undialled :
    Undialled now s (s.gossipWarmupAllowsPromotion peerId now).2 := by
  have hforgotten : ∀ p startedAt, (s.warmups.erase peerId).lookup p = some startedAt →
      s.warmups.lookup p = some startedAt ∨ startedAt = now :=
    fun _ _ h => .inl (lookup_of_lookup_erase h)
  unfold gossipWarmupAllowsPromotion
  split
  · refine ⟨rfl, rfl, rfl, fun p h => .inl (Finset.mem_of_mem_erase h), hforgotten, rfl, by simp⟩
  · split
    · exact .keep
    · split
      · exact s.startGossipWarmup_undialled peerId now
      · rename_i startedAt hstarted
        split
        · rename_i hexpired
          refine ⟨rfl, rfl, rfl, fun p h => ?_, hforgotten, rfl, by simp⟩
          rcases Finset.mem_insert.1 h with rfl | h
          · exact .inr ⟨startedAt, hstarted, hexpired⟩
          · exact .inl h
        · exact .keep

/-- Promotion is allowed for peers that have subscribed or have been waited for. -/
theorem gossipWarmupAllowsPromotion_iff : (s.gossipWarmupAllowsPromotion peerId now).1 = true ↔
    peerId ∈ s.chatSubscribers ∨ s.WarmedUp peerId now := by
  unfold gossipWarmupAllowsPromotion
  split
  · rename_i hsubscribed
    exact iff_of_true rfl (.inl (of_decide_eq_true hsubscribed))
  · rename_i hunsubscribed
    have hnot : peerId ∉ s.chatSubscribers := fun h => hunsubscribed (decide_eq_true h)
    rw [or_iff_right hnot]
    split
    · exact iff_of_true rfl (.inl (by assumption))
    · rename_i hcompleted
      unfold WarmedUp
      rw [or_iff_right hcompleted]
      split
      · rename_i hnone
        rw [hnone]
        exact iff_of_false Bool.false_ne_true (fun ⟨_, h, _⟩ => nomatch h)
      · rename_i startedAt hstarted
        rw [hstarted]
        split
        · exact iff_of_true rfl ⟨startedAt, rfl, by assumption⟩
        · refine iff_of_false Bool.false_ne_true ?_
          rintro ⟨_, ⟨⟩, hexpired⟩
          exact absurd hexpired (by assumption)

/-- That they are is still known afterwards. -/
theorem ready_of_gossipWarmupAllowsPromotion
    (h : (s.gossipWarmupAllowsPromotion peerId now).1 = true) :
    peerId ∈ (s.gossipWarmupAllowsPromotion peerId now).2.state.chatSubscribers ∨
      peerId ∈ (s.gossipWarmupAllowsPromotion peerId now).2.state.warmupCompleted := by
  unfold gossipWarmupAllowsPromotion at h ⊢
  split
  · rename_i hsubscribed
    exact .inl (of_decide_eq_true hsubscribed)
  · rename_i hunsubscribed
    rw [if_neg hunsubscribed] at h
    split
    · exact .inr (by assumption)
    · rename_i hcompleted
      rw [if_neg hcompleted] at h
      split
      · rename_i hnone
        rw [hnone] at h
        cases h
      · rename_i startedAt hstarted
        rw [hstarted] at h
        dsimp only at h
        split
        · exact .inr (Finset.mem_insert_self _ _)
        · rename_i hwaiting
          rw [if_neg hwaiting] at h
          cases h

/-- Another backoff for one peer. -/
theorem backoffOf_insert (backoff : DirectPromotionBackoff) (p : PeerId) :
    backoffOf { s with backoffs := s.backoffs.insert peerId backoff } p =
      if p = peerId then backoff else s.backoffOf p := by
  unfold backoffOf
  by_cases hp : p = peerId
  · subst hp
    rw [if_pos rfl, AList.lookup_insert]
    rfl
  · rw [if_neg hp, AList.lookup_insert_ne hp]

/-- A dial of a peer that may be dialled. -/
theorem dialDirect_answers {addresses : List Multiaddr}
    (h : s.DialTarget peerId (prioritizeMultiaddrs addresses) now) :
    Answers now none s (s.dialDirect peerId addresses now) := by
  have hstill : ∀ backoff : DirectPromotionBackoff, ∀ effects : List ConnectionEffect,
      (∀ p a, .dialDirect p a ∉ effects) →
      (∀ l, (s.backoffOf peerId).Matches l → backoff.Matches l) →
      Answers now none s ⟨effects, { s with backoffs := s.backoffs.insert peerId backoff }⟩ := by
    intro backoff effects heffects hbackoff
    refine ⟨rfl, rfl, rfl, fun _ h => .inl h, fun _ _ h => .inl h,
      fun p a hmem => absurd hmem (heffects p a), fun p l hl => ?_⟩
    dsimp only
    rw [dialEvents_eq_nil heffects, backoffOf_insert]
    refine ⟨trivial, ?_⟩
    split
    · rename_i hp
      subst hp
      exact hbackoff l hl
    · exact hl
  unfold dialDirect
  dsimp only
  change Answers now none s
    (if directPromotionMaxFailures ≤ (s.backoffOf peerId).failures then _ else _)
  split
  · split
    · exact hstill _ _ (fun _ _ => List.not_mem_nil) fun l hl => hl
    · exact hstill _ _ (by simp) fun l hl => hl.reported true
  · split
    · rename_i hattempt
      refine ⟨rfl, rfl, rfl, fun _ h => .inl h, fun _ _ h => .inl h, fun p a hmem => ?_,
        fun p l hl => ?_⟩
      · simp only [List.mem_cons, ConnectionEffect.dialDirect.injEq, List.not_mem_nil, or_false,
          reduceCtorEq] at hmem
        obtain ⟨rfl, rfl⟩ := hmem
        exact h
      · dsimp only
        rw [dialEvents_dial, backoffOf_insert]
        by_cases hp : p = peerId
        · subst hp
          rw [if_pos rfl, if_pos rfl]
          exact ⟨⟨hl.allows hattempt, trivial⟩, hl.markAttempt now⟩
        · rw [if_neg (Ne.symm hp), if_neg hp]
          exact ⟨trivial, hl⟩
    · exact hstill _ _ (fun _ _ => List.not_mem_nil) fun l hl => hl

theorem maybePromoteRelayedPeer_answers :
    Answers now none s (s.maybePromoteRelayedPeer peerId now) := by
  have hallowed := s.gossipWarmupAllowsPromotion_undialled peerId now
  have hready := s.ready_of_gossipWarmupAllowsPromotion peerId now
  unfold maybePromoteRelayedPeer
  split
  · exact Undialled.keep.answers
  · rename_i hrelayed
    rw [not_or, Bool.not_eq_false] at hrelayed
    split
    · exact Undialled.keep.answers
    · exact Undialled.keep.answers
    · rename_i addresses hnonempty haddresses
      dsimp only
      split
      · rename_i hpromote
        refine hallowed.andThen (dialDirect_answers _ peerId now ⟨?_, ?_, ?_⟩)
        · rw [isRelayOnly, hallowed.routes]
          exact hrelayed.2
        · rw [hallowed.addresses]
          exact ⟨addresses, haddresses, hnonempty, rfl⟩
        · exact (hready hpromote).imp_right .inl
      · exact hallowed.answers

/-! ### The other reactions -/

theorem trackGossipPeer_undialled (status : Option String) :
    Undialled now s (s.trackGossipPeer peerId status) := by
  unfold trackGossipPeer
  split
  · exact .keep
  · exact .frame _ _ (by cases status <;> simp)

theorem untrackGossipPeer_undialled : Undialled now s (s.untrackGossipPeer peerId) := by
  unfold untrackGossipPeer
  split
  · exact .frame _ _ (by simp)
  · exact .keep

theorem scheduleRelayHandoff_undialled :
    Undialled now s (s.scheduleRelayHandoff peerId now) := by
  unfold scheduleRelayHandoff
  dsimp only
  split
  · exact .frame _ _ (fun _ _ => List.not_mem_nil)
  · split
    · exact .frame _ _ (by simp)
    · exact .frame _ _ (fun _ _ => List.not_mem_nil)

theorem closeRelayAfterHandoff_undialled :
    Undialled now s (s.closeRelayAfterHandoff peerId) := by
  unfold closeRelayAfterHandoff
  split
  · exact .frame _ _ (fun _ _ => List.not_mem_nil)
  · split
    · exact .frame _ _ (fun _ _ => List.not_mem_nil)
    · split
      · exact .frame _ _ (fun _ _ => List.not_mem_nil)
      · exact .frame _ _ (by simp)

/-- News of one peer, and the backoff that goes with it. -/
theorem Answers.of_news {event : RetryEvent} {reply : ConnectionReply}
    {backoffs : AList fun _ : PeerId => DirectPromotionBackoff}
    (hstate : reply.state = { s with backoffs })
    (heffects : ∀ p a, .dialDirect p a ∉ reply.effects)
    (hothers : ∀ p ≠ peerId, reply.state.backoffOf p = s.backoffOf p)
    (hnews : ∀ l, (s.backoffOf peerId).Matches l → l.Allows promotionPolicy event ∧
      (reply.state.backoffOf peerId).Matches (l.next promotionPolicy event)) :
    Answers now (some (peerId, event)) s reply := by
  refine ⟨by rw [hstate], by rw [hstate], by rw [hstate], fun p hp => ?_, fun p startedAt hp => ?_,
    fun p a hmem => absurd hmem (heffects p a), fun p l hl => ?_⟩
  · rw [hstate] at hp
    exact .inl hp
  · rw [hstate] at hp
    exact .inl hp
  · rw [dialEvents_eq_nil heffects, List.append_nil, newsOf_some]
    by_cases hp : peerId = p
    · subst hp
      rw [if_pos rfl]
      obtain ⟨hallows, hmatches⟩ := hnews l hl
      exact ⟨⟨hallows, trivial⟩, hmatches⟩
    · rw [if_neg hp, hothers p (Ne.symm hp)]
      exact ⟨trivial, hl⟩

/-- Without a backoff for one peer. -/
theorem backoffOf_erase (p : PeerId) :
    backoffOf { s with backoffs := s.backoffs.erase peerId } p =
      if p = peerId then .new else s.backoffOf p := by
  unfold backoffOf
  by_cases hp : p = peerId
  · subst hp
    rw [if_pos rfl, AList.lookup_erase]
    rfl
  · rw [if_neg hp, AList.lookup_erase_ne hp]

/-- After a reset nothing is counted. -/
theorem backoffOf_resetBackoff (p : PeerId) :
    (s.resetBackoff peerId).state.backoffOf p =
      if p = peerId then .new else s.backoffOf p := by
  unfold resetBackoff
  split
  · exact s.backoffOf_erase peerId p
  · rename_i hnone
    rw [Bool.not_eq_true, Option.isSome_eq_false_iff, Option.isNone_iff_eq_none] at hnone
    split
    · rename_i hp
      subst hp
      unfold backoffOf keep
      rw [hnone]
      rfl
    · rfl

theorem resetBackoff_answers :
    Answers now (some (peerId, .reset)) s (s.resetBackoff peerId) := by
  have hstate : ∃ backoffs, (s.resetBackoff peerId).state = { s with backoffs } ∧
      ∀ p a, .dialDirect p a ∉ (s.resetBackoff peerId).effects := by
    unfold resetBackoff
    split
    · exact ⟨_, rfl, by simp⟩
    · exact ⟨_, rfl, fun _ _ => List.not_mem_nil⟩
  obtain ⟨backoffs, hstate, heffects⟩ := hstate
  refine .of_news s peerId now hstate heffects (fun p hp => ?_) fun l _ => ⟨trivial, ?_⟩
  · rw [backoffOf_resetBackoff, if_neg hp]
  · rw [backoffOf_resetBackoff, if_pos rfl]
    exact DirectPromotionBackoff.matches_new

/-- A failure is counted in the backoff of its peer, and perhaps reported. -/
theorem recordDirectPromotionFailure_eq (reason : String) :
    ∃ effects suspendedReported, s.recordDirectPromotionFailure peerId reason now =
        ⟨effects, { s with backoffs := (s.backoffs.insert peerId
          { ((s.backoffOf peerId).markFailure now).2 with suspendedReported }) }⟩ ∧
      ∀ p a, .dialDirect p a ∉ effects := by
  unfold recordDirectPromotionFailure
  dsimp only
  split
  · exact ⟨_, _, rfl, fun _ _ => List.not_mem_nil⟩
  · exact ⟨_, _, rfl, by simp⟩
  · exact ⟨_, true, rfl, by simp⟩

theorem recordDirectPromotionFailure_answers (reason : String) :
    Answers now (some (peerId, .failed now)) s
      (s.recordDirectPromotionFailure peerId reason now) := by
  obtain ⟨effects, suspendedReported, hreply, heffects⟩ :=
    s.recordDirectPromotionFailure_eq peerId now reason
  rw [hreply]
  refine .of_news s peerId now rfl heffects (fun p hp => ?_) fun l hl => ⟨trivial, ?_⟩
  · rw [backoffOf_insert, if_neg hp]
  · rw [backoffOf_insert, if_pos rfl]
    exact (hl.markFailure now).reported suspendedReported

theorem acceptDirect_answers (hasRelayedRoute : Bool) :
    Answers now (some (peerId, .reset)) s (s.acceptDirect peerId hasRelayedRoute now) := by
  refine (s.resetBackoff_answers peerId now).andThen ?_
  split
  · split
    · exact (scheduleRelayHandoff_undialled _ peerId now).answers
    · exact (Undialled.frame _ _ (by simp)).answers
  · split
    · exact (Undialled.frame _ _ (by simp)).answers
    · exact (Undialled.frame _ _ (by simp)).answers

end Reactions

/-- A direct connection may stay: there is no relay, or the peer has subscribed or has been waited
for. -/
def AcceptsDirect (s : ConnectionState) (peerId : PeerId) (now : Instant) : Prop :=
  s.hasRelayed peerId = false ∨ peerId ∈ s.chatSubscribers ∨ s.WarmedUp peerId now

instance (s : ConnectionState) (peerId : PeerId) (now : Instant) :
    Decidable (s.AcceptsDirect peerId now) := by
  unfold AcceptsDirect WarmedUp
  infer_instance

section Reactions

variable (s : ConnectionState) (peerId : PeerId) (now : Instant)

theorem directEstablished_answers (connectionId : ConnectionId) :
    Answers now (if s.AcceptsDirect peerId now then some (peerId, .reset) else none) s
      (s.directEstablished peerId connectionId now) := by
  have hwarmup := s.gossipWarmupAllowsPromotion_undialled peerId now
  unfold directEstablished
  by_cases hplain : s.hasRelayed peerId = false ∨ s.isChatSubscribed peerId = true
  · have haccepts : s.AcceptsDirect peerId now :=
      hplain.imp_right fun h => .inl (of_decide_eq_true h)
    rw [if_pos haccepts, if_pos hplain]
    exact s.acceptDirect_answers peerId now _
  · have hallowed : s.AcceptsDirect peerId now ↔
        (s.gossipWarmupAllowsPromotion peerId now).1 = true := by
      unfold AcceptsDirect
      rw [or_iff_right fun h => hplain (.inl h), gossipWarmupAllowsPromotion_iff]
    rw [if_neg hplain]
    dsimp only
    by_cases hpromote : (s.gossipWarmupAllowsPromotion peerId now).1 = true
    · rw [if_pos (hallowed.2 hpromote), if_pos hpromote]
      exact hwarmup.andThen (acceptDirect_answers _ peerId now _)
    · rw [if_neg fun h => hpromote (hallowed.1 h), if_neg hpromote]
      exact hwarmup.andThen (Undialled.frame _ _ (by simp)).answers

theorem relayEstablished_answers (isRendezvousNode : Bool) :
    Answers now none s (s.relayEstablished peerId isRendezvousNode now) := by
  have hconnected : Undialled now s ⟨[.status s!"connected {peerId} via relay"], s⟩ :=
    .frame _ _ (by simp)
  have hwaited : Undialled now s (if !isRendezvousNode && !s.isChatSubscribed peerId then
      s.startGossipWarmup peerId now else s.keep) := by
    split
    · exact s.startGossipWarmup_undialled peerId now
    · exact .keep
  exact (hconnected.andThen (f := fun s => if !isRendezvousNode && !s.isChatSubscribed peerId then
    s.startGossipWarmup peerId now else s.keep) hwaited.answers).andThen
      (f := fun s => s.maybePromoteRelayedPeer peerId now)
      (maybePromoteRelayedPeer_answers _ peerId now)

theorem dcutrFailed_answers (reason : String) :
    Answers now (if s.isRelayOnly peerId then some (peerId, .failed now) else none) s
      (s.dcutrFailed peerId reason now) := by
  unfold dcutrFailed
  split
  · exact s.recordDirectPromotionFailure_answers peerId now _
  · exact (Undialled.frame _ _ (by simp)).answers

theorem outgoingConnectionError_answers (reason : String) :
    Answers now (if (s.backoffOf peerId).inFlight then some (peerId, .failed now) else none) s
      (s.outgoingConnectionError peerId reason now) := by
  have hpending : (s.backoffOf peerId).inFlight =
      (s.backoffs.lookup peerId).any DirectPromotionBackoff.inFlight := by
    unfold backoffOf
    cases s.backoffs.lookup peerId <;> rfl
  rw [hpending]
  unfold outgoingConnectionError
  split
  · exact s.recordDirectPromotionFailure_answers peerId now _
  · exact (Undialled.frame _ _ (by simp)).answers

theorem warmupTick_answers (order : KeyOrder) : Answers now none s (s.warmupTick order now) := by
  unfold warmupTick
  refine
    (Answers.forEach (fun peerId s => s.maybePromoteRelayedPeer_answers peerId now) _ s).andThen
    (.forEach (fun peerId s => (s.closeRelayAfterHandoff_undialled peerId now).answers) _ _)

end Reactions

/-! ## Calls -/

/-- The state with what a call tells of. -/
def briefed (s : ConnectionState) : ConnectionCall → ConnectionState
  | .learnDirectAddresses peerId addresses => (s.rememberDirectAddresses peerId addresses).2
  | .forgetDirectAddress peerId address => (s.forgetDirectAddress peerId address).2
  | call => { s.informed call with backoffs := s.backoffs }

/-- The direct addresses known of a peer. -/
def addressesOf (s : ConnectionState) (peerId : PeerId) : List Multiaddr :=
  (s.directAddresses.lookup peerId).getD []

/-- Some direct addresses of a peer are not known yet. -/
def LearnsAddress (s : ConnectionState) (peerId : PeerId) (addresses : List Multiaddr) : Prop :=
  ∃ address ∈ addresses.filterMap (Multiaddr.normalizeDirectPeerAddress peerId),
    address ∉ s.addressesOf peerId

instance (s : ConnectionState) (peerId : PeerId) (addresses : List Multiaddr) :
    Decidable (s.LearnsAddress peerId addresses) := by
  unfold LearnsAddress
  infer_instance

/-- What a call says about the tries to reach a peer: a new address, a direct connection that may
stay, a punched hole and the last connection closed are resets; a failure is reported by itself,
by a failed hole punching to a relayed peer, and by a failed dial that is pending. -/
def news (s : ConnectionState) (now : Instant) : ConnectionCall → Option (PeerId × RetryEvent)
  | .connectionEstablished peerId _ false _ =>
    if s.AcceptsDirect peerId now then some (peerId, .reset) else none
  | .connectionClosed peerId _ _ 0 => some (peerId, .reset)
  | .learnDirectAddresses peerId addresses =>
    if s.LearnsAddress peerId addresses then some (peerId, .reset) else none
  | .dcutrSucceeded peerId => some (peerId, .reset)
  | .dcutrFailed peerId _ => if s.isRelayOnly peerId then some (peerId, .failed now) else none
  | .outgoingConnectionError peerId _ =>
    if (s.backoffOf peerId).inFlight then some (peerId, .failed now) else none
  | .recordDirectPromotionFailure peerId _ => some (peerId, .failed now)
  | _ => none

/-- Inserted elements make a list longer if one of them is new. -/
theorem length_foldl_insert (known addresses : List Multiaddr) :
    known.length ≤ (addresses.foldl (fun known address => known.insert address) known).length ∧
      ((∃ address ∈ addresses, address ∉ known) ↔
        known.length <
          (addresses.foldl (fun known address => known.insert address) known).length) := by
  induction addresses generalizing known with
  | nil => simp
  | cons address addresses ih =>
    obtain ⟨hle, hiff⟩ := ih (known.insert address)
    rw [List.foldl_cons]
    by_cases hknown : address ∈ known
    · rw [List.insert_of_mem hknown] at hle hiff ⊢
      refine ⟨hle, ?_⟩
      rw [← hiff]
      simp [hknown]
    · have hgrown : known.length <
          (addresses.foldl (fun known address => known.insert address)
            (known.insert address)).length := by
        refine Nat.lt_of_lt_of_le ?_ hle
        rw [List.insert_of_not_mem hknown]
        exact Nat.lt_succ_self _
      exact ⟨Nat.le_of_lt hgrown,
        iff_of_true ⟨address, List.mem_cons_self, hknown⟩ hgrown⟩

/-- Addresses are counted as added when one of them is new. -/
theorem rememberDirectAddresses_fst (s : ConnectionState) (peerId : PeerId)
    (addresses : List Multiaddr) :
    (s.rememberDirectAddresses peerId addresses).1 = 0 ↔ ¬ s.LearnsAddress peerId addresses := by
  unfold rememberDirectAddresses LearnsAddress
  dsimp only
  split
  · rename_i hnone
    rw [hnone]
    simp
  · rw [(length_foldl_insert _ _).2, ← addressesOf]
    dsimp only
    omega

theorem rememberDirectAddresses_frame (s : ConnectionState) (peerId : PeerId)
    (addresses : List Multiaddr) : ∃ directAddresses,
      (s.rememberDirectAddresses peerId addresses).2 = { s with directAddresses } := by
  unfold rememberDirectAddresses
  dsimp only
  split
  · exact ⟨s.directAddresses, rfl⟩
  · exact ⟨_, rfl⟩

theorem forgetDirectAddress_frame (s : ConnectionState) (peerId : PeerId) (address : Multiaddr) :
    ∃ directAddresses,
      (s.forgetDirectAddress peerId address).2 = { s with directAddresses } := by
  unfold forgetDirectAddress
  split
  · exact ⟨s.directAddresses, rfl⟩
  · split
    · exact ⟨s.directAddresses, rfl⟩
    · exact ⟨_, rfl⟩

/-- A direct connection changes nothing about whether it may stay. -/
theorem acceptsDirect_addRoute (s : ConnectionState) (peerId : PeerId)
    (connectionId : ConnectionId) (now : Instant) :
    (s.addRoute peerId connectionId false).AcceptsDirect peerId now ↔
      s.AcceptsDirect peerId now := by
  have hrelayed :
      (s.addRoute peerId connectionId false).hasRelayed peerId = s.hasRelayed peerId := by
    rw [hasRelayed_eq, hasRelayed_eq, routesOf_addRoute, if_pos rfl]
    rfl
  unfold AcceptsDirect
  rw [hrelayed]
  rfl

section Reactions

variable (s : ConnectionState) (peerId : PeerId) (now : Instant)

/-- With the last connection the backoff goes. -/
theorem connectionClosed_answers (connectionId : ConnectionId) (wasRelayed : Bool)
    (remainingEstablished : Nat) :
    Answers now
      (s.news now (.connectionClosed peerId connectionId wasRelayed remainingEstablished))
      (s.briefed (.connectionClosed peerId connectionId wasRelayed remainingEstablished))
      (s.connectionClosed peerId connectionId wasRelayed remainingEstablished) := by
  obtain ⟨routes, relayHandoffs, hclosed⟩ := s.closeRoute_eq peerId connectionId wasRelayed
  unfold connectionClosed briefed informed
  dsimp only
  rw [hclosed]
  cases remainingEstablished with
  | succ remaining => exact (Undialled.frame _ _ (by simp)).answers
  | zero =>
    have hstatus : ∀ status, Answers now (some (peerId, .reset))
        { forgetPeer { s with routes, relayHandoffs } peerId with backoffs := s.backoffs }
        ⟨[.status status], forgetPeer { s with routes, relayHandoffs } peerId⟩ := by
      intro status
      refine .of_news _ peerId now rfl (by simp) (fun p hp => ?_) fun l _ => ⟨trivial, ?_⟩
      · exact (s.backoffOf_erase peerId p).trans (if_neg hp)
      · have hnone := (s.backoffOf_erase peerId peerId).trans (if_pos rfl)
        exact hnone ▸ DirectPromotionBackoff.matches_new
    exact (hstatus _).andThen (f := fun s => s.untrackGossipPeer peerId)
      (untrackGossipPeer_undialled _ peerId now).answers

theorem learnDirectAddresses_answers (addresses : List Multiaddr) :
    Answers now (s.news now (.learnDirectAddresses peerId addresses))
      (s.briefed (.learnDirectAddresses peerId addresses))
      (s.learnDirectAddresses peerId addresses now) := by
  have hadded := s.rememberDirectAddresses_fst peerId addresses
  unfold learnDirectAddresses news briefed
  dsimp only
  by_cases hlearns : s.LearnsAddress peerId addresses
  · rw [if_pos hlearns, if_neg fun h => hadded.1 h hlearns]
    exact (resetBackoff_answers _ peerId now).andThen (maybePromoteRelayedPeer_answers _ peerId now)
  · rw [if_neg hlearns, if_pos (hadded.2 hlearns)]
    exact Undialled.keep.answers

theorem chatSubscribed_answers :
    Answers now none (s.briefed (.chatSubscribed peerId)) (s.chatSubscribed peerId now) := by
  have hsubscribed : ∀ status, Undialled now (s.briefed (.chatSubscribed peerId))
      ⟨[.status status], { s with
        chatSubscribers := insert peerId s.chatSubscribers
        warmups := s.warmups.erase peerId
        warmupCompleted := s.warmupCompleted.erase peerId }⟩ := by
    intro status
    exact ⟨rfl, rfl, rfl, fun p h => .inl (Finset.mem_of_mem_erase h),
      fun p startedAt h => .inl (lookup_of_lookup_erase h), rfl, by simp⟩
  unfold chatSubscribed
  refine ((hsubscribed _).andThen (maybePromoteRelayedPeer_answers _ peerId now)).andThen ?_
  split
  · exact (scheduleRelayHandoff_undialled _ peerId now).answers
  · exact Undialled.keep.answers

theorem chatUnsubscribed_undialled :
    Undialled now (s.briefed (.chatUnsubscribed peerId)) (s.chatUnsubscribed peerId) := by
  unfold briefed informed chatUnsubscribed
  dsimp only
  split
  · exact .frame _ _ (by simp)
  · exact .frame _ _ (by simp)

end Reactions

/-- A call briefs the state, and answers its own news. -/
theorem call_answers (s : ConnectionState) (now : Instant) (call : ConnectionCall) :
    Answers now (s.news now call) (s.briefed call) (s.call now call) := by
  cases call with
  | connectionEstablished peerId connectionId isRelayed isRendezvousNode =>
    let added := s.addRoute peerId connectionId isRelayed
    let tracked := if isRendezvousNode then added.keep
      else added.trackGossipPeer peerId (some s!"tracking {peerId} as gossip peer")
    have htracked : Undialled now added tracked ∧
        ∀ p, tracked.state.AcceptsDirect p now ↔ added.AcceptsDirect p now := by
      simp only [tracked]
      split
      · exact ⟨.keep, fun p => Iff.rfl⟩
      · refine ⟨trackGossipPeer_undialled _ peerId now _, fun p => ?_⟩
        unfold trackGossipPeer
        split
        · exact Iff.rfl
        · exact Iff.rfl
    cases isRelayed with
    | true =>
      exact htracked.1.andThen
        (f := fun s => s.relayEstablished peerId isRendezvousNode now)
        (relayEstablished_answers _ peerId now isRendezvousNode)
    | false =>
      have hestablished := tracked.state.directEstablished_answers peerId now connectionId
      have hnews : (if tracked.state.AcceptsDirect peerId now then some (peerId, RetryEvent.reset)
          else none) = s.news now (.connectionEstablished peerId connectionId false
            isRendezvousNode) :=
        if_congr ((htracked.2 peerId).trans (s.acceptsDirect_addRoute peerId connectionId now))
          rfl rfl
      rw [hnews] at hestablished
      exact htracked.1.andThen (f := fun s => s.directEstablished peerId connectionId now)
        hestablished
  | trackGossipPeer peerId status =>
    exact (s.trackGossipPeer_undialled peerId now status).answers
  | untrackGossipPeer peerId => exact (s.untrackGossipPeer_undialled peerId now).answers
  | promotionTick order =>
    exact Answers.forEach (fun peerId s => s.maybePromoteRelayedPeer_answers peerId now) _ s
  | warmupTick order => exact s.warmupTick_answers now order
  | dcutrSucceeded peerId => exact s.resetBackoff_answers peerId now
  | dcutrFailed peerId reason => exact s.dcutrFailed_answers peerId now reason
  | outgoingConnectionError peerId reason =>
    exact s.outgoingConnectionError_answers peerId now reason
  | recordDirectPromotionFailure peerId reason =>
    exact s.recordDirectPromotionFailure_answers peerId now reason
  | connectionClosed peerId connectionId wasRelayed remainingEstablished =>
    exact s.connectionClosed_answers peerId now connectionId wasRelayed remainingEstablished
  | learnDirectAddresses peerId addresses =>
    exact s.learnDirectAddresses_answers peerId now addresses
  | forgetDirectAddress peerId address => exact Undialled.keep.answers
  | chatSubscribed peerId => exact s.chatSubscribed_answers peerId now
  | chatUnsubscribed peerId => exact (s.chatUnsubscribed_undialled peerId now).answers

end ConnectionState

end LightEar
