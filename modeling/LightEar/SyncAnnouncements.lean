import LightEar.ChatMessages
import LightEar.Foundation.GuardedRun
import LightEar.Foundation.Spacing
import Mathlib.Data.List.TakeWhile

/-!
# When a peer says what it has

What a peer has missed it learns from the summaries of the others: the name, how long the chat
history is, and the version of the queue.  A peer announces its summary every ten seconds, and also
when somebody turns up: at once, unless it has just done so, and three times more in the next two
seconds.  The deadlines for these are set only when none is pending.

However the network answers, whoever turns up is answered soon (`announced_soon`), and however many
turn up, there are only so many announcements in any stretch of time (`announcements_limited`).
-/

namespace LightEar

open Foundation

/-- How long to wait until another summary is announced at once. -/
def syncImmediateMinInterval : Instant := millis 1000

/-- When summaries follow after somebody has turned up. -/
def syncBurstDelays : List Instant := [millis 300, millis 900, millis 1800]

/-- The last of the delays. -/
def syncBurstLength : Instant := millis 1800

/-! ## Summaries -/

/-- A message of a summary. -/
inductive SyncMessage where
  | chat (message : ChatMessage)
  | room (message : WireMessage)

/-- What a peer knows when it announces. -/
structure SyncView where
  /-- Its histories and its queue. -/
  peer : ChatPeer
  /-- Its name. -/
  localName : String
  /-- Since when it has been here. -/
  localJoinedAt : Int

namespace SyncView

/-- What is said of name and history. -/
def presenceAndHistory (view : SyncView) : List SyncMessage := [
  .chat (.nameClaim view.peer.localPeerId view.localName (some view.localJoinedAt)),
  .chat view.peer.historySummary]

/-- What is said of the queue, if there is anything to say. -/
def queueSummary (view : SyncView) : List SyncMessage :=
  let music := view.peer.backend.music
  if music.hasQueueNews then
    [.room (.queueSummary view.peer.localPeerId music.queueVersion music.queueUpdatedAt)]
  else []

/-- The messages of a summary, in this order. -/
def syncSummary (view : SyncView) : List SyncMessage :=
  view.presenceAndHistory ++ view.queueSummary

end SyncView

/-! ## Announcements -/

/-- Why a summary is announced. -/
inductive SyncOrigin where
  | immediate
  | burst
  | periodic
  deriving DecidableEq, Repr

/-- A summary that is given to the network. -/
structure Announcement where
  /-- Why. -/
  origin : SyncOrigin
  /-- When. -/
  time : Instant
  /-- What the network has taken: all messages before the first one that it refuses. -/
  messages : List SyncMessage
  /-- Whether it has taken all of them. -/
  complete : Bool

/-- What makes a peer announce. -/
inductive SyncCall where
  /-- Somebody has turned up; the clock is read a second time for the deadlines. -/
  | trigger (now later : Instant)
  /-- Deadlines are set, without an announcement at once. -/
  | schedule (now : Instant)
  /-- It is time to look at the deadlines. -/
  | burstTick (now : Instant)
  /-- It is time for another summary. -/
  | syncTick (now : Instant)
  deriving DecidableEq, Repr

namespace SyncCall

/-- When a call begins. -/
def start : SyncCall → Instant
  | trigger now _ => now
  | schedule now => now
  | burstTick now => now
  | syncTick now => now

/-- When a call is over. -/
def finish : SyncCall → Instant
  | trigger _ later => later
  | schedule now => now
  | burstTick now => now
  | syncTick now => now

/-- Whether deadlines are asked for. -/
def asks : SyncCall → Bool
  | trigger .. => true
  | schedule _ => true
  | burstTick _ => false
  | syncTick _ => false

end SyncCall

/-- A call, with what the peer knows then and how the network answers. -/
structure SyncEvent where
  /-- The call. -/
  call : SyncCall
  /-- What the peer knows. -/
  view : SyncView
  /-- Whether the network takes a message of the announcement with this number in the call. -/
  accepts : Nat → SyncMessage → Bool

/-- An announcement: it ends at the first message that the network refuses. -/
def SyncEvent.announce (event : SyncEvent) (origin : SyncOrigin) (time : Instant) (number : Nat) :
    Announcement where
  origin := origin
  time := time
  messages := event.view.syncSummary.takeWhile (event.accepts number)
  complete := event.view.syncSummary.all (event.accepts number)

/-- A complete announcement says everything. -/
theorem SyncEvent.messages_announce {event : SyncEvent} {origin : SyncOrigin} {time : Instant}
    {number : Nat} (h : (event.announce origin time number).complete = true) :
    (event.announce origin time number).messages = event.view.syncSummary := by
  have haccepted : ∀ message ∈ event.view.syncSummary, event.accepts number message = true :=
    List.all_eq_true.1 h
  exact List.takeWhile_eq_self_iff.2 haccepted

/-- What is planned, and what was done last. -/
structure SyncAnnouncementState where
  /-- When summaries follow, the next one first. -/
  pending : List Instant
  /-- When a summary was last announced because of somebody. -/
  lastImmediate : Option Instant
  deriving DecidableEq, Repr

namespace SyncAnnouncementState

/-- Nothing is planned. -/
def default : SyncAnnouncementState where
  pending := []
  lastImmediate := none

/-- Whether it is not too soon to announce at once. -/
def shouldPublishImmediateSync (s : SyncAnnouncementState) (now : Instant) : Bool :=
  s.lastImmediate.all fun last => decide (syncImmediateMinInterval ≤ now - last)

/-- Sets the deadlines, unless some are pending. -/
def scheduleSyncBurst (s : SyncAnnouncementState) (now : Instant) : SyncAnnouncementState :=
  if !s.pending.isEmpty then s
  else { s with pending := s.pending ++ syncBurstDelays.map fun delay => now + delay }

/-- Somebody has turned up.  If the announcement fails, no deadlines are set. -/
def triggerSync (s : SyncAnnouncementState) (event : SyncEvent) (now later : Instant) :
    List Announcement × SyncAnnouncementState :=
  if s.shouldPublishImmediateSync now then
    let announcement := event.announce .immediate now 0
    if announcement.complete then
      ([announcement], scheduleSyncBurst { s with lastImmediate := some now } later)
    else ([announcement], s)
  else ([], s.scheduleSyncBurst later)

/-- Takes the deadlines that have passed one after the other, with an announcement for each, until
one fails. -/
def publishDue (event : SyncEvent) (now : Instant) (number : Nat) (last : Option Instant) :
    List Instant → List Announcement × SyncAnnouncementState
  | [] => ([], { pending := [], lastImmediate := last })
  | deadline :: deadlines =>
    if deadline ≤ now then
      let announcement := event.announce .burst now number
      if announcement.complete then
        let (announcements, s) := publishDue event now (number + 1) (some now) deadlines
        (announcement :: announcements, s)
      else ([announcement], { pending := deadlines, lastImmediate := last })
    else ([], { pending := deadline :: deadlines, lastImmediate := last })

/-- Announces for the deadlines that have passed. -/
def publishPendingSyncSummaries (s : SyncAnnouncementState) (event : SyncEvent) (now : Instant) :
    List Announcement × SyncAnnouncementState :=
  publishDue event now 0 s.lastImmediate s.pending

/-- What is announced on an event, and the state after it. -/
def step (s : SyncAnnouncementState) (event : SyncEvent) :
    List Announcement × SyncAnnouncementState :=
  match event.call with
  | .trigger now later => s.triggerSync event now later
  | .schedule now => ([], s.scheduleSyncBurst now)
  | .burstTick now => s.publishPendingSyncSummaries event now
  | .syncTick now => ([event.announce .periodic now 0], s)

/-- The state after some events. -/
def run (s : SyncAnnouncementState) (events : List SyncEvent) : SyncAnnouncementState :=
  events.foldl (fun s event => (s.step event).2) s

/-- What is announced on some events. -/
def announcements (s : SyncAnnouncementState) : List SyncEvent → List Announcement
  | [] => []
  | event :: events => (s.step event).1 ++ (s.step event).2.announcements events

/-- The clock after some events. -/
def clockAfter (now : Instant) (events : List SyncEvent) : Instant :=
  events.foldl (fun _ event => event.call.finish) now

/-- The clock does not go back. -/
def KeepsTime (now : Instant) (events : List SyncEvent) : Prop :=
  Along (fun _ event => event.call.finish)
    (fun now event => now ≤ event.call.start ∧ event.call.start ≤ event.call.finish) now events

instance (now : Instant) (events : List SyncEvent) : Decidable (KeepsTime now events) :=
  inferInstanceAs (Decidable (Along _ _ _ _))

/-- Every event comes between the clock before all of them and the clock after all of them. -/
theorem KeepsTime.bounds {now : Instant} {events : List SyncEvent} (h : KeepsTime now events) :
    now ≤ clockAfter now events ∧ ∀ event ∈ events, now ≤ event.call.start ∧
      event.call.start ≤ event.call.finish ∧ event.call.finish ≤ clockAfter now events := by
  induction events generalizing now with
  | nil => exact ⟨le_rfl, by simp⟩
  | cons event events ih =>
    obtain ⟨⟨hstart, hfinish⟩, hrest⟩ := h
    obtain ⟨hclock, hevents⟩ := ih hrest
    refine ⟨hstart.trans (hfinish.trans hclock), List.forall_mem_cons.2 ⟨?_, ?_⟩⟩
    · exact ⟨hstart, hfinish, hclock⟩
    · intro later hlater
      obtain ⟨hafter, hother⟩ := hevents later hlater
      exact ⟨hstart.trans (hfinish.trans hafter), hother⟩

/-! ## What a call does -/

/-- An announcement that is made on an event says what the peer knows then, as far as the network
takes it. -/
structure Says (event : SyncEvent) (announcement : Announcement) : Prop where
  /-- Nothing else is said. -/
  said : announcement.messages <+: event.view.syncSummary
  /-- If the network takes everything, then everything is said. -/
  complete : announcement.complete = true → announcement.messages = event.view.syncSummary
  /-- It is made during the call. -/
  time : event.call.start ≤ announcement.time ∧ announcement.time ≤ event.call.finish

theorem says_announce {event : SyncEvent} {origin : SyncOrigin} {time : Instant} {number : Nat}
    (htime : event.call.start ≤ time ∧ time ≤ event.call.finish) :
    Says event (event.announce origin time number) where
  said := List.takeWhile_prefix _
  complete := event.messages_announce
  time := htime

/-- The announcements for deadlines. -/
def bursts (announcements : List Announcement) : List Announcement :=
  announcements.filter fun announcement => announcement.origin == .burst

/-- The announcements made at once that the network has taken. -/
def immediates (announcements : List Announcement) : List Announcement :=
  announcements.filter fun announcement =>
    announcement.origin == .immediate && announcement.complete

/-- Deadlines that have passed are taken from the front, with an announcement for each. -/
structure TakesDue (event : SyncEvent) (now : Instant) (last : Option Instant)
    (deadlines : List Instant) (announcements : List Announcement) (s : SyncAnnouncementState) :
    Prop where
  /-- What is taken has passed. -/
  passed : ∃ passed, deadlines = passed ++ s.pending ∧ (∀ deadline ∈ passed, deadline ≤ now) ∧
    announcements.length = passed.length
  /-- The announcements are made for deadlines. -/
  made : ∀ announcement ∈ announcements, ∃ number, announcement = event.announce .burst now number
  /-- The time is noted, or the last one is left. -/
  last : s.lastImmediate = last ∨ s.lastImmediate = some now

theorem publishDue_takes (event : SyncEvent) (now : Instant) (number : Nat)
    (last : Option Instant) (deadlines : List Instant) :
    TakesDue event now last deadlines (publishDue event now number last deadlines).1
      (publishDue event now number last deadlines).2 := by
  induction deadlines generalizing number last with
  | nil => exact ⟨⟨[], rfl, by simp, rfl⟩, by simp [publishDue], .inl rfl⟩
  | cons deadline deadlines ih =>
    unfold publishDue
    split
    · rename_i hpassed
      dsimp only
      split
      · obtain ⟨⟨passed, hdeadlines, hall, hlength⟩, hmade, hlast⟩ := ih (number + 1) (some now)
        refine ⟨⟨deadline :: passed, congrArg (List.cons deadline) hdeadlines, ?_, ?_⟩, ?_, ?_⟩
        · exact List.forall_mem_cons.2 ⟨hpassed, hall⟩
        · exact congrArg Nat.succ hlength
        · exact List.forall_mem_cons.2 ⟨⟨number, rfl⟩, hmade⟩
        · exact .inr (hlast.elim id id)
      · refine ⟨⟨[deadline], rfl, List.forall_mem_singleton.2 hpassed, rfl⟩, ?_, .inl rfl⟩
        exact List.forall_mem_singleton.2 ⟨number, rfl⟩
    · exact ⟨⟨[], rfl, by simp, rfl⟩, by simp, .inl rfl⟩

/-- If the next deadline has passed, then there is an announcement. -/
theorem publishDue_ne_nil {event : SyncEvent} {now deadline : Instant} {number : Nat}
    {last : Option Instant} {deadlines : List Instant} (h : deadline ≤ now) :
    (publishDue event now number last (deadline :: deadlines)).1 ≠ [] := by
  unfold publishDue
  rw [if_pos h]
  dsimp only
  split
  · exact List.cons_ne_nil _ _
  · exact List.cons_ne_nil _ _

/-- So does a look at the deadlines. -/
theorem publishPending_takes (s : SyncAnnouncementState) (event : SyncEvent) (now : Instant) :
    TakesDue event now s.lastImmediate s.pending (s.publishPendingSyncSummaries event now).1
      (s.publishPendingSyncSummaries event now).2 :=
  publishDue_takes event now 0 s.lastImmediate s.pending

/-- Deadlines are set only when none is pending. -/
theorem scheduleSyncBurst_cases (s : SyncAnnouncementState) (now : Instant) :
    (s.pending ≠ [] ∧ s.scheduleSyncBurst now = s) ∨
      (s.pending = [] ∧ s.scheduleSyncBurst now =
        { s with pending := syncBurstDelays.map fun delay => now + delay }) := by
  unfold scheduleSyncBurst
  cases hpending : s.pending with
  | nil => exact .inr ⟨rfl, rfl⟩
  | cons deadline deadlines => exact .inl ⟨List.cons_ne_nil _ _, rfl⟩

/-- What is done when somebody turns up. -/
theorem triggerSync_cases (s : SyncAnnouncementState) (event : SyncEvent) (now later : Instant) :
    (s.shouldPublishImmediateSync now = true ∧
      (event.announce .immediate now 0).complete = false ∧
      s.triggerSync event now later = ([event.announce .immediate now 0], s)) ∨
    (s.shouldPublishImmediateSync now = true ∧
      (event.announce .immediate now 0).complete = true ∧
      s.triggerSync event now later = ([event.announce .immediate now 0],
        scheduleSyncBurst { s with lastImmediate := some now } later)) ∨
    s.triggerSync event now later = ([], s.scheduleSyncBurst later) := by
  unfold triggerSync
  split
  · rename_i hdue
    dsimp only
    split
    · rename_i hcomplete
      exact .inr (.inl ⟨hdue, hcomplete, rfl⟩)
    · rename_i hrefused
      exact .inl ⟨hdue, Bool.eq_false_iff.2 hrefused, rfl⟩
  · exact .inr (.inr rfl)

/-- What a call does with the deadlines: it sets them if there are none, or it takes some that have
passed, with an announcement for each. -/
theorem step_pending (s : SyncAnnouncementState) (event : SyncEvent) :
    (s.pending = [] ∧ bursts (s.step event).1 = [] ∧ (s.step event).2.pending =
      syncBurstDelays.map fun delay => event.call.finish + delay) ∨
    ∃ passed, s.pending = passed ++ (s.step event).2.pending ∧
      (∀ deadline ∈ passed, deadline ≤ event.call.finish) ∧
      (bursts (s.step event).1).length = passed.length := by
  obtain ⟨call, view, accepts⟩ := event
  cases call with
  | trigger now later =>
    set event : SyncEvent := ⟨.trigger now later, view, accepts⟩ with hevent
    have hstep : s.step event = s.triggerSync event now later := rfl
    rcases s.triggerSync_cases event now later with
      ⟨-, -, htrigger⟩ | ⟨-, -, htrigger⟩ | htrigger
    · rw [hstep, htrigger]
      exact .inr ⟨[], rfl, by simp, rfl⟩
    · rw [hstep, htrigger]
      rcases scheduleSyncBurst_cases { s with lastImmediate := some now } later with
        ⟨-, hsame⟩ | ⟨hnone, hset⟩
      · have hpending := congrArg pending hsame.symm
        exact .inr ⟨[], hpending, by simp, rfl⟩
      · exact .inl ⟨hnone, rfl, congrArg pending hset⟩
    · rw [hstep, htrigger]
      rcases s.scheduleSyncBurst_cases later with ⟨-, hsame⟩ | ⟨hnone, hset⟩
      · exact .inr ⟨[], congrArg pending hsame.symm, by simp, rfl⟩
      · exact .inl ⟨hnone, rfl, congrArg pending hset⟩
  | schedule now =>
    rcases s.scheduleSyncBurst_cases now with ⟨-, hsame⟩ | ⟨hnone, hset⟩
    · exact .inr ⟨[], congrArg pending hsame.symm, by simp, rfl⟩
    · exact .inl ⟨hnone, rfl, congrArg pending hset⟩
  | burstTick now =>
    obtain ⟨⟨passed, hpending, hall, hlength⟩, hmade, -⟩ :=
      s.publishPending_takes ⟨.burstTick now, view, accepts⟩ now
    refine .inr ⟨passed, hpending, hall, ?_⟩
    have hbursts : bursts (s.step ⟨.burstTick now, view, accepts⟩).1 =
        (s.step ⟨.burstTick now, view, accepts⟩).1 := by
      refine List.filter_eq_self.2 fun announcement hannouncement => ?_
      obtain ⟨number, rfl⟩ := hmade announcement hannouncement
      rfl
    rw [hbursts]
    exact hlength
  | syncTick now => exact .inr ⟨[], rfl, by simp, rfl⟩

/-- What a call does with the time of the last announcement: it announces at once, which it may, and
notes the time, or it announces nothing at once. -/
theorem step_lastImmediate (s : SyncAnnouncementState) (event : SyncEvent) :
    (s.shouldPublishImmediateSync event.call.start = true ∧
      (s.step event).2.lastImmediate = some event.call.start ∧
      ∃ announcement, immediates (s.step event).1 = [announcement] ∧
        announcement.time = event.call.start) ∨
    (immediates (s.step event).1 = [] ∧ ((s.step event).2.lastImmediate = s.lastImmediate ∨
      (s.step event).2.lastImmediate = some event.call.start)) := by
  have hkept : ∀ (s : SyncAnnouncementState) (later : Instant),
      (s.scheduleSyncBurst later).lastImmediate = s.lastImmediate := by
    intro s later
    rcases s.scheduleSyncBurst_cases later with ⟨-, hsame⟩ | ⟨-, hset⟩
    · rw [hsame]
    · rw [hset]
  obtain ⟨call, view, accepts⟩ := event
  cases call with
  | trigger now later =>
    set event : SyncEvent := ⟨.trigger now later, view, accepts⟩ with hevent
    have hstep : s.step event = s.triggerSync event now later := rfl
    rcases s.triggerSync_cases event now later with
      ⟨-, hrefused, htrigger⟩ | ⟨hdue, hcomplete, htrigger⟩ | htrigger
    · rw [hstep, htrigger]
      refine .inr ⟨?_, .inl rfl⟩
      unfold immediates
      rw [List.filter_singleton, hrefused]
      rfl
    · rw [hstep, htrigger]
      refine .inl ⟨hdue, hkept _ later, event.announce .immediate now 0, ?_, rfl⟩
      unfold immediates
      rw [List.filter_singleton, hcomplete]
      rfl
    · rw [hstep, htrigger]
      exact .inr ⟨rfl, .inl (hkept s later)⟩
  | schedule now => exact .inr ⟨rfl, .inl (hkept s now)⟩
  | burstTick now =>
    obtain ⟨-, hmade, hlast⟩ := s.publishPending_takes ⟨.burstTick now, view, accepts⟩ now
    refine .inr ⟨?_, hlast⟩
    refine List.filter_eq_nil_iff.2 fun announcement hannouncement => ?_
    obtain ⟨number, rfl⟩ := hmade announcement hannouncement
    simp [SyncEvent.announce]
  | syncTick now => exact .inr ⟨rfl, .inl rfl⟩

/-- What is announced on an event is what the peer knows then. -/
theorem says_of_mem_step {s : SyncAnnouncementState} {event : SyncEvent}
    {announcement : Announcement} (htime : event.call.start ≤ event.call.finish)
    (h : announcement ∈ (s.step event).1) : Says event announcement := by
  obtain ⟨call, view, accepts⟩ := event
  cases call with
  | trigger now later =>
    set event : SyncEvent := ⟨.trigger now later, view, accepts⟩ with hevent
    have hstep : s.step event = s.triggerSync event now later := rfl
    rw [hstep] at h
    rcases s.triggerSync_cases event now later with
      ⟨-, -, htrigger⟩ | ⟨-, -, htrigger⟩ | htrigger
    · rw [htrigger] at h
      rw [List.mem_singleton.1 h]
      exact says_announce ⟨le_rfl, htime⟩
    · rw [htrigger] at h
      rw [List.mem_singleton.1 h]
      exact says_announce ⟨le_rfl, htime⟩
    · rw [htrigger] at h
      exact absurd h List.not_mem_nil
  | schedule now => exact absurd h List.not_mem_nil
  | burstTick now =>
    obtain ⟨-, hmade, -⟩ := s.publishPending_takes ⟨.burstTick now, view, accepts⟩ now
    obtain ⟨number, rfl⟩ := hmade announcement h
    exact says_announce ⟨le_rfl, le_rfl⟩
  | syncTick now =>
    rw [List.mem_singleton.1 h]
    exact says_announce ⟨le_rfl, le_rfl⟩

/-- Announcements for deadlines are made at the end of the call. -/
theorem time_of_mem_step {s : SyncAnnouncementState} {event : SyncEvent}
    {announcement : Announcement} (h : announcement ∈ (s.step event).1)
    (horigin : announcement.origin = .burst) : announcement.time = event.call.finish := by
  obtain ⟨call, view, accepts⟩ := event
  cases call with
  | trigger now later =>
    set event : SyncEvent := ⟨.trigger now later, view, accepts⟩ with hevent
    have hstep : s.step event = s.triggerSync event now later := rfl
    rw [hstep] at h
    rcases s.triggerSync_cases event now later with
      ⟨-, -, htrigger⟩ | ⟨-, -, htrigger⟩ | htrigger
    · rw [htrigger] at h
      rw [List.mem_singleton.1 h] at horigin
      cases horigin
    · rw [htrigger] at h
      rw [List.mem_singleton.1 h] at horigin
      cases horigin
    · rw [htrigger] at h
      exact absurd h List.not_mem_nil
  | schedule now => exact absurd h List.not_mem_nil
  | burstTick now =>
    obtain ⟨-, hmade, -⟩ := s.publishPending_takes ⟨.burstTick now, view, accepts⟩ now
    obtain ⟨number, rfl⟩ := hmade announcement h
    rfl
  | syncTick now =>
    rw [List.mem_singleton.1 h] at horigin
    cases horigin

/-- Every announcement is made on one of the events. -/
theorem exists_mem_step {s : SyncAnnouncementState} {events : List SyncEvent}
    {announcement : Announcement} (h : announcement ∈ s.announcements events) :
    ∃ event ∈ events, ∃ before : SyncAnnouncementState, announcement ∈ (before.step event).1 := by
  induction events generalizing s with
  | nil => exact absurd h List.not_mem_nil
  | cons event events ih =>
    rcases List.mem_append.1 h with hthis | hlater
    · exact ⟨event, List.mem_cons_self, s, hthis⟩
    · obtain ⟨other, hother, hmade⟩ := ih hlater
      exact ⟨other, List.mem_cons_of_mem _ hother, hmade⟩

/-- What it says belongs to that event. -/
theorem says_of_mem_announcements {s : SyncAnnouncementState} {now : Instant}
    {events : List SyncEvent} {announcement : Announcement} (htime : KeepsTime now events)
    (h : announcement ∈ s.announcements events) : ∃ event ∈ events, Says event announcement := by
  obtain ⟨event, hevent, _, hmade⟩ := exists_mem_step h
  exact ⟨event, hevent, says_of_mem_step (htime.bounds.2 event hevent).2.1 hmade⟩

theorem announcements_append (s : SyncAnnouncementState) (events later : List SyncEvent) :
    s.announcements (events ++ later) =
      s.announcements events ++ (s.run events).announcements later := by
  induction events generalizing s with
  | nil => rfl
  | cons event events ih =>
    have hrest := ih (s.step event).2
    rw [List.cons_append, announcements, hrest, announcements, List.append_assoc]
    rfl

/-! ## What holds at any time -/

/-- What holds when the clock shows some time. -/
structure Invariant (s : SyncAnnouncementState) (now : Instant) : Prop where
  /-- The next deadline is the first one. -/
  sorted : s.pending.Pairwise (· ≤ ·)
  /-- There are no more than are set at once. -/
  few : s.pending.length ≤ syncBurstDelays.length
  /-- All of them pass soon. -/
  soon : ∀ deadline ∈ s.pending, deadline ≤ now + syncBurstLength
  /-- The last announcement is over. -/
  past : ∀ last ∈ s.lastImmediate, last ≤ now

theorem invariant_default (now : Instant) : default.Invariant now where
  sorted := List.Pairwise.nil
  few := Nat.zero_le _
  soon := by simp [default]
  past := by simp [default]

/-- The delays are sorted, and none is longer than the last. -/
theorem syncBurstDelays_spec : syncBurstDelays.Pairwise (· ≤ ·) ∧
    ∀ delay ∈ syncBurstDelays, delay ≤ syncBurstLength := by decide

theorem Invariant.step {s : SyncAnnouncementState} {now : Instant} (h : s.Invariant now)
    {event : SyncEvent} (hstart : now ≤ event.call.start)
    (hfinish : event.call.start ≤ event.call.finish) :
    (s.step event).2.Invariant event.call.finish := by
  have hnow : now ≤ event.call.finish := hstart.trans hfinish
  have hpast : ∀ last ∈ (s.step event).2.lastImmediate, last ≤ event.call.finish := by
    intro last hlast
    rcases s.step_lastImmediate event with ⟨-, hnoted, -⟩ | ⟨-, hsame | hnoted⟩
    · rw [hnoted] at hlast
      rwa [← Option.mem_some.1 hlast]
    · rw [hsame] at hlast
      exact (h.past last hlast).trans hnow
    · rw [hnoted] at hlast
      rwa [← Option.mem_some.1 hlast]
  rcases s.step_pending event with ⟨-, -, hset⟩ | ⟨passed, hpending, -, -⟩
  · obtain ⟨hsorted, hlongest⟩ := syncBurstDelays_spec
    refine ⟨?_, ?_, ?_, hpast⟩
    · rw [hset]
      exact hsorted.map _ fun _ _ hle => Nat.add_le_add_left hle _
    · rw [hset, List.length_map]
    · intro deadline hdeadline
      rw [hset] at hdeadline
      obtain ⟨delay, hdelay, rfl⟩ := List.mem_map.1 hdeadline
      exact Nat.add_le_add_left (hlongest delay hdelay) _
  · have hleft : (s.step event).2.pending <:+ s.pending := ⟨passed, hpending.symm⟩
    refine ⟨h.sorted.sublist hleft.sublist, hleft.length_le.trans h.few, ?_, hpast⟩
    intro deadline hdeadline
    exact (h.soon deadline (hleft.subset hdeadline)).trans (Nat.add_le_add_right hnow _)

/-- Events keep it, if the clock does not go back. -/
theorem Invariant.run {s : SyncAnnouncementState} {now : Instant} (h : s.Invariant now)
    {events : List SyncEvent} (htime : KeepsTime now events) :
    (s.run events).Invariant (clockAfter now events) := by
  induction events generalizing s now with
  | nil => exact h
  | cons event events ih =>
    obtain ⟨⟨hstart, hfinish⟩, hrest⟩ := htime
    exact ih (h.step hstart hfinish) hrest

/-! ## Whoever turns up is answered -/

/-- If somebody turns up, then an announcement fails at once, or deadlines are pending after it. -/
theorem pending_ne_nil_of_asks {s : SyncAnnouncementState} {event : SyncEvent}
    (h : event.call.asks = true) :
    (∃ refused ∈ (s.step event).1, refused.complete = false) ∨ (s.step event).2.pending ≠ [] := by
  have hpending : ∀ (s : SyncAnnouncementState) (later : Instant),
      (s.scheduleSyncBurst later).pending ≠ [] := by
    intro s later
    rcases s.scheduleSyncBurst_cases later with ⟨hsome, hsame⟩ | ⟨-, hset⟩
    · rwa [hsame]
    · rw [hset]
      exact List.cons_ne_nil _ _
  obtain ⟨call, view, accepts⟩ := event
  cases call with
  | trigger now later =>
    set event : SyncEvent := ⟨.trigger now later, view, accepts⟩ with hevent
    have hstep : s.step event = s.triggerSync event now later := rfl
    rw [hstep]
    rcases s.triggerSync_cases event now later with
      ⟨-, hrefused, htrigger⟩ | ⟨-, -, htrigger⟩ | htrigger
    · rw [htrigger]
      exact .inl ⟨_, List.mem_singleton_self _, hrefused⟩
    · rw [htrigger]
      exact .inr (hpending _ later)
    · rw [htrigger]
      exact .inr (hpending s later)
  | schedule now => exact .inr (hpending s now)
  | burstTick now => cases h
  | syncTick now => cases h

/-- Once the next deadline has passed, a look at the deadlines announces, or something before it
has. -/
theorem exists_burst {s : SyncAnnouncementState} {deadline : Instant} {deadlines : List Instant}
    (hpending : s.pending = deadline :: deadlines) {now : Instant} (hpassed : deadline ≤ now)
    {tick : SyncEvent} (htick : tick.call = .burstTick now) (between : List SyncEvent) :
    ∃ announcement ∈ s.announcements (between ++ [tick]), announcement.origin = .burst := by
  induction between generalizing s with
  | nil =>
    obtain ⟨call, view, accepts⟩ := tick
    cases htick
    have hsome : (s.publishPendingSyncSummaries ⟨.burstTick now, view, accepts⟩ now).1 ≠ [] := by
      unfold publishPendingSyncSummaries
      rw [hpending]
      exact publishDue_ne_nil hpassed
    obtain ⟨announcement, hannouncement⟩ := List.exists_mem_of_ne_nil _ hsome
    obtain ⟨number, hmade⟩ := (s.publishPending_takes _ now).made announcement hannouncement
    refine ⟨announcement, List.mem_append_left _ hannouncement, ?_⟩
    rw [hmade]
    rfl
  | cons event between ih =>
    rcases s.step_pending event with ⟨hnone, -, -⟩ | ⟨passed, htaken, -, hcount⟩
    · rw [hpending] at hnone
      cases hnone
    · cases passed with
      | nil =>
        obtain ⟨announcement, hannouncement, horigin⟩ := ih (htaken.symm.trans hpending)
        exact ⟨announcement, List.mem_append_right _ hannouncement, horigin⟩
      | cons first passed =>
        have hsome : bursts (s.step event).1 ≠ [] := by
          intro hnone
          rw [hnone] at hcount
          cases hcount
        obtain ⟨announcement, hannouncement⟩ := List.exists_mem_of_ne_nil _ hsome
        obtain ⟨hmem, horigin⟩ := List.mem_filter.1 hannouncement
        exact ⟨announcement, List.mem_append_left _ hmem, eq_of_beq horigin⟩

/-- Whoever turns up is answered: either the network refuses what is announced at once, or by the
first look at the deadlines from the last delay on another summary has been announced.  It says
what the peer knows by then. -/
theorem announced_soon {start now : Instant} {before between : List SyncEvent}
    {ask tick : SyncEvent} (htime : KeepsTime start (before ++ ask :: (between ++ [tick])))
    (hask : ask.call.asks = true) (htick : tick.call = .burstTick now)
    (hlate : ask.call.finish + syncBurstLength ≤ now) :
    (∃ refused ∈ ((default.run before).step ask).1, refused.complete = false) ∨
    ∃ announcement ∈ ((default.run before).step ask).2.announcements (between ++ [tick]),
      announcement.origin = .burst ∧ ask.call.finish ≤ announcement.time ∧
      announcement.time ≤ now ∧ ∃ event ∈ between ++ [tick], Says event announcement := by
  obtain ⟨hbefore, ⟨hstart, hfinish⟩, hafter⟩ := Along.append_iff.1 htime
  set s := default.run before with hs
  rcases pending_ne_nil_of_asks (s := s) hask with hrefused | hsome
  · exact .inl hrefused
  · right
    have hinvariant : (s.step ask).2.Invariant ask.call.finish :=
      ((invariant_default start).run hbefore).step hstart hfinish
    obtain ⟨deadline, deadlines, hpending⟩ := List.exists_cons_of_ne_nil hsome
    have hpassed : deadline ≤ now := by
      refine (hinvariant.soon deadline ?_).trans hlate
      rw [hpending]
      exact List.mem_cons_self
    obtain ⟨announcement, hannouncement, horigin⟩ :=
      exists_burst hpending hpassed htick between
    obtain ⟨event, hevent, hsays⟩ := says_of_mem_announcements hafter hannouncement
    obtain ⟨hfirst, -, hlast⟩ := (KeepsTime.bounds hafter).2 event hevent
    have hclock : clockAfter ask.call.finish (between ++ [tick]) = now := by
      unfold clockAfter
      rw [List.foldl_concat, htick]
      rfl
    rw [hclock] at hlast
    exact ⟨announcement, hannouncement, horigin, hfirst.trans hsays.time.1,
      hsays.time.2.trans hlast, event, hevent, hsays⟩

/-- Somebody turns up. -/
def newcomer : SyncEvent where
  call := .trigger 0 0
  view := ⟨.new (.new "ann" ∅ false 0), "Ann", 0⟩
  accepts _ _ := true

/-- The deadlines are looked at two seconds later. -/
def lateTick : SyncEvent := { newcomer with call := .burstTick (millis 2000) }

/-- The newcomer is answered. -/
theorem announced_soon_newcomer :
    (∃ refused ∈ ((default.run []).step newcomer).1, refused.complete = false) ∨
    ∃ announcement ∈ ((default.run []).step newcomer).2.announcements ([] ++ [lateTick]),
      announcement.origin = .burst ∧ newcomer.call.finish ≤ announcement.time ∧
      announcement.time ≤ millis 2000 ∧
      ∃ event ∈ [] ++ [lateTick], Says event announcement :=
  announced_soon (by decide : KeepsTime 0 ([] ++ newcomer :: ([] ++ [lateTick]))) rfl rfl
    (by decide)

/-- There is one announcement at once, and the look that comes late makes up for the others. -/
example : (default.announcements [newcomer, lateTick]).map Announcement.time =
    [0, millis 2000, millis 2000, millis 2000] := by decide

/-! ## There are only so many announcements -/

/-- Deadlines are set only when the last ones have passed, so that there is at least the last delay
between two times at which they are set. -/
theorem bursts_le {s : SyncAnnouncementState} {now : Instant} {events : List SyncEvent}
    (htime : KeepsTime now events) :
    ∃ starts, Spaced syncBurstLength starts ∧
      (∀ start ∈ starts, (∃ event ∈ events, event.call.finish = start) ∧
        ∀ deadline ∈ s.pending, deadline ≤ start) ∧
      (bursts (s.announcements events)).length ≤
        s.pending.length + syncBurstDelays.length * starts.length := by
  induction events generalizing s now with
  | nil => exact ⟨[], .nil, by simp, Nat.zero_le _⟩
  | cons event events ih =>
    obtain ⟨-, hrest⟩ := htime
    obtain ⟨starts, hspaced, hstarts, hcount⟩ := ih (s := (s.step event).2) hrest
    have hsplit : (bursts (s.announcements (event :: events))).length =
        (bursts (s.step event).1).length +
          (bursts ((s.step event).2.announcements events)).length := by
      unfold bursts
      rw [announcements, List.filter_append, List.length_append]
    rcases s.step_pending event with ⟨hnone, hbursts, hset⟩ | ⟨passed, htaken, hall, hlength⟩
    · -- deadlines are set now, and again only after the last of them
      refine ⟨event.call.finish :: starts, Spaced.cons ?_ hspaced, ?_, ?_⟩
      · intro start hmem
        refine (hstarts start hmem).2 _ ?_
        rw [hset]
        exact List.mem_map_of_mem (by decide)
      · rw [hnone]
        refine List.forall_mem_cons.2 ⟨⟨⟨event, List.mem_cons_self, rfl⟩, by simp⟩, ?_⟩
        intro start hmem
        obtain ⟨⟨other, hother, hfinish⟩, -⟩ := hstarts start hmem
        exact ⟨⟨other, List.mem_cons_of_mem _ hother, hfinish⟩, by simp⟩
      · rw [hset, List.length_map] at hcount
        rw [hsplit, hbursts, hnone, List.length_cons, Nat.mul_succ]
        simp only [List.length_nil, Nat.zero_add]
        rwa [Nat.add_comm]
    · refine ⟨starts, hspaced, ?_, ?_⟩
      · intro start hmem
        obtain ⟨⟨other, hother, hfinish⟩, hpending⟩ := hstarts start hmem
        refine ⟨⟨other, List.mem_cons_of_mem _ hother, hfinish⟩, ?_⟩
        rw [htaken]
        refine List.forall_mem_append.2 ⟨fun deadline hdeadline => ?_, hpending⟩
        have hlater := ((KeepsTime.bounds hrest).2 other hother).1
        have hends := ((KeepsTime.bounds hrest).2 other hother).2.1
        rw [← hfinish]
        exact (hall deadline hdeadline).trans (hlater.trans hends)
      · rw [hsplit, hlength, htaken, List.length_append, Nat.add_assoc]
        exact Nat.add_le_add_left hcount _

/-- What is announced at once keeps the interval. -/
theorem immediates_spaced {s : SyncAnnouncementState} {now : Instant} {events : List SyncEvent}
    (h : s.Invariant now) (htime : KeepsTime now events) :
    Spaced syncImmediateMinInterval
      ((immediates (s.announcements events)).map Announcement.time) ∧
    ∀ announcement ∈ immediates (s.announcements events),
      ∀ last ∈ s.lastImmediate, last + syncImmediateMinInterval ≤ announcement.time := by
  induction events generalizing s now with
  | nil => exact ⟨.nil, by simp [announcements, immediates]⟩
  | cons event events ih =>
    obtain ⟨⟨hstart, hfinish⟩, hrest⟩ := htime
    obtain ⟨hspaced, hothers⟩ := ih (h.step hstart hfinish) hrest
    have hsplit : immediates (s.announcements (event :: events)) =
        immediates (s.step event).1 ++ immediates ((s.step event).2.announcements events) :=
      List.filter_append ..
    rw [hsplit]
    rcases s.step_lastImmediate event with
      ⟨hdue, hnoted, announcement, hthis, htime⟩ | ⟨hnone, hlast⟩
    · rw [hthis]
      have hlong : ∀ last ∈ s.lastImmediate,
          last + syncImmediateMinInterval ≤ event.call.start := by
        intro last hmem
        have hwaited : syncImmediateMinInterval ≤ event.call.start - last := by
          unfold shouldPublishImmediateSync at hdue
          rw [Option.mem_def.1 hmem] at hdue
          exact of_decide_eq_true hdue
        exact (Nat.le_sub_iff_add_le' ((h.past last hmem).trans hstart)).1 hwaited
      refine ⟨?_, List.forall_mem_cons.2 ⟨?_, ?_⟩⟩
      · refine Spaced.cons ?_ hspaced
        intro later hlater
        obtain ⟨other, hother, rfl⟩ := List.mem_map.1 hlater
        rw [htime]
        exact hothers other hother _ hnoted
      · rw [htime]
        exact hlong
      · intro other hother last hmem
        have hnext := hothers other hother _ hnoted
        exact (hlong last hmem).trans ((Nat.le_add_right _ _).trans hnext)
    · rw [hnone]
      refine ⟨hspaced, fun other hother last hmem => ?_⟩
      rcases hlast with hsame | hnoted
      · exact hothers other hother last (hsame ▸ hmem)
      · have hpast : last ≤ event.call.start := (h.past last hmem).trans hstart
        exact (Nat.add_le_add_right hpast _).trans (hothers other hother _ hnoted)

/-- Announcements that are made in a stretch of time. -/
def within (first last : Instant) (announcements : List Announcement) : List Announcement :=
  announcements.filter fun announcement =>
    decide (first ≤ announcement.time ∧ announcement.time ≤ last)

theorem within_append (first last : Instant) (announcements later : List Announcement) :
    within first last (announcements ++ later) =
      within first last announcements ++ within first last later := List.filter_append ..

theorem mem_within {first last : Instant} {announcements : List Announcement}
    {announcement : Announcement} :
    announcement ∈ within first last announcements ↔ announcement ∈ announcements ∧
      first ≤ announcement.time ∧ announcement.time ≤ last := by
  unfold within
  rw [List.mem_filter, decide_eq_true_iff]

/-- On events outside a stretch of time nothing is announced in it for deadlines. -/
theorem bursts_within_eq_nil {s : SyncAnnouncementState} {events : List SyncEvent}
    {first last : Instant}
    (houtside : ∀ event ∈ events, event.call.finish < first ∨ last < event.call.finish) :
    bursts (within first last (s.announcements events)) = [] := by
  refine List.filter_eq_nil_iff.2 fun announcement hmem horigin => ?_
  obtain ⟨hannounced, hfrom, hto⟩ := mem_within.1 hmem
  obtain ⟨event, hevent, _, hmade⟩ := exists_mem_step hannounced
  have htime := time_of_mem_step hmade (eq_of_beq horigin)
  rw [htime] at hfrom hto
  rcases houtside event hevent with hbefore | hafter
  · exact absurd hfrom (not_le.2 hbefore)
  · exact absurd hto (not_le.2 hafter)

/-- The clock goes up from event to event. -/
theorem KeepsTime.sorted {now : Instant} {events : List SyncEvent} (h : KeepsTime now events) :
    events.Pairwise fun earlier later => earlier.call.finish ≤ later.call.finish := by
  induction events generalizing now with
  | nil => exact .nil
  | cons event events ih =>
    obtain ⟨-, hrest⟩ := h
    refine List.pairwise_cons.2 ⟨fun later hlater => ?_, ih hrest⟩
    obtain ⟨hstart, hfinish, -⟩ := (KeepsTime.bounds hrest).2 later hlater
    exact hstart.trans hfinish

/-- However many turn up, in any stretch of time there are no more announcements for deadlines than
three for each time that the last delay fits into it, and six, and no more at once than the times
that the interval fits into it, and one. -/
theorem announcements_limited {start : Instant} {events : List SyncEvent}
    (htime : KeepsTime start events) (first last : Instant) :
    (bursts (within first last (default.announcements events))).length ≤
      3 * ((last - first) / syncBurstLength + 2) ∧
    (immediates (within first last (default.announcements events))).length ≤
      (last - first) / syncImmediateMinInterval + 1 := by
  rcases lt_or_ge last first with hnever | hwindow
  · have hnone : within first last (default.announcements events) = [] :=
      List.filter_eq_nil_iff.2 fun announcement _ hmade =>
        absurd hnever (not_lt.2 ((of_decide_eq_true hmade).1.trans (of_decide_eq_true hmade).2))
    rw [hnone]
    exact ⟨Nat.zero_le _, Nat.zero_le _⟩
  constructor
  · -- only the events in the stretch count, and what was pending before them
    obtain ⟨before, during, after, rfl, hbefore, hduring, hafter⟩ :=
      exists_window htime.sorted first last
    obtain ⟨hpast, hrest⟩ := Along.append_iff.1 htime
    obtain ⟨hnow, -⟩ := Along.append_iff.1 hrest
    have hfew : (default.run before).pending.length ≤ 3 :=
      ((invariant_default start).run hpast).few
    obtain ⟨starts, hspaced, hstarts, hcount⟩ := bursts_le (s := default.run before) hnow
    have hroom : starts.length ≤ (last - first) / syncBurstLength + 1 := by
      refine hspaced.length_le (by decide) hwindow fun time htime => ?_
      obtain ⟨⟨event, hevent, rfl⟩, -⟩ := hstarts time htime
      exact hduring event hevent
    have hsame : bursts (within first last (default.announcements (before ++ (during ++ after)))) =
        bursts (within first last ((default.run before).announcements during)) := by
      have hnone : bursts (within first last (default.announcements before)) = [] :=
        bursts_within_eq_nil fun event h => .inl (hbefore event h)
      have hlater : bursts (within first last
          (((default.run before).run during).announcements after)) = [] :=
        bursts_within_eq_nil fun event h => .inr (hafter event h)
      rw [announcements_append, announcements_append, within_append, within_append]
      unfold bursts at *
      rw [List.filter_append, List.filter_append, hnone, hlater, List.append_nil, List.nil_append]
    have hsome : (bursts (within first last ((default.run before).announcements during))).length ≤
        (bursts ((default.run before).announcements during)).length :=
      (List.filter_sublist.filter _).length_le
    have hthree : syncBurstDelays.length = 3 := rfl
    rw [hthree] at hcount
    rw [hsame]
    omega
  · obtain ⟨hspaced, -⟩ := immediates_spaced (invariant_default start) htime
    have hsome : (immediates (within first last (default.announcements events))).Sublist
        (immediates (default.announcements events)) := List.filter_sublist.filter _
    rw [← List.length_map Announcement.time]
    refine Spaced.length_le (hspaced.sublist (hsome.map _)) (by decide) hwindow fun time htime => ?_
    obtain ⟨announcement, hmem, rfl⟩ := List.mem_map.1 htime
    exact (mem_within.1 (List.mem_filter.1 hmem).1).2

/-- The three announcements that follow the newcomer fall into the second that ends with the look
that comes late. -/
theorem announcements_limited_newcomer :
    (bursts (within (millis 1000) (millis 2000)
      (default.announcements [newcomer, lateTick]))).length = 3 ∧
    (bursts (within (millis 1000) (millis 2000)
      (default.announcements [newcomer, lateTick]))).length ≤
        3 * ((millis 2000 - millis 1000) / syncBurstLength + 2) ∧
    (immediates (within (millis 1000) (millis 2000)
      (default.announcements [newcomer, lateTick]))).length ≤
        (millis 2000 - millis 1000) / syncImmediateMinInterval + 1 :=
  ⟨by decide, announcements_limited (by decide : KeepsTime 0 [newcomer, lateTick])
    (millis 1000) (millis 2000)⟩

end SyncAnnouncementState

end LightEar
