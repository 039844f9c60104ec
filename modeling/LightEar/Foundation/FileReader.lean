import Mathlib.Data.List.Basic

/-!
# Reading a file

A reader has a place in a file, reads bytes from there on and seeks other places.  What is right of
one request and its answer is said by `FileEvent.Fits`, and of a list of them by `Reads`.  A read
may be short, but it is empty at the end of the file only, or where nothing is asked for.

What is read between two seeks is then the file from the place that was sought
(`Reads.bytes_prefix`), and all of it as soon as a read has come back empty (`Reads.bytes_eq`).  So
two readers of one file cannot be told apart by what they read to the end, however they cut it.
-/

namespace Foundation

universe u

/-- Where a seek goes: to a place from the start, from the end, or from where the reader is. -/
inductive SeekFrom where
  | start (pos : Nat)
  | fromEnd (delta : Int)
  | current (delta : Int)
  deriving DecidableEq, Repr

/-- The place in a file of a given length. -/
def SeekFrom.target (length cursor : Nat) : SeekFrom → Int
  | start pos => pos
  | fromEnd delta => length + delta
  | current delta => cursor + delta

/-- A request with its answer.  A seek that is refused has none. -/
inductive FileEvent (α : Type u) where
  | read (len : Nat) (bytes : List α)
  | seek (pos : SeekFrom) (place : Option Nat)
  deriving DecidableEq, Repr

variable {α : Type u}

namespace FileEvent

/-- The bytes that a request brings. -/
def bytes : FileEvent α → List α
  | read _ bytes => bytes
  | seek _ _ => []

/-- A request for bytes. -/
def IsRead : FileEvent α → Prop
  | read _ _ => True
  | seek _ _ => False

/-- A request for at least one byte that comes back empty. -/
def IsEnd : FileEvent α → Prop
  | read len bytes => len ≠ 0 ∧ bytes = []
  | seek _ _ => False

/-- An answer that fits a file, and where the reader is before and after. -/
def Fits (file : List α) (cursor next : Nat) : FileEvent α → Prop
  | read len bytes => next = cursor + bytes.length ∧ bytes.length ≤ len ∧
      bytes <+: file.drop cursor ∧ (bytes = [] → len = 0 ∨ file.length ≤ cursor)
  | seek pos (some place) => next = place ∧ (place : Int) = pos.target file.length cursor
  | seek _ none => next = cursor

end FileEvent

/-- Requests with answers that fit a file, from one place to another. -/
def Reads (file : List α) : Nat → List (FileEvent α) → Nat → Prop
  | cursor, [], next => next = cursor
  | cursor, event :: events, next =>
    ∃ middle, event.Fits file cursor middle ∧ Reads file middle events next

namespace Reads

variable {file : List α} {cursor next : Nat} {events more : List (FileEvent α)}

theorem append_iff : Reads file cursor (events ++ more) next ↔
    ∃ middle, Reads file cursor events middle ∧ Reads file middle more next := by
  induction events generalizing cursor with
  | nil =>
    constructor
    · intro h
      exact ⟨cursor, rfl, h⟩
    · rintro ⟨middle, rfl, h⟩
      exact h
  | cons event events ih =>
    constructor
    · rintro ⟨first, hfirst, h⟩
      obtain ⟨middle, hmiddle, hmore⟩ := ih.1 h
      exact ⟨middle, ⟨first, hfirst, hmiddle⟩, hmore⟩
    · rintro ⟨middle, ⟨first, hfirst, hmiddle⟩, hmore⟩
      exact ⟨first, hfirst, ih.2 ⟨middle, hmiddle, hmore⟩⟩

/-- One more request. -/
theorem concat {event : FileEvent α} {last : Nat} (h : Reads file cursor events next)
    (hevent : event.Fits file next last) : Reads file cursor (events ++ [event]) last :=
  append_iff.2 ⟨next, h, last, hevent, rfl⟩

/-- The answers say where the reader is. -/
theorem unique {other : Nat} (h : Reads file cursor events next)
    (hother : Reads file cursor events other) : next = other := by
  induction events generalizing cursor with
  | nil => exact h.trans hother.symm
  | cons event events ih =>
    obtain ⟨first, hfirst, hrest⟩ := h
    obtain ⟨first', hfirst', hrest'⟩ := hother
    have hsame : first = first' := by
      cases event with
      | read len bytes => exact hfirst.1.trans hfirst'.1.symm
      | seek pos place =>
        cases place with
        | none => exact Eq.trans hfirst hfirst'.symm
        | some place => exact hfirst.1.trans hfirst'.1.symm
    subst hsame
    exact ih hrest hrest'

/-- What is read without a seek is the file from the place of the reader on. -/
theorem bytes_prefix (h : Reads file cursor events next) (hreads : ∀ e ∈ events, e.IsRead) :
    events.flatMap FileEvent.bytes <+: file.drop cursor ∧
      next = cursor + (events.flatMap FileEvent.bytes).length := by
  induction events generalizing cursor with
  | nil => exact ⟨List.nil_prefix, h⟩
  | cons event events ih =>
    obtain ⟨middle, hevent, hrest⟩ := h
    obtain ⟨hfirst, hlater⟩ := List.forall_mem_cons.1 hreads
    obtain ⟨hupto, hnext⟩ := ih hrest hlater
    cases event with
    | seek pos place => exact hfirst.elim
    | read len bytes =>
      obtain ⟨rfl, -, ⟨rest, hbytes⟩, -⟩ := hevent
      have hdrop : file.drop (cursor + bytes.length) = rest := by
        rw [← List.drop_drop, ← hbytes, List.drop_left]
      rw [hdrop] at hupto
      rw [List.flatMap_cons]
      constructor
      · rw [← hbytes]
        exact (List.prefix_append_right_inj bytes).2 hupto
      · rw [hnext, List.length_append, Nat.add_assoc]
        rfl

/-- What is read without a seek is all the rest of the file, once a read has come back empty. -/
theorem bytes_eq (h : Reads file cursor events next) (hreads : ∀ e ∈ events, e.IsRead)
    (hend : ∃ e ∈ events, e.IsEnd) : events.flatMap FileEvent.bytes = file.drop cursor := by
  obtain ⟨event, hevent, hempty⟩ := hend
  obtain ⟨earlier, later, rfl⟩ := List.append_of_mem hevent
  obtain ⟨middle, hearlier, hrest⟩ := append_iff.1 h
  obtain ⟨hupto, hmiddle⟩ :=
    hearlier.bytes_prefix fun e he => hreads e (List.mem_append_left _ he)
  have hall := (h.bytes_prefix hreads).1
  have hlength : file.length ≤ middle := by
    obtain ⟨place, hfits, -⟩ := hrest
    cases event with
    | seek pos place => exact hempty.elim
    | read len bytes => exact (hfits.2.2.2 hempty.2).resolve_left hempty.1
  refine hall.eq_of_length_le ?_
  rw [List.flatMap_append, List.length_append, List.length_drop]
  omega

/-- What is read after the last seek is all the rest of the file from the place that was sought,
once a read has come back empty. -/
theorem bytes_eq_of_append (h : Reads file cursor (events ++ more) next) {place : Nat}
    (hplace : Reads file cursor events place) (hreads : ∀ e ∈ more, e.IsRead)
    (hend : ∃ e ∈ more, e.IsEnd) : more.flatMap FileEvent.bytes = file.drop place := by
  obtain ⟨middle, hevents, hmore⟩ := append_iff.1 h
  obtain rfl := hevents.unique hplace
  exact hmore.bytes_eq hreads hend

end Reads

end Foundation
