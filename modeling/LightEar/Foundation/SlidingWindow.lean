import Mathlib.Algebra.Order.Group.Nat
import Mathlib.Data.List.Basic

/-!
# A window that slides along a stream

A stream grows at its end, and a buffer holds the part of it that has not been dropped at the
front.  `IsWindow stream start window` says that the buffer is the stream from an absolute index
on.  Pushing and trimming keep this (`IsWindow.push`, `IsWindow.trim`), and reading the buffer at
a relative index is reading the stream at the absolute one (`IsWindow.getElem?_eq`).

A reader that has to follow the window moves its relative index back by what has been dropped.
`sub_mod_of_dvd` says where it stands in its frame when whole frames are dropped.
-/

namespace Foundation

universe u

variable {α : Type u}

/-- The window is the stream from an absolute index on. -/
structure IsWindow (stream : List α) (start : Nat) (window : List α) : Prop where
  /-- Nothing is dropped that has not been pushed. -/
  start_le : start ≤ stream.length
  /-- Nothing but the front is missing. -/
  eq_drop : window = stream.drop start

namespace IsWindow

variable {stream window : List α} {start : Nat}

theorem nil : IsWindow ([] : List α) 0 [] := ⟨Nat.le_refl _, rfl⟩

/-- What is pushed is pushed to the window. -/
theorem push (h : IsWindow stream start window) (block : List α) :
    IsWindow (stream ++ block) start (window ++ block) := by
  refine ⟨h.start_le.trans ?_, ?_⟩
  · rw [List.length_append]
    exact Nat.le_add_right _ _
  · rw [List.drop_append_of_le_length h.start_le, h.eq_drop]

theorem start_add_length (h : IsWindow stream start window) :
    start + window.length = stream.length := by
  have hstart := h.start_le
  rw [h.eq_drop, List.length_drop]
  omega

/-- What is dropped from the window moves its start. -/
theorem trim (h : IsWindow stream start window) {n : Nat} (hn : n ≤ window.length) :
    IsWindow stream (start + n) (window.drop n) := by
  refine ⟨?_, ?_⟩
  · rw [← h.start_add_length]
    exact Nat.add_le_add_left hn start
  · rw [h.eq_drop, List.drop_drop]

/-- Reading the window is reading the stream. -/
theorem getElem?_eq (h : IsWindow stream start window) (i : Nat) :
    window[i]? = stream[start + i]? := by
  rw [h.eq_drop, List.getElem?_drop]

end IsWindow

/-- Going back by whole frames keeps the place in the frame. -/
theorem sub_mod_of_dvd {c d pos : Nat} (hdvd : c ∣ d) (hle : d ≤ pos) :
    (pos - d) % c = pos % c := by
  obtain ⟨k, rfl⟩ := hdvd
  exact Nat.sub_mul_mod hle

end Foundation
