import Mathlib

/-!
# A window of a buffer

A buffer is a function from places to values, and what it holds is a window: some places from a start on. The lemmas say what a
move to the front, a write behind the window and a read at its front do to it.
-/

namespace BufferWindow
open List

variable {α : Type*} {buffer : Nat → α} {start length count : Nat} {values : List α}

def window (buffer : Nat → α) (start length : Nat) : List α := (List.range length).map fun place => buffer (start + place)

def move (buffer : Nat → α) (start length : Nat) : Nat → α :=
  fun place => if place < length then buffer (start + place) else buffer place

def write (buffer : Nat → α) (position : Nat) (values : List α) : Nat → α :=
  fun place => if position ≤ place then (values[place - position]?).getD (buffer place) else buffer place

@[simp] lemma length_window : (window buffer start length).length = length := by simp [window]

lemma window_move : window (move buffer start length) 0 length = window buffer start length := by
  refine map_congr_left fun place hplace => ?_
  rw [zero_add, move, if_pos (mem_range.mp hplace)]

lemma window_write :
    window (write buffer (start + length) values) start (length + values.length) = window buffer start length ++ values := by
  rw [window, range_add, map_append]
  congr 1
  · refine map_congr_left fun place hplace => ?_
    have hbefore : ¬start + length ≤ start + place := by
      have := mem_range.mp hplace
      omega
    rw [write, if_neg hbefore]
  · refine ext_getElem (by simp) fun place hplace hvalue => ?_
    simp [write, ← add_assoc, hvalue]

lemma window_drop : window buffer (start + count) (length - count) = (window buffer start length).drop count := by
  refine ext_getElem (by simp) fun place _ _ => ?_
  simp [window, add_assoc]

end BufferWindow
