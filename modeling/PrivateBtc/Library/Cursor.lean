/- PrivateBtc/Library/Cursor
   digest: Positions in a byte string, described by the text that lies ahead of them. -/

import Mathlib.Data.List.Basic

set_option autoImplicit false
set_option relaxedAutoImplicit false

namespace PrivateBtc.Library.Cursor

variable {B : Type}

/-- The cursor stands in front of `text`, which runs to the end of the string. -/
def Ahead (raw : List B) (cursor : Nat) (text : List B) : Prop :=
  ∃ front, front.length = cursor ∧ raw = front ++ text

def slice (raw : List B) (start stop : Nat) : List B := (raw.take stop).drop start

theorem slice_eq_take_drop (raw : List B) (start count : Nat) :
    slice raw start (start + count) = (raw.drop start).take count := by
  rw [slice, List.drop_take, Nat.add_sub_cancel_left]

theorem ahead_zero (raw : List B) : Ahead raw 0 raw := ⟨[], rfl, rfl⟩

theorem Ahead.advance {raw piece text : List B} {cursor : Nat}
    (ahead : Ahead raw cursor (piece ++ text)) : Ahead raw (cursor + piece.length) text := by
  rcases ahead with ⟨front, rfl, rfl⟩
  exact ⟨front ++ piece, by simp, by simp⟩

theorem Ahead.length_eq {raw text : List B} {cursor : Nat} (ahead : Ahead raw cursor text) :
    raw.length = cursor + text.length := by
  rcases ahead with ⟨front, rfl, rfl⟩
  simp

theorem Ahead.getElem? {raw text : List B} {cursor : Nat} (ahead : Ahead raw cursor text)
    (k : Nat) : raw[cursor + k]? = text[k]? := by
  rcases ahead with ⟨front, rfl, rfl⟩
  rw [List.getElem?_append_right (by omega), Nat.add_sub_cancel_left]

theorem Ahead.slice_eq {raw piece text : List B} {start stop : Nat}
    (ahead : Ahead raw start (piece ++ text)) (width : stop = start + piece.length) :
    slice raw start stop = piece := by
  rcases ahead with ⟨front, rfl, rfl⟩
  rw [slice, width, ← List.append_assoc, List.take_left' (by simp), List.drop_left]

end PrivateBtc.Library.Cursor
