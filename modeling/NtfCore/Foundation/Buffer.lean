import Mathlib.Data.List.Basic

/-!
Contract: buffers of fixed size, written and read from a position on.

Owns: overwriting a part of a buffer, what the part before a position holds
afterwards, and what lies ahead of a position.
-/

namespace NtfCore.Foundation.Buffer

open List

variable {α : Type}

/-- Write the items into the buffer at the position. -/
def overwrite (data : List α) (position : Nat) (items : List α) : List α :=
  data.take position ++ items ++ data.drop (position + items.length)

theorem overwrite_split {data front old back items : List α} (isData : data = front ++ old ++ back)
    (sameLength : old.length = items.length) :
    overwrite data front.length items = front ++ items ++ back := by
  have taken : data.take front.length = front := by
    rw [isData, append_assoc]
    exact take_left
  have dropped : data.drop (front.length + items.length) = back := by
    rw [isData, ← sameLength, ← length_append]
    exact drop_left
  unfold overwrite
  rw [taken, dropped]

variable {pos : Nat} {data items : List α}

theorem overwrite_length (fits : pos + items.length ≤ data.length) :
    (overwrite data pos items).length = data.length := by
  unfold overwrite
  simp only [length_append, length_take, length_drop]
  omega

theorem take_overwrite (within : pos ≤ data.length) :
    (overwrite data pos items).take (pos + items.length) = data.take pos ++ items := by
  have frontLength : (data.take pos ++ items).length = pos + items.length := by
    simp [within]
  rw [← frontLength]
  exact take_left

/-- What lies ahead of a position begins with the items. -/
def Ahead (data : List α) (position : Nat) (items : List α) : Prop :=
  items <+: data.drop position

section

variable {data first second : List α} (ahead : Ahead data pos (first ++ second))
include ahead

theorem Ahead.left : Ahead data pos first := (prefix_append first second).trans ahead

theorem Ahead.right : Ahead data (pos + first.length) second := by
  obtain ⟨rest, isRest⟩ := ahead
  refine ⟨rest, ?_⟩
  rw [← drop_drop, ← isRest, append_assoc]
  exact drop_left.symm

end

theorem Ahead.take_drop (ahead : Ahead data pos items) :
    (data.drop pos).take items.length = items := by
  obtain ⟨_, isRest⟩ := ahead
  rw [← isRest]
  exact take_left

theorem Ahead.fits (ahead : Ahead data pos items) : items.length ≤ data.length - pos := by
  rw [← length_drop]
  exact IsPrefix.length_le ahead

theorem ahead_self (items : List α) : Ahead items 0 items := prefix_rfl

end NtfCore.Foundation.Buffer
