import Mathlib.Data.Nat.ModEq
import Mathlib.Tactic.Linarith

/-!
Contract: cells that are used round and round.

A position is a number that never wraps; the cell of a position is found by its
remainder. As long as no more cells are in use than there are, a position that
is in use has a cell of its own.

Owns: the contents of the cells from a position on, and how they change when a
cell is taken at the front or written at the back.
-/

namespace NtfCore.Foundation.Ring

open List

variable {α : Type}

/-- The contents of `count` cells from the position `start` on. -/
def contents (cell : Nat -> α) (size start count : Nat) : List α :=
  (List.range count).map fun offset => cell ((start + offset) % size)

theorem contents_congr {cell other : Nat -> α} {size start count : Nat}
    (same : ∀ pos, start ≤ pos -> pos < start + count -> cell (pos % size) = other (pos % size)) :
    contents cell size start count = contents other size start count := by
  apply map_congr_left
  intro offset mem
  have inRange := mem_range.mp mem
  exact same (start + offset) (Nat.le_add_right _ _) (Nat.add_lt_add_left inRange start)

/-- Taking the cell at the front. -/
theorem contents_succ (cell : Nat -> α) (size start count : Nat) :
    contents cell size start (count + 1) =
      cell (start % size) :: contents cell size (start + 1) count := by
  unfold contents
  rw [range_succ_eq_map, map_cons, map_map, Nat.add_zero]
  congr 1
  apply map_congr_left
  intro _ _
  simp [Nat.add_comm, Nat.add_left_comm]

theorem mod_ne_mod {size start pos other : Nat} (lower : start ≤ pos)
    (less : pos < other) (upper : other < start + size) : pos % size ≠ other % size := by
  intro same
  have divides : size ∣ other - pos := (Nat.modEq_iff_dvd' less.le).mp same
  have atLeast := Nat.le_of_dvd (Nat.sub_pos_of_lt less) divides
  omega

theorem contents_write (cell : Nat -> α) {size : Nat} (start count : Nat) (room : count < size)
    (value : α) :
    contents (Function.update cell ((start + count) % size) value) size start (count + 1) =
      contents cell size start count ++ [value] := by
  have kept : contents (Function.update cell ((start + count) % size) value) size start count =
      contents cell size start count := by
    apply contents_congr
    intro _ lower upper
    exact Function.update_of_ne (mod_ne_mod lower upper (by omega)) _ _
  unfold contents at kept ⊢
  rw [range_succ, map_append, kept, map_singleton, Function.update_self]

end NtfCore.Foundation.Ring
