import Mathlib.Data.List.Basic

/-!
Contract: output into a memory through a target that goes on with each item.

Owns: the cells and the indexes that are written, output of one sequence after another, its
reversal in place, and moves within the memory.
-/

namespace NtfCore.Foundation

open List

/-- The cells of a memory, and the indexes that were written. -/
structure Output (α : Type) where
  cells : Nat -> α
  written : List Nat := []

namespace Output

variable {α : Type}

/-- One cell is written. -/
def write (output : Output α) (index : Nat) (item : α) : Output α where
  cells := Function.update output.cells index item
  written := index :: output.written

theorem write_cells (output : Output α) (index : Nat) (item : α) (other : Nat) :
    (output.write index item).cells other = if other = index then item else output.cells other :=
  Function.update_apply _ _ _ _

/-- An item is written at the target, which then goes on. -/
def put (state : Output α × Nat) (item : α) : Output α × Nat :=
  (state.1.write state.2 item, state.2 + 1)

/-! ## Sequences -/

/-- The items were written from the target on, and nothing else was. -/
structure Wrote (before after : Output α × Nat) (items : List α) : Prop where
  target : after.2 = before.2 + items.length
  cells : ∀ index, after.1.cells index =
    if before.2 ≤ index then items[index - before.2]?.getD (before.1.cells index)
    else before.1.cells index
  written : ∀ index, index ∈ after.1.written ↔
    index ∈ before.1.written ∨ before.2 ≤ index ∧ index < before.2 + items.length

theorem wrote_nil (state : Output α × Nat) : Wrote state state [] where
  target := rfl
  cells := fun _ => by simp
  written := fun _ => by
    rw [length_nil, Nat.add_zero]
    exact (or_iff_left fun inside => absurd inside.2 (Nat.not_lt.mpr inside.1)).symm

theorem wrote_put (state : Output α × Nat) (item : α) : Wrote state (put state item) [item] where
  target := rfl
  cells := fun index => by
    rw [put, write_cells]
    by_cases isTarget : index = state.2
    · simp [isTarget]
    · rw [if_neg isTarget]
      by_cases behind : state.2 ≤ index
      · rw [if_pos behind, getElem?_eq_none (by rw [length_singleton]; omega)]
        rfl
      · rw [if_neg behind]
  written := fun _ => by
    rw [put, write, mem_cons, length_singleton, or_comm]
    exact or_congr_right (by omega)

variable {before after : Output α × Nat}

theorem Wrote.append {middle : Output α × Nat} {first second : List α}
    (wroteFirst : Wrote before middle first) (wroteSecond : Wrote middle after second) :
    Wrote before after (first ++ second) where
  target := by
    rw [wroteSecond.target, wroteFirst.target, length_append, Nat.add_assoc]
  cells := fun index => by
    have isMiddle := wroteFirst.target
    rw [wroteSecond.cells, wroteFirst.cells]
    by_cases behind : middle.2 ≤ index
    · have sum : index - middle.2 = index - before.2 - first.length := by omega
      rw [if_pos behind, if_pos (by omega), if_pos (by omega),
        getElem?_append_right (by omega), getElem?_eq_none (l := first) (by omega), sum]
      rfl
    · rw [if_neg behind]
      by_cases inside : before.2 ≤ index
      · rw [if_pos inside, if_pos inside, getElem?_append_left (by omega)]
      · rw [if_neg inside, if_neg inside]
  written := fun _ => by
    have isMiddle := wroteFirst.target
    rw [wroteSecond.written, wroteFirst.written, length_append, or_assoc]
    exact or_congr_right (by omega)

/-- The memory starts with the items. -/
def Holds (output : Output α) (items : List α) : Prop :=
  ∀ index (inside : index < items.length), output.cells index = items[index]

variable {items : List α} {output : Output α}

/-- What was written from the start on is held. -/
theorem Wrote.holds (wrote : Wrote (output, 0) after items) : after.1.Holds items := by
  intro index inside
  rw [wrote.cells, if_pos (Nat.zero_le _), Nat.sub_zero, getElem?_eq_getElem inside]
  rfl

theorem Holds.map_range (holds : output.Holds items) {size : Nat} (enough : items.length ≤ size) :
    ∃ rest, (List.range size).map output.cells = items ++ rest := by
  obtain ⟨_, isSize⟩ := Nat.exists_eq_add_of_le enough
  have start : (range items.length).map output.cells = items := by
    apply ext_getElem
    · rw [length_map, length_range]
    · intro index _ inside
      rw [getElem_map, getElem_range, holds index inside]
  rw [isSize, range_add, map_append, start]
  exact ⟨_, rfl⟩

/-! ## Reversal in place -/

/-- Two cells are exchanged. -/
def swap (output : Output α) (head tail : Nat) : Output α :=
  (output.write head (output.cells tail)).write tail (output.cells head)

/-- Cells are exchanged from both ends until these meet. -/
def reverseLoop (output : Output α) (head tail : Nat) : Output α :=
  if head < tail then reverseLoop (output.swap head tail) (head + 1) (tail - 1) else output
termination_by tail - head

section

variable (output : Output α) (head tail index : Nat)

theorem reverseLoop_cells : (output.reverseLoop head tail).cells index =
      if head ≤ index ∧ index ≤ tail then output.cells (head + tail - index)
      else output.cells index := by
  induction output, head, tail using reverseLoop.induct with
  | case1 output head tail ordered ih =>
    have exchanged : ∀ other, (output.swap head tail).cells other =
        if other = tail then output.cells head
        else if other = head then output.cells tail else output.cells other := by
      intro other
      rw [swap, write_cells, write_cells]
    rw [reverseLoop, if_pos ordered, ih, exchanged, exchanged]
    by_cases within : head + 1 ≤ index ∧ index ≤ tail - 1
    · have inRange : head ≤ index ∧ index ≤ tail := by omega
      have isSum : head + 1 + (tail - 1) - index = head + tail - index := by omega
      rw [if_pos within, if_pos inRange, isSum, if_neg (by omega), if_neg (by omega)]
    · rw [if_neg within]
      by_cases isTail : index = tail
      · have inRange : head ≤ index ∧ index ≤ tail := by omega
        rw [if_pos isTail, if_pos inRange, isTail, Nat.add_sub_cancel]
      · rw [if_neg isTail]
        by_cases isHead : index = head
        · have inRange : head ≤ index ∧ index ≤ tail := by omega
          rw [if_pos isHead, if_pos inRange, isHead, Nat.add_sub_cancel_left]
        · have outOfRange : ¬ (head ≤ index ∧ index ≤ tail) := by omega
          rw [if_neg isHead, if_neg outOfRange]
  | case2 _ _ _ met =>
    rw [reverseLoop, if_neg met]
    split
    · congr 1
      omega
    · rfl

theorem mem_written_reverseLoop :
    (index ∈ output.written -> index ∈ (output.reverseLoop head tail).written) ∧
      (index ∈ (output.reverseLoop head tail).written ->
        index ∈ output.written ∨ head ≤ index ∧ index ≤ tail) := by
  induction output, head, tail using reverseLoop.induct with
  | case1 output head tail ordered ih =>
    rw [reverseLoop, if_pos ordered]
    have swapped : index ∈ (output.swap head tail).written ↔
        index = tail ∨ index = head ∨ index ∈ output.written := by simp [swap, write]
    rw [swapped] at ih
    refine ⟨fun mem => ih.1 (.inr (.inr mem)), fun mem => ?_⟩
    rcases ih.2 mem with (_ | _ | earlier) | _
    · exact .inr (by omega)
    · exact .inr (by omega)
    · exact .inl earlier
    · exact .inr (by omega)
  | case2 _ _ _ met =>
    rw [reverseLoop, if_neg met]
    exact ⟨id, .inl⟩

end

theorem Wrote.reverse (wrote : Wrote before after items) (ne : items ≠ []) :
    Wrote before (after.1.reverseLoop before.2 (after.2 - 1), after.2) items.reverse where
  target := by rw [length_reverse, ← wrote.target]
  cells := fun index => by
    have pos : 0 < items.length := length_pos_iff.mpr ne
    have isTarget := wrote.target
    rw [reverseLoop_cells]
    by_cases inside : before.2 ≤ index ∧ index ≤ after.2 - 1
    · have place : before.2 + (after.2 - 1) - index - before.2 =
          items.length - 1 - (index - before.2) := by omega
      rw [if_pos inside, if_pos inside.1, wrote.cells, if_pos (by omega), place,
        getElem?_reverse (by omega), getElem?_eq_getElem (by omega)]
      rfl
    · rw [if_neg inside, wrote.cells]
      by_cases behind : before.2 ≤ index
      · rw [if_pos behind, if_pos behind, getElem?_eq_none (by omega),
          getElem?_eq_none (by rw [length_reverse]; omega)]
      · rw [if_neg behind, if_neg behind]
  written := fun index => by
    have pos : 0 < items.length := length_pos_iff.mpr ne
    have isTarget := wrote.target
    have members := mem_written_reverseLoop after.1 before.2 (after.2 - 1) index
    rw [wrote.written] at members
    rw [length_reverse]
    constructor
    · intro mem
      rcases members.2 mem with earlier | _
      · exact earlier
      · exact .inr (by omega)
    · exact members.1

/-- Items are moved to a target from a source that may overlap it: they are what the memory held
before. -/
def moveLoop (old : Nat -> α) (target source : Nat) : Nat -> Output α -> Output α
  | 0, output => output
  | count + 1, output =>
    (moveLoop old target source count output).write (target + count) (old (source + count))

/-- `memmove`. -/
def move (output : Output α) (target source count : Nat) : Output α :=
  moveLoop output.cells target source count output

variable (old : Nat -> α) (target source count : Nat) (output : Output α) (index : Nat)

theorem moveLoop_cells : (moveLoop old target source count output).cells index =
      if target ≤ index ∧ index < target + count then old (source + (index - target))
      else output.cells index := by
  induction count with
  | zero => rw [moveLoop, if_neg (by omega)]
  | succ count ih =>
    rw [moveLoop, write_cells, ih]
    split
    · rename_i isLast
      rw [if_pos (by omega), isLast, Nat.add_sub_cancel_left]
    · exact if_congr (by omega) rfl rfl

theorem mem_written_moveLoop : index ∈ (moveLoop old target source count output).written ↔
      index ∈ output.written ∨ target ≤ index ∧ index < target + count := by
  induction count with
  | zero => exact (or_iff_left (by omega)).symm
  | succ _ ih =>
    rw [moveLoop, write, mem_cons, ih, or_left_comm]
    exact or_congr_right (by omega)

end Output

end NtfCore.Foundation
