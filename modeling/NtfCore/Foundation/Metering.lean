import Mathlib.Algebra.BigOperators.Group.List.Basic
import Mathlib.Tactic.Linarith
import Mathlib.Tactic.Ring

/-!
Contract: amounts charged over time, against a level that leaks.

A level rises with each charge and may fall no faster than at a given rate. When
a charge is made only while the level is below a capacity, the amounts charged
between any two moments are bounded by what leaks in between, the capacity, and
the last charge, which may be of any size.

Owns: charges with their times, the amounts of a stretch of time, what it means
for a level to cover the charges, and the rules by which it keeps doing so.

A level is a number of parts, of which an amount has `scale`, and it may be lower than
it should be by `slack`.
-/

namespace NtfCore.Foundation.Metering

open List

structure Charge where
  time : Int
  amount : Nat

def total (charges : List Charge) : Nat := (charges.map Charge.amount).sum

/-- The charges from a moment on. -/
def since (charges : List Charge) (start : Int) : List Charge :=
  charges.filter fun charge => start ≤ charge.time

/-- The charges between two moments. -/
def within (charges : List Charge) (start stop : Int) : List Charge :=
  charges.filter fun charge => start ≤ charge.time ∧ charge.time ≤ stop

def lastAmount (charges : List Charge) : Nat := (charges.getLast?.map Charge.amount).getD 0

@[simp] theorem total_nil : total [] = 0 := rfl

@[simp] theorem total_append (left right : List Charge) :
    total (left ++ right) = total left + total right := by
  simp [total]

@[simp] theorem total_singleton (charge : Charge) : total [charge] = charge.amount := by
  simp [total]

section

variable (charges : List Charge) (charge : Charge)

@[simp] theorem lastAmount_concat : lastAmount (charges ++ [charge]) = charge.amount := by
  simp [lastAmount]

theorem since_concat (start : Int) : since (charges ++ [charge]) start =
      since charges start ++ if start ≤ charge.time then [charge] else [] := by
  by_cases later : start ≤ charge.time
  · simp [since, later]
  · simp [since, later]

end

section

variable {charge : Charge} {start stop : Int} (charges : List Charge)

theorem within_concat_of_mem (fromStart : start ≤ charge.time) (untilStop : charge.time ≤ stop) :
    within (charges ++ [charge]) start stop = within charges start stop ++ [charge] := by
  simp [within, fromStart, untilStop]

theorem within_concat_of_not_mem (outside : ¬ (start ≤ charge.time ∧ charge.time ≤ stop)) :
    within (charges ++ [charge]) start stop = within charges start stop := by
  simp only [within, filter_append]
  rw [filter_cons_of_neg (by simpa using outside), filter_nil, append_nil]

end

/-! ## Levels -/

/-- The level accounts for every charge: those since any moment are at most what it
holds, what leaked since then, and the slack. -/
structure Level (scale rate slack : Int) (charges : List Charge) (time level : Int) : Prop where
  past : ∀ charge ∈ charges, charge.time ≤ time
  floor : -slack ≤ level
  covered : ∀ start ≤ time,
    scale * total (since charges start) ≤ level + rate * (time - start) + slack

/-- The amounts charged between any two moments are less than the capacity, what
leaks in between, and the last of them. -/
def Bounded (scale rate capacity : Int) (charges : List Charge) : Prop :=
  ∀ start stop, start ≤ stop ->
    scale * total (within charges start stop) <
      scale * (capacity + lastAmount (within charges start stop)) + rate * (stop - start)

section Rules

variable {scale rate slack capacity time level : Int} {charges : List Charge}

section

variable (past : ∀ charge ∈ charges, charge.time ≤ time)
include past

theorem since_eq_nil {start : Int} (later : time < start) : since charges start = [] := by
  apply filter_eq_nil_iff.mpr
  intro charge mem
  have before := past charge mem
  simp only [decide_eq_true_eq, not_le]
  omega

theorem within_eq_since {stop : Int}
    (later : time ≤ stop) (start : Int) : within charges start stop = since charges start := by
  apply filter_congr
  intro charge mem
  have before := past charge mem
  have inTime : charge.time ≤ stop := le_trans before later
  simp [inTime]

end

theorem Level.start (time : Int) (nonnegative : 0 ≤ rate) (spare : 0 ≤ slack) :
    Level scale rate slack [] time 0 where
  past := by simp
  floor := by omega
  covered := by
    intro _ inTime
    have leaked := mul_nonneg nonnegative (sub_nonneg.mpr inTime)
    simp only [since, filter_nil, total_nil]
    omega

theorem Level.leak (isLevel : Level scale rate slack charges time level) (nonnegative : 0 ≤ rate)
    {later lower : Int} (inTime : time ≤ later) (floor : -slack ≤ lower)
    (slowly : level - rate * (later - time) ≤ lower) :
    Level scale rate slack charges later lower where
  past := fun charge mem => le_trans (isLevel.past charge mem) inTime
  floor := floor
  covered := by
    intro start beforeLater
    rcases le_or_gt start time with before | after
    · have covered := isLevel.covered start before
      have parts : rate * (later - start) = rate * (later - time) + rate * (time - start) := by ring
      omega
    · have leaked := mul_nonneg nonnegative (sub_nonneg.mpr beforeLater)
      rw [since_eq_nil isLevel.past after, total_nil]
      omega

theorem Level.charge (isLevel : Level scale rate slack charges time level) (pos : 0 ≤ scale)
    (amount : Nat) : Level scale rate slack (charges ++ [{ time := time, amount := amount }]) time
      (level + scale * amount) where
  past := by
    intro charge mem
    rcases mem_append.mp mem with before | isNew
    · exact isLevel.past charge before
    · rw [mem_singleton.mp isNew]
  floor := by
    have floor := isLevel.floor
    have charged : 0 ≤ scale * (amount : Int) := mul_nonneg pos (Int.natCast_nonneg _)
    omega
  covered := by
    intro start inTime
    have covered := isLevel.covered start inTime
    rw [since_concat, if_pos inTime, total_append, total_singleton]
    push_cast
    linarith

theorem Bounded.start (pos : 0 < scale * capacity) (nonnegative : 0 ≤ rate) :
    Bounded scale rate capacity [] := by
  intro _ _ inOrder
  have leaked := mul_nonneg nonnegative (sub_nonneg.mpr inOrder)
  simp only [within, filter_nil, total_nil, lastAmount, getLast?_nil, Option.map_none,
    Option.getD_none, Nat.cast_zero, add_zero, mul_zero]
  omega

theorem Bounded.charge (bounded : Bounded scale rate capacity charges)
    (isLevel : Level scale rate slack charges time level) (nonnegative : 0 ≤ rate)
    (room : level + slack < scale * capacity) (amount : Nat) :
    Bounded scale rate capacity (charges ++ [{ time := time, amount := amount }]) := by
  intro start stop inOrder
  by_cases inWindow : start ≤ time ∧ time ≤ stop
  · obtain ⟨fromStart, untilStop⟩ := inWindow
    have covered := isLevel.covered start fromStart
    have leaked := mul_le_mul_of_nonneg_left (sub_le_sub_right untilStop start) nonnegative
    rw [within_concat_of_mem charges fromStart untilStop, total_append, lastAmount_concat,
      total_singleton, within_eq_since isLevel.past untilStop]
    push_cast
    linarith
  · rw [within_concat_of_not_mem charges inWindow]
    exact bounded start stop inOrder

end Rules

end NtfCore.Foundation.Metering
