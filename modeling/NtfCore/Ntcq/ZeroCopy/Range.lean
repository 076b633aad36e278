import Mathlib.Algebra.Group.Nat.Defs
import Mathlib.Data.List.Range

/-!
Contract: half-open ranges of zero-copy counters (`ntcq::ZeroCopyRange`).

Owns: the range type, its intersection and its difference with the overflow
range, as `ntcq_zerocopy.h` computes them, and what each of them contains.
-/

namespace NtfCore.Ntcq

/-- The number of values of a `ntcq::ZeroCopyCounter`, a `bsl::uint64_t`.
Counters are natural numbers, and sums of them are taken modulo this. -/
def uint64Modulus : Nat := 2 ^ 64

/-- `ntcq::ZeroCopyRange`: from `minCounter`, inclusive, to `maxCounter`,
exclusive. The default value is the empty range at zero. -/
structure ZeroCopyRange where
  minCounter : Nat := 0
  maxCounter : Nat := 0
deriving DecidableEq

namespace ZeroCopyRange

/-- `ZeroCopyRange::reset`. -/
def reset : ZeroCopyRange := {}

/-- `ZeroCopyRange::size`, with the subtraction of `bsl::uint64_t`. -/
def size (range : ZeroCopyRange) : Nat :=
  (range.maxCounter + uint64Modulus - range.minCounter) % uint64Modulus

/-- `ZeroCopyRange::empty`. -/
def empty (range : ZeroCopyRange) : Bool :=
  range.minCounter == range.maxCounter

/-- `ZeroCopyRange::intersect`. -/
def intersect (lhs rhs : ZeroCopyRange) : ZeroCopyRange :=
  let resultMin := max lhs.minCounter rhs.minCounter
  let resultMax := min lhs.maxCounter rhs.maxCounter
  if resultMin ≤ resultMax then ⟨resultMin, resultMax⟩ else ⟨0, 0⟩

/-- The lesser part of `ZeroCopyRange::difference`, before the adjustment for
an empty or adjacent part. -/
def differenceLesser (lhs rhs : ZeroCopyRange) : ZeroCopyRange :=
  if lhs.minCounter < rhs.minCounter then
    ⟨lhs.minCounter, min lhs.maxCounter rhs.minCounter⟩
  else reset

/-- The greater part of `ZeroCopyRange::difference`, before the adjustment. -/
def differenceGreater (lhs rhs : ZeroCopyRange) : ZeroCopyRange :=
  if rhs.maxCounter < lhs.maxCounter then
    ⟨max lhs.minCounter rhs.maxCounter, lhs.maxCounter⟩
  else reset

/-- `ZeroCopyRange::difference`: the pair of `result` and `overflow`. -/
def difference (lhs rhs : ZeroCopyRange) : ZeroCopyRange × ZeroCopyRange :=
  if rhs.minCounter ≤ lhs.minCounter ∧ lhs.maxCounter ≤ rhs.maxCounter then
    (reset, reset)
  else
    let result := differenceLesser lhs rhs
    let overflow := differenceGreater lhs rhs
    if result.empty then
      (overflow, reset)
    else if overflow.minCounter = result.maxCounter then
      (⟨result.minCounter, overflow.maxCounter⟩, reset)
    else
      (result, overflow)

def counters (range : ZeroCopyRange) : List Nat :=
  (List.range range.size).map fun index => (range.minCounter + index) % uint64Modulus

def Contains (range : ZeroCopyRange) (counter : Nat) : Prop :=
  range.minCounter ≤ counter ∧ counter < range.maxCounter

def Proper (range : ZeroCopyRange) : Prop := range.minCounter < range.maxCounter

instance (range : ZeroCopyRange) : Decidable range.Proper := by
  unfold Proper
  infer_instance

@[simp] theorem contains_reset (counter : Nat) : ¬ reset.Contains counter := by
  simp [reset, Contains]

@[simp] theorem empty_reset : reset.empty = true := rfl

theorem empty_iff (range : ZeroCopyRange) :
    range.empty = true ↔ range.minCounter = range.maxCounter := by
  simp [empty]

theorem Proper.not_empty {range : ZeroCopyRange} (proper : range.Proper) : range.empty = false := by
  simp only [empty, beq_eq_false_iff_ne]
  exact Nat.ne_of_lt proper

variable {lhs rhs : ZeroCopyRange}

theorem intersect_empty_iff (left : lhs.Proper) (right : rhs.Proper) :
    (intersect lhs rhs).empty = true ↔ ∀ counter, lhs.Contains counter -> ¬ rhs.Contains counter := by
  unfold Proper at left right
  rw [empty_iff]
  constructor
  · intro equal counter inLeft inRight
    unfold Contains at inLeft inRight
    unfold intersect at equal
    dsimp only at equal
    split at equal
    · dsimp only at equal
      omega
    · omega
  · intro disjoint
    have apart := disjoint (max lhs.minCounter rhs.minCounter)
    unfold Contains at apart
    unfold intersect
    dsimp only
    split
    · dsimp only
      omega
    · rfl

section

variable (overlap : max lhs.minCounter rhs.minCounter < min lhs.maxCounter rhs.maxCounter)
include overlap

theorem intersect_of_overlap : intersect lhs rhs =
      ⟨max lhs.minCounter rhs.minCounter, min lhs.maxCounter rhs.maxCounter⟩ := by
  unfold intersect
  rw [if_pos (Nat.le_of_lt overlap)]

theorem difference_intersect : difference lhs (intersect lhs rhs) =
      if lhs.minCounter < rhs.minCounter then (⟨lhs.minCounter, rhs.minCounter⟩,
          if rhs.maxCounter < lhs.maxCounter then ⟨rhs.maxCounter, lhs.maxCounter⟩ else reset)
      else if rhs.maxCounter < lhs.maxCounter then (⟨rhs.maxCounter, lhs.maxCounter⟩, reset)
      else (reset, reset) := by
  rw [intersect_of_overlap overlap]
  obtain ⟨a, b⟩ := lhs
  obtain ⟨p, q⟩ := rhs
  dsimp only at overlap ⊢
  by_cases left : a < p
  · have lower : max a p = p := by omega
    rw [if_pos left, lower]
    by_cases right : q < b
    · have upper : min b q = q := by omega
      have covered : ¬ (p ≤ a ∧ b ≤ q) := by omega
      have lesserEnd : min b p = p := by omega
      have greaterStart : max a q = q := by omega
      have ne : ¬ a = p := by omega
      have apart : ¬ q = p := by omega
      simp [difference, differenceLesser, differenceGreater, empty, left, right, upper, covered,
        lesserEnd, greaterStart, ne, apart]
    · have upper : min b q = b := by omega
      have covered : ¬ p ≤ a := by omega
      have lesserEnd : min b p = p := by omega
      have ne : ¬ a = p := by omega
      have apart : ¬ 0 = p := by omega
      simp [difference, differenceLesser, differenceGreater, empty, left, right, upper, covered,
        lesserEnd, ne, apart, reset]
  · have lower : max a p = a := by omega
    rw [if_neg left, lower]
    by_cases right : q < b
    · have upper : min b q = q := by omega
      have covered : ¬ b ≤ q := by omega
      have greaterStart : max a q = q := by omega
      simp [difference, differenceLesser, differenceGreater, right, upper, covered, greaterStart]
    · have upper : min b q = b := by omega
      simp [difference, right, upper]

end

theorem intersect_reset (rhs : ZeroCopyRange) : (intersect reset rhs).empty = true := by
  unfold intersect reset
  dsimp only
  split
  · rw [empty_iff]
    dsimp only
    omega
  · rfl

end ZeroCopyRange

end NtfCore.Ntcq
