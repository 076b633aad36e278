import Mathlib.Tactic.Ring

/-!
Contract: long division by a divisor of several digits, digit by digit.

Owns: the partial dividends, the digit that leading digits suggest and how far it is off, and what
a sum without carries lacks.
-/

namespace NtfCore.Foundation.LongDivision

/-- What the digit at position `j` of the quotient is taken from. -/
def partialDividend (base divisor dividend j : Nat) : Nat :=
  dividend / base ^ j % (divisor * base)

variable {base count : Nat}

/-- The digits below a position do not depend on what is taken away above it. -/
theorem partialDividend_mod {divisor dividend j : Nat} (below : j < count) :
    partialDividend base divisor (dividend % (divisor * base ^ count)) j =
      partialDividend base divisor dividend j := by
  obtain ⟨rest, isCount⟩ : ∃ rest, count = j + 1 + rest := ⟨count - (j + 1), by omega⟩
  have factors : divisor * base ^ count = base ^ j * (divisor * base * base ^ rest) := by
    rw [isCount, pow_add, pow_succ]
    ring
  unfold partialDividend
  rw [factors, Nat.mod_mul_right_div_self, Nat.mod_mul_right_mod]

/-! ## Estimated digits -/

/-- The digit that leading digits suggest: `weight` is that of the last digits which count. -/
def estimate (base weight divisor dividend : Nat) : Nat :=
  min (dividend / weight / (divisor / weight)) (base - 1)

section Estimate

variable {base weight divisor dividend : Nat}

theorem estimate_lt (pos : 0 < base) : estimate base weight divisor dividend < base := by
  have bound : estimate base weight divisor dividend ≤ base - 1 := Nat.min_le_right _ _
  omega

theorem le_estimate (counts : 0 < weight) (long : weight ≤ divisor)
    (below : dividend < divisor * base) :
    dividend / divisor ≤ estimate base weight divisor dividend := by
  have leading : 0 < divisor / weight := Nat.div_pos long counts
  refine le_min ?_ (Nat.le_sub_one_of_lt (Nat.div_lt_of_lt_mul below))
  rw [Nat.le_div_iff_mul_le leading, Nat.le_div_iff_mul_le counts]
  calc dividend / divisor * (divisor / weight) * weight
      = dividend / divisor * (divisor / weight * weight) := Nat.mul_assoc _ _ _
    _ ≤ dividend / divisor * divisor := Nat.mul_le_mul_left _ (Nat.div_mul_le_self _ _)
    _ ≤ dividend := Nat.div_mul_le_self _ _

/-- The estimate exceeds by what the digits left out can make up. -/
theorem estimate_mul_lt (pos : 0 < base) (counts : 0 < weight) :
    estimate base weight divisor dividend * divisor < dividend + base * weight := by
  have isLess := @estimate_lt base weight divisor dividend pos
  have suggested : estimate base weight divisor dividend * (divisor / weight) * weight ≤ dividend :=
    calc estimate base weight divisor dividend * (divisor / weight) * weight
        ≤ dividend / weight / (divisor / weight) * (divisor / weight) * weight :=
          Nat.mul_le_mul_right _ (Nat.mul_le_mul_right _ (Nat.min_le_left _ _))
      _ ≤ dividend / weight * weight := Nat.mul_le_mul_right _ (Nat.div_mul_le_self _ _)
      _ ≤ dividend := Nat.div_mul_le_self _ _
  have leftOut : estimate base weight divisor dividend * (divisor % weight) < base * weight :=
    Nat.mul_lt_mul'' isLess (Nat.mod_lt _ counts)
  have whole : estimate base weight divisor dividend * divisor =
      estimate base weight divisor dividend * (divisor / weight) * weight +
        estimate base weight divisor dividend * (divisor % weight) := by
    rw [Nat.mul_assoc, ← Nat.mul_add, Nat.div_add_mod']
  omega

theorem estimate_of_le (counts : 0 < weight) (long : weight ≤ divisor)
    (below : dividend < divisor * base)
    (exact : estimate base weight divisor dividend * divisor ≤ dividend) :
    estimate base weight divisor dividend = dividend / divisor :=
  Nat.le_antisymm ((Nat.le_div_iff_mul_le (Nat.lt_of_lt_of_le counts long)).mpr exact)
    (le_estimate counts long below)

/-- An estimate that is too great is too great by one, if the divisor has enough digits. -/
theorem estimate_of_lt (pos : 0 < base) (counts : 0 < weight)
    (long : base * weight ≤ divisor) (below : dividend < divisor * base)
    (past : dividend < estimate base weight divisor dividend * divisor) :
    estimate base weight divisor dividend = dividend / divisor + 1 := by
  have weightLe : weight ≤ divisor := Nat.le_trans (Nat.le_mul_of_pos_left weight pos) long
  have ne : 0 < divisor := Nat.lt_of_lt_of_le counts weightLe
  have atLeast := le_estimate counts weightLe below
  have excess := @estimate_mul_lt base weight divisor dividend pos counts
  have more : dividend / divisor < estimate base weight divisor dividend :=
    (Nat.div_lt_iff_lt_mul ne).mpr past
  have most : estimate base weight divisor dividend - 1 ≤ dividend / divisor := by
    rw [Nat.le_div_iff_mul_le ne, Nat.sub_mul, Nat.one_mul]
    omega
  omega

end Estimate

/-- The carries that a sum lacks in which each place is reduced on its own. -/
def lostCarries (base : Nat) (left right : Nat -> Nat) : Nat -> Nat
  | 0 => 0
  | count + 1 => lostCarries base left right count +
      if base ≤ left count + right count then base ^ count else 0

theorem lostCarries_succ (base : Nat) (left right : Nat -> Nat) (count : Nat) :
    lostCarries base left right (count + 1) = lostCarries base left right count +
      if base ≤ left count + right count then base ^ count else 0 := rfl

theorem lostCarries_congr {left left' right right' : Nat -> Nat}
    (sameLeft : ∀ i < count, left i = left' i) (sameRight : ∀ i < count, right i = right' i) :
    lostCarries base left right count = lostCarries base left' right' count := by
  induction count with
  | zero => rfl
  | succ count ih =>
    rw [lostCarries_succ, lostCarries_succ, sameLeft count .refl, sameRight count .refl,
      ih (fun i below => sameLeft i (Nat.lt_succ_of_lt below))
        fun i below => sameRight i (Nat.lt_succ_of_lt below)]

theorem lostCarries_eq_zero_iff (pos : 0 < base) (left right : Nat -> Nat) (count : Nat) :
    lostCarries base left right count = 0 ↔ ∀ i < count, left i + right i < base := by
  induction count with
  | zero => simp [lostCarries]
  | succ count ih =>
    have weight : base ^ count ≠ 0 := (Nat.pow_pos pos).ne'
    rw [lostCarries_succ, Nat.add_eq_zero_iff, ih]
    constructor
    · rintro ⟨earlier, last⟩ i below
      rcases Nat.lt_succ_iff_lt_or_eq.mp below with isEarlier | isLast
      · exact earlier i isEarlier
      · rw [isLast]
        by_contra reached
        rw [if_pos (Nat.not_lt.mp reached)] at last
        exact weight last
    · intro all
      exact ⟨fun i below => all i (Nat.lt_succ_of_lt below),
        if_neg (Nat.not_le.mpr (all count .refl))⟩

end NtfCore.Foundation.LongDivision
