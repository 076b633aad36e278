import Mathlib.Data.Nat.Digits.Lemmas
import NtfCore.Ntsa.Integer.Model

/-!
Contract: the numbers that blocks stand for.

Owns: the value of a magnitude, that normalized magnitudes are told apart by their
values and compared by `compare`, and that `add` and `subtract` compute the sum and
the difference.
-/

namespace NtfCore.Ntsa.AbstractIntegerRepresentation

open NtfCore.Foundation List UInt32

def value (data : Blocks) : Nat :=
  Nat.ofDigits radix (data.map UInt32.toNat)

def Normal (data : Blocks) : Prop :=
  ∀ last ∈ data.getLast?, last ≠ 0

instance (data : Blocks) : Decidable (Normal data) :=
  @Option.decidableForallMem _ (· ≠ 0) inferInstance data.getLast?

@[simp] theorem value_nil : value [] = 0 := rfl

@[simp] theorem value_cons (block : Block) (rest : Blocks) :
    value (block :: rest) = block.toNat + radix * value rest :=
  Nat.ofDigits_cons

theorem value_append (low high : Blocks) :
    value (low ++ high) = value low + radix ^ low.length * value high := by
  unfold value
  rw [map_append, Nat.ofDigits_append, length_map]

theorem digits_lt (data : Blocks) : ∀ digit ∈ data.map toNat, digit < radix := by
  intro _ mem
  obtain ⟨block, _, isDigit⟩ := mem_map.mp mem
  rw [← isDigit]
  exact block.toNat_lt

theorem value_lt (data : Blocks) : value data < radix ^ data.length := by
  have bound := Nat.ofDigits_lt_base_pow_length (by decide) (digits_lt data)
  rwa [length_map] at bound

theorem normal_nil : Normal [] := by
  intro _ _
  contradiction

theorem normal_normalize (data : Blocks) : Normal (normalize data) := by
  unfold normalize
  intro _ isLast isZero
  by_cases empty : data.rdropWhile (· == 0) = []
  · rw [empty] at isLast
    contradiction
  · have stops := rdropWhile_last_not (· == 0) data empty
    rw [getLast?_eq_some_getLast empty] at isLast
    apply stops
    rw [Option.some.inj isLast, isZero]
    rfl

theorem value_normalize (data : Blocks) : value (normalize data) = value data := by
  unfold normalize
  induction data using reverseRecOn with
  | nil => rfl
  | append_singleton _ block ih =>
    by_cases isZero : block = 0
    · rw [rdropWhile_concat_pos _ _ _ (by simp [isZero]), ih, value_append, isZero]
      rfl
    · rw [rdropWhile_concat_neg _ _ _ (by simp [isZero])]

variable {data : Blocks}

theorem Normal.getLast_ne (normal : Normal data)
    (ne : data.map toNat ≠ []) : (data.map toNat).getLast ne ≠ 0 := by
  have dataNonempty : data ≠ [] := fun isNil => ne (by rw [isNil]; rfl)
  rw [getLast_map]
  intro isZero
  refine normal _ (getLast?_eq_some_getLast dataNonempty) ?_
  exact UInt32.toNat_inj.mp isZero

variable {left right : Blocks}

/-- Normalized magnitudes are told apart by their values. -/
theorem Normal.inj (leftNormal : Normal left) (rightNormal : Normal right)
    (same : value left = value right) : left = right := by
  have leftDigits := Nat.digits_ofDigits radix (by decide) _ (digits_lt left) leftNormal.getLast_ne
  have rightDigits := Nat.digits_ofDigits radix (by decide) _ (digits_lt right)
    rightNormal.getLast_ne
  unfold value at same
  rw [same, rightDigits] at leftDigits
  exact map_injective_iff.mpr (fun _ _ => UInt32.toNat_inj.mp) leftDigits.symm

/-- A normalized magnitude with more blocks is greater. -/
theorem Normal.lt_of_length (rightNormal : Normal right)
    (shorter : left.length < right.length) : value left < value right := by
  have ne : right.map toNat ≠ [] := by
    intro isNil
    rw [map_eq_nil_iff.mp isNil] at shorter
    contradiction
  have upper := value_lt left
  have lower := Nat.pow_length_le_mul_ofDigits (b := radix - 2) ne (rightNormal.getLast_ne ne)
  rw [length_map] at lower
  have grows : radix ^ (left.length + 1) ≤ radix ^ right.length :=
    Nat.pow_le_pow_right (by decide) shorter
  have bound : radix ^ left.length * radix ≤ radix * value right := Nat.le_trans grows lower
  have scaled : radix ^ left.length ≤ value right := by
    rw [Nat.mul_comm] at bound
    exact Nat.le_of_mul_le_mul_left bound (by decide)
  omega

theorem Normal.isZero_iff (normal : Normal data) : isZero data = true ↔ value data = 0 := by
  constructor
  · intro zero
    rcases Bool.or_eq_true_iff.mp zero with empty | single
    · rw [isEmpty_iff.mp empty]
      rfl
    · rw [beq_iff_eq.mp single]
      rfl
  · intro zero
    rw [normal.inj normal_nil zero]
    rfl

/-- Blocks of one number are compared from the most significant one. -/
theorem compareLoop_reverse (sameLength : left.length = right.length) :
    compareLoop left.reverse right.reverse = Int.sign (value left - value right) := by
  induction left using reverseRecOn generalizing right with
  | nil =>
    rw [length_nil] at sameLength
    rw [length_eq_zero_iff.mp sameLength.symm]
    rfl
  | append_singleton low block ih =>
    rcases eq_nil_or_concat right with isNil | ⟨low', block', isConcat⟩
    · rw [isNil] at sameLength
      simp at sameLength
    · rw [concat_eq_append] at isConcat
      rw [isConcat, length_append, length_append] at sameLength
      have sameLow : low.length = low'.length := Nat.add_right_cancel sameLength
      have below := value_lt low
      have below' := value_lt low'
      rw [isConcat, reverse_append, reverse_append, value_append, value_append]
      rw [sameLow] at below ⊢
      simp only [reverse_singleton, singleton_append, compareLoop, value_cons,
        value_nil, Nat.mul_zero, Nat.add_zero]
      generalize radix ^ low'.length = weight at below below'
      split
      · rename_i less
        have lessNat := lt_iff_toNat_lt.mp less
        have scaled : weight * (block.toNat + 1) ≤ weight * block'.toNat :=
          Nat.mul_le_mul_left _ lessNat
        rw [Nat.mul_add, Nat.mul_one] at scaled
        refine (Int.sign_eq_neg_one_iff_neg.mpr ?_).symm
        omega
      · rename_i notLess
        split
        · rename_i greater
          have greaterNat := lt_iff_toNat_lt.mp greater
          have scaled : weight * (block'.toNat + 1) ≤ weight * block.toNat :=
            Nat.mul_le_mul_left _ greaterNat
          rw [Nat.mul_add, Nat.mul_one] at scaled
          refine (Int.sign_eq_one_iff_pos.mpr ?_).symm
          omega
        · rename_i notGreater
          have same : block.toNat = block'.toNat :=
            Nat.le_antisymm (Nat.not_lt.mp fun less => notGreater (lt_iff_toNat_lt.mpr less))
              (Nat.not_lt.mp fun less => notLess (lt_iff_toNat_lt.mpr less))
          rw [ih sameLow, same]
          congr 1
          omega

theorem compare_eq (leftNormal : Normal left) (rightNormal : Normal right) :
    compare left right = Int.sign (value left - value right) := by
  unfold compare
  split
  · rename_i shorter
    have less := rightNormal.lt_of_length shorter
    refine (Int.sign_eq_neg_one_iff_neg.mpr ?_).symm
    omega
  · split
    · rename_i longer
      have greater := leftNormal.lt_of_length longer
      refine (Int.sign_eq_one_iff_pos.mpr ?_).symm
      omega
    · exact compareLoop_reverse (by omega)

theorem value_drop (data : Blocks) (i : Nat) :
    value (data.drop i) = (get data i).toNat + radix * value (data.drop (i + 1)) := by
  by_cases inside : i < data.length
  · rw [drop_eq_getElem_cons inside, value_cons, get, getD_eq_getElem?_getD,
      getElem?_eq_getElem inside]
    rfl
  · have outside : data.length ≤ i := Nat.le_of_not_lt inside
    rw [drop_eq_nil_of_le outside, drop_eq_nil_of_le (Nat.le_succ_of_le outside), get,
      getD_eq_getElem?_getD, getElem?_eq_none outside]
    rfl

theorem value_drop_of_le {i : Nat} (past : data.length ≤ i) : value (data.drop i) = 0 := by
  rw [drop_eq_nil_of_le past]
  rfl

theorem addPlace_eq (lhs rhs : Block) (carry : Bool) :
    (addPlace lhs rhs carry).1.toNat + radix * (addPlace lhs rhs carry).2.toNat =
      lhs.toNat + rhs.toNat + carry.toNat := by
  have leftBound := lhs.toNat_lt
  have rightBound := rhs.toNat_lt
  have isRadix : radix = 2 ^ 32 := rfl
  unfold addPlace
  dsimp only
  generalize isTemp : (if carry = true then lhs.toNat + rhs.toNat + 1
    else lhs.toNat + rhs.toNat) = temp
  have tempEq : temp = lhs.toNat + rhs.toNat + carry.toNat := by
    cases carry with
    | false | true => exact isTemp.symm
  have carryLe : carry.toNat ≤ 1 := Bool.toNat_le carry
  split
  · rw [toNat_ofNat', Nat.mod_eq_of_lt (by omega), Bool.toNat_true]
    omega
  · rw [toNat_ofNat', Nat.mod_eq_of_lt (by omega), Bool.toNat_false]
    omega

/-- The loop of `add` computes the sum of what follows a position, and the carry. -/
theorem value_addLoop (lhs rhs : Blocks) (count i : Nat) (carry : Bool)
    (left : lhs.length ≤ i + count) (right : rhs.length ≤ i + count) :
    value (addLoop lhs rhs count i carry) =
      value (lhs.drop i) + value (rhs.drop i) + carry.toNat := by
  induction count generalizing i carry with
  | zero =>
    rw [Nat.add_zero] at left right
    rw [value_drop_of_le left, value_drop_of_le right]
    cases carry with
    | false | true => rfl
  | succ _ ih =>
    have place := addPlace_eq (get lhs i) (get rhs i) carry
    have later := ih (i + 1) (addPlace (get lhs i) (get rhs i) carry).2 (by omega) (by omega)
    rw [addLoop, value_cons, later, value_drop lhs i, value_drop rhs i, Nat.mul_add, Nat.mul_add]
    omega

variable {addend1 addend2 : Blocks}

theorem value_add (normal1 : Normal addend1) (normal2 : Normal addend2) :
    value (add addend1 addend2) = value addend1 + value addend2 := by
  unfold add
  split
  · rename_i zero
    rw [normal1.isZero_iff.mp zero, Nat.zero_add]
  · split
    · rename_i zero
      rw [normal2.isZero_iff.mp zero, Nat.add_zero]
    · rw [value_normalize, value_addLoop _ _ _ 0 false (by omega) (by omega)]
      rfl

theorem normal_add (normal1 : Normal addend1)
    (normal2 : Normal addend2) : Normal (add addend1 addend2) := by
  unfold add
  split
  · exact normal2
  · split
    · exact normal1
    · exact normal_normalize _

theorem subtractPlace_eq (lhs rhs : Block) (borrow : Bool) :
    (subtractPlace lhs rhs borrow).1.toNat + rhs.toNat + borrow.toNat =
      lhs.toNat + radix * (subtractPlace lhs rhs borrow).2.toNat := by
  have leftBound := lhs.toNat_lt
  have rightBound := rhs.toNat_lt
  have isRadix : radix = 2 ^ 32 := rfl
  unfold subtractPlace
  dsimp only
  generalize isTemp : (if borrow = true then lhs.toUInt64 - rhs.toUInt64 - 1
    else lhs.toUInt64 - rhs.toUInt64) = temp
  -- The difference wraps around at 64 bits.
  have tempEq : temp.toNat = (2 ^ 64 + lhs.toNat - rhs.toNat - borrow.toNat) % 2 ^ 64 := by
    cases borrow with
    | false =>
      rw [← isTemp, if_neg Bool.false_ne_true, UInt64.toNat_sub, toNat_toUInt64,
        toNat_toUInt64, Bool.toNat_false]
      omega
    | true =>
      rw [← isTemp, if_pos rfl, UInt64.toNat_sub, UInt64.toNat_sub, toNat_toUInt64,
        toNat_toUInt64, Bool.toNat_true]
      have one : (1 : UInt64).toNat = 1 := rfl
      omega
  have borrowLe : borrow.toNat ≤ 1 := Bool.toNat_le borrow
  split
  · rename_i wrapped
    have size : (UInt64.ofNat radix).toNat = radix := rfl
    rw [UInt64.toNat_toUInt32, UInt64.toNat_add, size, Bool.toNat_true]
    omega
  · rename_i fits
    rw [UInt64.toNat_toUInt32, Bool.toNat_false]
    omega

/-- The loop of `subtract` computes the difference of what follows a position, as
long as there is no borrow left. -/
theorem value_subtractLoop (lhs rhs : Blocks) (count i : Nat) (borrow : Bool)
    (left : lhs.length ≤ i + count) (right : rhs.length ≤ i + count)
    (ordered : value (rhs.drop i) + borrow.toNat ≤ value (lhs.drop i)) :
    value (subtractLoop lhs rhs count i borrow) + value (rhs.drop i) + borrow.toNat =
      value (lhs.drop i) := by
  induction count generalizing i borrow with
  | zero =>
    rw [Nat.add_zero] at left right
    rw [value_drop_of_le left, value_drop_of_le right] at ordered ⊢
    rw [subtractLoop, value_nil]
    omega
  | succ _ ih =>
    have place := subtractPlace_eq (get lhs i) (get rhs i) borrow
    have isRadix : radix = 2 ^ 32 := rfl
    rw [value_drop lhs i, value_drop rhs i] at ordered
    generalize isPlace : subtractPlace (get lhs i) (get rhs i) borrow = result at place
    obtain ⟨block, next⟩ := result
    dsimp only at place
    have later := ih (i + 1) next (by omega) (by omega) (by
      generalize value (drop (i + 1) lhs) = high at ordered
      generalize value (drop (i + 1) rhs) = high' at ordered
      have blockBound := block.toNat_lt
      by_contra above
      have scaled : radix * (high + 1) ≤ radix * (high' + next.toNat) :=
        Nat.mul_le_mul_left _ (by omega)
      rw [Nat.mul_add, Nat.mul_add, Nat.mul_one] at scaled
      omega)
    rw [subtractLoop, isPlace, value_cons, value_drop lhs i, value_drop rhs i, ← later,
      Nat.mul_add, Nat.mul_add]
    omega

variable {minuend subtrahend : Blocks}

theorem value_subtract (normal : Normal minuend)
    (normal' : Normal subtrahend) (ordered : value subtrahend ≤ value minuend) :
    value (subtract minuend subtrahend) = value minuend - value subtrahend := by
  unfold subtract
  split
  · rename_i zero
    rw [normal'.isZero_iff.mp zero, Nat.sub_zero]
  · rw [if_neg, if_neg]
    · have looped := value_subtractLoop minuend subtrahend (max minuend.length subtrahend.length) 0
        false (by omega) (by omega) (by simpa using ordered)
      rw [drop_zero, drop_zero, Bool.toNat_false, Nat.add_zero] at looped
      rw [value_normalize]
      omega
    · rw [compare_eq normal normal']
      have pos : (0 : Int) ≤ value minuend - value subtrahend := by omega
      exact Int.not_lt.mpr (Int.sign_nonneg_iff.mpr pos)
    · intro shorter
      have less := normal'.lt_of_length shorter
      omega

theorem normal_subtract (normal : Normal minuend) : Normal (subtract minuend subtrahend) := by
  unfold subtract
  split
  · exact normal
  · split
    · exact normal_nil
    · split
      · exact normal_nil
      · exact normal_normalize _

end NtfCore.Ntsa.AbstractIntegerRepresentation
