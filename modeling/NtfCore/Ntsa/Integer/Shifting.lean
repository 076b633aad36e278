import NtfCore.Ntsa.Integer.Places

/-!
Contract: the shifts of a magnitude that `divide` makes before and after its loop.

Owns: how many bits `countLeadingZeroes` counts, and the numbers that the shifted blocks stand for.
-/

namespace NtfCore.Ntsa.AbstractIntegerRepresentation

open UInt32

theorem countLoop_found (value : Block) (bits : Nat) : countLoop value bits true = 0 := by
  induction bits with
  | zero => rfl
  | succ _ ih =>
    rw [countLoop, Bool.true_or, ih]
    rfl

/-- The most significant bit is as far from the top as the count says. -/
theorem countLoop_bounds {value : Block} {bits : Nat} (ne : 0 < value.toNat)
    (below : value.toNat < 2 ^ bits) :
    countLoop value bits false < bits ∧ 2 ^ (bits - 1 - countLoop value bits false) ≤ value.toNat ∧
      value.toNat < 2 ^ (bits - countLoop value bits false) := by
  induction bits with
  | zero => omega
  | succ bits ih =>
    rw [countLoop, Bool.false_or]
    by_cases isSet : value.toNat.testBit bits = true
    · rw [isSet, countLoop_found]
      exact ⟨Nat.succ_pos _, Nat.ge_two_pow_of_testBit isSet, below⟩
    · have clear : value.toNat.testBit bits = false := Bool.eq_false_iff.mpr isSet
      have shorter : value.toNat < 2 ^ bits := by
        apply Nat.lt_pow_two_of_testBit
        intro bit above
        rcases Nat.lt_or_eq_of_le above with isAbove | isBit
        · exact Nat.testBit_lt_two_pow
            (Nat.lt_of_lt_of_le below (Nat.pow_le_pow_right (by decide) isAbove))
        · rw [← isBit, clear]
      obtain ⟨inside, lower, upper⟩ := ih shorter
      rw [clear]
      have isCount : (if false = true then 0 else 1) + countLoop value bits false =
          countLoop value bits false + 1 := Nat.add_comm _ _
      have isLower : bits + 1 - 1 - (countLoop value bits false + 1) =
          bits - 1 - countLoop value bits false := by omega
      rw [isCount, isLower, Nat.add_sub_add_right]
      exact ⟨Nat.succ_lt_succ inside, lower, upper⟩

theorem countLeadingZeroes_bounds {value : Block} (ne : value ≠ 0) :
    countLeadingZeroes value < bitsPerBlock ∧
      2 ^ (bitsPerBlock - 1 - countLeadingZeroes value) ≤ value.toNat ∧
      value.toNat < 2 ^ (bitsPerBlock - countLeadingZeroes value) := by
  refine countLoop_bounds (Nat.pos_of_ne_zero fun isZero => ne ?_) value.toNat_lt
  exact UInt32.toNat_inj.mp isZero

/-! ## Shifted blocks -/

section Shifts

variable {s : Nat}

section

variable (inside : s < bitsPerBlock)
include inside

theorem radix_eq_mul : radix = 2 ^ s * 2 ^ (bitsPerBlock - s) := by
  rw [← pow_add, Nat.add_sub_of_le inside.le]
  rfl

theorem toNat_shiftLeft (place : Block) :
    (place <<< ofNat s).toNat = 2 ^ s * (place.toNat % 2 ^ (bitsPerBlock - s)) := by
  have isAmount : (ofNat s).toNat % 32 = s := by
    have small : s < 32 := inside
    rw [toNat_ofNat']
    omega
  have isRadix : 2 ^ 32 = 2 ^ s * 2 ^ (bitsPerBlock - s) := radix_eq_mul inside
  rw [UInt32.toNat_shiftLeft, isAmount, Nat.shiftLeft_eq, isRadix, Nat.mul_comm place.toNat,
    Nat.mul_mod_mul_left]

theorem toNat_shiftRight (place : Block) : (place >>> ofNat s).toNat = place.toNat / 2 ^ s := by
  have isAmount : (ofNat s).toNat % 32 = s := by
    have small : s < 32 := inside
    rw [toNat_ofNat']
    omega
  rw [UInt32.toNat_shiftRight, isAmount, Nat.shiftRight_eq_div_pow]

end

def carryOut (s : Nat) (place : Block) : Nat :=
  place.toNat / 2 ^ (bitsPerBlock - s)

theorem carryOut_lt (inside : s < bitsPerBlock) (place : Block) : carryOut s place < 2 ^ s := by
  have bound : place.toNat < radix := place.toNat_lt
  rw [radix_eq_mul inside, Nat.mul_comm] at bound
  exact Nat.div_lt_of_lt_mul bound

theorem toNat_shifted (pos : 0 < s) (inside : s < bitsPerBlock) (place below : Block) :
    ((place <<< ofNat s) ||| (below >>> ofNat (bitsPerBlock - s))).toNat +
        radix * carryOut s place = place.toNat * 2 ^ s + carryOut s below := by
  have complement : bitsPerBlock - s < bitsPerBlock := Nat.sub_lt (by decide) pos
  have incoming : (below >>> ofNat (bitsPerBlock - s)).toNat = carryOut s below :=
    toNat_shiftRight complement below
  rw [UInt32.toNat_or, toNat_shiftLeft inside, incoming,
    ← Nat.two_pow_add_eq_or_of_lt (carryOut_lt inside below)]
  have parts := Nat.mod_add_div place.toNat (2 ^ (bitsPerBlock - s))
  calc 2 ^ s * (place.toNat % 2 ^ (bitsPerBlock - s)) + carryOut s below + radix * carryOut s place
      = (place.toNat % 2 ^ (bitsPerBlock - s) +
          2 ^ (bitsPerBlock - s) * (place.toNat / 2 ^ (bitsPerBlock - s))) * 2 ^ s +
          carryOut s below := by
        rw [radix_eq_mul inside, carryOut, carryOut]
        ring
    _ = place.toNat * 2 ^ s + carryOut s below := by rw [parts]

/-- The loop sets each place up to the one it starts at, and no other. -/
theorem get_shiftLoop_of_lt (data : Blocks) {i index : Nat} (above : i < index)
    (target : Blocks) : get (shiftLoop data s i target) index = get target index := by
  induction i generalizing target with
  | zero => exact get_set_of_ne above.ne' _ _
  | succ i ih => rw [shiftLoop, ih (by omega), get_set_of_ne (by omega)]

/-- The blocks that the loop sets are those of the shifted number, less what goes out of the most
significant one. -/
theorem window_shiftLoop (pos : 0 < s) (inside : s < bitsPerBlock) (data : Blocks) (i : Nat)
    (target : Blocks) :
    window (shiftLoop data s i target) 0 (i + 1) + carryOut s (get data i) * radix ^ (i + 1) =
      window data 0 (i + 1) * 2 ^ s := by
  induction i generalizing target with
  | zero =>
    have whole := toNat_shifted pos inside (get data 0) 0
    have nothing : ((0 : Block) >>> ofNat (bitsPerBlock - s)) = 0 := zero_shiftRight
    have noCarry : carryOut s 0 = 0 := Nat.zero_div _
    rw [nothing, UInt32.or_zero, noCarry] at whole
    simp only [window, shiftLoop, Nat.add_zero, get_set_self, pow_zero, Nat.mul_one,
      Nat.zero_add, pow_one]
    rw [Nat.mul_comm (carryOut _ _), whole]
    rfl
  | succ i ih =>
    have place := toNat_shifted pos inside (get data (i + 1)) (get data i)
    have earlier := ih (set target (i + 1) ((get data (i + 1) <<< ofNat s) |||
        (get data i >>> ofNat (bitsPerBlock - s))))
    rw [shiftLoop, window_succ, Nat.zero_add, get_shiftLoop_of_lt data .refl,
      get_set_self, window_succ data, Nat.add_mul, ← earlier, Nat.zero_add,
      Nat.mul_right_comm _ _ (2 ^ s), pow_succ radix (i + 1)]
    generalize ((get data (i + 1) <<< ofNat s) |||
      (get data i >>> ofNat (bitsPerBlock - s))).toNat = shifted at place
    calc _ = window (shiftLoop data s i _) 0 (i + 1) +
          (shifted + radix * carryOut s (get data (i + 1))) * radix ^ (i + 1) := by ring
      _ = _ := by
        rw [place]
        ring

section

variable (un : Blocks) (count i : Nat) (r : Blocks)

theorem get_remainderLoop (index : Nat) :
    get (remainderLoop un s count i r) index = if i ≤ index ∧ index < i + count then
        (get un index >>> ofNat s) ||| (get un (index + 1) <<< ofNat (bitsPerBlock - s))
      else get r index := by
  induction count generalizing i r with
  | zero => rw [remainderLoop, if_neg (by omega)]
  | succ _ ih =>
    rw [remainderLoop, ih]
    by_cases isFirst : index = i
    · rw [if_neg (by omega), if_pos (by omega), isFirst, get_set_self]
    · rw [get_set_of_ne isFirst]
      exact if_congr (by omega) rfl rfl

theorem remainderLoop_length :
    (remainderLoop un s count i r).length ≤ max r.length (i + count) := by
  induction count generalizing i r with
  | zero => exact Nat.le_max_left _ _
  | succ _ ih =>
    have later := ih (i + 1) (set r i
      ((get un i >>> ofNat s) ||| (get un (i + 1) <<< ofNat (bitsPerBlock - s))))
    rw [set_length] at later
    rw [remainderLoop]
    omega

end

/-- A block shifted back and what comes into it from the one above it. -/
theorem toNat_restored (pos : 0 < s) (inside : s < bitsPerBlock) (place above : Block) :
    ((place >>> ofNat s) ||| (above <<< ofNat (bitsPerBlock - s))).toNat * 2 ^ s +
        place.toNat % 2 ^ s = place.toNat + radix * (above.toNat % 2 ^ s) := by
  have complement : bitsPerBlock - s < bitsPerBlock := Nat.sub_lt (by decide) pos
  have twice : bitsPerBlock - (bitsPerBlock - s) = s := Nat.sub_sub_self inside.le
  have small : place.toNat / 2 ^ s < 2 ^ (bitsPerBlock - s) := by
    have bound : place.toNat < radix := place.toNat_lt
    rw [radix_eq_mul inside] at bound
    exact Nat.div_lt_of_lt_mul bound
  rw [UInt32.toNat_or, toNat_shiftRight inside, toNat_shiftLeft complement, twice, Nat.or_comm,
    ← Nat.two_pow_add_eq_or_of_lt small]
  have parts := Nat.div_add_mod place.toNat (2 ^ s)
  calc (2 ^ (bitsPerBlock - s) * (above.toNat % 2 ^ s) + place.toNat / 2 ^ s) * 2 ^ s +
        place.toNat % 2 ^ s
      = 2 ^ s * (place.toNat / 2 ^ s) + place.toNat % 2 ^ s + radix * (above.toNat % 2 ^ s) := by
        rw [radix_eq_mul inside]
        ring
    _ = place.toNat + radix * (above.toNat % 2 ^ s) := by rw [parts]

/-- The blocks that the loop sets are those of the number shifted back, with what comes into the
most significant one. -/
theorem window_remainderLoop (pos : 0 < s) (inside : s < bitsPerBlock) (un : Blocks)
    {count total : Nat} (within : count ≤ total) :
    window (remainderLoop un s total 0 []) 0 count * 2 ^ s + (get un 0).toNat % 2 ^ s =
      window un 0 count + (get un count).toNat % 2 ^ s * radix ^ count := by
  induction count with
  | zero => simp [window]
  | succ count =>
    have place := toNat_restored pos inside (get un count) (get un (count + 1))
    rw [window_succ, window_succ, Nat.zero_add, get_remainderLoop, if_pos (by omega), Nat.add_mul]
    generalize ((get un count >>> ofNat s) |||
      (get un (count + 1) <<< ofNat (bitsPerBlock - s))).toNat = restored at place ⊢
    have scaled : restored * 2 ^ s * radix ^ count + (get un count).toNat % 2 ^ s * radix ^ count =
        (get un count).toNat * radix ^ count +
          radix * ((get un (count + 1)).toNat % 2 ^ s) * radix ^ count := by
      rw [← Nat.add_mul, place, Nat.add_mul]
    rw [pow_succ, Nat.mul_right_comm restored, ← Nat.mul_assoc (_ % 2 ^ s) _ radix,
      Nat.mul_right_comm _ _ radix, Nat.mul_comm (_ % 2 ^ s) radix]
    omega

end Shifts

end NtfCore.Ntsa.AbstractIntegerRepresentation
