import NtfCore.Foundation.LongDivision
import NtfCore.Ntsa.Integer.Shifting

/-!
Contract: the loop of `divide` by a divisor of several blocks.

Owns: the estimate of a digit, what a multiple of the divisor leaves when it is subtracted, what is
lost when the divisor is added back, and the quotient and the remainder after the loop.
-/

namespace NtfCore.Ntsa.AbstractIntegerRepresentation

open NtfCore.Foundation.LongDivision UInt64

section

variable (word : UInt64)

theorem toNat_arithmeticShift : (word.toInt64 >>> 32).toUInt64.toNat =
      if word.toNat < 2 ^ 63 then word.toNat / 2 ^ 32
      else 2 ^ 64 - 1 - (2 ^ 64 - 1 - word.toNat) / 2 ^ 32 := by
  have shifted : (word.toInt64 >>> 32).toUInt64.toBitVec = word.toBitVec.sshiftRight 32 := rfl
  rw [← toNat_toBitVec, shifted, BitVec.toNat_sshiftRight, BitVec.msb_eq_decide,
    Nat.shiftRight_eq_div_pow, Nat.shiftRight_eq_div_pow, toNat_toBitVec]
  by_cases negative : 2 ^ 63 ≤ word.toNat
  · rw [if_pos (by simpa using negative), if_neg (by omega)]
  · rw [if_neg (by simpa using negative), if_pos (by omega)]

theorem toInt64_neg_iff : word.toInt64 < 0 ↔ 2 ^ 63 ≤ word.toNat := by
  have signed : word.toInt64.toInt = word.toBitVec.toInt := rfl
  have bound := word.toNat_lt
  rw [Int64.lt_iff_toInt_lt, signed, BitVec.toInt_eq_toNat_cond, toNat_toBitVec, Int64.toInt_zero]
  split
  · omega
  · omega

theorem toNat_lowHalf : (word &&& (((1 : UInt64) <<< 32) - 1)).toNat = word.toNat % 2 ^ 32 := by
  have mask : (((1 : UInt64) <<< 32) - 1).toNat = 2 ^ 32 - 1 := by decide
  rw [UInt64.toNat_and, mask, Nat.and_two_pow_sub_one_eq_mod]

theorem toNat_highHalf : (word >>> 32).toNat = word.toNat / 2 ^ 32 := by
  rw [UInt64.toNat_shiftRight, Nat.shiftRight_eq_div_pow]
  rfl

end

section Estimate

variable {top next behind head qhat rhat : Nat}

/-- The loop goes on as long as the estimate exceeds the digit that three blocks suggest. -/
theorem exceeds_iff (leading : 0 < top) (split : qhat * top + rhat = head) :
    (qhat ≥ radix ∨ qhat * next > radix * rhat + behind) ↔
      min ((head * radix + behind) / (top * radix + next)) (radix - 1) < qhat := by
  have isRadix : radix = radix - 1 + 1 := rfl
  have ne : 0 < top * radix + next := Nat.add_pos_left (Nat.mul_pos leading (by decide)) next
  have crossed : qhat * (top * radix + next) + radix * rhat = head * radix + qhat * next := by
    rw [← split]
    ring
  rw [min_lt_iff, Nat.div_lt_iff_lt_mul ne]
  omega

/-- The loop stops at the digit that three blocks suggest. -/
theorem estimateLoop_eq (leading : 0 < top) (nextBound : next < radix)
    (below : head < (top + 1) * radix) (split : qhat * top + rhat = head)
    (enough : min ((head * radix + behind) / (top * radix + next)) (radix - 1) ≤ qhat) :
    (estimateLoop top next behind qhat rhat).1 =
      min ((head * radix + behind) / (top * radix + next)) (radix - 1) := by
  induction qhat, rhat using estimateLoop.induct top next behind with
  | case1 qhat rhat exceeds continues ih =>
    have more := (exceeds_iff leading split).mp exceeds
    have isSucc : qhat = qhat - 1 + 1 := (Nat.sub_add_cancel (Nat.one_le_of_lt more)).symm
    rw [estimateLoop, if_pos exceeds, if_pos continues]
    refine ih ?_ (Nat.le_sub_one_of_lt more)
    rw [isSucc, Nat.add_mul, Nat.one_mul] at split
    omega
  | case2 qhat rhat exceeds stops =>
    have more := (exceeds_iff leading split).mp exceeds
    have isSucc : qhat = qhat - 1 + 1 := (Nat.sub_add_cancel (Nat.one_le_of_lt more)).symm
    have corrected : (qhat - 1) * top + (rhat + top) = head := by
      rw [isSucc, Nat.add_mul, Nat.one_mul] at split
      omega
    have enoughRest : radix ≤ rhat + top := by omega
    rw [estimateLoop, if_pos exceeds, if_neg stops]
    refine Nat.le_antisymm (Nat.not_lt.mp fun stillMore => ?_) (Nat.le_sub_one_of_lt more)
    -- What is left is too great for the estimate to be corrected once more.
    rcases (exceeds_iff leading corrected).mpr stillMore with tooGreat | _
    · have whole : radix * top ≤ (qhat - 1) * top := Nat.mul_le_mul_right _ tooGreat
      rw [Nat.add_mul, Nat.one_mul, Nat.mul_comm top] at below
      omega
    · by_cases fits : qhat - 1 < radix
      · have small : (qhat - 1) * next < radix * radix := Nat.mul_lt_mul'' fits nextBound
        have large : radix * radix ≤ radix * (rhat + top) := Nat.mul_le_mul_left _ enoughRest
        omega
      · have whole : radix * top ≤ (qhat - 1) * top := Nat.mul_le_mul_right _ (Nat.not_lt.mp fits)
        rw [Nat.add_mul, Nat.one_mul, Nat.mul_comm top] at below
        omega
  | case3 _ _ fits =>
    rw [estimateLoop, if_neg fits]
    exact Nat.le_antisymm (Nat.not_lt.mp fun more => fits ((exceeds_iff leading split).mpr more))
      enough

end Estimate

variable {qhat k : UInt64}

/-- One place of the difference. What is taken from the next place holds both halves. -/
theorem subtracted_place (small : qhat.toNat < radix) (borrow : k.toNat < radix) (u v : Block) :
    let p : UInt64 := qhat * v.toUInt64
    let t : UInt64 := u.toUInt64 - k - (p &&& (((1 : UInt64) <<< 32) - 1))
    let next : UInt64 := (p >>> 32) - (t.toInt64 >>> 32).toUInt64
    next.toNat < radix ∧
      t.toUInt32.toNat + k.toNat + qhat.toNat * v.toNat = u.toNat + radix * next.toNat := by
  intro p t next
  have isRadix : radix = 2 ^ 32 := rfl
  have uBound := u.toNat_lt
  have vBound := v.toNat_lt
  have product : qhat.toNat * v.toNat ≤ (2 ^ 32 - 1) * (2 ^ 32 - 1) :=
    Nat.mul_le_mul (by omega) (by omega)
  have isProduct : p.toNat = qhat.toNat * v.toNat := by
    rw [UInt64.toNat_mul, UInt32.toNat_toUInt64]
    exact Nat.mod_eq_of_lt (by omega)
  have isDifference : t.toNat = (2 ^ 65 + u.toNat - k.toNat - p.toNat % 2 ^ 32) % 2 ^ 64 := by
    rw [UInt64.toNat_sub, UInt64.toNat_sub, toNat_lowHalf, UInt32.toNat_toUInt64]
    omega
  have isNext : next.toNat = (2 ^ 64 + p.toNat / 2 ^ 32 -
      (t.toInt64 >>> 32).toUInt64.toNat) % 2 ^ 64 := by
    have bound := (t.toInt64 >>> 32).toUInt64.toNat_lt
    rw [UInt64.toNat_sub, toNat_highHalf]
    omega
  have isBlock : t.toUInt32.toNat = t.toNat % 2 ^ 32 := toNat_toUInt32 t
  rw [toNat_arithmeticShift] at isNext
  rw [isRadix, isBlock, isNext, ← isProduct]
  rw [← isProduct] at product
  generalize t.toNat = difference at *
  split
  · omega
  · omega

theorem get_subtractRow_of_outside (vn : Blocks) (qhat : UInt64) (j : Nat) {count i index : Nat}
    (outside : index < i + j ∨ i + j + count ≤ index) (k : UInt64) (un : Blocks) :
    get (subtractRow vn qhat j count i k un).2 index = get un index := by
  induction count generalizing i k un with
  | zero => rfl
  | succ _ ih =>
    rw [subtractRow, ih (by omega)]
    exact get_set_of_ne (by omega) _ _

/-- The difference, with what is still to be taken from the place behind it. -/
theorem window_subtractRow (vn : Blocks) (small : qhat.toNat < radix)
    (j count i : Nat) (borrow : k.toNat < radix) (un : Blocks) :
    (subtractRow vn qhat j count i k un).1.toNat < radix ∧
      window (subtractRow vn qhat j count i k un).2 (i + j) count + k.toNat +
          qhat.toNat * window vn i count =
        window un (i + j) count + radix ^ count * (subtractRow vn qhat j count i k un).1.toNat := by
  induction count generalizing i k un with
  | zero =>
    refine ⟨borrow, ?_⟩
    simp [window, subtractRow]
  | succ count ih =>
    obtain ⟨nextBound, place⟩ := subtracted_place small borrow (get un (i + j)) (get vn i)
    rw [subtractRow]
    generalize (get un (i + j)).toUInt64 - k -
      (qhat * (get vn i).toUInt64 &&& (((1 : UInt64) <<< 32) - 1)) = t at place nextBound ⊢
    generalize ((qhat * (get vn i).toUInt64) >>> 32) - (t.toInt64 >>> 32).toUInt64 = next
      at place nextBound ⊢
    obtain ⟨bound, rest⟩ := ih (i + 1) nextBound (set un (i + j) t.toUInt32)
    refine ⟨bound, ?_⟩
    have first : get (subtractRow vn qhat j count (i + 1) next (set un (i + j) t.toUInt32)).2
        (i + j) = t.toUInt32 := by
      rw [get_subtractRow_of_outside vn qhat j (.inl (by omega)), get_set_self]
    have behind : window (set un (i + j) t.toUInt32) (i + j + 1) count =
        window un (i + j + 1) count := window_set_of_outside (.inl (by omega)) _
    rw [Nat.add_right_comm i 1 j, behind] at rest
    rw [window_cons, window_cons un, window_cons vn, first, pow_succ]
    generalize (subtractRow vn qhat j count (i + 1) next (set un (i + j) t.toUInt32)) = row at rest
    calc _ = t.toUInt32.toNat + k.toNat + qhat.toNat * (get vn i).toNat +
          radix * (window row.2 (i + j + 1) count + qhat.toNat * window vn (i + 1) count) := by
          ring
      _ = (get un (i + j)).toNat + radix * (window row.2 (i + j + 1) count + next.toNat +
          qhat.toNat * window vn (i + 1) count) := by
          rw [place]
          ring
      _ = _ := by
          rw [rest]
          ring

theorem addRow_place (sum : Block) :
    (sum.toUInt64 + 0).toUInt32 = sum ∧ ((sum.toUInt64 + 0).toInt64 >>> 32).toUInt64 = 0 := by
  have bound := sum.toNat_lt
  rw [UInt64.add_zero]
  refine ⟨UInt32.toUInt32_toUInt64 sum, UInt64.toNat_inj.mp ?_⟩
  rw [toNat_arithmeticShift, UInt32.toNat_toUInt64, if_pos (by omega)]
  exact Nat.div_eq_of_lt bound

/-- Blocks are added to blocks, and nothing goes from one place to the next. -/
theorem addRow_eq (vn : Blocks) (j count i : Nat) (un : Blocks) :
    (addRow vn j count i 0 un).1 = 0 ∧ ∀ index, get (addRow vn j count i 0 un).2 index =
      if i + j ≤ index ∧ index < i + j + count then get un index + get vn (index - j)
      else get un index := by
  induction count generalizing i un with
  | zero => exact ⟨rfl, fun index => by rw [addRow, if_neg (by omega)]⟩
  | succ _ ih =>
    generalize isSum : get un (i + j) + get vn i = sum
    obtain ⟨isBlock, noCarry⟩ := addRow_place sum
    obtain ⟨carry, places⟩ := ih (i + 1) (set un (i + j) sum)
    rw [addRow, isSum, noCarry, isBlock]
    refine ⟨carry, fun index => ?_⟩
    rw [places]
    by_cases isFirst : index = i + j
    · rw [if_neg (by omega), if_pos (by omega), isFirst, get_set_self, Nat.add_sub_cancel, isSum]
    · rw [get_set_of_ne isFirst]
      exact if_congr (by omega) rfl rfl

theorem window_sum {data left right : Blocks} {start count : Nat}
    (sums : ∀ i < count, get data (start + i) = get left (start + i) + get right i) :
    window data start count + radix * lostCarries radix
        (fun i => (get left (start + i)).toNat) (fun i => (get right i).toNat) count =
      window left start count + window right 0 count := by
  induction count with
  | zero => rfl
  | succ count ih =>
    have earlier := ih fun i below => sums i (Nat.lt_succ_of_lt below)
    have leftBound := (get left (start + count)).toNat_lt
    have rightBound := (get right count).toNat_lt
    have isRadix : radix = 2 ^ 32 := rfl
    have place : (get data (start + count)).toNat + (if radix ≤ (get left (start + count)).toNat +
        (get right count).toNat then radix else 0) =
        (get left (start + count)).toNat + (get right count).toNat := by
      rw [sums count .refl, UInt32.toNat_add]
      split
      · omega
      · omega
    rw [window_succ, window_succ, window_succ, lostCarries_succ, Nat.zero_add, Nat.mul_add,
      mul_ite, Nat.mul_zero]
    have scaled := congrArg (· * radix ^ count) place
    simp only [Nat.add_mul, ite_mul, Nat.zero_mul] at scaled
    omega

/-- The estimate of a digit, of a partial dividend and a divisor of `n` blocks. -/
def estimatedDigit (n divisor dividend : Nat) : Nat :=
  estimate radix (radix ^ (n - 2)) divisor dividend

def Carries (n divisor dividend i : Nat) : Prop :=
  radix ≤ (radix ^ n + dividend - estimatedDigit n divisor dividend * divisor) / radix ^ i % radix +
    divisor / radix ^ i % radix

instance (n divisor dividend i : Nat) : Decidable (Carries n divisor dividend i) :=
  inferInstanceAs (Decidable (_ ≤ _))

def lost (n divisor dividend : Nat) : Nat :=
  if estimatedDigit n divisor dividend * divisor ≤ dividend then 0
  else lostCarries radix
    (fun i => (radix ^ n + dividend - estimatedDigit n divisor dividend * divisor) /
      radix ^ i % radix)
    (fun i => divisor / radix ^ i % radix) (n - 1)

theorem lost_eq_zero_iff (n divisor dividend : Nat) : lost n divisor dividend = 0 ↔
      estimatedDigit n divisor dividend * divisor ≤ dividend ∨
        ∀ i < n - 1, ¬Carries n divisor dividend i := by
  unfold lost
  split
  · rename_i fits
    exact ⟨fun _ => .inl fits, fun _ => rfl⟩
  · rename_i exceeds
    rw [lostCarries_eq_zero_iff (by decide), or_iff_right exceeds]
    exact forall₂_congr fun i _ => Nat.not_le.symm

/-! ## The leading blocks -/

section

variable (data : Blocks) (start : Nat) {n : Nat} (long : 2 ≤ n)
include long

theorem window_two : window data start n = window data start (n - 2) + radix ^ (n - 2) *
      ((get data (start + n - 1)).toNat * radix + (get data (start + n - 2)).toNat) := by
  obtain ⟨rest, rfl⟩ : ∃ rest, n = rest + 2 := ⟨n - 2, by omega⟩
  have last : start + (rest + 2) - 1 = start + rest + 1 := by omega
  have next : start + (rest + 2) - 2 = start + rest := by omega
  rw [Nat.add_sub_cancel, last, next, window_succ, window_succ, ← Nat.add_assoc, pow_succ]
  ring

theorem window_three : window data start (n + 1) = window data start (n - 2) + radix ^ (n - 2) *
      (((get data (start + n)).toNat * radix + (get data (start + n - 1)).toNat) * radix +
        (get data (start + n - 2)).toNat) := by
  have weight : radix ^ n = radix ^ (n - 2) * radix ^ 2 := by
    rw [← pow_add, Nat.sub_add_cancel long]
  rw [window_succ, window_two data start long, weight]
  ring

end

/-- The leading blocks of a number are what is left when the others are cut off. -/
theorem leading_of_split {data : Blocks} {start count high whole : Nat}
    (split : whole = window data start count + radix ^ count * high) :
    whole / radix ^ count = high := by
  rw [split, Nat.add_mul_div_left _ _ (Nat.pow_pos (by decide)),
    Nat.div_eq_of_lt (window_lt data start count), Nat.zero_add]

section Step

variable {vn un : Blocks} {n j : Nat}

/-- The two leading blocks of a partial dividend are not above that of the divisor. -/
theorem head_lt (long : 2 ≤ n) (below : window un j (n + 1) < window vn 0 n * radix) :
    (get un (j + n)).toNat * radix + (get un (j + n - 1)).toNat <
      ((get vn (n - 1)).toNat + 1) * radix := by
  have dividendParts := window_three un j long
  have divisorParts := window_two vn 0 long
  have nextBound : (get vn (n - 2)).toNat < radix := (get vn (n - 2)).toNat_lt
  rw [Nat.zero_add] at divisorParts
  generalize (get un (j + n)).toNat * radix + (get un (j + n - 1)).toNat = head at dividendParts ⊢
  generalize (get vn (n - 1)).toNat = top at divisorParts ⊢
  have divisorBound : window vn 0 n ≤ radix ^ (n - 2) * ((top + 1) * radix) := by
    have low := window_lt vn 0 (n - 2)
    have high : radix ^ (n - 2) * (top * radix + (get vn (n - 2)).toNat + 1) ≤
        radix ^ (n - 2) * ((top + 1) * radix) :=
      Nat.mul_le_mul_left _ (by rw [Nat.add_mul]; omega)
    rw [Nat.mul_add, Nat.mul_one] at high
    omega
  have dividendBound : radix ^ (n - 2) * (head * radix) ≤ window un j (n + 1) := by
    rw [dividendParts, Nat.mul_add]
    omega
  have scaled : radix ^ (n - 2) * radix * head < radix ^ (n - 2) * radix * ((top + 1) * radix) :=
    calc radix ^ (n - 2) * radix * head = radix ^ (n - 2) * (head * radix) := by ring
      _ ≤ window un j (n + 1) := dividendBound
      _ < window vn 0 n * radix := below
      _ ≤ radix ^ (n - 2) * ((top + 1) * radix) * radix := Nat.mul_le_mul_right _ divisorBound
      _ = radix ^ (n - 2) * radix * ((top + 1) * radix) := by ring
  exact Nat.lt_of_mul_lt_mul_left scaled

/-- Two blocks do not suggest less than three. -/
theorem suggested_le {top next head behind : Nat} (leading : 0 < top) (small : behind < radix) :
    (head * radix + behind) / (top * radix + next) ≤ head / top := by
  have fits := Nat.div_mul_le_self (head * radix + behind) (top * radix + next)
  rw [Nat.le_div_iff_mul_le leading]
  generalize (head * radix + behind) / (top * radix + next) = suggested at fits ⊢
  have scaled : suggested * top * radix < (head + 1) * radix := by
    rw [Nat.mul_add, ← Nat.mul_assoc] at fits
    rw [Nat.add_mul]
    omega
  exact Nat.le_of_lt_succ (Nat.lt_of_mul_lt_mul_right scaled)

theorem estimateLoop_digit (long : 2 ≤ n) (leading : 0 < (get vn (n - 1)).toNat)
    (below : window un j (n + 1) < window vn 0 n * radix) : let top := (get vn (n - 1)).toNat
    let head := (get un (j + n)).toNat * radix + (get un (j + n - 1)).toNat
    (estimateLoop top (get vn (n - 2)).toNat (get un (j + n - 2)).toNat (head / top)
      (head - head / top * top)).1 = estimatedDigit n (window vn 0 n) (window un j (n + 1)) := by
  intro top head
  have divisorParts := window_two vn 0 long
  rw [Nat.zero_add] at divisorParts
  unfold estimatedDigit estimate
  rw [leading_of_split divisorParts, leading_of_split (window_three un j long)]
  have split : head / top * top + (head - head / top * top) = head :=
    Nat.add_sub_of_le (Nat.div_mul_le_self _ _)
  have enough := @suggested_le _ (get vn (n - 2)).toNat head _ leading (get un (j + n - 2)).toNat_lt
  exact estimateLoop_eq leading (get vn (n - 2)).toNat_lt (head_lt long below) split
    (Nat.le_trans (Nat.min_le_left _ _) enough)

/-- The blocks below the leading one of the divisor do not make it up. -/
theorem leading_le (long : 2 ≤ n) (leading : 0 < (get vn (n - 1)).toNat) :
    radix * radix ^ (n - 2) ≤ window vn 0 n := by
  have parts := window_two vn 0 long
  rw [Nat.zero_add] at parts
  have atLeast : 1 * radix ≤ (get vn (n - 1)).toNat * radix := Nat.mul_le_mul_right _ leading
  have scaled : radix ^ (n - 2) * radix ≤ radix ^ (n - 2) *
      ((get vn (n - 1)).toNat * radix + (get vn (n - 2)).toNat) :=
    Nat.mul_le_mul_left _ (by omega)
  rw [Nat.mul_comm radix]
  omega

structure Subtracted (vn un : Blocks) (n j : Nat) (k : UInt64) (un' : Blocks) : Prop where
  frame : ∀ index, index < j ∨ j + n ≤ index -> get un' index = get un index
  fits : estimatedDigit n (window vn 0 n) (window un j (n + 1)) * window vn 0 n ≤
      window un j (n + 1) ->
    (get un (j + n)).toNat = k.toNat ∧
      window un' j n = window un j (n + 1) % window vn 0 n ∧
      estimatedDigit n (window vn 0 n) (window un j (n + 1)) =
        window un j (n + 1) / window vn 0 n
  exceeds : window un j (n + 1) <
      estimatedDigit n (window vn 0 n) (window un j (n + 1)) * window vn 0 n ->
    (get un (j + n)).toNat + 1 = k.toNat ∧
      window un' j n + estimatedDigit n (window vn 0 n) (window un j (n + 1)) * window vn 0 n =
        radix ^ n + window un j (n + 1) ∧
      estimatedDigit n (window vn 0 n) (window un j (n + 1)) =
        window un j (n + 1) / window vn 0 n + 1

theorem subtracted (long : 2 ≤ n) (leading : 0 < (get vn (n - 1)).toNat)
    (below : window un j (n + 1) < window vn 0 n * radix) {qhat : UInt64}
    (isEstimate : qhat.toNat = estimatedDigit n (window vn 0 n) (window un j (n + 1))) :
    (subtractRow vn qhat j n 0 0 un).1.toNat < radix ∧
      Subtracted vn un n j (subtractRow vn qhat j n 0 0 un).1
        (subtractRow vn qhat j n 0 0 un).2 := by
  have counts : 0 < radix ^ (n - 2) := Nat.pow_pos (by decide)
  have small : qhat.toNat < radix := isEstimate ▸ estimate_lt (by decide)
  obtain ⟨borrow, row⟩ := window_subtractRow vn small j n 0 (k := 0) (by decide) un
  have remainderBound := window_lt (subtractRow vn qhat j n 0 0 un).2 j n
  have divisorBound := window_lt vn 0 n
  have whole := window_succ un j n
  have enough := leading_le long leading
  have excess := @estimate_mul_lt radix (radix ^ (n - 2)) (window vn 0 n) (window un j (n + 1))
    (by decide) counts
  have ne : 0 < window vn 0 n := Nat.lt_of_lt_of_le (Nat.mul_pos (by decide) counts) enough
  have weightLe : radix ^ (n - 2) ≤ window vn 0 n :=
    Nat.le_trans (Nat.le_mul_of_pos_left _ (by decide)) enough
  have isDigit := @estimate_of_le radix _ _ _ counts weightLe below
  have isDigitSucc := @estimate_of_lt radix _ _ _ (by decide) counts enough below
  rw [Nat.zero_add, isEstimate, UInt64.toNat_zero, Nat.add_zero] at row
  refine ⟨borrow, fun _ _ => get_subtractRow_of_outside vn qhat j (by omega) 0 un,
    fun fits => ?_, fun exceeds => ?_⟩
  · have digit := isDigit fits
    have isRest := Nat.div_add_mod' (window un j (n + 1)) (window vn 0 n)
    have restBound := Nat.mod_lt (window un j (n + 1)) ne
    change estimatedDigit n _ _ = _ at digit
    rw [← digit] at isRest
    have same : (get un (j + n)).toNat = (subtractRow vn qhat j n 0 0 un).1.toNat := by
      rcases Nat.lt_trichotomy (get un (j + n)).toNat
        (subtractRow vn qhat j n 0 0 un).1.toNat with less | same | more
      · have scaled := Nat.mul_le_mul_left (radix ^ n) less
        rw [Nat.mul_succ, Nat.mul_comm _ (get un (j + n)).toNat] at scaled
        omega
      · exact same
      · have scaled := Nat.mul_le_mul_left (radix ^ n) more
        rw [Nat.mul_succ, Nat.mul_comm _ (get un (j + n)).toNat] at scaled
        omega
    rw [← same, Nat.mul_comm (radix ^ n)] at row
    exact ⟨same, by omega, digit⟩
  · have next : (get un (j + n)).toNat + 1 = (subtractRow vn qhat j n 0 0 un).1.toNat := by
      change estimatedDigit n _ _ * _ < _ at excess
      rcases Nat.lt_trichotomy ((get un (j + n)).toNat + 1)
        (subtractRow vn qhat j n 0 0 un).1.toNat with less | same | more
      · have scaled := Nat.mul_le_mul_left (radix ^ n) less
        rw [Nat.mul_succ, Nat.mul_succ, Nat.mul_comm _ (get un (j + n)).toNat] at scaled
        omega
      · exact same
      · have scaled := Nat.mul_le_mul_left (radix ^ n) (Nat.le_of_lt_succ more)
        rw [Nat.mul_comm _ (get un (j + n)).toNat] at scaled
        omega
    rw [← next, Nat.mul_succ, Nat.mul_comm (radix ^ n) (get un (j + n)).toNat] at row
    exact ⟨next, by omega, isDigitSucc exceeds⟩

/-- The sum when the divisor is added back to a difference that is short by little: only what the
places below the most significant one carry is lost. -/
theorem added_back (long : 2 ≤ n) (leading : 0 < (get vn (n - 1)).toNat)
    (near : radix ^ n - radix ^ (n - 1) ≤ window un j n) :
    window (addRow vn j n 0 0 un).2 j n + radix * lostCarries radix
        (fun i => window un j n / radix ^ i % radix)
        (fun i => window vn 0 n / radix ^ i % radix) (n - 1) + radix ^ n =
      window un j n + window vn 0 n := by
  have places := (addRow_eq vn j n 0 un).2
  have sum := @window_sum (addRow vn j n 0 0 un).2 un vn j n fun i below => by
      rw [places, if_pos (by omega), Nat.add_sub_cancel_left]
  have digits : lostCarries radix (fun i => (get un (j + i)).toNat) (fun i => (get vn i).toNat) n =
      lostCarries radix (fun i => window un j n / radix ^ i % radix)
        (fun i => window vn 0 n / radix ^ i % radix) n := by
    refine lostCarries_congr (fun i below => (window_digit un j below).symm) fun i below => ?_
    have digit := window_digit vn 0 below
    rw [Nat.zero_add] at digit
    exact digit.symm
  -- The most significant place carries, since the difference is as great as it can be there.
  have top : radix - 1 ≤ window un j n / radix ^ (n - 1) % radix := by
    rw [window_digit un j (by omega)]
    have low := window_lt un j (n - 1)
    have whole := window_succ un j (n - 1)
    rw [Nat.sub_add_cancel (by omega)] at whole
    have weight : radix ^ n = radix ^ (n - 1) * radix := by
      rw [← pow_succ, Nat.sub_add_cancel (by omega)]
    by_contra less
    have scaled : ((get un (j + (n - 1))).toNat + 1) * radix ^ (n - 1) ≤
        (radix - 1) * radix ^ (n - 1) := Nat.mul_le_mul_right _ (by omega)
    rw [Nat.sub_mul, Nat.one_mul, Nat.add_mul, Nat.one_mul, Nat.mul_comm radix, ← weight] at scaled
    omega
  have divisorTop : 0 < window vn 0 n / radix ^ (n - 1) % radix := by
    rw [window_digit vn 0 (by omega), Nat.zero_add]
    exact leading
  have last : lostCarries radix (fun i => window un j n / radix ^ i % radix)
      (fun i => window vn 0 n / radix ^ i % radix) n =
      lostCarries radix (fun i => window un j n / radix ^ i % radix)
        (fun i => window vn 0 n / radix ^ i % radix) (n - 1) + radix ^ (n - 1) := by
    have step := lostCarries_succ radix (fun i => window un j n / radix ^ i % radix)
      (fun i => window vn 0 n / radix ^ i % radix) (n - 1)
    rw [Nat.sub_add_cancel (Nat.le_of_succ_le long)] at step
    rw [step, if_pos (by omega)]
  rw [digits, last, Nat.mul_add, Nat.mul_comm radix (radix ^ (n - 1)), ← pow_succ,
    Nat.sub_add_cancel (Nat.le_of_succ_le long), ← Nat.add_assoc] at sum
  exact sum

structure DividedDigit (vn un q : Blocks) (n j : Nat) (result : Blocks × Blocks) : Prop where
  frame : ∀ index, index < j ∨ j + n < index -> get result.1 index = get un index
  rest : window result.1 j n + radix * lost n (window vn 0 n) (window un j (n + 1)) =
    window un j (n + 1) % window vn 0 n
  top : (get result.1 (j + n)).toNat =
    if estimatedDigit n (window vn 0 n) (window un j (n + 1)) * window vn 0 n ≤
      window un j (n + 1) then 0 else radix - 1
  digit : ∀ index, (get result.2 index).toNat =
    if index = j then window un j (n + 1) / window vn 0 n else (get q index).toNat

theorem divideStep_divided (long : 2 ≤ n) (leading : 0 < (get vn (n - 1)).toNat)
    (below : window un j (n + 1) < window vn 0 n * radix) (q : Blocks) :
    DividedDigit vn un q n j (divideStep vn n j un q) := by
  have estimated := estimateLoop_digit long leading below
  have digitBound : estimatedDigit n (window vn 0 n) (window un j (n + 1)) < radix :=
    estimate_lt (by decide)
  have isRadix : radix = 2 ^ 32 := rfl
  unfold divideStep
  dsimp only at estimated ⊢
  rw [estimated]
  have isEstimate : (ofNat (estimatedDigit n (window vn 0 n) (window un j (n + 1)))).toNat =
      estimatedDigit n (window vn 0 n) (window un j (n + 1)) := by
    rw [toNat_ofNat']
    omega
  obtain ⟨borrow, left⟩ := subtracted long leading below isEstimate
  generalize subtractRow vn (ofNat (estimatedDigit n (window vn 0 n)
    (window un j (n + 1)))) j n 0 0 un = row at borrow left ⊢
  have isTop : get row.2 (j + n) = get un (j + n) := left.frame _ (.inr (le_refl _))
  have isDifference : ((get row.2 (j + n)).toUInt64 - row.1).toNat =
      (2 ^ 64 - row.1.toNat + (get un (j + n)).toNat) % 2 ^ 64 := by
    rw [UInt64.toNat_sub, UInt32.toNat_toUInt64, isTop]
  have isBlock : ((get row.2 (j + n)).toUInt64 - row.1).toUInt32.toNat =
      ((get row.2 (j + n)).toUInt64 - row.1).toNat % 2 ^ 32 := toNat_toUInt32 _
  by_cases exceeds : window un j (n + 1) <
      estimatedDigit n (window vn 0 n) (window un j (n + 1)) * window vn 0 n
  · obtain ⟨_, short, digit⟩ := left.exceeds exceeds
    have isNegative : ((get row.2 (j + n)).toUInt64 - row.1).toInt64 < 0 := by
      rw [toInt64_neg_iff, isDifference]
      omega
    have isLast : ((get row.2 (j + n)).toUInt64 - row.1).toUInt32.toNat = radix - 1 := by omega
    rw [if_pos isNegative]
    generalize ((get row.2 (j + n)).toUInt64 - row.1).toUInt32 = last at isLast ⊢
    obtain ⟨carry, places⟩ := addRow_eq vn j n 0 (set row.2 (j + n) last)
    have sameWindow : window (set row.2 (j + n) last) j n = window row.2 j n :=
      window_set_of_outside (.inr (le_refl _)) last
    have near : radix ^ n - radix ^ (n - 1) ≤ window (set row.2 (j + n) last) j n := by
      have excess := @estimate_mul_lt radix (radix ^ (n - 2)) (window vn 0 n)
        (window un j (n + 1)) (by decide) (Nat.pow_pos (by decide))
      change estimatedDigit n _ _ * _ < _ at excess
      have weight : radix * radix ^ (n - 2) = radix ^ (n - 1) := by
        rw [Nat.mul_comm, ← pow_succ]
        congr 1
        omega
      omega
    have sum := @added_back _ (set row.2 (j + n) last) _ j long leading near
    rw [sameWindow] at sum
    have isDifferenceWindow : window row.2 j n = radix ^ n + window un j (n + 1) -
        estimatedDigit n (window vn 0 n) (window un j (n + 1)) * window vn 0 n := by omega
    constructor
    · intro index outside
      rw [get_set_of_ne (by omega), places, if_neg (by omega), get_set_of_ne (by omega)]
      exact left.frame index (by omega)
    · dsimp only
      unfold lost
      rw [if_neg (Nat.not_le.mpr exceeds), window_set_of_outside (.inr (le_refl _)),
        ← isDifferenceWindow]
      have isRest := Nat.div_add_mod' (window un j (n + 1)) (window vn 0 n)
      rw [digit, Nat.add_mul, Nat.one_mul] at short
      omega
    · dsimp only
      rw [if_neg (Nat.not_le.mpr exceeds), get_set_self, carry, places, if_neg (by omega),
        get_set_self, UInt64.add_zero, UInt32.toUInt32_toUInt64, isLast]
    · intro index
      rw [get_set]
      split
      · have one : (1 : UInt32).toNat = 1 := rfl
        rw [get_set_self, UInt32.toNat_sub, UInt32.toNat_ofNat', one]
        generalize window un j (n + 1) / window vn 0 n = quotient at digit ⊢
        omega
      · rename_i different
        rw [get_set_of_ne different]
  · have fits := Nat.not_lt.mp exceeds
    obtain ⟨_, isRest, _⟩ := left.fits fits
    have isPos : ¬((get row.2 (j + n)).toUInt64 - row.1).toInt64 < 0 := by
      rw [toInt64_neg_iff, isDifference]
      omega
    rw [if_neg isPos]
    constructor
    · intro index _
      rw [get_set_of_ne (by omega)]
      exact left.frame index (by omega)
    · dsimp only
      unfold lost
      rw [if_pos fits, window_set_of_outside (.inr (le_refl _)), isRest, Nat.mul_zero, Nat.add_zero]
    · dsimp only
      rw [if_pos fits, get_set_self, isBlock, isDifference]
      omega
    · intro _
      rw [get_set]
      split
      · rw [UInt32.toNat_ofNat']
        omega
      · rfl

structure DividedLoop (vn un q : Blocks) (n count : Nat) (result : Blocks × Blocks)
    (short : Nat) : Prop where
  whole : window un 0 (count + n) =
    window result.2 0 count * window vn 0 n + window result.1 0 n + radix * short
  below : window result.1 0 n < window vn 0 n
  exact : short = 0 ↔ ∀ j < count, lost n (window vn 0 n)
    (partialDividend radix (window vn 0 n) (window un 0 (count + n)) j) = 0
  frame : ∀ index, count ≤ index -> get result.2 index = get q index
  stays : count = 0 -> get result.1 n = get un n
  top : 0 < count -> (get result.1 n).toNat = 0 ∨ (get result.1 n).toNat = radix - 1
  topExact : 0 < count -> short = 0 -> ((get result.1 n).toNat = 0 ↔
    estimatedDigit n (window vn 0 n)
        (partialDividend radix (window vn 0 n) (window un 0 (count + n)) 0) * window vn 0 n ≤
      partialDividend radix (window vn 0 n) (window un 0 (count + n)) 0)

variable {count : Nat}

/-- The partial dividend is where the loop looks for it. -/
theorem partialDividend_eq
    (below : window un 0 (count + 1 + n) < window vn 0 n * radix ^ (count + 1)) :
    window un 0 (count + 1 + n) = window un 0 count + radix ^ count * window un count (n + 1) ∧
      window un count (n + 1) < window vn 0 n * radix ∧
      partialDividend radix (window vn 0 n) (window un 0 (count + 1 + n)) count =
        window un count (n + 1) := by
  have isCount : count + 1 + n = count + (n + 1) := by omega
  have split := window_add un 0 count (n + 1)
  rw [Nat.zero_add, ← isCount] at split
  have less : window un count (n + 1) < window vn 0 n * radix := by
    have scaled : radix ^ count * window un count (n + 1) <
        radix ^ count * (window vn 0 n * radix) :=
      calc radix ^ count * window un count (n + 1) ≤ window un 0 (count + 1 + n) := by
            rw [split]
            exact Nat.le_add_left _ _
        _ < window vn 0 n * radix ^ (count + 1) := below
        _ = radix ^ count * (window vn 0 n * radix) := by rw [pow_succ]; ring
    exact Nat.lt_of_mul_lt_mul_left scaled
  refine ⟨split, less, ?_⟩
  unfold partialDividend
  rw [leading_of_split split, Nat.mod_eq_of_lt less]

theorem DividedDigit.taken {q : Blocks} {next : Blocks × Blocks}
    (step : DividedDigit vn un q n count next)
    (below : window un 0 (count + 1 + n) < window vn 0 n * radix ^ (count + 1)) :
    window next.1 0 (count + n) < window vn 0 n * radix ^ count ∧ window un 0 (count + 1 + n) =
        window un count (n + 1) / window vn 0 n * (window vn 0 n * radix ^ count) +
          window next.1 0 (count + n) +
          radix * (radix ^ count * lost n (window vn 0 n) (window un count (n + 1))) := by
  obtain ⟨split, dividendBound, _⟩ := partialDividend_eq below
  have pos : 0 < window vn 0 n := Nat.pos_of_mul_pos_right (Nat.zero_lt_of_lt dividendBound)
  have rest := step.rest
  have restBound := Nat.mod_lt (window un count (n + 1)) pos
  have nextSplit : window next.1 0 (count + n) =
      window un 0 count + radix ^ count * window next.1 count n := by
    rw [window_add, Nat.zero_add]
    congr 1
    apply window_congr
    intro i less
    rw [Nat.zero_add]
    exact step.frame i (.inl less)
  constructor
  · have low := window_lt un 0 count
    have scaled : radix ^ count * (window next.1 count n + 1) ≤ radix ^ count * window vn 0 n :=
      Nat.mul_le_mul_left _ (by omega)
    rw [Nat.mul_succ, Nat.mul_comm _ (window vn 0 n)] at scaled
    omega
  · have digits := Nat.div_add_mod' (window un count (n + 1)) (window vn 0 n)
    rw [split, nextSplit]
    nth_rewrite 1 [← digits]
    rw [← rest]
    ring

theorem divideLoop_divided (long : 2 ≤ n) (leading : 0 < (get vn (n - 1)).toNat)
    (below : window un 0 (count + n) < window vn 0 n * radix ^ count) (q : Blocks) :
    ∃ short, DividedLoop vn un q n count (divideLoop vn n count un q) short := by
  induction count generalizing un q with
  | zero =>
    rw [Nat.zero_add, pow_zero, Nat.mul_one] at below
    refine ⟨0, ?_, below, by simp, fun _ _ => rfl, fun _ => rfl, by simp, by simp⟩
    rw [divideLoop, Nat.zero_add, window, Nat.zero_mul, Nat.zero_add]
    rfl
  | succ j ih =>
    obtain ⟨_, dividendBound, isPartial⟩ := partialDividend_eq below
    have step := divideStep_divided (j := j) long leading dividendBound q
    rw [divideLoop]
    generalize divideStep vn n j un q = next at step ⊢
    dsimp only
    obtain ⟨nextBelow, taken⟩ := step.taken below
    obtain ⟨short, divided⟩ := ih nextBelow next.2
    generalize divideLoop vn n j next.1 next.2 = result at divided ⊢
    have isDigit : (get result.2 j).toNat = window un j (n + 1) / window vn 0 n := by
      rw [divided.frame j (le_refl _), step.digit, if_pos rfl]
    have weight : radix ^ j ≠ 0 := (Nat.pow_pos (by decide)).ne'
    have isExact : short + radix ^ j * lost n (window vn 0 n) (window un j (n + 1)) = 0 ↔
        short = 0 ∧ lost n (window vn 0 n) (window un j (n + 1)) = 0 := by
      rw [Nat.add_eq_zero_iff, Nat.mul_eq_zero, or_iff_right weight]
    have later : lost n (window vn 0 n) (window un j (n + 1)) = 0 -> ∀ i < j,
        partialDividend radix (window vn 0 n) (window next.1 0 (j + n)) i =
          partialDividend radix (window vn 0 n) (window un 0 (j + 1 + n)) i := by
      intro exact i less
      simp only [exact, Nat.mul_zero, Nat.add_zero] at taken
      rw [← @partialDividend_mod _ _ _ (window un 0 (j + 1 + n)) _ less, taken,
        Nat.mul_add_mod_self_right, Nat.mod_eq_of_lt nextBelow]
    refine ⟨short + radix ^ j * lost n (window vn 0 n) (window un j (n + 1)), ?_,
      divided.below, ?_, ?_, by simp, ?_, ?_⟩
    · have digit := window_succ result.2 0 j
      rw [Nat.zero_add, isDigit] at digit
      rw [taken, divided.whole, digit]
      ring
    · rw [isExact]
      constructor
      · rintro ⟨noShort, exact⟩ i less
        rcases Nat.lt_succ_iff_lt_or_eq.mp less with earlier | isLast
        · rw [← later exact i earlier]
          exact divided.exact.mp noShort i earlier
        · rw [isLast, isPartial, exact]
      · intro all
        have exact : lost n (window vn 0 n) (window un j (n + 1)) = 0 := isPartial ▸ all j .refl
        refine ⟨divided.exact.mpr fun i less => ?_, exact⟩
        rw [later exact i less]
        exact all i (Nat.lt_succ_of_lt less)
    · intro index _
      rw [divided.frame index (by omega)]
      apply UInt32.toNat_inj.mp
      rw [step.digit, if_neg (by omega)]
    · intro _
      rcases Nat.eq_zero_or_pos j with isLast | isEarlier
      · have top := step.top
        rw [isLast, Nat.zero_add] at top
        rw [divided.stays isLast, top]
        split
        · exact .inl rfl
        · exact .inr rfl
      · exact divided.top isEarlier
    · intro _ noShort
      obtain ⟨nextExact, exact⟩ := isExact.mp noShort
      rcases Nat.eq_zero_or_pos j with isLast | isEarlier
      · have top := step.top
        rw [isLast, Nat.zero_add] at top
        rw [isLast] at isPartial
        rw [isLast, divided.stays isLast, top, isPartial]
        exact ite_eq_left_iff.trans ⟨fun isZero => by_contra fun past => by
          have impossible := isZero past
          contradiction, fun fits past => absurd fits past⟩
      · rw [divided.topExact isEarlier nextExact, later exact 0 isEarlier]

end Step

end NtfCore.Ntsa.AbstractIntegerRepresentation
