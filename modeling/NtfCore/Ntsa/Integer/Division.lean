import NtfCore.Ntsa.Integer.Ordering
import NtfCore.Ntsa.Integer.Quotient

/-!
Contract: what division yields.

Owns: the products, sums and shifts that `divide` makes on its way, the dividends and divisors for
which all of them stay within their words and quotient and remainder are the mathematical ones, and
that these are the same for integers with a sign.
-/

namespace NtfCore.Ntsa

open List UInt64

namespace AbstractIntegerRepresentation

open NtfCore.Foundation.LongDivision

/-! ## Products, sums and shifts -/

/-- The products and sums of the loop of `divide` by a single block, before they are reduced to
64 bits. -/
def singleValues (u : Blocks) (v : Block) : Nat -> UInt64 -> Blocks -> List Nat
  | 0, _, _ => []
  | j + 1, k, q =>
    let head : UInt64 := k * UInt64.ofNat radix + (get u j).toUInt64
    let q := set q j (head / v.toUInt64).toUInt32
    [k.toNat * radix, (k * UInt64.ofNat radix).toNat + (get u j).toNat,
      (get q j).toNat * v.toNat] ++ singleValues u v j (head - (get q j * v).toUInt64) q

/-- The products and sums of the loop that corrects the estimate. The product with the next block
is not made when the estimate is no block. -/
def estimateValues (top next behind : Nat) (qhat rhat : Nat) : List Nat :=
  (if qhat ≥ radix then [] else [qhat * next, radix * rhat, radix * rhat + behind]) ++
    if qhat ≥ radix ∨ qhat * next > radix * rhat + behind then
      (rhat + top) ::
        if rhat + top < radix ∧ 0 < top then estimateValues top next behind (qhat - 1) (rhat + top)
        else []
    else []
termination_by radix - rhat
decreasing_by omega

def addValues (vn : Blocks) (j : Nat) : Nat -> Nat -> UInt64 -> Blocks -> List Nat
  | 0, _, _, _ => []
  | count + 1, i, k, un =>
    let sum := get un (i + j) + get vn i
    let t : UInt64 := sum.toUInt64 + k
    [(get un (i + j)).toNat + (get vn i).toNat, sum.toNat + k.toNat] ++
      addValues vn j count (i + 1) (t.toInt64 >>> 32).toUInt64 (set un (i + j) t.toUInt32)

def stepValues (vn : Blocks) (n j : Nat) (un : Blocks) : List Nat :=
  let top := (get vn (n - 1)).toNat
  let head := (get un (j + n)).toNat * radix + (get un (j + n - 1)).toNat
  let qhat := head / top
  let rhat := head - qhat * top
  let next := (get vn (n - 2)).toNat
  let behind := (get un (j + n - 2)).toNat
  let digit := (estimateLoop top next behind qhat rhat).1
  let (k, row) := subtractRow vn (UInt64.ofNat digit) j n 0 0 un
  let t : UInt64 := (get row (j + n)).toUInt64 - k
  let row := set row (j + n) t.toUInt32
  let (carry, sum) := addRow vn j n 0 0 row
  [(get un (j + n)).toNat * radix, head, qhat * top] ++ estimateValues top next behind qhat rhat ++
    (List.range n).map (fun i => digit * (get vn i).toNat) ++
    if t.toInt64 < 0 then addValues vn j n 0 0 row ++ [(get sum (j + n)).toNat + carry.toNat]
    else []

def loopValues (vn : Blocks) (n : Nat) : Nat -> Blocks -> Blocks -> List Nat
  | 0, _, _ => []
  | j + 1, un, q =>
    let (next, q') := divideStep vn n j un q
    stepValues vn n j un ++ loopValues vn n j next q'

/-- `divide` returns before it divides blocks. -/
def returnsEarly (dividend divisor : Blocks) : Bool :=
  isZero dividend || isZero divisor || isOne dividend || isOne divisor ||
    decide (compare dividend divisor < 0)

def shiftedDivisor (divisor : Blocks) : Blocks :=
  shiftLoop divisor (countLeadingZeroes (get divisor (divisor.length - 1)))
    (divisor.length - 1) []

def shiftedDividend (dividend divisor : Blocks) : Blocks :=
  let s := countLeadingZeroes (get divisor (divisor.length - 1))
  shiftLoop dividend s (dividend.length - 1)
    (set [] dividend.length
      (get dividend (dividend.length - 1) >>> UInt32.ofNat (bitsPerBlock - s)))

/-- The products and sums of `divide`, before they are reduced to 64 bits. -/
def intermediates (dividend divisor : Blocks) : List Nat :=
  if returnsEarly dividend divisor then []
  else if divisor.length = 1 then singleValues dividend (get divisor 0) dividend.length 0 []
  else
    loopValues (shiftedDivisor divisor) divisor.length (dividend.length - divisor.length + 1)
      (shiftedDividend dividend divisor) []

/-- The amounts that `divide` shifts by, each with the width of what is shifted. -/
def shifts (dividend divisor : Blocks) : List (Nat × Nat) :=
  if returnsEarly dividend divisor ∨ divisor.length = 1 then []
  else
    let s := countLeadingZeroes (get divisor (divisor.length - 1))
    [(s, bitsPerBlock), (bitsPerBlock - s, bitsPerBlock), (bitsPerBlock, 64)]

structure Divides (dividend divisor : Blocks) : Prop where
  whole : value dividend =
    value (divide dividend divisor).1 * value divisor + value (divide dividend divisor).2
  below : value (divide dividend divisor).2 < value divisor
  normal : Normal (divide dividend divisor).1 ∧ Normal (divide dividend divisor).2
  fits : ∀ number ∈ intermediates dividend divisor, number < 2 ^ 64
  shifted : ∀ shift ∈ shifts dividend divisor, shift.1 < shift.2

theorem product_lt {left right : Nat} (leftBound : left < radix) (rightBound : right < radix) :
    left * right < 2 ^ 64 := by
  have square : radix * radix = 2 ^ 64 := rfl
  rw [← square]
  exact Nat.mul_lt_mul'' leftBound rightBound

/-- One place of the division by a single block: the product that is subtracted is that of two
blocks, so that what it lacks stays in the remainder above the block. -/
theorem divideSingle_step {u v : Block} {k : UInt64} (nonzero : 0 < v.toNat)
    (rest : k.toNat % radix < v.toNat) : let head : UInt64 := k * ofNat radix + u.toUInt64
    let digit : Block := (head / v.toUInt64).toUInt32
    let next : UInt64 := head - (digit * v).toUInt64
    let dividend := k.toNat % radix * radix + u.toNat
    digit.toNat = dividend / v.toNat ∧ next.toNat % radix = dividend % v.toNat ∧
      (next.toNat < radix ↔ dividend / v.toNat * v.toNat < radix) ∧
      (k * ofNat radix).toNat + u.toNat < 2 ^ 64 := by
  intro head digit next dividend
  have uBound := u.toNat_lt
  have vBound := v.toNat_lt
  have isDividend : dividend = k.toNat % 2 ^ 32 * 2 ^ 32 + u.toNat := rfl
  clear_value dividend
  change k.toNat % 2 ^ 32 < v.toNat at rest
  change _ ∧ next.toNat % 2 ^ 32 = _ ∧ (next.toNat < 2 ^ 32 ↔ _ < 2 ^ 32) ∧ _
  have isProduct : (k * ofNat radix).toNat = k.toNat % 2 ^ 32 * 2 ^ 32 := by
    have size : (ofNat radix).toNat = 2 ^ 32 := rfl
    rw [UInt64.toNat_mul, size]
    omega
  have isHead : head.toNat = dividend := by
    rw [UInt64.toNat_add, isProduct, UInt32.toNat_toUInt64]
    omega
  have digitBound : dividend / v.toNat < 2 ^ 32 := Nat.div_lt_of_lt_mul (by omega)
  have isDigit : digit.toNat = dividend / v.toNat := by
    rw [UInt64.toNat_toUInt32, UInt64.toNat_div, isHead, UInt32.toNat_toUInt64]
    exact Nat.mod_eq_of_lt digitBound
  have parts := Nat.div_add_mod' dividend v.toNat
  have restBound := Nat.mod_lt dividend nonzero
  have isNext : next.toNat = dividend - dividend / v.toNat * v.toNat % 2 ^ 32 := by
    have isSubtracted : ((digit * v).toUInt64).toNat = dividend / v.toNat * v.toNat % 2 ^ 32 := by
      rw [UInt32.toNat_toUInt64, UInt32.toNat_mul, isDigit]
    have notAbove : (digit * v).toUInt64 ≤ head := by
      rw [le_iff_toNat_le, isSubtracted, isHead]
      omega
    rw [UInt64.toNat_sub_of_le _ _ notAbove, isSubtracted, isHead]
  rw [isProduct, isNext]
  exact ⟨isDigit, by omega, by omega, by omega⟩

/-- The loop yields quotient and remainder, whether or not the remainder outgrows a block on the
way. -/
theorem divideSingle_eq (u : Blocks) {v : Block} (nonzero : 0 < v.toNat) {count : Nat} {k : UInt64}
    (rest : k.toNat % radix < v.toNat) (q : Blocks) :
    let dividend := k.toNat % radix * radix ^ count + window u 0 count
    let result := divideSingle u v count k q
    window result.2 0 count = dividend / v.toNat ∧ result.1.toNat % radix = dividend % v.toNat ∧
      (∀ index, count ≤ index -> get result.2 index = get q index) ∧
      ((∀ number ∈ singleValues u v count k q, number < 2 ^ 64) ↔
        (0 < count -> k.toNat < radix) ∧ ∀ j, 0 < j -> j < count ->
          partialDividend radix v.toNat dividend j / v.toNat * v.toNat < radix) := by
  induction count generalizing k q with
  | zero =>
    intro dividend result
    have isDividend : dividend = k.toNat % radix := by
      simp only [dividend, pow_zero, Nat.mul_one, window, Nat.add_zero]
    refine ⟨?_, ?_, fun _ _ => rfl, ?_⟩
    · rw [isDividend, Nat.div_eq_of_lt rest]
      rfl
    · rw [isDividend, Nat.mod_eq_of_lt rest]
      rfl
    · simp [singleValues]
  | succ count ih =>
    intro dividend result
    have place := divideSingle_step (u := get u count) (k := k) nonzero rest
    have loop : result = divideSingle u v (count + 1) k q := rfl
    have values := singleValues.eq_2 u v k q count
    rw [divideSingle] at loop
    dsimp only at place loop values
    rw [get_set_self] at loop values
    generalize ((k * ofNat radix + (get u count).toUInt64) / v.toUInt64).toUInt32 = digit
      at place loop values
    generalize k * ofNat radix + (get u count).toUInt64 - (digit * v).toUInt64 = next
      at place loop values
    clear_value result
    obtain ⟨isDigit, nextRest, nextFits, sumFits⟩ := place
    have headBound : k.toNat % radix * radix + (get u count).toNat < v.toNat * radix := by
      have bound : (get u count).toNat < radix := (get u count).toNat_lt
      have scaled : (k.toNat % radix + 1) * radix ≤ v.toNat * radix := Nat.mul_le_mul_right _ rest
      rw [Nat.add_mul, Nat.one_mul] at scaled
      omega
    have isDividend : dividend = (k.toNat % radix * radix + (get u count).toNat) * radix ^ count +
        window u 0 count := by
      simp only [dividend, window_succ, Nat.zero_add, pow_succ]
      ring
    clear_value dividend
    generalize k.toNat % radix * radix + (get u count).toNat = head at *
    obtain ⟨quotient, remainder, frame, fits⟩ := ih (k := next)
      (by rw [nextRest]; exact Nat.mod_lt _ nonzero) (set q count digit)
    rw [← loop] at quotient remainder frame
    rw [nextRest] at quotient remainder fits
    -- The digit is taken away from the dividend.
    have low := window_lt u 0 count
    have isPartial : partialDividend radix v.toNat dividend count = head := by
      unfold partialDividend
      rw [isDividend, Nat.add_comm, Nat.add_mul_div_right _ _ (Nat.pow_pos (by decide)),
        Nat.div_eq_of_lt low, Nat.zero_add, Nat.mod_eq_of_lt headBound]
    have taken : dividend = head / v.toNat * radix ^ count * v.toNat +
        (head % v.toNat * radix ^ count + window u 0 count) := by
      have parts := Nat.div_add_mod' head v.toNat
      rw [isDividend]
      nth_rewrite 1 [← parts]
      ring
    have nextBound : head % v.toNat * radix ^ count + window u 0 count <
        v.toNat * radix ^ count := by
      have scaled : (head % v.toNat + 1) * radix ^ count ≤ v.toNat * radix ^ count :=
        Nat.mul_le_mul_right _ (Nat.mod_lt _ nonzero)
      rw [Nat.add_mul, Nat.one_mul] at scaled
      omega
    have later : ∀ j < count, partialDividend radix v.toNat
        (head % v.toNat * radix ^ count + window u 0 count) j =
        partialDividend radix v.toNat dividend j := by
      intro j below
      rw [← @partialDividend_mod _ _ _ dividend _ below, taken, Nat.mul_assoc,
        Nat.mul_comm (radix ^ count), Nat.mul_add_mod_self_right, Nat.mod_eq_of_lt nextBound]
    refine ⟨?_, ?_, ?_, ?_⟩
    · rw [window_succ, Nat.zero_add, quotient, frame count (le_refl _), get_set_self, isDigit,
        taken, Nat.mul_comm _ v.toNat, Nat.mul_add_div nonzero, Nat.add_comm]
    · rw [remainder, taken, Nat.mul_add_mod_self_right]
    · intro index _
      rw [frame index (by omega), get_set_of_ne (by omega)]
    · have productFits : digit.toNat * v.toNat < 2 ^ 64 := product_lt digit.toNat_lt v.toNat_lt
      have wordFits : k.toNat * radix < 2 ^ 64 ↔ k.toNat < radix :=
        Nat.mul_lt_mul_right (a := radix) (b := k.toNat) (c := radix) (by decide)
      rw [values, forall_mem_append, fits]
      simp only [forall_mem_cons, not_mem_nil, false_imp_iff, implies_true, and_true,
        sumFits, productFits, wordFits, Nat.succ_pos, forall_const, nextFits]
      refine and_congr_right fun _ => ⟨?_, fun all => ⟨fun more => ?_, fun j positive below => ?_⟩⟩
      · rintro ⟨last, earlier⟩ j positive below
        rcases Nat.lt_succ_iff_lt_or_eq.mp below with isEarlier | isLast
        · rw [← later j isEarlier]
          exact earlier j positive isEarlier
        · rw [isLast, isPartial]
          exact last (isLast ▸ positive)
      · have last := all count more .refl
        rwa [isPartial] at last
      · rw [later j below]
        exact all j positive (Nat.lt_succ_of_lt below)

/-! ## Division by several blocks -/

theorem scaled_lt {high low : Nat} (highBound : high < radix) (lowBound : low < radix) :
    radix * high + low < 2 ^ 64 := by
  have scaled : radix * (high + 1) ≤ radix * radix := Nat.mul_le_mul_left _ highBound
  have square : radix * radix = 2 ^ 64 := rfl
  rw [Nat.mul_succ] at scaled
  omega

theorem estimateValues_lt {top next behind : Nat} (topBound : top < radix)
    (nextBound : next < radix) (behindBound : behind < radix) (qhat : Nat) {rhat : Nat}
    (rest : rhat < radix) :
    ∀ number ∈ estimateValues top next behind qhat rhat, number < 2 ^ 64 := by
  have compared : ∀ {qhat rhat : Nat}, rhat < radix -> ∀ number ∈ (if qhat ≥ radix then []
      else [qhat * next, radix * rhat, radix * rhat + behind]), number < 2 ^ 64 := by
    intro qhat rhat rest _ mem
    have isSum := scaled_lt rest behindBound
    split at mem
    · contradiction
    · rename_i small
      have isProduct := product_lt (Nat.lt_of_not_le small) nextBound
      simp only [mem_cons, not_mem_nil, or_false] at mem
      omega
  have corrected : ∀ {rhat : Nat}, rhat < radix -> rhat + top < 2 ^ 64 := by
    intro rhat rest
    have isRadix : radix = 2 ^ 32 := rfl
    omega
  induction qhat, rhat using estimateLoop.induct top next behind with
  | case1 qhat rhat exceeds continues ih =>
    rw [estimateValues, if_pos exceeds, if_pos continues, forall_mem_append, forall_mem_cons]
    exact ⟨compared rest, corrected rest, ih continues.1⟩
  | case2 qhat rhat exceeds stops =>
    rw [estimateValues, if_pos exceeds, if_neg stops, forall_mem_append, forall_mem_singleton]
    exact ⟨compared rest, corrected rest⟩
  | case3 _ _ fits =>
    rw [estimateValues, if_neg fits, append_nil]
    exact compared rest

theorem addValues_lt (vn : Blocks) (j count i : Nat) (un : Blocks) :
    ∀ number ∈ addValues vn j count i 0 un, number < 2 ^ 64 := by
  induction count generalizing i un with
  | zero => simp [addValues]
  | succ _ ih =>
    have leftBound := (get un (i + j)).toNat_lt
    have rightBound := (get vn i).toNat_lt
    have sumBound := (get un (i + j) + get vn i).toNat_lt
    have noCarry := (addRow_place (get un (i + j) + get vn i)).2
    rw [addValues, noCarry, forall_mem_append]
    refine ⟨?_, ih _ _⟩
    simp only [forall_mem_cons, not_mem_nil, false_imp_iff, implies_true, and_true,
      UInt64.toNat_zero]
    omega

section Step

variable {vn un : Blocks} {n j : Nat} (long : 2 ≤ n) (leading : 0 < (get vn (n - 1)).toNat)
include long leading

theorem stepValues_lt (below : window un j (n + 1) < window vn 0 n * radix) :
    ∀ number ∈ stepValues vn n j un, number < 2 ^ 64 := by
  have digitBound : estimatedDigit n (window vn 0 n) (window un j (n + 1)) < radix :=
    estimate_lt (by decide)
  have estimated := estimateLoop_digit long leading below
  have topBound : (get vn (n - 1)).toNat < radix := (get vn (n - 1)).toNat_lt
  have nextBound : (get vn (n - 2)).toNat < radix := (get vn (n - 2)).toNat_lt
  have firstBound : (get un (j + n)).toNat < radix := (get un (j + n)).toNat_lt
  have secondBound : (get un (j + n - 1)).toNat < radix := (get un (j + n - 1)).toNat_lt
  have behindBound : (get un (j + n - 2)).toNat < radix := (get un (j + n - 2)).toNat_lt
  have headBound := scaled_lt firstBound secondBound
  rw [Nat.mul_comm] at headBound
  have firstPart : (get un (j + n)).toNat * radix ≤
      (get un (j + n)).toNat * radix + (get un (j + n - 1)).toNat := Nat.le_add_right _ _
  unfold stepValues
  dsimp only at estimated ⊢
  rw [estimated]
  generalize (get un (j + n)).toNat * radix + (get un (j + n - 1)).toNat = head
    at headBound firstPart ⊢
  have parts := Nat.div_add_mod' head (get vn (n - 1)).toNat
  have restBound := Nat.mod_lt head leading
  generalize subtractRow vn _ j n 0 0 un = row
  rw [forall_mem_append, forall_mem_append, forall_mem_append]
  refine ⟨⟨⟨?_, ?_⟩, ?_⟩, ?_⟩
  · simp only [forall_mem_cons, not_mem_nil, false_imp_iff, implies_true, and_true]
    omega
  · exact estimateValues_lt topBound nextBound behindBound _ (by omega)
  · rw [forall_mem_map]
    exact fun i _ => product_lt digitBound (get vn i).toNat_lt
  · split
    · rw [forall_mem_append, forall_mem_singleton, (addRow_eq vn j n 0 _).1]
      refine ⟨addValues_lt vn j n 0 _, ?_⟩
      generalize get _ (j + n) = block
      have bound := block.toNat_lt
      rw [UInt64.toNat_zero]
      omega
    · simp

/-- As long as the dividend is less than the divisor behind the digits of the quotient, no product
and no sum exceeds its word. -/
theorem loopValues_lt {count : Nat}
    (below : window un 0 (count + n) < window vn 0 n * radix ^ count) (q : Blocks) :
    ∀ number ∈ loopValues vn n count un q, number < 2 ^ 64 := by
  induction count generalizing un q with
  | zero => simp [loopValues]
  | succ j ih =>
    obtain ⟨_, dividendBound, _⟩ := partialDividend_eq below
    have step := divideStep_divided (j := j) long leading dividendBound q
    rw [loopValues, forall_mem_append]
    exact ⟨stepValues_lt long leading dividendBound, ih (step.taken below).1 _⟩

end Step

/-! ## Quotient and remainder -/

section Exact

variable {u v : Blocks}

theorem isOne_iff (normal : Normal v) : isOne v = true ↔ value v = 1 := by
  constructor
  · intro one
    rw [beq_iff_eq.mp one]
    rfl
  · intro one
    have normalOne : Normal [1] := by decide
    rw [normal.inj normalOne one]
    rfl

section

variable (normal : Normal u) (normal' : Normal v)
include normal normal'

theorem compare_lt_iff : compare u v < 0 ↔ value u < value v := by
  rw [compare_eq normal normal', Int.sign_neg_iff]
  omega

theorem returnsEarly_iff (nonzero : value v ≠ 0) :
    returnsEarly u v = true ↔ value u < value v ∨ value v = 1 := by
  unfold returnsEarly
  simp only [Bool.or_eq_true, decide_eq_true_eq, normal.isZero_iff, normal'.isZero_iff,
    isOne_iff normal, isOne_iff normal', compare_lt_iff normal normal']
  omega

theorem divide_early (nonzero : value v ≠ 0) (early : returnsEarly u v = true) :
    value u = value (divide u v).1 * value v + value (divide u v).2 ∧
      value (divide u v).2 < value v := by
  unfold divide
  split
  · rename_i zero
    have isNothing := normal.isZero_iff.mp zero
    simp only [value_nil]
    omega
  · rw [if_neg (fun zero => nonzero (normal'.isZero_iff.mp zero))]
    split
    · rename_i one
      have isUnit := (isOne_iff normal).mp one
      split
      · rename_i divisorOne
        have isUnit' := (isOne_iff normal').mp divisorOne
        have isQuotient : value (assign 1) = 1 := value_assign 1
        simp only [value_nil, isQuotient]
        omega
      · rename_i divisorNotOne
        have notUnit := mt (isOne_iff normal').mpr divisorNotOne
        simp only [value_nil]
        omega
    · split
      · rename_i divisorOne
        have isUnit' := (isOne_iff normal').mp divisorOne
        simp only [value_nil, isUnit']
        omega
      · rename_i divisorNotOne
        have notUnit := mt (isOne_iff normal').mpr divisorNotOne
        have less := ((returnsEarly_iff normal normal' nonzero).mp early).resolve_right notUnit
        rw [if_pos ((compare_lt_iff normal normal').mpr less)]
        simp only [value_nil]
        omega

end

theorem divide_late (late : returnsEarly u v = false) : divide u v = if v.length = 1 then
        (normalize (divideSingle u (get v 0) u.length 0 []).2,
          normalize (set [] 0 (divideSingle u (get v 0) u.length 0 []).1.toUInt32)) else
        let s := countLeadingZeroes (get v (v.length - 1))
        let result := divideLoop (shiftedDivisor v) v.length (u.length - v.length + 1)
          (shiftedDividend u v) []
        (normalize result.2, normalize (remainderLoop result.1 s v.length 0 [])) := by
  unfold returnsEarly at late
  simp only [Bool.or_eq_false_iff, decide_eq_false_iff_not] at late
  obtain ⟨⟨⟨⟨dividendZero, divisorZero⟩, dividendOne⟩, divisorOne⟩, notLess⟩ := late
  unfold divide
  rw [dividendZero, divisorZero, dividendOne, divisorOne, if_neg Bool.false_ne_true,
    if_neg Bool.false_ne_true, if_neg Bool.false_ne_true, if_neg Bool.false_ne_true, if_neg notLess]
  rfl

/-- A divisor of a single block divides exactly the dividends for which no digit of the quotient
but the last one makes a product of more than a block. -/
def SingleRegular (u v : Blocks) : Prop :=
  ∀ j < u.length, 0 < j ->
    partialDividend radix (value v) (value u) j / value v * value v < radix

instance : Decidable (SingleRegular u v) :=
  inferInstanceAs (Decidable (∀ j < u.length, 0 < j -> _ < radix))

/-- Quotient and remainder are exact for a divisor of a single block, and the products and sums fit
for the regular ones. -/
theorem divide_single (nonzero : value v ≠ 0) (late : returnsEarly u v = false)
    (single : v.length = 1) :
    value (divide u v).1 = value u / value v ∧ value (divide u v).2 = value u % value v ∧
      ((∀ number ∈ intermediates u v, number < 2 ^ 64) ↔ SingleRegular u v) := by
  have isDivisor : value v = (get v 0).toNat := by
    rw [value_eq_window single.le, window_succ]
    simp [window]
  have positive : 0 < (get v 0).toNat := by omega
  obtain ⟨quotient, remainder, frame, fits⟩ := @divideSingle_eq u (get v 0) positive u.length 0
    (by simpa using positive) []
  simp only [UInt64.toNat_zero, Nat.zero_mod, Nat.zero_mul, Nat.zero_add,
    ← value_eq_window (le_refl u.length), ← isDivisor] at quotient remainder fits
  have parts := divide_late late
  rw [if_pos single] at parts
  refine ⟨?_, ?_, ?_⟩
  · rw [parts, value_normalize, value_eq_window_of_zero fun index behind => frame index behind,
      quotient]
  · have isBlock : value (set [] 0 (divideSingle u (get v 0) u.length 0 []).1.toUInt32) =
        (divideSingle u (get v 0) u.length 0 []).1.toNat % radix :=
      (Nat.add_zero _).trans (toNat_toUInt32 _)
    rw [parts, value_normalize, isBlock, remainder]
  · unfold intermediates
    rw [late, if_neg Bool.false_ne_true, if_pos single, fits]
    exact ⟨fun all j below positive => all.2 j positive below,
      fun regular => ⟨fun _ => by decide, fun j positive below => regular j below positive⟩⟩

theorem divides_single (normal : Normal u) (nonzero : value v ≠ 0)
    (late : returnsEarly u v = false) (single : v.length = 1) :
    Divides u v ↔ SingleRegular u v := by
  obtain ⟨isQuotient, isRemainder, fits⟩ := divide_single nonzero late single
  refine ⟨fun divides => fits.mp divides.fits, fun regular => ?_⟩
  refine ⟨?_, ?_, normal_divide normal v, fits.mpr regular, ?_⟩
  · rw [isQuotient, isRemainder, Nat.div_add_mod']
  · rw [isRemainder]
    exact Nat.mod_lt _ (Nat.pos_of_ne_zero nonzero)
  · unfold shifts
    rw [if_pos (.inr single)]
    simp

/-- Division by a single block is exact, whether or not a product exceeds its word. -/
theorem divide_by_block (normal : Normal u) (normal' : Normal v) (nonzero : value v ≠ 0)
    (single : v.length = 1) :
    value (divide u v).1 = value u / value v ∧ value (divide u v).2 = value u % value v := by
  by_cases isEarly : returnsEarly u v = true
  · obtain ⟨whole, below⟩ := divide_early normal normal' nonzero isEarly
    constructor
    · rw [whole, Nat.mul_comm, Nat.mul_add_div (Nat.pos_of_ne_zero nonzero),
        Nat.div_eq_of_lt below, Nat.add_zero]
    · rw [whole, Nat.mul_add_mod_self_right, Nat.mod_eq_of_lt below]
  · obtain ⟨isQuotient, isRemainder, _⟩ :=
      divide_single nonzero (Bool.eq_false_iff.mpr isEarly) single
    exact ⟨isQuotient, isRemainder⟩

/-- A divisor of several blocks divides exactly if there is something to shift it by, and if for
every digit of the quotient the estimate does not exceed or, for every digit but the last one, the
divisor is added back without a carry below the most significant place. -/
def LongRegular (u v : Blocks) : Prop :=
  let s := countLeadingZeroes (get v (v.length - 1))
  let divisor := value v * 2 ^ s
  0 < s ∧ ∀ j < u.length - v.length + 1,
    let dividend := partialDividend radix divisor (value u * 2 ^ s) j
    estimatedDigit v.length divisor dividend * divisor ≤ dividend ∨
      0 < j ∧ ∀ i < v.length - 1, ¬Carries v.length divisor dividend i

instance : Decidable (LongRegular u v) :=
  inferInstanceAs (Decidable (_ ∧ ∀ j < u.length - v.length + 1,
    _ ≤ partialDividend radix _ _ j ∨ 0 < j ∧ ∀ i < v.length - 1, ¬Carries v.length _ _ i))

theorem shifts_of_long (late : returnsEarly u v = false) (several : v.length ≠ 1) :
    shifts u v = [(countLeadingZeroes (get v (v.length - 1)), bitsPerBlock),
      (bitsPerBlock - countLeadingZeroes (get v (v.length - 1)), bitsPerBlock),
      (bitsPerBlock, 64)] := by
  unfold shifts
  rw [late, if_neg (by simpa using several)]

section Shifted

variable (normal : Normal u) (normal' : Normal v) (long : 2 ≤ v.length)
  (ordered : v.length ≤ u.length) (positive : 0 < countLeadingZeroes (get v (v.length - 1)))

include normal' long in
theorem leadingZeroes_lt : countLeadingZeroes (get v (v.length - 1)) < bitsPerBlock :=
  (countLeadingZeroes_bounds (normal'.get_last (by omega))).1

include normal' long positive in
theorem window_shiftedDivisor : window (shiftedDivisor v) 0 v.length =
        value v * 2 ^ countLeadingZeroes (get v (v.length - 1)) ∧
      0 < (get (shiftedDivisor v) (v.length - 1)).toNat := by
  have bounds := countLeadingZeroes_bounds (normal'.get_last (by omega))
  have shifted := window_shiftLoop positive bounds.1 v (v.length - 1) []
  have nothing : carryOut (countLeadingZeroes (get v (v.length - 1)))
      (get v (v.length - 1)) = 0 := Nat.div_eq_of_lt bounds.2.2
  rw [nothing, Nat.zero_mul, Nat.add_zero, Nat.sub_add_cancel (by omega),
    ← value_eq_window (le_refl v.length)] at shifted
  refine ⟨shifted, ?_⟩
  have whole := window_succ (shiftedDivisor v) 0 (v.length - 1)
  have low := window_lt (shiftedDivisor v) 0 (v.length - 1)
  have large := normal'.pow_le (by omega)
  have grows : value v * 1 ≤ value v * 2 ^ countLeadingZeroes (get v (v.length - 1)) :=
    Nat.mul_le_mul_left _ Nat.one_le_two_pow
  rw [Nat.sub_add_cancel (by omega), Nat.zero_add] at whole
  by_contra isZero
  rw [Nat.eq_zero_of_not_pos isZero, Nat.zero_mul, Nat.add_zero] at whole
  unfold shiftedDivisor at whole low
  omega

include normal' long ordered positive in
theorem window_shiftedDividend : window (shiftedDividend u v) 0 (u.length + 1) =
      value u * 2 ^ countLeadingZeroes (get v (v.length - 1)) := by
  have inside := leadingZeroes_lt normal' long
  have shifted := window_shiftLoop positive inside u (u.length - 1) (set [] u.length
    (get u (u.length - 1) >>>
      UInt32.ofNat (bitsPerBlock - countLeadingZeroes (get v (v.length - 1)))))
  have complement : bitsPerBlock - countLeadingZeroes (get v (v.length - 1)) < bitsPerBlock :=
    Nat.sub_lt (by decide) positive
  have isTop : (get (shiftedDividend u v) u.length).toNat =
      carryOut (countLeadingZeroes (get v (v.length - 1))) (get u (u.length - 1)) := by
    unfold shiftedDividend
    rw [get_shiftLoop_of_lt _ (by omega), get_set_self, toNat_shiftRight complement]
    rfl
  rw [Nat.sub_add_cancel (by omega), ← value_eq_window (le_refl u.length)] at shifted
  rw [window_succ, Nat.zero_add, isTop, ← shifted]
  rfl

include normal' long ordered in
/-- The shifted dividend is less than the shifted divisor behind the digits of the quotient. -/
theorem shifted_lt (s : Nat) :
    value u * 2 ^ s < value v * 2 ^ s * radix ^ (u.length - v.length + 1) := by
  have large := normal'.pow_le (by omega)
  have dividendBound := value_lt u
  have exponents : u.length = v.length - 1 + (u.length - v.length + 1) := by omega
  rw [exponents, pow_add] at dividendBound
  calc value u * 2 ^ s < radix ^ (v.length - 1) * radix ^ (u.length - v.length + 1) * 2 ^ s :=
        Nat.mul_lt_mul_of_pos_right dividendBound (Nat.two_pow_pos s)
    _ ≤ value v * radix ^ (u.length - v.length + 1) * 2 ^ s :=
        Nat.mul_le_mul_right _ (Nat.mul_le_mul_right _ large)
    _ = value v * 2 ^ s * radix ^ (u.length - v.length + 1) := by ring

end Shifted

/-- What the loop leaves is the remainder shifted, unless the last digit was corrected, and then
the block above it comes into what is shifted back. -/
theorem remainder_eq {un : Blocks} {s n whole quotient divisor short : Nat} (positive : 0 < s)
    (inside : s < bitsPerBlock) (long : 0 < n)
    (left : whole * 2 ^ s = quotient * (divisor * 2 ^ s) + window un 0 n + radix * short) :
    value (remainderLoop un s n 0 []) * 2 ^ s =
      window un 0 n + (get un n).toNat % 2 ^ s * radix ^ n := by
  have restored := window_remainderLoop positive inside un (le_refl n)
  have isLong : (remainderLoop un s n 0 []).length ≤ n := by
    have bound := remainderLoop_length (s := s) un n 0 []
    rw [length_nil] at bound
    omega
  have radixMultiple : 2 ^ s ∣ radix := ⟨_, radix_eq_mul inside⟩
  have windowMultiple : 2 ^ s ∣ window un 0 n := by
    have total : 2 ^ s ∣ quotient * (divisor * 2 ^ s) + window un 0 n + radix * short :=
      ⟨whole, by rw [← left, Nat.mul_comm]⟩
    have first : 2 ^ s ∣ quotient * (divisor * 2 ^ s) := ⟨quotient * divisor, by ring⟩
    have last : 2 ^ s ∣ radix * short := Dvd.dvd.mul_right radixMultiple short
    exact (Nat.dvd_add_right first).mp ((Nat.dvd_add_left last).mp total)
  have lowest : (get un 0).toNat % 2 ^ s = 0 := by
    have parts := window_cons un 0 (n - 1)
    rw [Nat.sub_add_cancel long] at parts
    rw [parts] at windowMultiple
    exact Nat.mod_eq_zero_of_dvd
      ((Nat.dvd_add_left (Dvd.dvd.mul_right radixMultiple _)).mp windowMultiple)
  rw [lowest, Nat.add_zero] at restored
  rw [value_eq_window isLong, restored]

/-- The greatest block has something in the bits that come in. -/
theorem greatest_mod_pos {s : Nat} (positive : 0 < s) : 0 < (radix - 1) % 2 ^ s := by
  refine Nat.pos_of_ne_zero fun isZero => ?_
  have even : 2 ∣ radix - 1 :=
    Nat.dvd_trans (dvd_pow_self 2 positive.ne') (Nat.dvd_of_mod_eq_zero isZero)
  revert even
  decide

theorem divides_long (normal : Normal u) (normal' : Normal v) (long : 2 ≤ v.length)
    (late : returnsEarly u v = false) (ordered : v.length ≤ u.length) :
    Divides u v ↔ LongRegular u v := by
  have several : v.length ≠ 1 := by omega
  have inside := leadingZeroes_lt normal' long
  have amounts := shifts_of_long late several
  rcases Nat.eq_zero_or_pos (countLeadingZeroes (get v (v.length - 1))) with isZero | positive
  · -- There is nothing to shift by, so that the complement is the width of a block.
    constructor
    · intro divides
      have within := divides.shifted (bitsPerBlock - 0, bitsPerBlock)
        (by rw [amounts, isZero]; exact mem_cons_of_mem _ mem_cons_self)
      omega
    · intro regular
      have some := regular.1
      omega
  · obtain ⟨isDivisor, leading⟩ := window_shiftedDivisor normal' long positive
    have isDividend := window_shiftedDividend normal' long ordered positive
    have below := shifted_lt normal' long ordered (countLeadingZeroes (get v (v.length - 1)))
    have isCount : u.length - v.length + 1 + v.length = u.length + 1 := by omega
    have isResult := divide_late late
    rw [if_neg several] at isResult
    have fits : ∀ number ∈ intermediates u v, number < 2 ^ 64 := by
      unfold intermediates
      rw [late, if_neg Bool.false_ne_true, if_neg several]
      exact loopValues_lt long leading (by rw [isCount, isDividend, isDivisor]; exact below) []
    obtain ⟨short, divided⟩ := @divideLoop_divided _ (shiftedDividend u v) _
      (u.length - v.length + 1) long leading (by rw [isCount, isDividend, isDivisor]; exact below) []
    have whole := divided.whole
    have rest := divided.below
    have exact := divided.exact
    have top := divided.top (Nat.succ_pos _)
    have topExact := divided.topExact (Nat.succ_pos _)
    have isQuotient := value_eq_window_of_zero fun index behind => divided.frame index behind
    have divisorBound := window_lt (shiftedDivisor v) 0 v.length
    simp only [isCount, isDividend, isDivisor] at whole rest exact topExact divisorBound
    generalize divideLoop (shiftedDivisor v) v.length (u.length - v.length + 1)
      (shiftedDividend u v) [] = result at *
    have isRemainder := remainder_eq positive inside (by omega) whole
    unfold LongRegular
    generalize countLeadingZeroes (get v (v.length - 1)) = s at *
    have weight : 0 < 2 ^ s := Nat.two_pow_pos s
    rw [← isQuotient] at whole
    constructor
    · intro divides
      have isWhole := divides.whole
      have isBelow := divides.below
      rw [isResult, value_normalize, value_normalize] at isWhole
      rw [isResult, value_normalize] at isBelow
      have isLess := Nat.mul_lt_mul_of_pos_right isBelow weight
      have topZero : (get result.1 v.length).toNat = 0 := by
        refine top.resolve_right fun isGreatest => ?_
        rw [isGreatest] at isRemainder
        have scaled := Nat.mul_le_mul_right (radix ^ v.length) (greatest_mod_pos positive)
        omega
      rw [topZero, Nat.zero_mod, Nat.zero_mul, Nat.add_zero] at isRemainder
      have noShort : short = 0 := by
        have total : value u * 2 ^ s = value result.2 * (value v * 2 ^ s) + window result.1 0 v.length := by
          rw [isWhole, ← isRemainder]
          ring
        have nothing : radix * short = 0 := by omega
        exact (Nat.mul_eq_zero.mp nothing).resolve_left (by decide)
      refine ⟨positive, fun j less => ?_⟩
      rcases Nat.eq_zero_or_pos j with isLast | isEarlier
      · rw [isLast]
        exact .inl ((topExact noShort).mp topZero)
      · exact ((lost_eq_zero_iff _ _ _).mp (exact.mp noShort j less)).imp_right
          fun none => ⟨isEarlier, none⟩
    · rintro ⟨_, regular⟩
      have noShort : short = 0 := exact.mpr fun j less =>
        (lost_eq_zero_iff _ _ _).mpr ((regular j less).imp_right And.right)
      have lastFits := (regular 0 (Nat.succ_pos _)).resolve_right fun last =>
        Nat.lt_irrefl 0 last.1
      have topZero := (topExact noShort).mpr lastFits
      rw [topZero, Nat.zero_mod, Nat.zero_mul, Nat.add_zero] at isRemainder
      rw [noShort, Nat.mul_zero, Nat.add_zero, ← isRemainder] at whole
      rw [← isRemainder] at rest
      refine ⟨?_, ?_, normal_divide normal v, fits, ?_⟩
      · rw [isResult, value_normalize, value_normalize]
        refine Nat.eq_of_mul_eq_mul_right weight ?_
        rw [whole]
        ring
      · rw [isResult, value_normalize]
        exact Nat.lt_of_mul_lt_mul_right rest
      · rw [amounts]
        simp only [forall_mem_cons, not_mem_nil, false_imp_iff, implies_true, and_true]
        exact ⟨inside, Nat.sub_lt (by decide) positive, by decide⟩

/-- The dividends and divisors that `divide` divides exactly. -/
def Regular (u v : Blocks) : Prop :=
  value u < value v ∨ value v = 1 ∨ if v.length = 1 then SingleRegular u v else LongRegular u v

instance : Decidable (Regular u v) :=
  inferInstanceAs (Decidable (_ ∨ _ ∨ if v.length = 1 then SingleRegular u v else LongRegular u v))

theorem divides_iff (normal : Normal u) (normal' : Normal v) (nonzero : value v ≠ 0) :
    Divides u v ↔ Regular u v := by
  have early := returnsEarly_iff normal normal' nonzero
  unfold Regular
  rw [← or_assoc, ← early]
  by_cases isEarly : returnsEarly u v = true
  · rw [isEarly]
    refine iff_of_true ?_ (.inl rfl)
    obtain ⟨whole, below⟩ := divide_early normal normal' nonzero isEarly
    refine ⟨whole, below, normal_divide normal v, ?_, ?_⟩
    · unfold intermediates
      rw [if_pos isEarly]
      simp
    · unfold shifts
      rw [if_pos (.inl isEarly)]
      simp
  · have late := Bool.eq_false_iff.mpr isEarly
    rw [or_iff_right isEarly]
    have ne : 0 < v.length := by
      rcases v with _ | ⟨block, rest⟩
      · contradiction
      · exact Nat.succ_pos _
    have ordered : v.length ≤ u.length := by
      have notLess : ¬value u < value v := fun less => isEarly (early.mpr (.inl less))
      exact Nat.not_lt.mp fun shorter => notLess (normal'.lt_of_length shorter)
    split
    · rename_i single
      exact divides_single normal nonzero late single
    · rename_i several
      exact divides_long normal normal' (by omega) late ordered

end Exact

end AbstractIntegerRepresentation

/-! ## Integers with a sign -/

namespace AbstractInteger

open AbstractIntegerRepresentation

structure Truncates (u v : AbstractInteger) : Prop where
  quotient : (divide u v).1.toInt = u.toInt.tdiv v.toInt
  remainder : (divide u v).2.toInt = u.toInt.tmod v.toInt
  sign : (divide u v).2.toInt ≠ 0 -> (divide u v).2.sign = u.sign
  canonical : (divide u v).1.Canonical ∧ (divide u v).2.Canonical

theorem divide_signed {u v : Blocks} (nonzero : isZero u ≠ true) (nonzero' : isZero v ≠ true)
    (sign sign' : AbstractIntegerSign) :
    divide ⟨sign, u⟩ ⟨sign', v⟩ = (normalize ⟨if sign = sign' then .positive else .negative,
          (AbstractIntegerRepresentation.divide u v).1⟩,
        normalize ⟨sign, (AbstractIntegerRepresentation.divide u v).2⟩) := by
  unfold divide
  rw [if_neg nonzero, if_neg nonzero']
  cases sign <;> cases sign' <;> rfl

theorem normalize_sign {integer : AbstractInteger} (normal : Normal integer.magnitude)
    (nonzero : integer.normalize.toInt ≠ 0) : integer.normalize.sign = integer.sign := by
  unfold normalize at nonzero ⊢
  split
  · rename_i zero
    rw [if_pos zero] at nonzero
    exact absurd (@toInt_eq_zero { integer with sign := .positive } normal zero) nonzero
  · rfl

section

variable {u v : Blocks} (normal : Normal u) (normal' : Normal v) (nonzero : value v ≠ 0)
include normal normal' nonzero

theorem truncates_of_divides (divides : Divides u v) (sign sign' : AbstractIntegerSign) :
    Truncates ⟨sign, u⟩ ⟨sign', v⟩ := by
  have divisorNonzero := mt normal'.isZero_iff.mp nonzero
  obtain ⟨quotientNormal, remainderNormal⟩ := divides.normal
  by_cases zero : isZero u = true
  · have isNothing : divide ⟨sign, u⟩ ⟨sign', v⟩ = ({}, {}) := if_pos zero
    have isZeroInt : toInt ⟨sign, u⟩ = 0 := toInt_eq_zero normal zero
    refine ⟨?_, ?_, ?_, ?_⟩
    · rw [isNothing, isZeroInt, Int.zero_tdiv]
      rfl
    · rw [isNothing, isZeroInt, Int.zero_tmod]
      rfl
    · rw [isNothing]
      exact fun isNonzero => absurd rfl isNonzero
    · rw [isNothing]
      exact ⟨canonical_zero, canonical_zero⟩
  · have isQuotient : value (AbstractIntegerRepresentation.divide u v).1 = value u / value v := by
      rw [divides.whole, Nat.mul_comm, Nat.mul_add_div (Nat.pos_of_ne_zero nonzero),
        Nat.div_eq_of_lt divides.below, Nat.add_zero]
    have isRemainder : value (AbstractIntegerRepresentation.divide u v).2 = value u % value v := by
      rw [divides.whole, Nat.mul_add_mod_self_right, Nat.mod_eq_of_lt divides.below]
    have parts := divide_signed zero divisorNonzero sign sign'
    refine ⟨?_, ?_, ?_, ?_⟩
    · rw [parts, toInt_normalize quotientNormal]
      cases sign <;> cases sign' <;>
        simp [toInt_positive, toInt_negative, isQuotient, Int.neg_tdiv, Int.tdiv_neg]
    · rw [parts, toInt_normalize remainderNormal]
      cases sign <;> cases sign' <;>
        simp [toInt_positive, toInt_negative, isRemainder, Int.neg_tmod, Int.tmod_neg,
          Int.tmod_eq_emod_of_nonneg]
    · rw [parts]
      exact normalize_sign remainderNormal
    · rw [parts]
      exact ⟨canonical_normalize quotientNormal, canonical_normalize remainderNormal⟩

/-- `divide` yields the mathematical quotient and remainder, within its words, exactly for the
regular dividends and divisors, and for them so does the division of integers with a sign. -/
theorem divides_exactly_iff :
    (Divides u v ∧ ∀ sign sign', Truncates ⟨sign, u⟩ ⟨sign', v⟩) ↔ Regular u v := by
  rw [← divides_iff normal normal' nonzero]
  exact ⟨And.left, fun divides =>
    ⟨divides, truncates_of_divides normal normal' nonzero divides⟩⟩

end

theorem divides_exactly_two_blocks :
    Divides [5, 3] [7, 1] ∧ ∀ sign sign', Truncates ⟨sign, [5, 3]⟩ ⟨sign', [7, 1]⟩ :=
  (divides_exactly_iff (by decide) (by decide) (by decide)).mpr (by decide)

/-- A divisor with the most significant bit set is shifted by nothing, and its blocks by their
width. -/
theorem top_bit_divided : Normal [0, 0, 1] ∧ Normal [1, 0x80000000] ∧ value [1, 0x80000000] ≠ 0 ∧
      ¬Divides [0, 0, 1] [1, 0x80000000] := by
  refine ⟨by decide, by decide, by decide, fun divides => ?_⟩
  have within := divides.shifted (32, 32) (by decide)
  contradiction

end AbstractInteger

end NtfCore.Ntsa
