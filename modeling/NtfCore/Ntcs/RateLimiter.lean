import NtfCore.Foundation.Metering
import NtfCore.Foundation.Run
import Mathlib.Tactic.Positivity

/-!
Contract: rate limiters (`ntcs::RateLimiter`), each of two leaky buckets
(`ntcs::LeakyBucket`).

Times and intervals are numbers of nanoseconds, and what a bucket holds is in
whole units, with the fraction of a unit that the last drain left over.

Owns: the buckets with their 64-bit arithmetic, the limiter, runs of its calls
with what was submitted when, and the theorem that bounds the units submitted
between any two moments.

Does not own: reservations, the time to wait before submitting, and the
floating-point arithmetic of `calculateDrainTime`, whose results are given.
-/

namespace NtfCore.Ntcs

open NtfCore.Foundation NtfCore.Foundation.Metering Bool

/-- `ULLONG_MAX + 1`. -/
def wordSize : Nat := 2 ^ 64

def nanoUnitsPerUnit : Nat := 1000000000

/-! ## Leaky buckets -/

/-- `LeakyBucket::calculateDrainTime`, which rounds a quotient of floating-point
numbers: the units, the rate, and whether to round up. -/
abbrev DrainTime : Type := Nat -> Nat -> Bool -> Int

/-- `ntcs::LeakyBucket`. -/
structure LeakyBucket where
  drainRate : Nat
  capacity : Nat
  unitsReserved : Nat := 0
  unitsInBucket : Nat := 0
  fractionalUnitDrainedInNanoUnits : Nat := 0
  lastUpdateTime : Int
  maxUpdateInterval : Int
  statSubmittedUnits : Nat := 0
  statSubmittedUnitsAtLastUpdate : Nat := 0
  statisticsCollectionStartTime : Int

namespace LeakyBucket

/-- `calculateNumberOfUnitsToDrain`: the units, and the fraction that is left over. -/
def calculateNumberOfUnitsToDrain (fraction drainRate : Nat) (timeInterval : Int) : Nat × Nat :=
  let seconds := timeInterval.tdiv nanoUnitsPerUnit
  let nanoseconds := timeInterval.tmod nanoUnitsPerUnit
  let whole := (drainRate * seconds) % wordSize
  let units := (whole + (drainRate / nanoUnitsPerUnit : Nat) * nanoseconds) % wordSize
  let nanounits :=
    (fraction + (drainRate % nanoUnitsPerUnit : Nat) * nanoseconds) % wordSize
  (((units + nanounits / nanoUnitsPerUnit) % wordSize).toNat,
    (nanounits % nanoUnitsPerUnit).toNat)

def calculateCapacity (drainRate : Nat) (timeWindow : Int) : Nat :=
  let capacity := (calculateNumberOfUnitsToDrain 0 drainRate timeWindow).1
  if capacity ≠ 0 then capacity else 1

def maxInterval (drainTime : DrainTime) (drainRate : Nat) : Int :=
  if drainRate = 1 then (2 ^ 63 - 1) * 1000000000 + 999999999
  else drainTime (wordSize - 1) drainRate false

def create (drainTime : DrainTime) (drainRate capacity : Nat) (currentTime : Int) :
    LeakyBucket where
  drainRate := drainRate
  capacity := capacity
  lastUpdateTime := currentTime
  maxUpdateInterval := maxInterval drainTime drainRate
  statisticsCollectionStartTime := currentTime

def setRateAndCapacity (drainTime : DrainTime) (bucket : LeakyBucket)
    (newRate newCapacity : Nat) : LeakyBucket :=
  { bucket with
    drainRate := newRate
    capacity := newCapacity
    maxUpdateInterval := maxInterval drainTime newRate }

def updateState (bucket : LeakyBucket) (currentTime : Int) : LeakyBucket :=
  let delta := currentTime - bucket.lastUpdateTime
  let counted := { bucket with statSubmittedUnitsAtLastUpdate := bucket.statSubmittedUnits }
  if delta > bucket.maxUpdateInterval then
    { counted with
      lastUpdateTime := currentTime, unitsInBucket := 0, fractionalUnitDrainedInNanoUnits := 0 }
  else if delta ≥ 0 then
    let drained := calculateNumberOfUnitsToDrain bucket.fractionalUnitDrainedInNanoUnits
      bucket.drainRate delta
    { counted with
      lastUpdateTime := currentTime
      unitsInBucket := if drained.1 < bucket.unitsInBucket then bucket.unitsInBucket - drained.1
        else 0
      fractionalUnitDrainedInNanoUnits := drained.2 }
  else
    { counted with
      lastUpdateTime := currentTime
      statisticsCollectionStartTime := min currentTime bucket.statisticsCollectionStartTime }

def overflows (bucket : LeakyBucket) : Bool :=
  decide (((wordSize - 1 - bucket.unitsInBucket - bucket.unitsReserved : Int) % wordSize) < 1) ||
    decide ((bucket.unitsInBucket + bucket.unitsReserved + 1) % wordSize > bucket.capacity)

def wouldOverflow (bucket : LeakyBucket) (currentTime : Int) : Bool × LeakyBucket :=
  let updated := bucket.updateState currentTime
  (updated.overflows, updated)

def submit (bucket : LeakyBucket) (numUnits : Nat) : LeakyBucket :=
  { bucket with
    unitsInBucket := (bucket.unitsInBucket + numUnits) % wordSize
    statSubmittedUnits := (bucket.statSubmittedUnits + numUnits) % wordSize }

end LeakyBucket

/-! ## Rate limiters -/

/-- `ntcs::RateLimiter`. -/
structure RateLimiter where
  peakRateBucket : LeakyBucket
  sustainedRateBucket : LeakyBucket

structure RateLimits where
  sustainedRateLimit : Nat
  sustainedRateWindow : Int
  peakRateLimit : Nat
  peakRateWindow : Int

namespace RateLimiter

def setRateLimits (drainTime : DrainTime) (limiter : RateLimiter) (limits : RateLimits) :
    RateLimiter where
  sustainedRateBucket := limiter.sustainedRateBucket.setRateAndCapacity drainTime
    limits.sustainedRateLimit
    (LeakyBucket.calculateCapacity limits.sustainedRateLimit limits.sustainedRateWindow)
  peakRateBucket := limiter.peakRateBucket.setRateAndCapacity drainTime limits.peakRateLimit
    (LeakyBucket.calculateCapacity limits.peakRateLimit limits.peakRateWindow)

def create (drainTime : DrainTime) (limits : RateLimits) (currentTime : Int) : RateLimiter :=
  setRateLimits drainTime
    { peakRateBucket := LeakyBucket.create drainTime 1 1 currentTime
      sustainedRateBucket := LeakyBucket.create drainTime 1 1 currentTime } limits

def updateState (limiter : RateLimiter) (currentTime : Int) : RateLimiter where
  peakRateBucket := limiter.peakRateBucket.updateState currentTime
  sustainedRateBucket := limiter.sustainedRateBucket.updateState currentTime

def wouldExceedBandwidth (limiter : RateLimiter) (currentTime : Int) : Bool × RateLimiter :=
  let peak := limiter.peakRateBucket.wouldOverflow currentTime
  if peak.1 then (true, { limiter with peakRateBucket := peak.2 })
  else
    let sustained := limiter.sustainedRateBucket.wouldOverflow currentTime
    (sustained.1, { peakRateBucket := peak.2, sustainedRateBucket := sustained.2 })

def submit (limiter : RateLimiter) (numUnits : Nat) : RateLimiter where
  peakRateBucket := limiter.peakRateBucket.submit numUnits
  sustainedRateBucket := limiter.sustainedRateBucket.submit numUnits

structure Metered where
  limiter : RateLimiter
  now : Int
  permitted : Bool := false
  submissions : List Charge := []

inductive Call where
  | updateState (currentTime : Int)
  | wouldExceedBandwidth (currentTime : Int)
  | submit (numUnits : Nat)

def Metered.step (metered : Metered) : Call -> Option Metered
  | .updateState currentTime =>
    some { metered with
      limiter := metered.limiter.updateState currentTime
      now := currentTime
      permitted := false }
  | .wouldExceedBandwidth currentTime =>
    let outcome := metered.limiter.wouldExceedBandwidth currentTime
    some { metered with
      limiter := outcome.2
      now := currentTime
      permitted := !outcome.1 }
  | .submit numUnits =>
    some { metered with
      limiter := metered.limiter.submit numUnits
      permitted := false
      submissions := metered.submissions ++ [{ time := metered.now, amount := numUnits }] }

def Metered.start (drainTime : DrainTime) (limits : RateLimits) (currentTime : Int) : Metered where
  limiter := create drainTime limits currentTime
  now := currentTime

def Drainable (bucket : LeakyBucket) (currentTime : Int) : Prop :=
  currentTime - bucket.lastUpdateTime ≤ bucket.maxUpdateInterval

instance (bucket : LeakyBucket) (currentTime : Int) : Decidable (Drainable bucket currentTime) :=
  inferInstanceAs (Decidable (_ ≤ _))

/-- Times do not decrease, no bucket is drained for longer than its bound, and units
are submitted, any 64-bit number of them, only when the call before permitted it. -/
def Metered.Admitted (metered : Metered) : Call -> Prop
  | .updateState currentTime => metered.now ≤ currentTime ∧
      Drainable metered.limiter.peakRateBucket currentTime ∧
      Drainable metered.limiter.sustainedRateBucket currentTime
  | .wouldExceedBandwidth currentTime => metered.now ≤ currentTime ∧
      Drainable metered.limiter.peakRateBucket currentTime ∧
      ((metered.limiter.peakRateBucket.wouldOverflow currentTime).1 = false ->
        Drainable metered.limiter.sustainedRateBucket currentTime)
  | .submit numUnits => metered.permitted = true ∧ numUnits < wordSize

instance (metered : Metered) : (call : Call) -> Decidable (metered.Admitted call)
  | .updateState _ => inferInstanceAs (Decidable (_ ∧ _ ∧ _))
  | .wouldExceedBandwidth _ => inferInstanceAs (Decidable (_ ∧ _ ∧ (_ -> _)))
  | .submit _ => inferInstanceAs (Decidable (_ ∧ _))

/-- What is in a bucket with what is submitted is a 64-bit number, as `submit`
requires. -/
def Metered.Representable (metered : Metered) : Call -> Prop
  | .submit numUnits =>
    metered.limiter.peakRateBucket.unitsReserved +
        metered.limiter.peakRateBucket.unitsInBucket + numUnits < wordSize ∧
      metered.limiter.sustainedRateBucket.unitsReserved +
        metered.limiter.sustainedRateBucket.unitsInBucket + numUnits < wordSize
  | _ => True

instance (metered : Metered) : (call : Call) -> Decidable (metered.Representable call)
  | .updateState _ => inferInstanceAs (Decidable True)
  | .wouldExceedBandwidth _ => inferInstanceAs (Decidable True)
  | .submit _ => inferInstanceAs (Decidable (_ ∧ _))

/-- The units submitted between any two moments are less than the capacity, what is
drained in between, and the last submission, for either bucket. -/
structure Metered.Limited (limits : RateLimits) (metered : Metered) : Prop where
  peak : Bounded nanoUnitsPerUnit limits.peakRateLimit
    (LeakyBucket.calculateCapacity limits.peakRateLimit limits.peakRateWindow)
    metered.submissions
  sustained : Bounded nanoUnitsPerUnit limits.sustainedRateLimit
    (LeakyBucket.calculateCapacity limits.sustainedRateLimit limits.sustainedRateWindow)
    metered.submissions

end RateLimiter

namespace LeakyBucket

theorem calculateCapacity_pos (drainRate : Nat) (timeWindow : Int) :
    0 < calculateCapacity drainRate timeWindow := by
  unfold calculateCapacity
  by_cases nothing : (calculateNumberOfUnitsToDrain 0 drainRate timeWindow).1 ≠ 0
  · rw [if_pos nothing]
    exact Nat.pos_of_ne_zero nothing
  · rw [if_neg nothing]
    exact Nat.one_pos

theorem emod_wordSize_le {value : Int} (nonnegative : 0 ≤ value) : value % wordSize ≤ value := by
  have partsEq := Int.mul_ediv_add_emod value wordSize
  have quotientNonneg := Int.ediv_nonneg nonnegative (Int.natCast_nonneg wordSize)
  have productNonneg := mul_nonneg (Int.natCast_nonneg wordSize) quotientNonneg
  linarith

variable {fraction : Nat} {timeInterval : Int}

section

variable (drainRate : Nat) (isFraction : fraction < nanoUnitsPerUnit)
  (nonnegative : 0 ≤ timeInterval)
include isFraction nonnegative

/-- What is drained is the quotient of what the rate allows, as far as 64 bits hold it, and the
fraction left over is its remainder: the nano-units that carry into the units do not wrap. -/
theorem calculateNumberOfUnitsToDrain_eq :
    calculateNumberOfUnitsToDrain fraction drainRate timeInterval =
      (((fraction + drainRate * timeInterval) / nanoUnitsPerUnit % wordSize).toNat,
        ((fraction + drainRate * timeInterval) % nanoUnitsPerUnit).toNat) := by
  unfold calculateNumberOfUnitsToDrain
  extract_lets seconds nanoseconds whole units nanounits
  have partsEq : timeInterval = nanoUnitsPerUnit * seconds + nanoseconds :=
    (Int.mul_tdiv_add_tmod timeInterval nanoUnitsPerUnit).symm
  have nanoNonneg : 0 ≤ nanoseconds := Int.tmod_nonneg _ nonnegative
  have nanoLt : nanoseconds < nanoUnitsPerUnit := Int.tmod_lt_of_pos _ (by decide)
  have rateEq : (drainRate : Int) = nanoUnitsPerUnit * (drainRate / nanoUnitsPerUnit : Nat) +
        (drainRate % nanoUnitsPerUnit : Nat) := by
    exact_mod_cast (Nat.div_add_mod drainRate nanoUnitsPerUnit).symm
  have restLt : (drainRate % nanoUnitsPerUnit : Nat) < nanoUnitsPerUnit := Nat.mod_lt _ (by decide)
  have productLe : ((drainRate % nanoUnitsPerUnit : Nat) : Int) * nanoseconds ≤
      nanoUnitsPerUnit * nanoUnitsPerUnit :=
    mul_le_mul (by omega) nanoLt.le nanoNonneg (by decide)
  have carriedEq : nanounits = fraction + (drainRate % nanoUnitsPerUnit : Nat) * nanoseconds := by
    apply Int.emod_eq_of_lt
    · positivity
    · have room : (nanoUnitsPerUnit : Int) + nanoUnitsPerUnit * nanoUnitsPerUnit < wordSize := by
        decide +kernel
      omega
  have allowedEq : (fraction : Int) + drainRate * timeInterval = nanounits + nanoUnitsPerUnit *
        (drainRate * seconds + (drainRate / nanoUnitsPerUnit : Nat) * nanoseconds) := by
    have split : (drainRate : Int) * nanoseconds =
        (nanoUnitsPerUnit * (drainRate / nanoUnitsPerUnit : Nat) +
          (drainRate % nanoUnitsPerUnit : Nat)) * nanoseconds := by
      rw [← rateEq]
    rw [carriedEq, partsEq]
    linarith
  have pos : (nanoUnitsPerUnit : Int) ≠ 0 := by decide
  rw [allowedEq, Int.add_mul_ediv_left _ _ pos, Int.add_mul_emod_self_left]
  have unitsEq : (units + nanounits / nanoUnitsPerUnit) % wordSize = (nanounits / nanoUnitsPerUnit +
        (drainRate * seconds + (drainRate / nanoUnitsPerUnit : Nat) * nanoseconds)) % wordSize := by
    rw [Int.emod_add_emod, Int.add_assoc, Int.emod_add_emod]
    congr 1
    ring
  rw [unitsEq]

/-- No more is drained than the rate allows, the fraction left over included. -/
theorem calculateNumberOfUnitsToDrain_le :
    (calculateNumberOfUnitsToDrain fraction drainRate timeInterval).2 < nanoUnitsPerUnit ∧
      (nanoUnitsPerUnit : Int) * (calculateNumberOfUnitsToDrain fraction drainRate timeInterval).1 +
        (calculateNumberOfUnitsToDrain fraction drainRate timeInterval).2 ≤
          drainRate * timeInterval + fraction := by
  rw [calculateNumberOfUnitsToDrain_eq drainRate isFraction nonnegative,
    Int.add_comm (drainRate * timeInterval)]
  have allowed : 0 ≤ (fraction : Int) + drainRate * timeInterval := by positivity
  generalize (fraction : Int) + drainRate * timeInterval = total at allowed ⊢
  have pos : (0 : Int) < nanoUnitsPerUnit := by decide
  have quotientNonneg := Int.ediv_nonneg allowed pos.le
  have wrappedNonneg := Int.emod_nonneg (total / nanoUnitsPerUnit)
    (show (wordSize : Int) ≠ 0 by decide +kernel)
  have wrappedLe := emod_wordSize_le quotientNonneg
  have restNonneg := Int.emod_nonneg total pos.ne'
  have restLt := Int.emod_lt_of_pos total pos
  constructor
  · omega
  · rw [Int.toNat_of_nonneg wrappedNonneg, Int.toNat_of_nonneg restNonneg]
    calc (nanoUnitsPerUnit : Int) * (total / nanoUnitsPerUnit % wordSize) + total % nanoUnitsPerUnit
        ≤ nanoUnitsPerUnit * (total / nanoUnitsPerUnit) + total % nanoUnitsPerUnit := by gcongr
      _ = total := Int.mul_ediv_add_emod total nanoUnitsPerUnit

end

/-! ## What a bucket accounts for -/

structure Tracks (drainRate capacity : Nat) (submissions : List Charge)
    (bucket : LeakyBucket) : Prop where
  drainRate_eq : bucket.drainRate = drainRate
  capacity_eq : bucket.capacity = capacity
  unreserved : bucket.unitsReserved = 0
  inRange : bucket.unitsInBucket < wordSize
  fraction : bucket.fractionalUnitDrainedInNanoUnits < nanoUnitsPerUnit
  level : Level nanoUnitsPerUnit drainRate (nanoUnitsPerUnit - 1) submissions
    bucket.lastUpdateTime
    (nanoUnitsPerUnit * bucket.unitsInBucket - bucket.fractionalUnitDrainedInNanoUnits)

variable {drainRate capacity : Nat} {submissions : List Charge} {bucket : LeakyBucket}

theorem Tracks.start (drainTime : DrainTime) (drainRate capacity : Nat) (currentTime : Int) :
    ((create drainTime 1 1 currentTime).setRateAndCapacity drainTime drainRate capacity).Tracks
      drainRate capacity [] where
  drainRate_eq := rfl
  capacity_eq := rfl
  unreserved := rfl
  inRange := Nat.two_pow_pos 64
  fraction := by
    show 0 < nanoUnitsPerUnit
    decide
  level := Level.start currentTime (Int.natCast_nonneg _) (by decide)

section

variable (tracks : bucket.Tracks drainRate capacity submissions)
include tracks

theorem Tracks.updateState {currentTime : Int} (inOrder : bucket.lastUpdateTime ≤ currentTime)
    (drainable : currentTime - bucket.lastUpdateTime ≤ bucket.maxUpdateInterval) :
    (bucket.updateState currentTime).Tracks drainRate capacity submissions ∧
      (bucket.updateState currentTime).lastUpdateTime = currentTime := by
  have elapsed : 0 ≤ currentTime - bucket.lastUpdateTime := sub_nonneg.mpr inOrder
  obtain ⟨fractionLt, drainedLe⟩ :=
    calculateNumberOfUnitsToDrain_le bucket.drainRate tracks.fraction elapsed
  unfold LeakyBucket.updateState
  rw [if_neg (not_lt.mpr drainable), if_pos elapsed]
  generalize calculateNumberOfUnitsToDrain bucket.fractionalUnitDrainedInNanoUnits
    bucket.drainRate (currentTime - bucket.lastUpdateTime) = drained at *
  have inBucket := tracks.inRange
  have leftLe : (bucket.unitsInBucket : Int) - drained.1 ≤
      (if drained.1 < bucket.unitsInBucket then bucket.unitsInBucket - drained.1 else 0 : Nat) := by
    split
    · omega
    · omega
  refine ⟨?_, rfl⟩
  constructor
  case drainRate_eq => exact tracks.drainRate_eq
  case capacity_eq => exact tracks.capacity_eq
  case unreserved => exact tracks.unreserved
  case inRange =>
    show (if drained.1 < bucket.unitsInBucket then bucket.unitsInBucket - drained.1 else 0) <
      wordSize
    split
    · omega
    · omega
  case fraction => exact fractionLt
  case level =>
    rw [tracks.drainRate_eq] at drainedLe
    apply tracks.level.leak (Int.natCast_nonneg _) inOrder
    · dsimp only
      have floor : (0 : Int) ≤ nanoUnitsPerUnit *
          (if drained.1 < bucket.unitsInBucket then bucket.unitsInBucket - drained.1 else 0 :
            Nat) := by positivity
      omega
    · dsimp only
      have scaled := mul_le_mul_of_nonneg_left leftLe (Int.natCast_nonneg nanoUnitsPerUnit)
      linarith

/-- When one more unit would not make it overflow there is room below the capacity. -/
theorem Tracks.room (fits : bucket.overflows = false) : bucket.unitsInBucket < capacity := by
  have inRange := tracks.inRange
  unfold overflows at fits
  rw [or_eq_false_iff, decide_eq_false_iff_not, decide_eq_false_iff_not, tracks.unreserved,
    tracks.capacity_eq] at fits
  obtain ⟨_, atMost⟩ := fits
  have spare : ((wordSize : Int) - 1 - bucket.unitsInBucket - (0 : Nat)) % wordSize =
      wordSize - 1 - bucket.unitsInBucket - (0 : Nat) := by
    apply Int.emod_eq_of_lt
    · omega
    · omega
  rw [Nat.mod_eq_of_lt (by omega)] at atMost
  omega

theorem Tracks.submit {numUnits : Nat}
    (representable : bucket.unitsReserved + bucket.unitsInBucket + numUnits < wordSize) :
    (bucket.submit numUnits).Tracks drainRate capacity
      (submissions ++ [{ time := bucket.lastUpdateTime, amount := numUnits }]) := by
  have sumEq : (bucket.unitsInBucket + numUnits) % wordSize = bucket.unitsInBucket + numUnits :=
    Nat.mod_eq_of_lt (by omega)
  unfold LeakyBucket.submit
  rw [sumEq]
  constructor
  case drainRate_eq => exact tracks.drainRate_eq
  case capacity_eq => exact tracks.capacity_eq
  case unreserved => exact tracks.unreserved
  case inRange =>
    show bucket.unitsInBucket + numUnits < wordSize
    omega
  case fraction => exact tracks.fraction
  case level =>
    have charged := tracks.level.charge (Int.natCast_nonneg nanoUnitsPerUnit) numUnits
    have levelEq : (nanoUnitsPerUnit : Int) * bucket.unitsInBucket -
        bucket.fractionalUnitDrainedInNanoUnits + nanoUnitsPerUnit * numUnits =
          nanoUnitsPerUnit * (bucket.unitsInBucket + numUnits : Nat) -
            bucket.fractionalUnitDrainedInNanoUnits := by
      push_cast
      ring
    rw [levelEq] at charged
    exact charged

theorem Tracks.bounded_submit (bounded : Bounded nanoUnitsPerUnit drainRate capacity submissions)
    (room : bucket.unitsInBucket < capacity) (numUnits : Nat) :
    Bounded nanoUnitsPerUnit drainRate capacity
      (submissions ++ [{ time := bucket.lastUpdateTime, amount := numUnits }]) := by
  apply bounded.charge tracks.level (Int.natCast_nonneg _)
  have scaled : (nanoUnitsPerUnit : Int) * (bucket.unitsInBucket + 1) ≤
      nanoUnitsPerUnit * capacity := by
    gcongr
    omega
  rw [mul_add] at scaled
  omega

end

end LeakyBucket

/-! ## The limiter over a run -/

namespace RateLimiter.Metered

structure Invariant (limits : RateLimits) (metered : Metered) : Prop
    extends Limited limits metered where
  peakTracks : metered.limiter.peakRateBucket.Tracks limits.peakRateLimit
    (LeakyBucket.calculateCapacity limits.peakRateLimit limits.peakRateWindow) metered.submissions
  sustainedTracks : metered.limiter.sustainedRateBucket.Tracks limits.sustainedRateLimit
    (LeakyBucket.calculateCapacity limits.sustainedRateLimit limits.sustainedRateWindow)
    metered.submissions
  peakTime : metered.limiter.peakRateBucket.lastUpdateTime ≤ metered.now
  sustainedTime : metered.limiter.sustainedRateBucket.lastUpdateTime ≤ metered.now
  permits : metered.permitted = true ->
    metered.limiter.peakRateBucket.lastUpdateTime = metered.now ∧
      metered.limiter.peakRateBucket.unitsInBucket <
        LeakyBucket.calculateCapacity limits.peakRateLimit limits.peakRateWindow ∧
      metered.limiter.sustainedRateBucket.lastUpdateTime = metered.now ∧
      metered.limiter.sustainedRateBucket.unitsInBucket <
        LeakyBucket.calculateCapacity limits.sustainedRateLimit limits.sustainedRateWindow

theorem start_invariant (drainTime : DrainTime) (limits : RateLimits) (currentTime : Int) :
    (start drainTime limits currentTime).Invariant limits where
  peak := Bounded.start (by
    have pos := LeakyBucket.calculateCapacity_pos limits.peakRateLimit limits.peakRateWindow
    exact mul_pos (by decide) (by exact_mod_cast pos)) (Int.natCast_nonneg _)
  sustained := Bounded.start (by
    have pos := LeakyBucket.calculateCapacity_pos limits.sustainedRateLimit
      limits.sustainedRateWindow
    exact mul_pos (by decide) (by exact_mod_cast pos)) (Int.natCast_nonneg _)
  peakTracks := LeakyBucket.Tracks.start drainTime _ _ currentTime
  sustainedTracks := LeakyBucket.Tracks.start drainTime _ _ currentTime
  peakTime := le_refl currentTime
  sustainedTime := le_refl currentTime
  permits := fun impossible => absurd impossible false_ne_true

variable {limits : RateLimits} {metered next : Metered}

section

variable (inv : metered.Invariant limits)
include inv

variable {currentTime : Int}

theorem Invariant.updateState (admitted : metered.Admitted (.updateState currentTime)) :
    ({ metered with
      limiter := metered.limiter.updateState currentTime
      now := currentTime
      permitted := false } : Metered).Invariant limits := by
  obtain ⟨inOrder, peakDrainable, sustainedDrainable⟩ := admitted
  obtain ⟨peakTracks, peakEq⟩ := inv.peakTracks.updateState
    (le_trans inv.peakTime inOrder) peakDrainable
  obtain ⟨sustainedTracks, sustainedEq⟩ := inv.sustainedTracks.updateState
    (le_trans inv.sustainedTime inOrder) sustainedDrainable
  exact { inv.toLimited with
    peakTracks := peakTracks
    sustainedTracks := sustainedTracks
    peakTime := le_of_eq peakEq
    sustainedTime := le_of_eq sustainedEq
    permits := fun impossible => absurd impossible false_ne_true }

theorem Invariant.wouldExceedBandwidth
    (admitted : metered.Admitted (.wouldExceedBandwidth currentTime)) : ({ metered with
      limiter := (metered.limiter.wouldExceedBandwidth currentTime).2
      now := currentTime
      permitted := !(metered.limiter.wouldExceedBandwidth currentTime).1 } :
        Metered).Invariant limits := by
  obtain ⟨inOrder, peakDrainable, sustainedDrainable⟩ := admitted
  obtain ⟨peakTracks, peakEq⟩ := inv.peakTracks.updateState
    (le_trans inv.peakTime inOrder) peakDrainable
  unfold RateLimiter.wouldExceedBandwidth
  by_cases peakOverflows : (metered.limiter.peakRateBucket.wouldOverflow currentTime).1 = true
  · -- The sustained bucket keeps its level and its time.
    rw [if_pos peakOverflows]
    exact { inv.toLimited with
      peakTracks := peakTracks
      sustainedTracks := inv.sustainedTracks
      peakTime := le_of_eq peakEq
      sustainedTime := le_trans inv.sustainedTime inOrder
      permits := fun impossible => absurd impossible false_ne_true }
  · rw [if_neg peakOverflows]
    have peakFits := eq_false_of_ne_true peakOverflows
    obtain ⟨sustainedTracks, sustainedEq⟩ := inv.sustainedTracks.updateState
      (le_trans inv.sustainedTime inOrder) (sustainedDrainable peakFits)
    exact { inv.toLimited with
      peakTracks := peakTracks
      sustainedTracks := sustainedTracks
      peakTime := le_of_eq peakEq
      sustainedTime := le_of_eq sustainedEq
      permits := by
        intro permitted
        have sustainedFits := (not_eq_true' _).mp permitted
        exact ⟨peakEq, peakTracks.room peakFits, sustainedEq, sustainedTracks.room sustainedFits⟩ }

theorem Invariant.submit {numUnits : Nat} (permitted : metered.permitted = true)
    (representable : metered.Representable (.submit numUnits)) : ({ metered with
      limiter := metered.limiter.submit numUnits
      permitted := false
      submissions := metered.submissions ++ [{ time := metered.now, amount := numUnits }] } :
        Metered).Invariant limits := by
  obtain ⟨peakEq, peakRoom, sustainedEq, sustainedRoom⟩ := inv.permits permitted
  have peakTracks := inv.peakTracks.submit representable.1
  have peak := inv.peakTracks.bounded_submit inv.peak peakRoom numUnits
  have sustainedTracks := inv.sustainedTracks.submit representable.2
  have sustained := inv.sustainedTracks.bounded_submit inv.sustained sustainedRoom numUnits
  rw [peakEq] at peakTracks peak
  rw [sustainedEq] at sustainedTracks sustained
  exact { inv with
    peak := peak
    sustained := sustained
    peakTracks := peakTracks
    sustainedTracks := sustainedTracks
    permits := fun impossible => absurd impossible false_ne_true }

theorem step_invariant {call : Call} (meets : metered.Admitted call ∧ metered.Representable call)
    (taken : metered.step call = some next) : next.Invariant limits := by
  obtain ⟨admitted, representable⟩ := meets
  cases call with
  | updateState currentTime =>
    cases taken
    exact inv.updateState admitted
  | wouldExceedBandwidth =>
    cases taken
    exact inv.wouldExceedBandwidth admitted
  | submit =>
    cases taken
    exact inv.submit admitted.1 representable

end

/-- Whatever the limits, in every state of every run whose calls are admitted and
whose submissions are representable, either bucket bounds what is submitted
between any two moments. -/
theorem always_limited (drainTime : DrainTime) (limits : RateLimits) (currentTime : Int)
    (calls : List Call) (meets : Run.Along step (fun metered call => metered.Admitted call ∧
      metered.Representable call) (start drainTime limits currentTime) calls) :
    Run.Always step (Limited limits) (start drainTime limits currentTime) calls := by
  have always := Run.always_of_along (fun _ _ _ inv meets taken => step_invariant inv meets taken)
    (start_invariant drainTime limits currentTime) meets
  exact Run.Always.mono (fun _ inv => Invariant.toLimited inv) always

def exactDrainTime : DrainTime := fun numUnits drainRate ceilFlag =>
  if ceilFlag then -(-(numUnits * 1000000000 : Int) / drainRate)
  else numUnits * 1000000000 / drainRate

def twoPerSecond : RateLimits where
  sustainedRateLimit := 2
  sustainedRateWindow := 5000000000
  peakRateLimit := 2
  peakRateWindow := 1000000000

def burst : List Call :=
  [.wouldExceedBandwidth 0, .submit 3, .wouldExceedBandwidth 500000000,
    .wouldExceedBandwidth 1500000000, .submit 1, .updateState 2000000000]

theorem always_limited_burst :
    Run.Along step (fun metered call => metered.Admitted call ∧ metered.Representable call)
        (start exactDrainTime twoPerSecond 0) burst ∧
      Run.Always step (Limited twoPerSecond) (start exactDrainTime twoPerSecond 0) burst := by
  have meets : Run.Along step (fun metered call => metered.Admitted call ∧
      metered.Representable call) (start exactDrainTime twoPerSecond 0) burst :=
    ⟨by decide +kernel, by decide +kernel, by decide +kernel, by decide +kernel,
      by decide +kernel, by decide +kernel, trivial⟩
  exact ⟨meets, always_limited exactDrainTime twoPerSecond 0 burst meets⟩

def wrapping : List Call :=
  [.wouldExceedBandwidth 0, .submit 1, .wouldExceedBandwidth 0, .submit (2 ^ 64 - 1),
    .wouldExceedBandwidth 0, .submit (2 ^ 64 - 1)]

theorem not_always_limited : ¬ ∀ drainTime limits currentTime calls,
    Run.Along step Admitted (start drainTime limits currentTime) calls ->
      Run.Always step (Limited limits) (start drainTime limits currentTime) calls := by
  intro all
  have always := all exactDrainTime twoPerSecond 0 wrapping
    ⟨by decide +kernel, by decide +kernel, by decide +kernel, by decide +kernel,
      by decide +kernel, by decide +kernel, trivial⟩
  have limited := (Run.always_iff _ _).mp always wrapping [] _ (List.append_nil _) rfl
  exact absurd (limited.peak 0 0 (le_refl 0)) (by decide +kernel)

end RateLimiter.Metered

end NtfCore.Ntcs
