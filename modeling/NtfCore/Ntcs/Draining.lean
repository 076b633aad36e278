import NtfCore.Ntcs.RateLimiter

/-!
Contract: what a leaky bucket drains over one interval after another.

An interval is bounded by the time in which the units that drain overflow 64 bits, which is the
longest interval between two updates.

Owns: draining over intervals in turn, and the theorem that nothing is lost or gained wherever
the time is split.
-/

namespace NtfCore.Ntcs.LeakyBucket

/-- The interval is not longer than that in which `ULLONG_MAX` units drain. -/
def WithinBound (drainRate : Nat) (timeInterval : Int) : Prop :=
  drainRate * timeInterval ≤ (wordSize - 1) * nanoUnitsPerUnit

instance (drainRate : Nat) (timeInterval : Int) : Decidable (WithinBound drainRate timeInterval) :=
  inferInstanceAs (Decidable (_ ≤ _))

def drains (drainRate : Nat) : Nat -> List Int -> Nat × Nat
  | fraction, [] => (0, fraction)
  | fraction, timeInterval :: rest =>
    let drained := calculateNumberOfUnitsToDrain fraction drainRate timeInterval
    let others := drains drainRate drained.2 rest
    (drained.1 + others.1, others.2)

def intervals : Int -> List Int -> List Int
  | _, [] => []
  | start, time :: rest => (time - start) :: intervals time rest

def latest : Int -> List Int -> Int
  | start, [] => start
  | _, time :: rest => latest time rest

def Spaced (within : Int -> Prop) : Int -> List Int -> Prop
  | _, [] => True
  | start, time :: rest => start ≤ time ∧ within (time - start) ∧ Spaced within time rest

variable {fraction drainRate : Nat} {timeInterval : Int}

section

variable (isFraction : fraction < nanoUnitsPerUnit) (nonnegative : 0 ≤ timeInterval)
include isFraction nonnegative

theorem calculateNumberOfUnitsToDrain_exact (within : WithinBound drainRate timeInterval) :
    (nanoUnitsPerUnit : Int) * (calculateNumberOfUnitsToDrain fraction drainRate timeInterval).1 +
        (calculateNumberOfUnitsToDrain fraction drainRate timeInterval).2 =
      fraction + drainRate * timeInterval := by
  rw [calculateNumberOfUnitsToDrain_eq drainRate isFraction nonnegative]
  have allowed : 0 ≤ (fraction : Int) + drainRate * timeInterval := by positivity
  have fits : (fraction : Int) + drainRate * timeInterval < nanoUnitsPerUnit * wordSize := by
    unfold WithinBound at within
    linarith
  generalize (fraction : Int) + drainRate * timeInterval = total at allowed fits ⊢
  have pos : (0 : Int) < nanoUnitsPerUnit := by decide
  have quotientNonneg := Int.ediv_nonneg allowed pos.le
  have quotientLt : total / nanoUnitsPerUnit < wordSize :=
    Int.ediv_lt_of_lt_mul pos (by rwa [Int.mul_comm])
  rw [Int.emod_eq_of_lt quotientNonneg quotientLt, Int.toNat_of_nonneg quotientNonneg,
    Int.toNat_of_nonneg (Int.emod_nonneg total pos.ne')]
  exact Int.mul_ediv_add_emod total nanoUnitsPerUnit

theorem calculateNumberOfUnitsToDrain_fraction :
    (calculateNumberOfUnitsToDrain fraction drainRate timeInterval).2 < nanoUnitsPerUnit :=
  (calculateNumberOfUnitsToDrain_le drainRate isFraction nonnegative).1

end

/-- A quotient and a remainder are determined by what they make. -/
theorem parts_unique {units otherUnits rest otherRest : Nat} (isRest : rest < nanoUnitsPerUnit)
    (isOtherRest : otherRest < nanoUnitsPerUnit)
    (same : (nanoUnitsPerUnit : Int) * units + rest = nanoUnitsPerUnit * otherUnits + otherRest) :
    units = otherUnits ∧ rest = otherRest := by
  unfold nanoUnitsPerUnit at isRest isOtherRest same
  omega

section Splitting

variable {drainRate fraction : Nat} {start : Int} {times : List Int} {within : Int -> Prop}

theorem Spaced.le_latest (spaced : Spaced within start times) : start ≤ latest start times := by
  induction times generalizing start with
  | nil => exact le_refl start
  | cons _ _ ih => exact le_trans spaced.1 (ih spaced.2.2)

section

variable (isFraction : fraction < nanoUnitsPerUnit)
  (spaced : Spaced (WithinBound drainRate) start times)
include isFraction spaced

theorem drains_exact : (drains drainRate fraction (intervals start times)).2 < nanoUnitsPerUnit ∧
      (nanoUnitsPerUnit : Int) * (drains drainRate fraction (intervals start times)).1 +
          (drains drainRate fraction (intervals start times)).2 =
        fraction + drainRate * (latest start times - start) := by
  induction times generalizing start fraction with
  | nil => simpa [drains, intervals, latest] using isFraction
  | cons _ _ ih =>
    obtain ⟨inOrder, bounded, others⟩ := spaced
    have nonnegative := Int.sub_nonneg_of_le inOrder
    have first := calculateNumberOfUnitsToDrain_exact isFraction nonnegative bounded
    obtain ⟨lastFraction, _⟩ := ih
      (calculateNumberOfUnitsToDrain_fraction isFraction nonnegative) others
    refine ⟨lastFraction, ?_⟩
    unfold intervals drains latest
    push_cast
    linarith

/-- What is drained does not depend on where the time is split. -/
theorem drains_eq (whole : WithinBound drainRate (latest start times - start)) :
    drains drainRate fraction (intervals start times) =
      calculateNumberOfUnitsToDrain fraction drainRate (latest start times - start) := by
  have nonnegative := Int.sub_nonneg_of_le spaced.le_latest
  obtain ⟨lastFraction, inTurn⟩ := drains_exact isFraction spaced
  have atOnce := calculateNumberOfUnitsToDrain_exact isFraction nonnegative whole
  obtain ⟨sameUnits, sameFraction⟩ := parts_unique lastFraction
    (calculateNumberOfUnitsToDrain_fraction isFraction nonnegative) (inTurn.trans atOnce.symm)
  exact Prod.ext sameUnits sameFraction

end

def drainedUntil (bucket : LeakyBucket) (time : Int) : LeakyBucket :=
  let drained := calculateNumberOfUnitsToDrain bucket.fractionalUnitDrainedInNanoUnits
    bucket.drainRate (time - bucket.lastUpdateTime)
  { bucket with
    statSubmittedUnitsAtLastUpdate := bucket.statSubmittedUnits
    lastUpdateTime := time
    unitsInBucket := bucket.unitsInBucket - drained.1
    fractionalUnitDrainedInNanoUnits := drained.2 }

theorem updateState_eq_drainedUntil {bucket : LeakyBucket} {time : Int}
    (inOrder : bucket.lastUpdateTime ≤ time)
    (bounded : time - bucket.lastUpdateTime ≤ bucket.maxUpdateInterval) :
    bucket.updateState time = bucket.drainedUntil time := by
  unfold updateState drainedUntil
  dsimp only
  rw [if_neg (by omega), if_pos (by omega)]
  split
  · rfl
  · rename_i emptied
    rw [Nat.sub_eq_zero_of_le (Nat.not_lt.mp emptied)]

theorem foldl_updateState (bucket : LeakyBucket)
    (spaced : Spaced (· ≤ bucket.maxUpdateInterval) bucket.lastUpdateTime times) :
    let drained := drains bucket.drainRate bucket.fractionalUnitDrainedInNanoUnits
      (intervals bucket.lastUpdateTime times)
    (times.foldl updateState bucket).lastUpdateTime = latest bucket.lastUpdateTime times ∧
      (times.foldl updateState bucket).unitsInBucket = bucket.unitsInBucket - drained.1 ∧
      (times.foldl updateState bucket).fractionalUnitDrainedInNanoUnits = drained.2 := by
  induction times generalizing bucket with
  | nil => exact ⟨rfl, rfl, rfl⟩
  | cons time _ ih =>
    obtain ⟨inOrder, bounded, others⟩ := spaced
    rw [List.foldl_cons, updateState_eq_drainedUntil inOrder bounded]
    obtain ⟨isLast, isUnits, isFraction⟩ := ih (bucket.drainedUntil time) others
    refine ⟨isLast, ?_, isFraction⟩
    rw [isUnits]
    exact Nat.sub_sub _ _ _

/-- Within the bound nothing is lost or gained over one interval after another: the units that
are drained and the fraction left over are all that the rate allows, they are the same when the
time is not split, and the bucket is lower by these units, unless it is empty. -/
theorem draining_splits (drainRate fraction : Nat) (start : Int) (times : List Int)
    (isFraction : fraction < nanoUnitsPerUnit)
    (spaced : Spaced (WithinBound drainRate) start times) :
    let drained := drains drainRate fraction (intervals start times)
    drained.2 < nanoUnitsPerUnit ∧ (nanoUnitsPerUnit : Int) * drained.1 + drained.2 =
        fraction + drainRate * (latest start times - start) ∧
      (WithinBound drainRate (latest start times - start) ->
        drained = calculateNumberOfUnitsToDrain fraction drainRate (latest start times - start)) ∧
      ∀ bucket : LeakyBucket, bucket.drainRate = drainRate ->
        bucket.fractionalUnitDrainedInNanoUnits = fraction -> bucket.lastUpdateTime = start ->
        Spaced (· ≤ bucket.maxUpdateInterval) start times ->
          (times.foldl updateState bucket).unitsInBucket = bucket.unitsInBucket - drained.1 ∧
            (times.foldl updateState bucket).fractionalUnitDrainedInNanoUnits = drained.2 := by
  intro drained
  obtain ⟨lastFraction, inTurn⟩ := drains_exact isFraction spaced
  refine ⟨lastFraction, inTurn, drains_eq isFraction spaced, ?_⟩
  intro bucket isRate isBucketFraction isStart bucketSpaced
  subst isRate isBucketFraction isStart
  exact (foldl_updateState bucket bucketSpaced).2

/-- Three units a second over one and a half seconds, split where no unit is complete. -/
theorem draining_splits_three :
    drains 3 0 (intervals 0 [250000000, 250000000, 1500000000]) = (4, 500000000) ∧
      drains 3 0 (intervals 0 [250000000, 250000000, 1500000000]) =
        calculateNumberOfUnitsToDrain 0 3 1500000000 :=
  ⟨by decide +kernel, (draining_splits 3 0 0 [250000000, 250000000, 1500000000] (by decide)
    ⟨by decide, by decide +kernel, by decide, by decide +kernel, by decide, by decide +kernel,
      trivial⟩).2.2.1 (by decide +kernel)⟩

end Splitting

end NtfCore.Ntcs.LeakyBucket
