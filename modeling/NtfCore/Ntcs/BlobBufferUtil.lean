import Mathlib.Data.Nat.Basic

/-!
Contract: making room in the read queue of a socket (`ntcs::BlobBufferUtil`).

Owns: `calculateNumBytesToAllocate` with checked arithmetic, where a sum or a
difference that wraps and an assertion that fails are `none`, the loop of
`reserveCapacity`, and that both succeed.

The total size of a blob is an `int`, and appending a buffer past that is outside of what a blob
supports.
-/

namespace NtfCore.Ntcs.BlobBufferUtil

def sizeModulus : Nat := 18446744073709551616

def checkedAdd (left right : Nat) : Option Nat :=
  if left + right < sizeModulus then some (left + right) else none

def checkedSub (left right : Nat) : Option Nat :=
  if right ≤ left then some (left - right) else none

def asserts (condition : Prop) [Decidable condition] : Option Unit :=
  if condition then some () else none

/-- `BlobBufferUtil::calculateNumBytesToAllocate`. -/
def calculateNumBytesToAllocate (size capacity lowWatermark minReceiveSize maxReceiveSize : Nat) :
    Option Nat := do
  asserts (size ≤ capacity ∧ 0 < minReceiveSize ∧ 0 < maxReceiveSize)
  let minReceiveSize := if maxReceiveSize < minReceiveSize then maxReceiveSize else minReceiveSize
  let numBytesToAllocate ←
    (if capacity < lowWatermark then checkedSub lowWatermark capacity else some 0)
  let unused ← checkedSub capacity size
  let numBytesToBeAvailable ← checkedAdd unused numBytesToAllocate
  let numBytesToAllocate ←
    (if numBytesToBeAvailable < minReceiveSize then do
      let numBytesToAdjust ← checkedSub minReceiveSize numBytesToBeAvailable
      checkedAdd numBytesToAllocate numBytesToAdjust
    else some numBytesToAllocate)
  let numBytesToAllocate ←
    (if maxReceiveSize < numBytesToBeAvailable then do
      let numBytesToAdjust ← checkedSub numBytesToBeAvailable maxReceiveSize
      (if numBytesToAllocate < numBytesToAdjust then some 0
      else checkedSub numBytesToAllocate numBytesToAdjust)
    else some numBytesToAllocate)
  let available ← checkedAdd unused numBytesToAllocate
  asserts (1 ≤ available ∧ numBytesToAllocate ≤ maxReceiveSize)
  some numBytesToAllocate

/-- `INT_MAX`. -/
def intMax : Nat := 2147483647

/-- The sizes of a `bdlbb::Blob`. -/
structure Blob where
  length : Nat
  totalSize : Nat
  ordered : length ≤ totalSize
  bounded : totalSize ≤ intMax

/-- `Blob::appendBuffer`, which supports no total size over `INT_MAX`. -/
def Blob.appendBuffer (blob : Blob) (size : Nat) : Option Blob :=
  if bounded : blob.totalSize + size ≤ intMax then
    some { blob with
      totalSize := blob.totalSize + size
      ordered := Nat.le_add_right_of_le blob.ordered
      bounded }
  else none

/-- How `reserveCapacity` ends: with a buffer that no blob supports, with an
assertion that fails, or as it should. -/
inductive Reserved where
  | exceeded
  | failed
  | reserved (blob : Blob)

/-- The loop of `reserveCapacity`. The factory is known by the sizes of the buffers it
supplies. -/
def reserveLoop (factory : Nat -> Nat) (numBytesToAllocate : Nat) :
    Nat -> Nat -> Nat -> Blob -> Option Reserved
  | 0, _, _, _ => none
  | fuel + 1, next, numBytesAllocated, blob =>
    if numBytesAllocated < numBytesToAllocate then
      match blob.appendBuffer (factory next) with
      | none => some .exceeded
      | some appended => reserveLoop factory numBytesToAllocate fuel (next + 1)
          ((numBytesAllocated + factory next) % sizeModulus) appended
    else some (.reserved blob)

/-- `BlobBufferUtil::reserveCapacity`. -/
def reserveCapacity (fuel : Nat) (blob : Blob) (factory : Nat -> Nat)
    (lowWatermark minReceiveSize maxReceiveSize : Nat) : Option Reserved :=
  match calculateNumBytesToAllocate blob.length blob.totalSize lowWatermark minReceiveSize
    maxReceiveSize with
  | none => some .failed
  | some numBytesToAllocate =>
    match reserveLoop factory numBytesToAllocate fuel 0 0 blob with
    | some (.reserved final) =>
      if min minReceiveSize maxReceiveSize ≤ final.totalSize - final.length then
        some (.reserved final)
      else some .failed
    | other => other

/-! ## The number of bytes -/

theorem checkedAdd_eq {left right : Nat} (fits : left + right < sizeModulus) :
    checkedAdd left right = some (left + right) :=
  if_pos fits

theorem checkedSub_eq {left right : Nat} (ordered : right ≤ left) :
    checkedSub left right = some (left - right) :=
  if_pos ordered

/-- The computation succeeds, within the bounds on what it allocates and on the room. -/
def Allocates (size capacity lowWatermark minReceiveSize maxReceiveSize : Nat) : Prop :=
  ∃ numBytes, calculateNumBytesToAllocate size capacity lowWatermark minReceiveSize
      maxReceiveSize = some numBytes ∧ numBytes ≤ maxReceiveSize ∧
    min minReceiveSize maxReceiveSize ≤ capacity - size + numBytes ∧
    capacity - size + numBytes ≤ max maxReceiveSize (capacity - size)

theorem calculateNumBytesToAllocate_spec
    {size capacity low minReceiveSize maxReceiveSize : Nat} (ordered : size ≤ capacity)
    (capacityBound : capacity < sizeModulus) (lowBound : low < sizeModulus)
    (minPositive : 0 < minReceiveSize) (maxPositive : 0 < maxReceiveSize)
    (maxBound : maxReceiveSize < sizeModulus) :
    Allocates size capacity low minReceiveSize maxReceiveSize := by
  have clipped : (if maxReceiveSize < minReceiveSize then maxReceiveSize else minReceiveSize) =
      min minReceiveSize maxReceiveSize := by split <;> omega
  have missing : (if capacity < low then checkedSub low capacity else some 0) =
      some (low - capacity) := by
    split
    · exact checkedSub_eq (by omega)
    · rw [Nat.sub_eq_zero_of_le (by omega)]
  have available : capacity - size + (low - capacity) < sizeModulus := by omega
  unfold Allocates calculateNumBytesToAllocate
  simp only [asserts, ordered, minPositive, maxPositive, and_self, if_true, clipped, missing,
    checkedSub_eq, checkedAdd_eq available, Option.bind_eq_bind, Option.bind_some]
  by_cases short : capacity - size + (low - capacity) < min minReceiveSize maxReceiveSize
  · rw [if_pos short, checkedSub_eq (by omega), Option.bind_some, checkedAdd_eq (by omega),
      Option.bind_some, if_neg (by omega), Option.bind_some, checkedAdd_eq (by omega),
      Option.bind_some, if_pos ⟨by omega, by omega⟩]
    exact ⟨_, rfl, by omega, by omega, by omega⟩
  · rw [if_neg short, Option.bind_some]
    by_cases excess : maxReceiveSize < capacity - size + (low - capacity)
    · rw [if_pos excess, checkedSub_eq (by omega), Option.bind_some]
      have trimmed : (if low - capacity <
            capacity - size + (low - capacity) - maxReceiveSize then some 0
          else checkedSub (low - capacity) (capacity - size + (low - capacity) - maxReceiveSize)) =
          some (maxReceiveSize - (capacity - size)) := by
        split
        · rw [Nat.sub_eq_zero_of_le (by omega)]
        · rw [checkedSub_eq (by omega)]
          congr 1
          omega
      rw [trimmed, Option.bind_some, checkedAdd_eq (by omega), Option.bind_some,
        if_pos ⟨by omega, by omega⟩]
      exact ⟨_, rfl, by omega, by omega, by omega⟩
    · rw [if_neg excess, Option.bind_some, checkedAdd_eq available, Option.bind_some,
        if_pos ⟨by omega, by omega⟩]
      exact ⟨_, rfl, by omega, by omega, by omega⟩

/-! ## Reserving -/

/-- The size of the first buffers that the factory supplies. -/
def supplied (factory : Nat -> Nat) : Nat -> Nat
  | 0 => 0
  | next + 1 => supplied factory next + factory next

theorem supplied_mono (factory : Nat -> Nat) {fewer more : Nat} (ordered : fewer ≤ more) :
    supplied factory fewer ≤ supplied factory more := by
  induction ordered with
  | refl => exact Nat.le_refl _
  | step _ ih => exact Nat.le_add_right_of_le ih

/-- A buffer is needed that takes the total size over `INT_MAX`. -/
def Exceeds (factory : Nat -> Nat) (numBytesToAllocate totalSize : Nat) : Prop :=
  ∃ next, supplied factory next < numBytesToAllocate ∧
    intMax < totalSize + supplied factory (next + 1)

/-- The number of bytes counted is what the factory has supplied and never wraps. -/
theorem reserveLoop_spec {factory : Nat -> Nat} (pos : ∀ next, 0 < factory next)
    (numBytesToAllocate totalSize : Nat) {fuel next : Nat} {blob : Blob}
    (enough : intMax < blob.totalSize + fuel)
    (isTotal : blob.totalSize = totalSize + supplied factory next) :
    (reserveLoop factory numBytesToAllocate fuel next (supplied factory next) blob =
        some .exceeded ∧ Exceeds factory numBytesToAllocate totalSize) ∨
      ∃ final, reserveLoop factory numBytesToAllocate fuel next (supplied factory next) blob =
          some (.reserved final) ∧ ¬ Exceeds factory numBytesToAllocate totalSize ∧
        final.length = blob.length ∧ totalSize + numBytesToAllocate ≤ final.totalSize := by
  have blobBound := blob.bounded
  induction fuel generalizing next blob with
  | zero => exact absurd blobBound (Nat.not_le_of_lt enough)
  | succ fuel ih =>
    rw [reserveLoop]
    by_cases more : supplied factory next < numBytesToAllocate
    · rw [if_pos more, Blob.appendBuffer]
      by_cases bounded : blob.totalSize + factory next ≤ intMax
      · have grows := pos next
        have fits : supplied factory next + factory next < sizeModulus := by
          unfold intMax at bounded
          unfold sizeModulus
          omega
        rw [dif_pos bounded]
        rw [Nat.mod_eq_of_lt fits]
        refine ih (by dsimp only; omega) ?_ bounded
        dsimp only
        rw [isTotal, Nat.add_assoc, supplied]
      · rw [dif_neg bounded]
        refine .inl ⟨rfl, next, more, ?_⟩
        rw [supplied]
        omega
    · rw [if_neg more]
      refine .inr ⟨blob, rfl, ?_, rfl, by omega⟩
      rintro ⟨earlier, needed, exceeds⟩
      have isEarlier : earlier + 1 ≤ next := by
        by_contra isLater
        have ordered := supplied_mono factory (show next ≤ earlier by omega)
        omega
      have ordered := supplied_mono factory isEarlier
      omega

/-- The number of bytes to allocate is computed without wrapping, within its bounds. The
loop ends with the room that is asserted, unless it needs a buffer that takes the blob over
the total size it supports. -/
theorem reserveCapacity_room :
    (∀ size capacity lowWatermark minReceiveSize maxReceiveSize : Nat, size ≤ capacity ->
      capacity < sizeModulus -> lowWatermark < sizeModulus -> 0 < minReceiveSize ->
      0 < maxReceiveSize -> maxReceiveSize < sizeModulus ->
      Allocates size capacity lowWatermark minReceiveSize maxReceiveSize) ∧
      ∀ (blob : Blob) (factory : Nat -> Nat) (lowWatermark minReceiveSize maxReceiveSize : Nat),
        (∀ next, 0 < factory next) -> lowWatermark < sizeModulus -> 0 < minReceiveSize ->
        0 < maxReceiveSize -> maxReceiveSize < sizeModulus ->
        ∃ fuel numBytes outcome, calculateNumBytesToAllocate blob.length blob.totalSize
            lowWatermark minReceiveSize maxReceiveSize = some numBytes ∧
          reserveCapacity fuel blob factory lowWatermark minReceiveSize maxReceiveSize =
            some outcome ∧ ((outcome = .exceeded ∧ Exceeds factory numBytes blob.totalSize) ∨
            ∃ final, outcome = .reserved final ∧ ¬ Exceeds factory numBytes blob.totalSize ∧
              min minReceiveSize maxReceiveSize ≤ final.totalSize - final.length) := by
  refine ⟨fun _ _ _ _ _ => calculateNumBytesToAllocate_spec, ?_⟩
  intro blob factory lowWatermark minReceiveSize maxReceiveSize pos lowBound minPositive
    maxPositive maxBound
  have blobBound := blob.bounded
  obtain ⟨numBytes, isNumBytes, _, enough, _⟩ := calculateNumBytesToAllocate_spec blob.ordered
    (by unfold intMax at blobBound; unfold sizeModulus; omega) lowBound minPositive maxPositive
    maxBound
  refine ⟨intMax + 1, numBytes, ?_⟩
  unfold reserveCapacity
  rw [isNumBytes]
  dsimp only
  rcases @reserveLoop_spec factory pos numBytes blob.totalSize (intMax + 1) 0 blob (by omega)
    rfl with ⟨isExceeded, exceeds⟩ | ⟨final, isFinal, supported, sameLength, grown⟩
  · rw [supplied] at isExceeded
    rw [isExceeded]
    exact ⟨_, rfl, rfl, .inl ⟨rfl, exceeds⟩⟩
  · have ordered := blob.ordered
    have room : min minReceiveSize maxReceiveSize ≤ final.totalSize - final.length := by omega
    rw [supplied] at isFinal
    rw [isFinal]
    dsimp only
    rw [if_pos room]
    exact ⟨_, rfl, rfl, .inr ⟨final, rfl, supported, room⟩⟩

/-- Two bytes are missing to the low watermark, for which one buffer of four is appended. -/
theorem reserveCapacity_room_four : Allocates 3 8 10 4 16 ∧
    (∃ fuel numBytes outcome, calculateNumBytesToAllocate 3 8 10 4 16 = some numBytes ∧
      reserveCapacity fuel ⟨3, 8, by decide, by decide⟩ (fun _ => 4) 10 4 16 = some outcome ∧
      ((outcome = .exceeded ∧ Exceeds (fun _ => 4) numBytes 8) ∨
        ∃ final, outcome = .reserved final ∧ ¬ Exceeds (fun _ => 4) numBytes 8 ∧
          min 4 16 ≤ final.totalSize - final.length)) ∧
    reserveCapacity 2 ⟨3, 8, by decide, by decide⟩ (fun _ => 4) 10 4 16 =
      some (.reserved ⟨3, 12, by decide, by decide⟩) :=
  ⟨reserveCapacity_room.1 3 8 10 4 16 (by decide) (by decide) (by decide) (by decide) (by decide)
      (by decide),
    reserveCapacity_room.2 ⟨3, 8, by decide, by decide⟩ (fun _ => 4) 10 4 16 (fun _ => by decide)
      (by decide) (by decide) (by decide) (by decide), rfl⟩

end NtfCore.Ntcs.BlobBufferUtil
