import NtfCore.Ntca.XxHash32
import NtfCore.Ntcd.Compression.Encoding
import NtfCore.Ntsa.Data.Model

/-!
Contract: the checksums of `ntca::Checksum`.

Owns: Adler-32 as it is updated; the checksum of any of the types, which can be stored and
loaded, and is updated by the bytes of a blob; and the types whose digests resume.
-/

namespace NtfCore.Ntca

open NtfCore.Ntcd.Compression List

/-! ## Adler-32 -/

/-- One byte of `ChecksumAdler32::update`. -/
def adlerByte (sums : UInt32 × UInt32) (byte : UInt8) : UInt32 × UInt32 :=
  let s1 := (sums.1 + byte.toUInt32) % 65521
  (s1, (sums.2 + s1) % 65521)

/-- `ChecksumAdler32::update`. -/
def adlerUpdate (value : UInt32) (data : List UInt8) : UInt32 :=
  let sums := data.foldl adlerByte (value &&& 0xFFFF, (value >>> 16) &&& 0xFFFF)
  (sums.2 <<< 16) + sums.1

/-! ## Checksums of any type -/

/-- `ChecksumType`. -/
inductive ChecksumType where
  | undefined
  | adler32
  | crc32
  | xxh32

/-- `Checksum`. -/
inductive Checksum where
  | undefined
  | adler32 (value : UInt32)
  | crc32 (value : UInt32)
  | xxh32 (checksum : ChecksumXxHash32)

namespace Checksum

open ChecksumXxHash32

/-- The constructor from a type. -/
def ofType : ChecksumType -> Checksum
  | .undefined => .undefined
  | .adler32 => .adler32 1
  | .crc32 => .crc32 0
  | .xxh32 => .xxh32 (reset seed)

/-- `store` of a digest, which takes four bytes. The error is `e_INVALID`. -/
def store (type : ChecksumType) (value : List UInt8) : Option Checksum :=
  if value.length ≠ 4 then none
  else
    match type with
    | .undefined => none
    | .adler32 => some (.adler32 (loadWord value))
    | .crc32 => some (.crc32 (loadWord value))
    | .xxh32 => some (.xxh32 (reset (loadWord value)))

/-- `update`. A checksum without a type is not updated. -/
def update (checksum : Checksum) (data : List UInt8) : Checksum :=
  match checksum with
  | .undefined => .undefined
  | .adler32 value => .adler32 (adlerUpdate value data)
  | .crc32 value => .crc32 (crcUpdate value data)
  | .xxh32 checksum => .xxh32 (checksum.update data)

/-- The loop of `update` over the data buffers of a blob. -/
def updateLoop (checksum : Checksum) (numBytesRemaining : Nat) : List (List UInt8) -> Checksum
  | [] => checksum
  | buffer :: rest =>
    if buffer.length < numBytesRemaining then
      updateLoop (checksum.update buffer) (numBytesRemaining - buffer.length) rest
    else checksum.update (buffer.take numBytesRemaining)

/-- `update` of a blob. -/
def updateBlob (checksum : Checksum) (data : Ntsa.Blob) (size : Nat) : Checksum :=
  if size = 0 then checksum else updateLoop checksum size data.data

/-- `load`. -/
def load : Checksum -> List UInt8
  | .undefined => []
  | .adler32 value => word value
  | .crc32 value => word value
  | .xxh32 checksum => word checksum.value

theorem join_halves {high low : UInt32} (smallHigh : high.toNat < 2 ^ 16)
    (smallLow : low.toNat < 2 ^ 16) : ((high <<< 16) + low).toNat = high.toNat * 2 ^ 16 + low.toNat := by
  rw [UInt32.toNat_add, UInt32.toNat_shiftLeft, Nat.shiftLeft_eq]
  change (high.toNat * 2 ^ 16 % 2 ^ 32 + low.toNat) % 2 ^ 32 = _
  omega

theorem low_toNat (value : UInt32) : (value &&& 0xFFFF).toNat = value.toNat % 2 ^ 16 := by
  exact Nat.and_two_pow_sub_one_eq_mod _ 16

theorem high_toNat (value : UInt32) : ((value >>> 16) &&& 0xFFFF).toNat = value.toNat / 2 ^ 16 := by
  have bound := value.toNat_lt
  rw [low_toNat, UInt32.toNat_shiftRight, Nat.shiftRight_eq_div_pow]
  exact Nat.mod_eq_of_lt (by change _ / 2 ^ 16 < _; omega)

theorem adlerSums_lt (data : List UInt8) {s1 s2 : UInt32}
    (small : s1.toNat < 2 ^ 16 ∧ s2.toNat < 2 ^ 16) :
    (data.foldl adlerByte (s1, s2)).1.toNat < 2 ^ 16 ∧
      (data.foldl adlerByte (s1, s2)).2.toNat < 2 ^ 16 := by
  have modulo : ∀ value : UInt32, (value % 65521).toNat < 2 ^ 16 := by
    intro _
    exact Nat.lt_trans (Nat.mod_lt _ (by decide)) (by decide)
  induction data generalizing s1 s2 with
  | nil => exact small
  | cons _ _ ih => exact ih ⟨modulo _, modulo _⟩

theorem adlerUpdate_append (value : UInt32) (first second : List UInt8) :
    adlerUpdate value (first ++ second) = adlerUpdate (adlerUpdate value first) second := by
  have bound := value.toNat_lt
  have small : (value &&& 0xFFFF).toNat < 2 ^ 16 ∧ ((value >>> 16) &&& 0xFFFF).toNat < 2 ^ 16 := by
    rw [low_toNat, high_toNat]
    omega
  obtain ⟨smallLow, smallHigh⟩ := adlerSums_lt first small
  have joined := join_halves smallHigh smallLow
  unfold adlerUpdate
  rw [foldl_append]
  generalize first.foldl adlerByte (value &&& 0xFFFF, (value >>> 16) &&& 0xFFFF) = sums at *
  have isLow : ((sums.2 <<< 16) + sums.1) &&& 0xFFFF = sums.1 := by
    apply UInt32.toNat_inj.mp
    rw [low_toNat, joined]
    omega
  have isHigh : (((sums.2 <<< 16) + sums.1) >>> 16) &&& 0xFFFF = sums.2 := by
    apply UInt32.toNat_inj.mp
    rw [high_toNat, joined]
    omega
  rw [isLow, isHigh]

theorem adlerUpdate_nil (value : UInt32) : adlerUpdate value [] = value := by
  have bound := value.toNat_lt
  apply UInt32.toNat_inj.mp
  show (((value >>> 16) &&& 0xFFFF) <<< 16 + (value &&& 0xFFFF)).toNat = value.toNat
  rw [join_halves (by rw [high_toNat]; omega) (by rw [low_toNat]; omega), high_toNat, low_toNat]
  omega

/-- A checksum that is built from a type or a digest, and updated. -/
inductive Reached : Checksum -> Prop where
  | new (type : ChecksumType) : Reached (ofType type)
  | stored {type : ChecksumType} {value : List UInt8} {checksum : Checksum}
      (isStored : store type value = some checksum) : Reached checksum
  | updated {checksum : Checksum} (before : Reached checksum) (data : List UInt8) :
      Reached (checksum.update data)

/-- XXH32 as far as it is updated. -/
def Represented : Checksum -> Prop
  | .xxh32 checksum => ∃ start data, checksum.Represents start data
  | _ => True

variable {checksum : Checksum}

theorem Reached.represented (reached : Reached checksum) : checksum.Represented := by
  induction reached with
  | new type =>
    cases type with
    | xxh32 => exact ⟨seed, [], reset_represents seed⟩
    | undefined | adler32 | crc32 => trivial
  | @stored type _ checksum isStored =>
    unfold store at isStored
    split_ifs at isStored
    cases type with
    | undefined => contradiction
    | adler32 | crc32 =>
      cases isStored
      trivial
    | xxh32 =>
      cases isStored
      exact ⟨_, [], reset_represents _⟩
  | @updated checksum _ data ih =>
    cases checksum with
    | xxh32 =>
      obtain ⟨start, _, rep⟩ := ih
      exact ⟨start, _, rep.update data⟩
    | undefined | adler32 | crc32 => trivial

open Checksum

theorem Represented.update_append (represented : checksum.Represented) (first second : List UInt8) :
    checksum.update (first ++ second) = (checksum.update first).update second := by
  cases checksum with
  | undefined => rfl
  | adler32 value => exact congrArg adler32 (adlerUpdate_append value first second)
  | crc32 value => exact congrArg crc32 (crcUpdate_append value first second).symm
  | xxh32 =>
    obtain ⟨_, _, rep⟩ := represented
    have twice := (rep.update first).update second
    rw [append_assoc] at twice
    exact congrArg xxh32 ((rep.update (first ++ second)).unique twice)

theorem Represented.update_nil (represented : checksum.Represented) :
    checksum.update [] = checksum := by
  cases checksum with
  | undefined => rfl
  | adler32 value => exact congrArg adler32 (adlerUpdate_nil value)
  | crc32 => exact congrArg crc32 UInt32.not_not
  | xxh32 =>
    obtain ⟨_, _, rep⟩ := represented
    have same := rep.update []
    rw [append_nil] at same
    exact congrArg xxh32 (same.unique rep)

theorem updateLoop_eq (reached : Reached checksum) {buffers : List (List UInt8)} {size : Nat}
    (pos : 0 < size) (fits : size ≤ buffers.flatten.length) :
    updateLoop checksum size buffers = checksum.update (buffers.flatten.take size) := by
  induction buffers generalizing checksum size with
  | nil => exact absurd pos (Nat.not_lt.mpr fits)
  | cons buffer _ ih =>
    rw [flatten_cons, length_append] at fits
    rw [updateLoop, flatten_cons]
    split
    · rename_i more
      rw [ih (reached.updated buffer) (by omega) (by omega), ← reached.represented.update_append,
        take_append, take_of_length_le (Nat.le_of_lt more)]
    · rename_i enough
      rw [take_append_of_le_length (Nat.not_lt.mp enough)]

/-! ## Checkpoints -/

/-- What is loaded can be stored, loaded and updated as if nothing had happened. -/
def Resumes (type : ChecksumType) : Prop :=
  type ≠ .undefined -> ∀ first second,
    ∃ resumed, store type ((ofType type).update first).load = some resumed ∧
      resumed.load = ((ofType type).update first).load ∧
      (resumed.update second).load = ((ofType type).update (first ++ second)).load

theorem loadWord_four (value : UInt32) : ¬ (word value).length ≠ 4 :=
  not_not_intro (word_length value)

theorem xxh32_forgets : ¬ Resumes .xxh32 := by
  intro resumes
  obtain ⟨resumed, isStored, same, _⟩ := resumes nofun [] []
  have isResumed : resumed = .xxh32 (reset (loadWord (word ((reset seed).update []).value))) := by
    exact (Option.some.inj ((if_neg (loadWord_four _)).symm.trans isStored)).symm
  rw [isResumed] at same
  exact absurd same (by decide +kernel)

/-- A checksum can be stored and resumed if and only if it is not XXH32, and a blob updates any
checksum as its bytes do. -/
theorem checkpoint_iff (type : ChecksumType) : (Resumes type ↔ type ≠ .xxh32) ∧
      ∀ checksum, Reached checksum -> ∀ (data : Ntsa.Blob) size, size ≤ data.length ->
        checksum.updateBlob data size = checksum.update (data.contents.take size) := by
  refine ⟨⟨?_, ?_⟩, ?_⟩
  · rintro resumes rfl
    exact xxh32_forgets resumes
  · intro _ _ _ second
    cases type with
    | undefined => contradiction
    | adler32 =>
      refine ⟨_, if_neg (loadWord_four _), congrArg word (loadWord_word _), ?_⟩
      rw [(Reached.new .adler32).represented.update_append]
      exact congrArg (fun value => ((adler32 value).update second).load) (loadWord_word _)
    | crc32 =>
      refine ⟨_, if_neg (loadWord_four _), congrArg word (loadWord_word _), ?_⟩
      rw [(Reached.new .crc32).represented.update_append]
      exact congrArg (fun value => ((crc32 value).update second).load) (loadWord_word _)
    | xxh32 => contradiction
  · intro _ reached _ _ fits
    rw [updateBlob]
    split
    · rename_i isZero
      rw [isZero, take_zero, reached.represented.update_nil]
    · rename_i ne
      exact updateLoop_eq reached (Nat.pos_of_ne_zero ne) fits

theorem not_all_resume : ¬ ∀ type, Resumes type := fun all => xxh32_forgets (all .xxh32)

end Checksum

end NtfCore.Ntca
