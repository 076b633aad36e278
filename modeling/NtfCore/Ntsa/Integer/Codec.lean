import NtfCore.Foundation.Bytes
import NtfCore.Ntsa.Integer.Magnitude

/-!
Contract: which integers `AbstractInteger::encode` writes in two's complement, and
what `AbstractInteger::decode` reads.

Owns: two's complement in network order and its shortest form, that `decode` reads
any sequence of bytes, and that `encode` writes exactly the integers whose bytes
can be negated block by block.
-/

namespace NtfCore.Ntsa

open NtfCore.Foundation List AbstractInteger
open NtfCore.Foundation.Bytes

/-! ## Two's complement -/

def twosComplement : List UInt8 -> Int
  | [] => 0
  | first :: rest =>
    if first &&& 0x80 = 0 then loadBigEndian (first :: rest)
    else loadBigEndian (first :: rest) - 256 ^ (rest.length + 1)

structure Shortest (bytes : List UInt8) (integer : Int) : Prop where
  nonempty : bytes ≠ []
  represents : twosComplement bytes = integer
  shortest : ∀ other, other ≠ [] -> twosComplement other = integer -> bytes.length ≤ other.length

def Redundant : List UInt8 -> Prop
  | first :: next :: _ => first = 0x00 ∧ next &&& 0x80 = 0 ∨ first = 0xFF ∧ next &&& 0x80 ≠ 0
  | _ => False

theorem signBit (byte : UInt8) : (byte &&& 0x80 = 0 ↔ byte.toNat < 128) ∧
      (byte &&& 0x80 ≠ 0 -> (byte &&& ~~~0x80).toNat = byte.toNat - 128 ∧
        (byte &&& ~~~0x7F) = 0x80) := by
  have every : ∀ value : Fin 256, (UInt8.ofNat value &&& 0x80 = 0 ↔ (UInt8.ofNat value).toNat < 128) ∧
      (UInt8.ofNat value &&& 0x80 ≠ 0 ->
        (UInt8.ofNat value &&& ~~~0x80).toNat = (UInt8.ofNat value).toNat - 128 ∧
        (UInt8.ofNat value &&& ~~~0x7F) = 0x80) := by decide +kernel
  have isByte := every ⟨byte.toNat, byte.toNat_lt⟩
  rwa [UInt8.ofNat_toNat] at isByte

theorem loadBigEndian_cons (first : UInt8) (rest : List UInt8) :
    loadBigEndian (first :: rest) = first.toNat * 256 ^ rest.length + loadBigEndian rest := by
  unfold loadBigEndian loadLittleEndian
  rw [reverse_cons, map_append, Nat.ofDigits_append, length_map,
    length_reverse, map_singleton, Nat.ofDigits_singleton]
  ring

theorem loadBigEndian_append (high low : List UInt8) :
    loadBigEndian (high ++ low) = loadBigEndian high * 256 ^ low.length + loadBigEndian low := by
  unfold loadBigEndian loadLittleEndian
  rw [reverse_append, map_append, Nat.ofDigits_append, length_map, length_reverse]
  ring

theorem loadBigEndian_lt (bytes : List UInt8) : loadBigEndian bytes < 256 ^ bytes.length := by
  have bound := Nat.ofDigits_lt_base_pow_length (b := 256) (l := bytes.reverse.map UInt8.toNat)
    (by decide) (by
      intro _ mem
      obtain ⟨byte, _, isDigit⟩ := mem_map.mp mem
      exact isDigit ▸ byte.toNat_lt)
  rwa [length_map, length_reverse] at bound

def signedByte (byte : UInt8) : Int :=
  if byte.toNat < 128 then byte.toNat else byte.toNat - 256

/-- Two's complement counts the first byte as a signed number. -/
theorem twosComplement_cons (first : UInt8) (rest : List UInt8) : twosComplement (first :: rest) =
      signedByte first * 256 ^ rest.length + loadBigEndian rest := by
  have sign := (signBit first).1
  rw [twosComplement, loadBigEndian_cons, signedByte]
  by_cases small : first.toNat < 128
  · rw [if_pos (sign.mpr small), if_pos small]
    push_cast
    ring
  · rw [if_neg fun clear => small (sign.mp clear), if_neg small, pow_succ]
    push_cast
    ring

theorem signedByte_bounds (byte : UInt8) : -128 ≤ signedByte byte ∧ signedByte byte < 128 := by
  have bound := byte.toNat_lt
  unfold signedByte
  split
  · omega
  · omega

/-- The integers that fit into so many bytes. -/
theorem twosComplement_bounds (first : UInt8) (rest : List UInt8) :
    -(128 * 256 ^ rest.length : Int) ≤ twosComplement (first :: rest) ∧
      twosComplement (first :: rest) < 128 * 256 ^ rest.length := by
  have bound := loadBigEndian_lt rest
  obtain ⟨_, _⟩ := signedByte_bounds first
  rw [twosComplement_cons]
  zify at bound
  constructor
  · nlinarith
  · nlinarith

/-- A sequence that is not redundant stands for an integer that does not fit into
fewer bytes. -/
theorem exceeds_of_not_redundant {first next : UInt8} {rest : List UInt8}
    (notRedundant : ¬ Redundant (first :: next :: rest)) :
    twosComplement (first :: next :: rest) < -(128 * 256 ^ rest.length : Int) ∨
      128 * 256 ^ rest.length ≤ twosComplement (first :: next :: rest) := by
  have bound := loadBigEndian_lt rest
  have nextBound := next.toNat_lt
  have firstBound := first.toNat_lt
  have sign := (signBit next).1
  rw [twosComplement_cons, loadBigEndian_cons, length_cons, pow_succ]
  push_cast
  zify at bound nextBound
  by_cases isZero : first = 0x00
  · -- The second byte has the most significant bit.
    have large : 128 ≤ next.toNat := by
      by_contra small
      exact notRedundant (.inl ⟨isZero, sign.mpr (by omega)⟩)
    have signed : signedByte first = 0 := by rw [isZero]; rfl
    zify at large
    right
    rw [signed]
    nlinarith
  · by_cases isOnes : first = 0xFF
    · have small : next.toNat < 128 := by
        by_contra large
        exact notRedundant (.inr ⟨isOnes, fun clear => large (sign.mp clear)⟩)
      have signed : signedByte first = -1 := by rw [isOnes]; rfl
      zify at small
      left
      nlinarith
    · have notZero : first.toNat ≠ 0 := fun same => isZero (UInt8.toNat_inj.mp same)
      have notOnes : first.toNat ≠ 255 := fun same => isOnes (UInt8.toNat_inj.mp same)
      unfold signedByte
      split
      · right
        have pos : (1 : Int) ≤ first.toNat := by omega
        nlinarith
      · left
        have negative : (first.toNat : Int) - 256 ≤ -2 := by omega
        nlinarith

theorem shortest_of_not_redundant {bytes : List UInt8} (ne : bytes ≠ [])
    (notRedundant : ¬ Redundant bytes) : Shortest bytes (twosComplement bytes) := by
  refine ⟨ne, rfl, ?_⟩
  intro other otherNonempty _
  cases bytes with
  | nil => contradiction
  | cons _ bytes =>
    cases bytes with
    | nil => exact length_pos_iff.mpr otherNonempty
    | cons _ rest =>
      cases other with
      | nil => contradiction
      | cons start others =>
        by_contra shorter
        simp only [length_cons] at shorter
        obtain ⟨_, _⟩ := twosComplement_bounds start others
        have weights : (256 : Int) ^ others.length ≤ 256 ^ rest.length :=
          pow_le_pow_right₀ (by decide) (by omega)
        rcases exceeds_of_not_redundant notRedundant with _ | _
        · omega
        · omega

namespace AbstractIntegerQuantity

open AbstractIntegerRepresentation

variable {block : Block} {j : Nat}

theorem toNat_shift_or (byte : UInt8) (inside : j < 4) (fits : block.toNat < 256 ^ j) :
    (block ||| (byte.toUInt32 <<< UInt32.ofNat (8 * j))).toNat =
      block.toNat + 256 ^ j * byte.toNat := by
  have byteBound := byte.toNat_lt
  have weight : 256 ^ j = 2 ^ (8 * j) := by
    rw [pow_mul]
    rfl
  have total : byte.toNat * 2 ^ (8 * j) < 2 ^ 32 := by
    have largest : 2 ^ (8 * j) ≤ 2 ^ 24 := Nat.pow_le_pow_right (by decide) (by omega)
    calc byte.toNat * 2 ^ (8 * j) ≤ 255 * 2 ^ 24 := Nat.mul_le_mul (by omega) largest
      _ < 2 ^ 32 := by decide
  have amount : (UInt32.ofNat (8 * j)).toNat = 8 * j := by
    rw [UInt32.toNat_ofNat', Nat.mod_eq_of_lt (by omega)]
  have shifted : (byte.toUInt32 <<< UInt32.ofNat (8 * j)).toNat = byte.toNat <<< (8 * j) := by
    rw [UInt32.toNat_shiftLeft, amount, UInt8.toNat_toUInt32, Nat.mod_eq_of_lt (by omega : 8 * j < 32)]
    rw [Nat.shiftLeft_eq, Nat.mod_eq_of_lt total]
  rw [weight] at fits ⊢
  rw [UInt32.toNat_or, shifted, Nat.or_comm, ← Nat.shiftLeft_add_eq_or_of_lt fits, Nat.shiftLeft_eq]
  ring

/-- The loop of `decode` reads the bytes in groups of four. -/
theorem value_decodeLoop (bytes : List UInt8) (inside : j < 4) (fits : block.toNat < 256 ^ j) :
    value (decodeLoop bytes j block) = block.toNat + 256 ^ j * loadLittleEndian bytes := by
  induction bytes generalizing j block with
  | nil =>
    rw [decodeLoop]
    split
    · simp [loadLittleEndian]
    · rename_i isZero
      rw [not_not.mp isZero]
      rfl
  | cons byte rest ih =>
    have read := toNat_shift_or byte inside fits
    have byteBound := byte.toNat_lt
    have unfolded : loadLittleEndian (byte :: rest) = byte.toNat + 256 * loadLittleEndian rest :=
      Nat.ofDigits_cons
    have room : (block ||| (byte.toUInt32 <<< UInt32.ofNat (8 * j))).toNat < 256 ^ (j + 1) := by
      have scaled : 256 ^ j * byte.toNat ≤ 256 ^ j * 255 := Nat.mul_le_mul_left _ (by omega)
      omega
    rw [decodeLoop, unfolded]
    split
    · rename_i full
      have isFour : j + 1 = 4 := full
      have radixEq : radix = 256 ^ j * 256 := by
        rw [← pow_succ, isFour]
        rfl
      have later := @ih 0 0 (by decide) (by decide)
      rw [value_cons, later, read, radixEq]
      simp only [UInt32.toNat_zero, Nat.pow_zero, Nat.zero_add, Nat.one_mul]
      ring
    · rename_i more
      have notFour : j + 1 ≠ 4 := more
      rw [ih (by omega) room, read, Nat.pow_succ]
      ring

variable (data : List UInt8)

theorem loadBigEndian_dropWhile : loadBigEndian (data.dropWhile (· == 0)) = loadBigEndian data := by
  induction data with
  | nil => rfl
  | cons first _ ih =>
    by_cases isZero : first = 0
    · rw [dropWhile_cons_of_pos (by simp [isZero]), ih, loadBigEndian_cons, isZero]
      simp
    · rw [dropWhile_cons_of_neg (by simp [isZero])]

/-- `decode` of a magnitude reads the bytes in network order. -/
theorem value_decode : value (decode data) = loadBigEndian data := by
  rw [decode, value_normalize, value_decodeLoop _ (by decide) (by decide), ← loadBigEndian_dropWhile]
  unfold loadBigEndian
  simp

theorem normal_decode : Normal (decode data) := normal_normalize _

end AbstractIntegerQuantity

namespace AbstractInteger

open AbstractIntegerRepresentation

def toInt (integer : AbstractInteger) : Int :=
  integer.sign.multiplier * value integer.magnitude

structure Canonical (integer : AbstractInteger) : Prop where
  normal : Normal integer.magnitude
  zero_positive : value integer.magnitude = 0 -> integer.sign = .positive

theorem decode_eq {data : List UInt8} (ne : data ≠ []) :
    (decode data).Canonical ∧ (decode data).toInt = twosComplement data := by
  cases data with
  | nil => contradiction
  | cons first rest =>
    rw [decode, twosComplement]
    split
    · refine ⟨⟨AbstractIntegerQuantity.normal_decode _, fun _ => rfl⟩, ?_⟩
      rw [toInt, AbstractIntegerQuantity.value_decode]
      exact Int.one_mul _
    · rename_i negative
      obtain ⟨cleared, top⟩ := (signBit first).2 negative
      rw [top]
      have large : 128 ≤ first.toNat := Nat.le_of_not_lt fun small =>
        negative ((signBit first).1.mpr small)
      have bound := loadBigEndian_lt rest
      have firstBound := first.toNat_lt
      have zeros : loadBigEndian (rest.map fun _ => (0 : UInt8)) = 0 := by
        have isReplicate : (rest.map fun _ => (0 : UInt8)) = replicate rest.length 0 := map_const'
        rw [isReplicate]
        unfold loadBigEndian loadLittleEndian
        rw [reverse_replicate, map_replicate]
        exact Nat.ofDigits_replicate_zero
      have isU := AbstractIntegerQuantity.value_decode ((first &&& ~~~0x80) :: rest)
      have isV := AbstractIntegerQuantity.value_decode (0x80 :: rest.map fun _ => 0)
      rw [loadBigEndian_cons, cleared] at isU
      rw [loadBigEndian_cons, zeros, length_map] at isV
      have isTop : (0x80 : UInt8).toNat = 128 := rfl
      rw [isTop] at isV
      have less : value (AbstractIntegerQuantity.decode ((first &&& ~~~0x80) :: rest)) <
          value (AbstractIntegerQuantity.decode (0x80 :: rest.map fun _ => 0)) := by
        rw [isU, isV]
        have scaled : (first.toNat - 128) * 256 ^ rest.length ≤ 127 * 256 ^ rest.length :=
          Nat.mul_le_mul_right _ (by omega)
        omega
      have difference := value_subtract (AbstractIntegerQuantity.normal_decode _)
        (AbstractIntegerQuantity.normal_decode _) (Nat.le_of_lt less)
      refine ⟨⟨normal_subtract (AbstractIntegerQuantity.normal_decode _), ?_⟩, ?_⟩
      · intro isZero
        dsimp only at isZero
        omega
      · rw [toInt]
        rw [difference, Nat.cast_sub (Nat.le_of_lt less), isU, isV, loadBigEndian_cons]
        have multiplier : AbstractIntegerSign.negative.multiplier = -1 := rfl
        rw [multiplier, pow_succ]
        push_cast [Nat.cast_sub large]
        ring

theorem equals_iff {integer other : AbstractInteger} (canon : integer.Canonical)
    (canonical' : other.Canonical) : integer.equals other = true ↔ integer.toInt = other.toInt := by
  unfold equals
  rw [Bool.and_eq_true, beq_iff_eq, beq_iff_eq]
  constructor
  · rintro ⟨sameSign, sameMagnitude⟩
    rw [toInt, toInt, sameSign, sameMagnitude]
  · intro same
    have sameValue : value integer.magnitude = value other.magnitude := by
      unfold toInt at same
      cases sign : integer.sign <;> cases sign' : other.sign <;>
        rw [sign, sign'] at same <;> simp [AbstractIntegerSign.multiplier] at same <;> omega
    refine ⟨?_, canon.normal.inj canonical'.normal sameValue⟩
    by_cases isZero : value integer.magnitude = 0
    · rw [canon.zero_positive isZero, canonical'.zero_positive (sameValue ▸ isZero)]
    · unfold toInt at same
      cases sign : integer.sign <;> cases sign' : other.sign <;>
        rw [sign, sign'] at same <;> simp [AbstractIntegerSign.multiplier] at same ⊢ <;> omega

end AbstractInteger

namespace AbstractIntegerQuantity

open AbstractIntegerRepresentation

def allBytes (data : Blocks) : List UInt8 :=
  data.reverse.flatMap bigEndianBytes

theorem load_bigEndianBytes (block : Block) :
    loadBigEndian (bigEndianBytes block) = block.toNat := by
  have bound := block.toNat_lt
  have shifted : ∀ amount : Nat, amount < 32 ->
      (block >>> UInt32.ofNat amount).toUInt8.toNat = block.toNat / 2 ^ amount % 256 := by
    intro amount small
    rw [UInt32.toNat_toUInt8, UInt32.toNat_shiftRight, UInt32.toNat_ofNat',
      Nat.mod_eq_of_lt (by omega : amount < 2 ^ 32), Nat.mod_eq_of_lt small,
      Nat.shiftRight_eq_div_pow]
  have byte3 := shifted 24 (by decide)
  have byte2 := shifted 16 (by decide)
  have byte1 := shifted 8 (by decide)
  have byte0 : block.toUInt8.toNat = block.toNat % 256 := UInt32.toNat_toUInt8 block
  have first : (block >>> 24).toUInt8.toNat = block.toNat / 2 ^ 24 % 256 := byte3
  have second : (block >>> 16).toUInt8.toNat = block.toNat / 2 ^ 16 % 256 := byte2
  have third : (block >>> 8).toUInt8.toNat = block.toNat / 2 ^ 8 % 256 := byte1
  unfold bigEndianBytes
  simp only [loadBigEndian_cons, first, second, third, byte0, length_cons, length_nil]
  have empty : loadBigEndian [] = 0 := rfl
  omega

theorem bigEndianBytes_length (block : Block) : (bigEndianBytes block).length = 4 := rfl

theorem allBytes_length (data : Blocks) : (allBytes data).length = 4 * data.length := by
  unfold allBytes
  simp [bigEndianBytes_length, Nat.mul_comm]

theorem allBytes_concat (low : Blocks) (top : Block) :
    allBytes (low ++ [top]) = bigEndianBytes top ++ allBytes low := by
  simp [allBytes]

theorem load_allBytes (data : Blocks) : loadBigEndian (allBytes data) = value data := by
  induction data using reverseRecOn with
  | nil => rfl
  | append_singleton _ _ ih =>
    rw [allBytes_concat, loadBigEndian_append, load_bigEndianBytes, ih,
      value_append, allBytes_length, pow_mul]
    have radixEq : (256 : Nat) ^ 4 = radix := rfl
    rw [radixEq, value_cons, value_nil]
    ring

/-- Behind the most significant block, all bytes are written. -/
theorem encodeLoop_rest (sign : AbstractIntegerSign) {result : List UInt8} (started : result ≠ [])
    (blocks : Blocks) : encodeLoop sign result blocks =
      result ++ (blocks.map (encodedBlock sign)).flatMap bigEndianBytes := by
  induction blocks generalizing result with
  | nil => simp [encodeLoop]
  | cons _ _ ih =>
    rw [encodeLoop, if_neg started, ih (by simp [started])]
    simp

variable {bytes : List UInt8}

theorem stripPositive_ne_nil (ne : loadBigEndian bytes ≠ 0) : stripPositive bytes ≠ [] := by
  have same := loadBigEndian_dropWhile bytes
  unfold stripPositive
  split
  · rename_i isNil
    rw [isNil] at same
    exact absurd same.symm ne
  · split
    · exact cons_ne_nil _ _
    · exact cons_ne_nil _ _

theorem stripNegative_ne_nil (ne : bytes ≠ []) : stripNegative bytes ≠ [] := by
  fun_induction stripNegative bytes with
  | case1 first next rest _ ih => exact ih (cons_ne_nil _ _)
  | case2 _ _ _ _ => exact cons_ne_nil _ _
  | case3 _ _ => exact ne

/-- `encode` writes the first block without its redundant bytes, and the others. -/
theorem encode_eq (sign : AbstractIntegerSign) (low : Blocks) {top : Block} (ne : top ≠ 0) :
    encode sign (low ++ [top]) = strip sign (bigEndianBytes (encodedBlock sign top)) ++
      allBytes (low.map (encodedBlock sign)) := by
  have notZero : isZero (low ++ [top]) = false := by
    unfold isZero
    rw [Bool.or_eq_false_iff]
    refine ⟨by simp, ?_⟩
    apply Bool.eq_false_iff.mpr
    intro same
    have isSingle := beq_iff_eq.mp same
    cases low with
    | nil => exact ne (head_eq_of_cons_eq isSingle)
    | cons _ low => simp at isSingle
  have started : strip sign (bigEndianBytes (encodedBlock sign top)) ≠ [] := by
    cases sign with
    | positive =>
      apply stripPositive_ne_nil
      rw [load_bigEndianBytes]
      exact fun isZero => ne (UInt32.toNat_inj.mp isZero)
    | negative => exact stripNegative_ne_nil (cons_ne_nil _ _)
  have looped : encodeLoop sign [] (low ++ [top]).reverse =
      strip sign (bigEndianBytes (encodedBlock sign top)) ++
        allBytes (low.map (encodedBlock sign)) := by
    rw [reverse_append, reverse_singleton, singleton_append, encodeLoop, if_pos rfl,
      nil_append, encodeLoop_rest sign started]
    unfold allBytes
    rw [map_reverse]
  unfold encode
  rw [notZero, if_neg Bool.false_ne_true]
  cases sign with
  | positive | negative =>
    dsimp only
    split
    · rename_i one
      rw [← looped, beq_iff_eq.mp one]
      decide
    · exact looped

/-- The first block of a positive integer leads to a byte without the most
significant bit, and to no redundant one. -/
theorem stripPositive_spec (ne : loadBigEndian bytes ≠ 0) (rest : List UInt8) :
    twosComplement (stripPositive bytes ++ rest) = loadBigEndian (bytes ++ rest) ∧
      ¬ Redundant (stripPositive bytes ++ rest) := by
  have same := loadBigEndian_dropWhile bytes
  have whole : loadBigEndian (bytes.dropWhile (· == 0) ++ rest) = loadBigEndian (bytes ++ rest) := by
    rw [loadBigEndian_append, loadBigEndian_append, same]
  have headNonzero := head?_dropWhile_not (· == (0 : UInt8)) bytes
  unfold stripPositive
  cases isDropped : bytes.dropWhile (· == 0) with
  | nil =>
    rw [isDropped] at same
    exact absurd same.symm ne
  | cons first others =>
    rw [isDropped] at whole headNonzero
    have firstNonzero : first ≠ 0 := by simpa using headNonzero
    rw [← whole]
    dsimp only
    split
    · rename_i isSet
      constructor
      · rw [cons_append, twosComplement, if_pos (by decide), loadBigEndian_cons]
        simp
      · rintro (⟨_, clear⟩ | ⟨isOnes, _⟩)
        · exact isSet clear
        · contradiction
    · rename_i clear
      rw [not_not] at clear
      constructor
      · rw [cons_append, twosComplement, if_pos clear]
      · rw [cons_append]
        cases others ++ rest with
        | nil => exact id
        | cons =>
          rintro (⟨isZero, _⟩ | ⟨isOnes, _⟩)
          · exact firstNonzero isZero
          · rw [isOnes] at clear
            contradiction

/-- Skipping redundant bytes of a negative integer does not change it. -/
theorem twosComplement_stripNegative (bytes rest : List UInt8) :
    twosComplement (stripNegative bytes ++ rest) = twosComplement (bytes ++ rest) := by
  fun_induction stripNegative bytes with
  | case1 first next later skipped ih =>
    rw [ih, cons_append, cons_append, cons_append,
      twosComplement_cons, twosComplement_cons, loadBigEndian_cons, length_cons, skipped.1]
    have nextLarge : ¬ next.toNat < 128 := fun small => skipped.2 ((signBit next).1.mpr small)
    have ones : signedByte 0xFF = -1 := rfl
    rw [ones, signedByte, if_neg nextLarge, pow_succ]
    push_cast
    ring
  | case2 first next later kept | case3 _ _ => rfl

theorem stripNegative_spec {bytes rest : List UInt8} (ne : bytes ≠ [])
    (negative : ∀ first ∈ bytes.head?, first &&& 0x80 ≠ 0)
    (clear : ∀ next ∈ rest.head?, next &&& 0x80 = 0) : ¬ Redundant (stripNegative bytes ++ rest)
    := by
  fun_induction stripNegative bytes with
  | case1 first next later skipped ih =>
    apply ih (cons_ne_nil _ _)
    intro _ isOther
    cases isOther
    exact skipped.2
  | case2 first next later kept =>
    rintro (⟨isZero, _⟩ | ⟨isOnes, isSet⟩)
    · exact negative first rfl (by rw [isZero]; decide)
    · exact kept ⟨isOnes, isSet⟩
  | case3 bytes single =>
    cases bytes with
    | nil => contradiction
    | cons first bytes =>
      cases bytes with
      | cons next later => exact absurd rfl (single first next later)
      | nil =>
        cases rest with
        | nil => exact id
        | cons next =>
          rintro (⟨isZero, _⟩ | ⟨_, isSet⟩)
          · exact negative first rfl (by rw [isZero]; decide)
          · exact isSet (clear next rfl)

theorem bigEndianBytes_sign (block : Block) : ∃ first rest, bigEndianBytes block = first :: rest ∧
      (first &&& 0x80 = 0 ↔ block.toNat < 2 ^ 31) := by
  refine ⟨_, _, rfl, ?_⟩
  have bound := block.toNat_lt
  have first : (block >>> 24).toUInt8.toNat = block.toNat / 2 ^ 24 % 256 := by
    show block.toNat >>> 24 % 2 ^ 8 = _
    rw [Nat.shiftRight_eq_div_pow]
  rw [(signBit _).1, first]
  omega

theorem toNat_encodedBlock (block : Block) :
    (encodedBlock .negative block).toNat + block.toNat = if block = 0 then 0 else radix := by
  have bound := block.toNat_lt
  have negated : encodedBlock .negative block = -block := by
    exact (UInt32.neg_eq_not_add block).symm
  have isRadix : radix = 2 ^ 32 := rfl
  have isSize : UInt32.size = 2 ^ 32 := rfl
  rw [negated, UInt32.toNat_neg, isSize]
  split
  · rename_i isZero
    rw [isZero]
    rfl
  · rename_i ne
    have pos : block.toNat ≠ 0 := fun isZero => ne (UInt32.toNat_inj.mp isZero)
    omega

theorem value_encodedBlock (data : Blocks) :
    value (data.map (encodedBlock .negative)) + value data =
      radix * value (data.map fun block => if block = 0 then 0 else 1) := by
  induction data with
  | nil => rfl
  | cons block _ ih =>
    have place := toNat_encodedBlock block
    rw [map_cons, map_cons, value_cons, value_cons, value_cons]
    have indicator : radix * (if block = 0 then (0 : Block) else 1).toNat =
        if block = 0 then 0 else radix := by
      split
      · rfl
      · rfl
    rw [Nat.mul_add, indicator, ← ih, ← place]
    ring

/-- Among the integers with these blocks, the indicator of the lower ones vanishes
only when they are zero. -/
theorem value_indicator_eq_zero {data : Blocks} :
    value (data.map fun block => if block = 0 then 0 else 1) = 0 ↔ ∀ block ∈ data, block = 0 := by
  induction data with
  | nil => simp
  | cons block _ ih =>
    rw [map_cons, value_cons, Nat.add_eq_zero_iff, Nat.mul_eq_zero, ih, forall_mem_cons]
    have place : (if block = 0 then (0 : Block) else 1).toNat = 0 ↔ block = 0 := by
      split
      · rename_i isZero
        simp [isZero]
      · rename_i ne
        simp [ne]
    rw [place]
    have pos : radix ≠ 0 := by decide
    simp [pos]

/-- The integer that `encode` writes for a negative one. -/
theorem twosComplement_encode (low : Blocks) (top : Block) (ne : top ≠ 0) :
    twosComplement (encode .negative (low ++ [top])) =
      if 2 ^ 31 < top.toNat then (value ((low ++ [top]).map (encodedBlock .negative)) : Int)
      else (value ((low ++ [top]).map (encodedBlock .negative)) : Int) -
        (radix : Int) ^ (low.length + 1) := by
  have place := toNat_encodedBlock top
  rw [if_neg ne] at place
  have isRadix : radix = 2 ^ 32 := rfl
  have bytes : bigEndianBytes (encodedBlock .negative top) ++
      allBytes (low.map (encodedBlock .negative)) =
        allBytes ((low ++ [top]).map (encodedBlock .negative)) := by
    rw [map_append, map_singleton, allBytes_concat]
  have loaded := load_allBytes ((low ++ [top]).map (encodedBlock .negative))
  obtain ⟨_, rest, isBytes, sign⟩ := bigEndianBytes_sign (encodedBlock .negative top)
  rw [encode_eq .negative low ne, strip, twosComplement_stripNegative, ← loaded, ← bytes, isBytes,
    cons_append, twosComplement]
  have total : (rest ++ allBytes (low.map (encodedBlock .negative))).length + 1 =
      4 * (low.length + 1) := by
    have four := bigEndianBytes_length (encodedBlock .negative top)
    rw [isBytes, length_cons] at four
    rw [length_append, allBytes_length, length_map]
    omega
  by_cases large : 2 ^ 31 < top.toNat
  · rw [if_pos (sign.mpr (by omega)), if_pos large]
  · rw [if_neg fun clear => large (by have below := sign.mp clear; omega), if_neg large, total,
      pow_mul]
    rfl

end AbstractIntegerQuantity

namespace AbstractInteger

open AbstractIntegerRepresentation
open AbstractIntegerQuantity

/-- The integer is not negative, or its magnitude is a number of at most 31 bits,
or two to the power of 31, followed by blocks that are zero. -/
def Encodable (integer : AbstractInteger) : Prop :=
  integer.sign = .positive ∨
    (∀ block ∈ integer.magnitude.dropLast, block = 0) ∧
      ∀ top ∈ integer.magnitude.getLast?, top.toNat ≤ 2 ^ 31

/-- What `encode` is for: the shortest bytes, and `decode` reads them back. -/
structure EncodesExactly (integer : AbstractInteger) : Prop where
  shortest : Shortest integer.encode integer.toInt
  reads : (decode integer.encode).equals integer = true

variable {integer : AbstractInteger}

theorem encodesExactly_of_shortest (canon : integer.Canonical)
    (shortest : Shortest integer.encode integer.toInt) : integer.EncodesExactly := by
  obtain ⟨decoded, isDecoded⟩ := decode_eq shortest.nonempty
  refine ⟨shortest, (equals_iff decoded canon).mpr ?_⟩
  rw [isDecoded, shortest.represents]

theorem Canonical.cases (canon : integer.Canonical) :
    integer = {} ∨ ∃ low top, top ≠ 0 ∧ integer.magnitude = low ++ [top] := by
  rcases eq_nil_or_concat integer.magnitude with isNil | ⟨low, top, isConcat⟩
  · refine .inl ?_
    have pos := canon.zero_positive (by rw [isNil]; rfl)
    obtain ⟨_, _⟩ := integer
    dsimp only at isNil pos
    rw [isNil, pos]
  · rw [concat_eq_append] at isConcat
    refine .inr ⟨low, top, ?_, isConcat⟩
    apply canon.normal
    rw [isConcat, getLast?_append]
    rfl

variable {top : Block}

section

variable (low : Blocks) (ne : top ≠ 0)
include ne

theorem encode_positive : Shortest (encode ⟨.positive, low ++ [top]⟩)
      (toInt ⟨.positive, low ++ [top]⟩) := by
  have loaded : loadBigEndian (bigEndianBytes top) ≠ 0 := by
    rw [load_bigEndianBytes]
    exact fun isZero => ne (UInt32.toNat_inj.mp isZero)
  have unchanged : low.map (encodedBlock .positive) = low := map_id low
  have written : encode ⟨.positive, low ++ [top]⟩ =
      stripPositive (bigEndianBytes top) ++ allBytes low := by
    have general := encode_eq .positive low ne
    rw [unchanged] at general
    exact general
  obtain ⟨rep, notRedundant⟩ := stripPositive_spec loaded (allBytes low)
  have isInteger : twosComplement (stripPositive (bigEndianBytes top) ++ allBytes low) =
      toInt ⟨.positive, low ++ [top]⟩ := by
    rw [rep, ← allBytes_concat, load_allBytes]
    exact (Int.one_mul _).symm
  rw [written, ← isInteger]
  refine shortest_of_not_redundant ?_ notRedundant
  exact append_ne_nil_of_left_ne_nil (stripPositive_ne_nil loaded) _

/-- A negative integer is represented if and only if nothing has to be carried
from one block to the next. -/
theorem represents_negative_iff : twosComplement (encode ⟨.negative, low ++ [top]⟩) =
        toInt ⟨.negative, low ++ [top]⟩ ↔ (∀ block ∈ low, block = 0) ∧ top.toNat ≤ 2 ^ 31 := by
  have complement := value_encodedBlock (low ++ [top])
  have indicator : value ((low ++ [top]).map fun block => if block = 0 then 0 else 1) =
      value (low.map fun block => if block = 0 then 0 else 1) + radix ^ low.length := by
    rw [map_append, map_singleton, if_neg ne, value_append, length_map]
    simp
  rw [indicator, Nat.mul_add, ← pow_succ'] at complement
  have pos : 0 < value (low ++ [top]) := by
    rw [value_append]
    have topPositive : 0 < top.toNat :=
      Nat.pos_of_ne_zero fun isZero => ne (UInt32.toNat_inj.mp isZero)
    have weight : 0 < radix ^ low.length := Nat.pow_pos (by decide)
    have product := Nat.mul_pos weight topPositive
    simp only [value_cons, value_nil, Nat.mul_zero, Nat.add_zero]
    omega
  have isInteger : toInt ⟨.negative, low ++ [top]⟩ = -(value (low ++ [top]) : Int) :=
    Int.neg_one_mul _
  have isEncoded : encode ⟨.negative, low ++ [top]⟩ =
    AbstractIntegerQuantity.encode .negative (low ++ [top]) := rfl
  rw [isInteger, isEncoded, twosComplement_encode low top ne, ← value_indicator_eq_zero]
  zify at complement
  split
  · rename_i large
    constructor
    · intro same
      omega
    · rintro ⟨_, small⟩
      omega
  · rename_i small
    constructor
    · intro _
      refine ⟨?_, by omega⟩
      have vanishes : (radix : Int) *
          (value (low.map fun block => if block = 0 then 0 else 1) : Int) = 0 := by omega
      rcases Int.mul_eq_zero.mp vanishes with isZero | isZero
      · contradiction
      · exact Int.ofNat_eq_zero.mp isZero
    · rintro ⟨isZero, _⟩
      rw [isZero] at complement
      omega

theorem encode_negative (zeros : ∀ block ∈ low, block = 0) (small : top.toNat ≤ 2 ^ 31) :
    Shortest (encode ⟨.negative, low ++ [top]⟩) (toInt ⟨.negative, low ++ [top]⟩) := by
  have rep := (represents_negative_iff low ne).mpr ⟨zeros, small⟩
  have written : encode ⟨.negative, low ++ [top]⟩ =
      stripNegative (bigEndianBytes (encodedBlock .negative top)) ++
        allBytes (low.map (encodedBlock .negative)) := encode_eq .negative low ne
  have place := toNat_encodedBlock top
  rw [if_neg ne] at place
  have isRadix : radix = 2 ^ 32 := rfl
  obtain ⟨_, _, isBytes, sign⟩ := bigEndianBytes_sign (encodedBlock .negative top)
  rw [← rep]
  refine shortest_of_not_redundant ?_ ?_
  · rw [written]
    exact append_ne_nil_of_left_ne_nil (stripNegative_ne_nil (cons_ne_nil _ _)) _
  · rw [written, isBytes]
    apply stripNegative_spec (cons_ne_nil _ _)
    · intro _ isOther clear
      rw [← Option.some.inj isOther] at clear
      have below := sign.mp clear
      omega
    · -- The lower blocks are zero, and so are their bytes.
      intro next isNext
      have mem : next ∈ allBytes (low.map (encodedBlock .negative)) := mem_of_head? isNext
      obtain ⟨_, inBlocks, inBytes⟩ := mem_flatMap.mp mem
      obtain ⟨original, inLow, isBlock⟩ := mem_map.mp (mem_reverse.mp inBlocks)
      rw [← isBlock, zeros original inLow] at inBytes
      have zeroBytes : bigEndianBytes (encodedBlock .negative 0) = [0, 0, 0, 0] := by decide
      rw [zeroBytes] at inBytes
      have isZero : next = 0 := by simpa using inBytes
      rw [isZero]
      decide

end

theorem encodesExactly_iff (canon : integer.Canonical) :
    integer.EncodesExactly ↔ integer.Encodable := by
  rcases canon.cases with isZero | ⟨low, top, ne, isMagnitude⟩
  · rw [isZero]
    apply iff_of_true _ (.inl rfl)
    refine encodesExactly_of_shortest ⟨normal_nil, fun _ => rfl⟩ ?_
    exact shortest_of_not_redundant (cons_ne_nil _ _) id
  · obtain ⟨sign, _⟩ := integer
    subst isMagnitude
    cases sign with
    | positive =>
      apply iff_of_true _ (.inl rfl)
      exact encodesExactly_of_shortest canon (encode_positive low ne)
    | negative =>
      have encodable : Encodable ⟨.negative, low ++ [top]⟩ ↔
          (∀ block ∈ low, block = 0) ∧ top.toNat ≤ 2 ^ 31 := by simp [Encodable]
      rw [encodable]
      constructor
      · intro exact'
        exact (represents_negative_iff low ne).mp exact'.shortest.represents
      · rintro ⟨zeros, small⟩
        exact encodesExactly_of_shortest canon (encode_negative low ne zeros small)

/-- An integer is encoded in the shortest two's complement and read back if and only
if it is not negative or its magnitude is a number of at most 31 bits, or two to the
power of 31, followed by blocks that are zero; any sequence of bytes is decoded as
two's complement. -/
theorem integers_encoded_iff (integer : AbstractInteger) (canonical : integer.Canonical)
    (data : List UInt8) (nonempty : data ≠ []) : (integer.EncodesExactly ↔ integer.Encodable) ∧
      (decode data).Canonical ∧ (decode data).toInt = twosComplement data :=
  ⟨encodesExactly_iff canonical, decode_eq nonempty⟩

def leastLong : AbstractInteger :=
  ⟨.negative, [0, 0x80000000]⟩

theorem leastLong_encoded : leastLong.EncodesExactly ∧
    (decode [0x80, 0]).toInt = twosComplement [0x80, 0] := by
  have canonical : leastLong.Canonical := by
    refine ⟨fun _ isLast => ?_, fun isZero => ?_⟩
    · cases isLast
      decide
    · have product : radix * 2147483648 = 0 := by simpa [leastLong] using isZero
      contradiction
  have both := integers_encoded_iff leastLong canonical [0x80, 0] (cons_ne_nil _ _)
  refine ⟨both.1.mpr (.inr ⟨?_, ?_⟩), both.2.2⟩
  · simp [leastLong]
  · intro _ isTop
    cases isTop
    exact Nat.le_refl _

/-- The integer -4294967295 is written as the bytes of 1. -/
theorem complement_loses_sign : ¬ EncodesExactly ⟨.negative, [0xFFFFFFFF]⟩ := by
  intro exact'
  have rep := exact'.shortest.represents
  contradiction

end AbstractInteger

end NtfCore.Ntsa
