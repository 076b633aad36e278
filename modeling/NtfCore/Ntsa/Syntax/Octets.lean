import Mathlib.Data.Nat.Size
import NtfCore.Ntsa.Syntax.Model

/-!
Contract: the octets of tags and of lengths.

Owns: what a tag and a length are as octets, in terms of the digits of numbers;
that the encoder writes these octets and that the decoder reads them.
-/

namespace NtfCore.Ntsa

open List Source UInt8 AbstractSyntaxTagNumber

/-- Dropping low bits shortens a number by as many. -/
theorem size_div_pow {value : Nat} (count : Nat) (large : 2 ^ (count - 1) ≤ value) :
    Nat.size value = Nat.size (value / 2 ^ count) + count := by
  apply eq_of_forall_ge_iff
  intro bound
  rw [Nat.size_le]
  by_cases fits : count ≤ bound
  · obtain ⟨rest, isBound⟩ := Nat.exists_eq_add_of_le fits
    rw [isBound, Nat.add_comm count rest, Nat.add_le_add_iff_right, Nat.size_le,
      Nat.div_lt_iff_lt_mul (Nat.two_pow_pos count), ← Nat.pow_add]
  · have below : 2 ^ bound ≤ 2 ^ (count - 1) := Nat.pow_le_pow_right (by decide) (by omega)
    apply iff_of_false
    · omega
    · omega

/-- A number has a digit for every group of bits, the last of which may be partial. -/
theorem digits_length {value : Nat} (width : Nat) (ne : value ≠ 0) (pos : 0 < width) :
    (Nat.digits (2 ^ width) value).length = (Nat.size value + (width - 1)) / width := by
  have base : 1 < 2 ^ width := Nat.one_lt_two_pow (by omega)
  have sizePositive : 0 < Nat.size value := Nat.size_pos.mpr (Nat.pos_of_ne_zero ne)
  apply eq_of_forall_ge_iff
  intro bound
  rw [Nat.digits_length_le_iff base, ← Nat.pow_mul, ← Nat.size_le, Nat.div_le_iff_le_mul pos,
    Nat.mul_comm bound width, Nat.add_sub_assoc (Nat.succ_le_of_lt pos),
    Nat.add_le_add_iff_right]

theorem digits_eq_map_range {base : Nat} (large : 1 < base) (value : Nat) : Nat.digits base value =
      (range (Nat.digits base value).length).map fun place => value / base ^ place % base := by
  apply ext_getElem
  · rw [length_map, length_range]
  · intro place inside _
    rw [getElem_map, getElem_range, ← Nat.getD_digits value place large,
      getD_eq_getElem?_getD, getElem?_eq_getElem inside, Option.getD_some]

namespace AbstractSyntaxEncoderUtil

theorem countBits_eq (value i : Nat) : countBits value i = i + Nat.size value := by
  induction value using Nat.strongRecOn generalizing i with
  | ind value ih =>
    rw [countBits]
    split
    · rename_i ne
      have halved : value >>> 1 = value / 2 ^ 1 := Nat.shiftRight_eq_div_pow value 1
      have smaller : value >>> 1 < value := by omega
      have longer : Nat.size value = Nat.size (value / 2 ^ 1) + 1 := size_div_pow 1 (Nat.pos_of_ne_zero ne)
      rw [ih _ smaller, halved, longer]
      omega
    · rename_i isZero
      rw [Decidable.not_not.mp isZero, Nat.size_zero, Nat.add_zero]

theorem countOctets_eq (value i : Nat) : countOctets value i = i + Nat.size value := by
  induction value using Nat.strongRecOn generalizing i with
  | ind value ih =>
    rw [countOctets]
    split
    · have shifted : value >>> 8 = value / 2 ^ 8 := Nat.shiftRight_eq_div_pow value 8
      have smaller : value >>> 8 < value := by omega
      have longer : Nat.size value = Nat.size (value / 2 ^ 8) + 8 := size_div_pow 8 (by omega)
      rw [ih _ smaller, shifted, longer]
      omega
    · exact countBits_eq value i

theorem numSignificantBits_eq {value : Nat} (ne : value ≠ 0) :
    numSignificantBits value = Nat.size value := by
  rw [numSignificantBits, if_neg ne, countOctets_eq, Nat.zero_add]

end AbstractSyntaxEncoderUtil

/-! ## The octets of numbers, tags and lengths -/

def septets (value : Nat) : List UInt8 :=
  ((Nat.digits 128 (value / 128)).reverse.map fun digit => UInt8.ofNat (digit + 128)) ++
    [UInt8.ofNat (value % 128)]

def tagOctets (tagClass : AbstractSyntaxTagClass) (tagType : AbstractSyntaxTagType)
    (tagNumber : Nat) : List UInt8 :=
  let leading := tagClass.value.toNat + tagType.value.toNat
  if tagNumber < 31 then [UInt8.ofNat (leading + tagNumber)]
  else UInt8.ofNat (leading + 31) :: septets tagNumber

def lengthOctets (length : Nat) : List UInt8 :=
  if length < 128 then [UInt8.ofNat length]
  else
    UInt8.ofNat (128 + (Nat.digits 256 length).length) ::
      (Nat.digits 256 length).reverse.map UInt8.ofNat

namespace AbstractSyntaxEncoderUtil

theorem base128Loop_eq (n count : Nat) : base128Loop n count =
      ((range count).map fun place => n / 128 / 128 ^ place % 128).reverse.map
          (fun digit => ofNat (digit + 128)) ++ [ofNat (n % 128)] := by
  have low : ∀ value, value &&& 0x7F = value % 128 := fun value =>
    Nat.and_two_pow_sub_one_eq_mod value 7
  induction count with
  | zero => rw [base128Loop, low]; rfl
  | succ count ih =>
    have shifted : n >>> ((count + 1) * 7) = n / 128 / 128 ^ count := by
      rw [Nat.shiftRight_eq_div_pow, Nat.mul_comm, Nat.pow_mul, Nat.div_div_eq_div_mul,
        ← Nat.pow_succ']
    have marked : ∀ digit, digit < 128 -> digit ||| 0x80 = digit + 128 := by
      intro _ small
      rw [Nat.or_comm, Nat.add_comm]
      exact (Nat.two_pow_add_eq_or_of_lt (i := 7) small 1).symm
    rw [base128Loop, ih, shifted, low, marked _ (Nat.mod_lt _ (by decide)),
      range_succ, map_append, reverse_append]
    rfl

theorem encodeIntegerBase128_eq {value : Nat} (ne : value ≠ 0) :
    encodeIntegerBase128 value = septets value := by
  have length : (Nat.digits 128 value).length = (Nat.size value + 6) / 7 :=
    digits_length 7 ne (by decide)
  have shorter : (Nat.digits 128 (value / 128)).length = (Nat.size value + 6) / 7 - 1 := by
    rw [← length, Nat.digits_def' (by decide) (Nat.pos_of_ne_zero ne)]
    rfl
  rw [encodeIntegerBase128, numSignificantBits_eq ne, base128Loop_eq, septets, ← shorter,
    ← digits_eq_map_range (by decide)]

theorem encodeTag_eq (tagClass : AbstractSyntaxTagClass) (tagType : AbstractSyntaxTagType)
    (tagNumber : Nat) :
    encodeTag tagClass tagType tagNumber = tagOctets tagClass tagType tagNumber := by
  have identifier : ∀ number : Fin 32, tagClass.value ||| tagType.value ||| ofNat number =
      ofNat (tagClass.value.toNat + tagType.value.toNat + number) := by
    cases tagClass <;> cases tagType <;> decide
  rw [encodeTag, tagOctets]
  by_cases short : tagNumber < 31
  · rw [if_pos (show tagNumber ≤ maxTagNumberInOneOctet from Nat.le_of_lt_succ short), if_pos short,
      identifier ⟨tagNumber, by omega⟩]
  · rw [if_neg (show ¬ tagNumber ≤ maxTagNumberInOneOctet from fun le => short (Nat.lt_succ_of_le le)),
      if_neg short, encodeIntegerBase128_eq (by omega)]
    exact congrArg (· :: septets tagNumber) (identifier ⟨31, by decide⟩)

theorem lengthLoop_eq (n count : Nat) : lengthLoop n count =
      ((range count).map fun place => n / 256 ^ place % 256).reverse.map ofNat := by
  induction count with
  | zero => rfl
  | succ count ih =>
    have shifted : n >>> (count * 8) = n / 256 ^ count := by
      rw [Nat.shiftRight_eq_div_pow, Nat.mul_comm, Nat.pow_mul]
    have low : (n / 256 ^ count) &&& 0xFF = n / 256 ^ count % 256 :=
      Nat.and_two_pow_sub_one_eq_mod _ 8
    rw [lengthLoop, ih, shifted, low, range_succ, map_append, reverse_append]
    rfl

theorem encodeLength_eq {length : Nat} (fits : length < 2 ^ 32) :
    encodeLength length = lengthOctets length := by
  rw [encodeLength, lengthOctets]
  by_cases short : length < 128
  · rw [if_pos (show length ≤ maxLengthInOneOctet from Nat.le_of_lt_succ short), if_pos short]
  · have octets : (Nat.digits 256 length).length = (Nat.size length + 7) / 8 :=
      digits_length 8 (by omega) (by decide)
    have few : (Nat.digits 256 length).length ≤ 4 := (Nat.digits_length_le_iff (by decide) _).mpr fits
    have marked : (Nat.digits 256 length).length ||| 0x80 = 128 + (Nat.digits 256 length).length := by
      rw [Nat.or_comm]
      exact (Nat.two_pow_add_eq_or_of_lt (i := 7) (by omega) 1).symm
    rw [if_neg (show ¬ length ≤ maxLengthInOneOctet from fun le => short (Nat.lt_succ_of_le le)),
      if_neg short, numSignificantBits_eq (by omega), ← octets]
    dsimp only
    rw [marked, lengthLoop_eq, ← digits_eq_map_range (by decide)]

end AbstractSyntaxEncoderUtil

@[simp] theorem ok_bind {Value Result : Type} (value : Value)
    (next : Value -> Except Error Result) : (Except.ok value >>= next) = next value := rfl

@[simp] theorem pure_eq_ok {Value : Type} (value : Value) :
    (pure value : Except Error Value) = .ok value := rfl

namespace Source

def rest (source : Source) : List UInt8 :=
  source.data.drop source.position

def advance (source : Source) (count : Nat) : Source :=
  { source with position := source.position + count }

@[simp] theorem advance_position (source : Source) (count : Nat) :
    (source.advance count).position = source.position + count := rfl

@[simp] theorem advance_advance (source : Source) (first second : Nat) :
    (source.advance first).advance second = source.advance (first + second) := by
  unfold advance
  simp [Nat.add_assoc]

theorem rest_advance {source : Source} {bytes later : List UInt8}
    (isRest : source.rest = bytes ++ later) : (source.advance bytes.length).rest = later := by
  unfold rest advance at *
  rw [← drop_drop, isRest, drop_left]

end Source

namespace AbstractSyntaxDecoderUtil

variable {later : List UInt8} {source : Source}

theorem read_eq {byte : UInt8} (isRest : source.rest = byte :: later) :
    read source = .ok (byte, source.advance 1) ∧ (source.advance 1).rest = later := by
  have isAppend : source.rest = [byte] ++ later := isRest
  refine ⟨?_, rest_advance isAppend⟩
  have found : source.data[source.position]? = some byte := by
    unfold rest at isRest
    have first := congrArg (·[0]?) isRest
    simpa using first
  rw [read, found]
  rfl

theorem readBytes_eq {bytes later : List UInt8} (isRest : source.rest = bytes ++ later) :
    readBytes source bytes.length = .ok (bytes, source.advance bytes.length) := by
  unfold rest at isRest
  rw [readBytes, isRest, take_left, if_pos rfl]
  rfl

def accumulate (base : Nat) (start : Nat) (digits : List Nat) : Nat :=
  digits.foldl (fun total digit => total * base + digit) start

theorem accumulate_digits (base value : Nat) :
    accumulate base 0 (Nat.digits base value).reverse = value := by
  have folded : ∀ digits : List Nat, digits.foldr (fun digit total => total * base + digit) 0 =
      Nat.ofDigits base digits := by
    intro digits
    induction digits with
    | nil => rfl
    | cons _ _ ih =>
      rw [foldr_cons, ih, Nat.ofDigits_cons]
      ring
  rw [accumulate, foldl_reverse, folded, Nat.ofDigits_digits]

variable {candidate : Nat}

theorem shift_or {digit : Nat} (width : Nat) (small : digit < 2 ^ width) :
    (candidate <<< width) ||| digit = candidate * 2 ^ width + digit := by
  rw [Nat.shiftLeft_eq, Nat.mul_comm, Nat.two_pow_add_eq_or_of_lt small]

theorem marked_octet (digit : Fin 128) : (ofNat (digit + 128) &&& 0x7F).toNat = digit ∧
      ofNat (digit + 128) &&& 0x80 ≠ 0 ∧
      (ofNat digit &&& 0x7F).toNat = digit ∧ ofNat digit &&& 0x80 = 0 := by
  revert digit
  decide +kernel

variable {digits : List Nat} {count : Nat}

theorem numberLoop_eq {last : Nat} (small : ∀ digit ∈ digits, digit < 128) (lastSmall : last < 128)
    (allowed : digits.length < count)
    (isRest : source.rest = (digits.map fun digit => ofNat (digit + 128)) ++ ofNat last :: later) :
    numberLoop count candidate source =
      .ok (accumulate 128 candidate digits * 128 + last, source.advance (digits.length + 1)) := by
  induction digits generalizing count candidate source with
  | nil =>
    obtain ⟨count, rfl⟩ := Nat.exists_eq_succ_of_ne_zero (Nat.ne_of_gt allowed)
    obtain ⟨_, _, isDigit, isLast⟩ := marked_octet ⟨last, lastSmall⟩
    rw [numberLoop, (read_eq isRest).1]
    simp only [ok_bind, pure_eq_ok]
    rw [if_pos isLast, isDigit, shift_or 7 lastSmall]
    rfl
  | cons digit _ ih =>
    obtain ⟨_, rfl⟩ := Nat.exists_eq_succ_of_ne_zero (Nat.ne_of_gt (Nat.zero_lt_of_lt allowed))
    obtain ⟨digitSmall, restSmall⟩ := forall_mem_cons.mp small
    obtain ⟨isDigit, marked, _, _⟩ := marked_octet ⟨digit, digitSmall⟩
    obtain ⟨isRead, isLater⟩ := read_eq isRest
    rw [numberLoop, isRead]
    simp only [ok_bind, pure_eq_ok]
    rw [if_neg marked, isDigit, shift_or 7 digitSmall,
      ih restSmall (Nat.lt_of_succ_lt_succ allowed) isLater,
      advance_advance, length_cons, Nat.add_comm 1]
    rfl

theorem lengthLoop_eq (small : ∀ digit ∈ digits, digit < 256)
    (isRest : source.rest = digits.map ofNat ++ later) : lengthLoop digits.length candidate source =
      .ok (accumulate 256 candidate digits, source.advance digits.length) := by
  induction digits generalizing candidate source with
  | nil => rfl
  | cons digit _ ih =>
    obtain ⟨digitSmall, restSmall⟩ := forall_mem_cons.mp small
    obtain ⟨isRead, isLater⟩ := read_eq isRest
    have isDigit : (ofNat digit).toNat = digit := by exact Nat.mod_eq_of_lt digitSmall
    rw [length_cons, lengthLoop, isRead]
    simp only [ok_bind]
    rw [isDigit, shift_or 8 digitSmall, ih restSmall isLater, advance_advance, Nat.add_comm 1]
    rfl

theorem numberLoop_septets {value : Nat} (allowed : (Nat.digits 128 (value / 128)).length < count)
    (isRest : source.rest = septets value ++ later) :
    numberLoop count 0 source = .ok (value, source.advance (septets value).length) := by
  have small : ∀ digit ∈ (Nat.digits 128 (value / 128)).reverse, digit < 128 := by
    intro _ mem
    exact Nat.digits_lt_base (by decide) (mem_reverse.mp mem)
  rw [septets, append_assoc] at isRest
  rw [numberLoop_eq small (Nat.mod_lt value (by decide)) (by simpa using allowed) isRest,
    accumulate_digits, Nat.div_add_mod', septets, length_append, length_map]
  rfl

theorem leading_octet (tagClass : AbstractSyntaxTagClass) (tagType : AbstractSyntaxTagType)
    (low : Fin 32) : let octet := ofNat (tagClass.value.toNat + tagType.value.toNat + low)
    octet &&& 0xC0 = tagClass.value ∧ octet &&& 0x20 = tagType.value ∧
      (octet &&& 0x1F).toNat = low ∧ (octet &&& 0x1F = 0x1F ↔ (low : Nat) = 31) := by
  revert low
  cases tagClass <;> cases tagType <;> decide +kernel

theorem fromValue_class (tagClass : AbstractSyntaxTagClass) :
    AbstractSyntaxTagClass.fromValue tagClass.value = .ok tagClass := by
  cases tagClass <;> rfl

theorem fromValue_type (tagType : AbstractSyntaxTagType) :
    AbstractSyntaxTagType.fromValue tagType.value = .ok tagType := by
  cases tagType <;> rfl

theorem decodeTag_eq {tagClass : AbstractSyntaxTagClass} {tagType : AbstractSyntaxTagType}
    {tagNumber : Nat} (valid : tagNumber ≤ 256)
    (isRest : source.rest = tagOctets tagClass tagType tagNumber ++ later) :
    decodeTag source = .ok (tagClass, tagType, tagNumber,
      source.advance (tagOctets tagClass tagType tagNumber).length) := by
  have accepted : validate tagNumber = .ok () := by rw [validate, if_neg (by omega)]
  unfold tagOctets at isRest ⊢
  by_cases short : tagNumber < 31
  · rw [if_pos short] at isRest ⊢
    obtain ⟨isClass, isType, isNumber, isLong⟩ :=
      leading_octet tagClass tagType ⟨tagNumber, by omega⟩
    have isShort := fun long => Nat.ne_of_lt short (isLong.mp long)
    rw [decodeTag, (read_eq isRest).1]
    simp only [ok_bind, pure_eq_ok, isClass, isType, fromValue_class, fromValue_type, isNumber,
      if_neg isShort, accepted]
    rfl
  · rw [if_neg short] at isRest ⊢
    obtain ⟨isClass, isType, _, isLong⟩ := leading_octet tagClass tagType ⟨31, by decide⟩
    obtain ⟨isRead, isLater⟩ := read_eq isRest
    have few : (Nat.digits 128 (tagNumber / 128)).length ≤ 1 := by
      rw [Nat.digits_length_le_iff (by decide)]
      omega
    have isNumber : numberLoop maxTagNumberOctets 0 (source.advance 1) =
        .ok (tagNumber, (source.advance 1).advance (septets tagNumber).length) :=
      numberLoop_septets (Nat.lt_of_le_of_lt few (by decide)) isLater
    rw [decodeTag, isRead]
    simp only [ok_bind, pure_eq_ok, isClass, isType, fromValue_class, fromValue_type,
      if_pos (isLong.mpr rfl), isNumber, accepted, advance_advance, length_cons,
      Nat.add_comm 1]

theorem decodeLength_eq {length : Nat} (fits : length < 2 ^ 32)
    (isRest : source.rest = lengthOctets length ++ later) :
    decodeLength source = .ok (some length, source.advance (lengthOctets length).length) := by
  unfold lengthOctets at isRest ⊢
  by_cases short : length < 128
  · rw [if_pos short] at isRest ⊢
    obtain ⟨_, _, _, clear⟩ := marked_octet ⟨length, short⟩
    have isLength : (ofNat length).toNat = length := by exact Nat.mod_eq_of_lt (by omega)
    have definite : ofNat length ≠ 0x80 := by
      intro isMark
      rw [isMark] at clear
      contradiction
    rw [decodeLength, (read_eq isRest).1]
    simp only [ok_bind, pure_eq_ok, if_pos definite, if_pos clear, isLength]
    rfl
  · rw [if_neg short] at isRest ⊢
    have few : (Nat.digits 256 length).length ≤ 4 :=
      (Nat.digits_length_le_iff (by decide) _).mpr fits
    have ne : (Nat.digits 256 length).length ≠ 0 := by
      rw [Ne, length_eq_zero_iff, Nat.digits_eq_nil_iff_eq_zero]
      omega
    have small : ∀ digit ∈ (Nat.digits 256 length).reverse, digit < 256 := by
      intro _ mem
      exact Nat.digits_lt_base (by decide) (mem_reverse.mp mem)
    obtain ⟨isCount, marked, _, _⟩ := marked_octet ⟨(Nat.digits 256 length).length, by omega⟩
    rw [Nat.add_comm] at isCount marked
    have definite : ofNat (128 + (Nat.digits 256 length).length) ≠ 0x80 := by
      intro isMark
      rw [isMark] at isCount
      exact ne isCount.symm
    obtain ⟨isRead, isLater⟩ := read_eq isRest
    have looped : lengthLoop (Nat.digits 256 length).reverse.length 0 (source.advance 1) = _ :=
      lengthLoop_eq small isLater
    rw [length_reverse, accumulate_digits] at looped
    rw [decodeLength, isRead]
    simp only [ok_bind, pure_eq_ok, if_pos definite, if_neg marked, isCount,
      if_neg (Nat.not_lt.mpr few), looped, advance_advance, length_cons,
      length_map, length_reverse, Nat.add_comm 1]

end AbstractSyntaxDecoderUtil

end NtfCore.Ntsa
