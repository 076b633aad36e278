import NtfCore.Ntsa.Integer.Codec
import NtfCore.Ntsa.Syntax.Values

/-!
Contract: the built-in integers as the content of tags.

Owns: the octets that an integer is written as, what the decoder makes of content of any
length, and when that is the integer in two's complement.
-/

namespace NtfCore.Ntsa

open NtfCore.Foundation.Bytes
open AbstractIntegerQuantity
open AbstractSyntaxDecoderUtil
open AbstractSyntaxEncoderFrame

inductive IntegerType where
  | short
  | unsignedShort
  | int
  | unsignedInt
  | long
  | unsignedLong
  | longLong
  | unsignedLongLong

namespace IntegerType

def IsSigned : IntegerType -> Bool
  | short | int | long | longLong => true
  | _ => false

def width : IntegerType -> Nat
  | short | unsignedShort => 16
  | int | unsignedInt => 32
  | _ => 64

/-- `numeric_limits::min`. -/
def minimum (type : IntegerType) : Int :=
  if type.IsSigned then -2 ^ (type.width - 1) else 0

/-- `numeric_limits::max`. -/
def maximum (type : IntegerType) : Int :=
  if type.IsSigned then 2 ^ (type.width - 1) - 1 else 2 ^ type.width - 1

def InRange (type : IntegerType) (integer : Int) : Prop :=
  type.minimum ≤ integer ∧ integer ≤ type.maximum

instance (type : IntegerType) (integer : Int) : Decidable (type.InRange integer) :=
  inferInstanceAs (Decidable (_ ∧ _))

def wrapped (type : IntegerType) (integer : Int) : Int :=
  if type.IsSigned then integer.bmod (2 ^ 64) else integer % 2 ^ 64

theorem wrapped_of_inRange {type : IntegerType} {integer : Int} (inRange : type.InRange integer) :
    type.wrapped integer = integer := by
  obtain ⟨lower, upper⟩ := inRange
  unfold minimum at lower
  unfold maximum at upper
  unfold wrapped
  cases isSigned : type.IsSigned with
  | true =>
    have bounds : -2 ^ 63 ≤ integer ∧ integer < 2 ^ 63 := by
      cases type <;> simp [IsSigned, width] at * <;> omega
    exact Int.bmod_eq_of_le (by omega) (by omega)
  | false =>
    have bounds : 0 ≤ integer ∧ integer < 2 ^ 64 := by
      cases type <;> simp [IsSigned, width] at * <;> omega
    exact Int.emod_eq_of_lt bounds.1 bounds.2

end IntegerType

/-- `AbstractSyntaxEncoderFrame::encodeValue` of a `long long`. -/
def AbstractSyntaxEncoderFrame.encodeLongLong (value : Int) : List UInt8 :=
  stripNegative (storeBigEndian 8 (value % 2 ^ 64).toNat)

/-- `AbstractSyntaxEncoderFrame::encodeValue` of an `unsigned long long`. -/
def AbstractSyntaxEncoderFrame.encodeUnsignedLongLong (value : Nat) : List UInt8 :=
  if value = 0 then [0x00] else stripPositive (storeBigEndian 8 value)

/-- `AbstractSyntaxEncoder::encodeValue` of an integer, which is widened. -/
def AbstractSyntaxEncoder.encodeInteger (type : IntegerType) (value : Int) : List UInt8 :=
  if type.IsSigned ∧ ¬ value ≥ 0 then encodeLongLong value
  else encodeUnsignedLongLong value.toNat

theorem encodeUnsignedLongLong_shortest {value : Nat} (fits : value < 2 ^ 64) :
    Shortest (encodeUnsignedLongLong value) value := by
  unfold encodeUnsignedLongLong
  split
  · rename_i isZero
    rw [isZero]
    exact shortest_of_not_redundant (List.cons_ne_nil _ _) id
  · rename_i ne
    have loaded : loadBigEndian (storeBigEndian 8 value) = value := load_storeBigEndian fits
    have nonzero' : loadBigEndian (storeBigEndian 8 value) ≠ 0 := by rwa [loaded]
    obtain ⟨rep, notRedundant⟩ := stripPositive_spec nonzero' []
    rw [List.append_nil, List.append_nil, loaded] at rep
    rw [List.append_nil] at notRedundant
    rw [← rep]
    exact shortest_of_not_redundant (stripPositive_ne_nil nonzero') notRedundant

theorem encodeLongLong_shortest {value : Int} (lower : -2 ^ 63 ≤ value) (negative : value < 0) :
    Shortest (encodeLongLong value) value := by
  have isRest : ((value % 2 ^ 64).toNat : Int) = value + 2 ^ 64 := by omega
  have loaded : loadBigEndian (storeBigEndian 8 (value % 2 ^ 64).toNat) = (value % 2 ^ 64).toNat :=
    load_storeBigEndian (by omega)
  have isLong := storeBigEndian_length 8 (value % 2 ^ 64).toNat
  unfold encodeLongLong
  generalize storeBigEndian 8 (value % 2 ^ 64).toNat = bytes at loaded isLong
  obtain ⟨first, rest, rfl⟩ := List.exists_cons_of_length_eq_add_one isLong
  have marked : first &&& 0x80 ≠ 0 := by
    intro clear
    have small := (signBit first).1.mp clear
    have bound := loadBigEndian_lt rest
    rw [Nat.succ.inj isLong] at bound
    rw [loadBigEndian_cons, Nat.succ.inj isLong] at loaded
    omega
  have rep : twosComplement (first :: rest) = value := by
    rw [twosComplement, if_neg marked, loaded, Nat.succ.inj isLong, isRest]
    ring
  have stripped := twosComplement_stripNegative (first :: rest) []
  have notRedundant : ¬ Redundant (stripNegative (first :: rest) ++ []) := by
    apply stripNegative_spec (List.cons_ne_nil _ _)
    · intro _ isFirst
      cases isFirst
      exact marked
    · intro _ isNext
      cases isNext
  rw [List.append_nil, List.append_nil, rep] at stripped
  rw [List.append_nil] at notRedundant
  have shortest := shortest_of_not_redundant
    (stripNegative_ne_nil (List.cons_ne_nil first rest)) notRedundant
  rwa [stripped] at shortest

theorem encodeInteger_shortest {type : IntegerType} {integer : Int}
    (inRange : type.InRange integer) :
    Shortest (AbstractSyntaxEncoder.encodeInteger type integer) integer := by
  have bounds : -2 ^ 63 ≤ integer ∧ integer < 2 ^ 64 ∧ (type.IsSigned = false -> 0 ≤ integer) := by
    obtain ⟨lower, upper⟩ := inRange
    cases type <;>
      simp [IntegerType.minimum, IntegerType.maximum, IntegerType.IsSigned, IntegerType.width] at * <;>
      omega
  obtain ⟨lower, _, unsigned⟩ := bounds
  unfold AbstractSyntaxEncoder.encodeInteger
  split
  · rename_i negative
    exact encodeLongLong_shortest lower (Int.not_le.mp negative.2)
  · rename_i notNegative
    have pos : 0 ≤ integer := by
      by_contra negative
      exact notNegative ⟨Bool.of_not_eq_false fun isUnsigned => negative (unsigned isUnsigned),
        negative⟩
    have shortest := @encodeUnsignedLongLong_shortest integer.toNat (by omega)
    rwa [Int.toNat_of_nonneg pos] at shortest

namespace AbstractSyntaxDecoder

/-- The loop of `decodeValue`, with this many octets left. -/
def octetsLoop : Nat -> UInt64 -> Source -> Except Error (UInt64 × Source)
  | 0, value, source => .ok (value, source)
  | numRemaining + 1, value, source => do
    let (nextOctet, source) ← read source
    octetsLoop numRemaining ((value <<< 8) ||| nextOctet.toUInt64) source

/-- `decodeValue` of a `long long`. -/
def decodeLongLong (decoder : AbstractSyntaxDecoder) :
    Except Error (Int × AbstractSyntaxDecoder) := do
  let length ← decoder.examine [2] 1
  let (nextOctet, source) ← read decoder.source
  let value : UInt64 := if nextOctet &&& 0x80 ≠ 0 then -1 else 0
  let (value, source) ← octetsLoop (length - 1) ((value <<< 8) ||| nextOctet.toUInt64) source
  pure (value.toInt64.toInt, { decoder with source := source })

/-- `decodeValue` of an `unsigned long long`. -/
def decodeUnsignedLongLong (decoder : AbstractSyntaxDecoder) :
    Except Error (Int × AbstractSyntaxDecoder) := do
  let length ← decoder.examine [2] 1
  let (nextOctet, source) ← read decoder.source
  if nextOctet &&& 0x80 ≠ 0 then throw .invalid
  else
    let (value, source) ← octetsLoop (length - 1) (((0 : UInt64) <<< 8) ||| nextOctet.toUInt64) source
    pure ((value.toNat : Int), { decoder with source := source })

/-- `decodeValue` of a narrower type, which decodes a wide integer first. -/
def decodeNarrow (type : IntegerType) (decoder : AbstractSyntaxDecoder) :
    Except Error (Int × AbstractSyntaxDecoder) := do
  let (temp, decoder) ← if type.IsSigned then decodeLongLong decoder
    else decodeUnsignedLongLong decoder
  if temp < type.minimum ∨ temp > type.maximum then throw .invalid
  else pure (temp, decoder)

/-- `decodeValue` of an integer. -/
def decodeInteger : IntegerType -> AbstractSyntaxDecoder -> Except Error (Int × AbstractSyntaxDecoder)
  | .longLong => decodeLongLong
  | .unsignedLongLong => decodeUnsignedLongLong
  | type => decodeNarrow type

theorem octetsLoop_eq {bytes later : List UInt8} {source : Source} (start : Nat)
    (isRest : source.rest = bytes ++ later) : octetsLoop bytes.length (UInt64.ofNat start) source =
      .ok (UInt64.ofNat (start * 256 ^ bytes.length + loadBigEndian bytes),
        source.advance bytes.length) := by
  induction bytes generalizing start source with
  | nil =>
    rw [List.length_nil, octetsLoop, pow_zero, Nat.mul_one]
    rfl
  | cons nextOctet _ ih =>
    obtain ⟨isRead, isLater⟩ := read_eq isRest
    rw [List.length_cons, octetsLoop, isRead]
    simp only [ok_bind]
    have grown := shift_or_ofNat (.inr rfl) start nextOctet.toNat_lt
    rw [show UInt64.ofNat 8 = 8 from rfl] at grown
    rw [grown, ih _ isLater, loadBigEndian_cons, Source.advance_advance, Nat.add_comm 1]
    congr 3
    ring

variable {decoder : AbstractSyntaxDecoder} {content later : List UInt8}

section

variable (isAt : decoder.At [2] content later) (ne : content ≠ [])
include isAt ne

theorem decodeLongLong_eq : decodeLongLong decoder =
      .ok ((twosComplement content).bmod (2 ^ 64), decoder.behind content) := by
  cases content with
  | nil => contradiction
  | cons first content =>
    obtain ⟨isRead, _⟩ := read_eq isAt.isRest
    have looped : ∀ start : Nat, octetsLoop content.length
        ((UInt64.ofNat start <<< 8) ||| first.toUInt64) (decoder.source.advance 1) =
        .ok (UInt64.ofNat (start * 256 ^ (content.length + 1) + loadBigEndian (first :: content)),
          decoder.source.advance (content.length + 1)) := by
      intro start
      have all := octetsLoop_eq start isAt.isRest
      rw [List.length_cons, octetsLoop, isRead] at all
      exact all
    have signed : ∀ number : Nat, (UInt64.ofNat number).toInt64.toInt =
        (number : Int).bmod (2 ^ 64) := fun _ => Int64.toInt_ofNat'
    rw [decodeLongLong, isAt.examine_long (Nat.succ_le_succ (Nat.zero_le _)), twosComplement]
    simp only [ok_bind, isRead, List.length_cons, Nat.add_sub_cancel]
    by_cases clear : first &&& 0x80 = 0
    · rw [if_neg (not_not_intro clear), if_pos clear, show (0 : UInt64) = UInt64.ofNat 0 from rfl,
        looped]
      simp only [ok_bind, pure_eq_ok, signed, Nat.zero_mul, Nat.zero_add]
      rfl
    · rw [if_pos clear, if_neg clear, show (-1 : UInt64) = UInt64.ofNat (2 ^ 64 - 1) from rfl,
        looped]
      simp only [ok_bind, pure_eq_ok, signed]
      have split : ((((2 ^ 64 - 1) * 256 ^ (content.length + 1) +
          loadBigEndian (first :: content) : Nat)) : Int) =
          (loadBigEndian (first :: content) : Int) - 256 ^ (content.length + 1) +
            256 ^ (content.length + 1) * ((2 ^ 64 : Nat) : Int) := by
        push_cast
        ring
      rw [split, Int.add_mul_bmod_self_right]
      rfl

theorem decodeUnsignedLongLong_eq :
    decodeUnsignedLongLong decoder = if twosComplement content < 0 then .error .invalid
      else .ok (twosComplement content % 2 ^ 64, decoder.behind content) := by
  cases content with
  | nil => contradiction
  | cons first content =>
    obtain ⟨isRead, _⟩ := read_eq isAt.isRest
    have looped := octetsLoop_eq 0 isAt.isRest
    have bound := loadBigEndian_lt (first :: content)
    rw [List.length_cons, octetsLoop, isRead] at looped
    rw [decodeUnsignedLongLong, isAt.examine_long (Nat.succ_le_succ (Nat.zero_le _)), twosComplement]
    simp only [ok_bind, isRead, List.length_cons, Nat.add_sub_cancel] at looped ⊢
    by_cases clear : first &&& 0x80 = 0
    · rw [if_neg (not_not_intro clear), if_pos clear, if_neg (by omega)]
      rw [show (0 : UInt64) = UInt64.ofNat 0 from rfl, looped]
      simp only [ok_bind, pure_eq_ok, Nat.zero_mul, Nat.zero_add, UInt64.toNat_ofNat']
      rfl
    · rw [if_pos clear, if_neg clear, if_pos]
      · rfl
      · rw [List.length_cons] at bound
        zify at bound
        omega

end

theorem decodeInteger_eq (type : IntegerType) (isAt : decoder.At [2] content later)
    (ne : content ≠ []) :
    decodeInteger type decoder = if (type.IsSigned = false ∧ twosComplement content < 0) ∨
        ¬ type.InRange (type.wrapped (twosComplement content)) then .error .invalid
      else .ok (type.wrapped (twosComplement content), decoder.behind content) := by
  have wide : ∀ integer : Int, IntegerType.longLong.InRange (integer.bmod (2 ^ 64)) := by
    intro integer
    have lower := @Int.le_bmod integer (2 ^ 64) (by decide)
    have upper := @Int.bmod_lt integer (2 ^ 64) (by decide)
    constructor
    · change -2 ^ 63 ≤ _
      omega
    · change _ ≤ 2 ^ 63 - 1
      omega
  have wideUnsigned : ∀ integer : Int, IntegerType.unsignedLongLong.InRange (integer % 2 ^ 64) := by
    intro _
    constructor
    · change 0 ≤ _
      omega
    · change _ ≤ 2 ^ 64 - 1
      omega
  have narrow : ∀ type : IntegerType, decodeNarrow type decoder =
      if (type.IsSigned = false ∧ twosComplement content < 0) ∨
        ¬ type.InRange (type.wrapped (twosComplement content)) then .error .invalid
      else .ok (type.wrapped (twosComplement content), decoder.behind content) := by
    intro type
    have outside : ∀ temp, (temp < type.minimum ∨ temp > type.maximum) ↔ ¬ type.InRange temp := by
      intro _
      rw [IntegerType.InRange, not_and_or, Int.not_le, Int.not_le]
    rw [decodeNarrow, IntegerType.wrapped, decodeLongLong_eq isAt ne,
      decodeUnsignedLongLong_eq isAt ne]
    cases isSigned : type.IsSigned with
    | true =>
      simp only [ok_bind, pure_eq_ok, outside, if_true, Bool.true_eq_false, false_and, false_or]
      rfl
    | false =>
      simp only [Bool.false_eq_true, if_false, true_and, outside]
      by_cases negative : twosComplement content < 0
      · rw [if_pos negative, if_pos (.inl negative)]
        rfl
      · simp only [negative, if_false, false_or, ok_bind]
        rfl
  cases type with
  | longLong =>
    rw [decodeInteger, decodeLongLong_eq isAt ne, if_neg]
    · rfl
    · rintro (⟨impossible, _⟩ | outside)
      · cases impossible
      · exact outside (wide _)
  | unsignedLongLong =>
    rw [decodeInteger, decodeUnsignedLongLong_eq isAt ne]
    split
    · rename_i negative
      rw [if_pos (.inl ⟨rfl, negative⟩)]
    · rename_i negative
      rw [if_neg]
      · rfl
      · rintro (⟨_, below⟩ | outside)
        · exact negative below
        · exact outside (wideUnsigned _)
  | _ => simp only [decodeInteger, narrow]

theorem decodeInteger_nil (type : IntegerType) (isAt : decoder.At [2] [] later) :
    decodeInteger type decoder = .error .invalid := by
  have refused := isAt.examine_short (show ([] : List UInt8).length < 1 by decide)
  cases type <;>
    simp only [decodeInteger, decodeNarrow, decodeLongLong, decodeUnsignedLongLong, refused] <;> rfl

/-! ## The integers that are decoded -/

def DecodesExactly (type : IntegerType) (decoder : AbstractSyntaxDecoder) (content : List UInt8) :
    Prop :=
  ∀ integer, (∃ next, decodeInteger type decoder = .ok (integer, next)) ↔
    content ≠ [] ∧ twosComplement content = integer ∧ type.InRange integer

def Regular (type : IntegerType) (content : List UInt8) : Prop :=
  content ≠ [] -> ¬ type.InRange (twosComplement content) ->
    (type.IsSigned = false ∧ twosComplement content < 0) ∨
      ¬ type.InRange (type.wrapped (twosComplement content))

theorem decodesExactly_iff (type : IntegerType) (isAt : decoder.At [2] content later) :
    DecodesExactly type decoder content ↔ Regular type content := by
  by_cases isNil : content = []
  · subst isNil
    refine iff_of_true (fun integer => iff_of_false ?_ (fun stands => stands.1 rfl))
      (fun ne => absurd rfl ne)
    rintro ⟨next, decoded⟩
    rw [decodeInteger_nil type isAt] at decoded
    cases decoded
  have decoded := decodeInteger_eq type isAt isNil
  by_cases inRange : type.InRange (twosComplement content)
  · refine iff_of_true (fun integer => ?_) (fun _ outside => absurd inRange outside)
    have notNegative : ¬ (type.IsSigned = false ∧ twosComplement content < 0) := by
      rintro ⟨isUnsigned, negative⟩
      have lower := inRange.1
      rw [IntegerType.minimum, isUnsigned] at lower
      exact absurd negative (Int.not_lt.mpr lower)
    rw [IntegerType.wrapped_of_inRange inRange, if_neg (not_or.mpr ⟨notNegative,
      not_not_intro inRange⟩)] at decoded
    rw [decoded]
    constructor
    · rintro ⟨next, same⟩
      cases same
      exact ⟨isNil, rfl, inRange⟩
    · rintro ⟨_, rfl, _⟩
      exact ⟨_, rfl⟩
  · split at decoded
    · rename_i refused
      refine iff_of_true (fun _ => iff_of_false ?_ ?_) (fun _ _ => refused)
      · rintro ⟨_, isOk⟩
        rw [decoded] at isOk
        cases isOk
      · rintro ⟨_, rfl, within⟩
        exact inRange within
    · rename_i refused
      refine iff_of_false (fun exactly => ?_) (fun regular => refused (regular isNil inRange))
      obtain ⟨_, rep, within⟩ := (exactly _).mp ⟨_, decoded⟩
      exact inRange (rep ▸ within)

/-- When content is decoded as the integer that it stands for; and what is encoded is the
shortest content that stands for the integer, and is decoded as it. -/
theorem numbers_decoded_iff (type : IntegerType) :
    (∀ decoder content later, At decoder [2] content later ->
      (DecodesExactly type decoder content ↔ Regular type content)) ∧
    ∀ integer, type.InRange integer ->
      Shortest (AbstractSyntaxEncoder.encodeInteger type integer) integer ∧
      ∀ decoder later, At decoder [2] (AbstractSyntaxEncoder.encodeInteger type integer) later ->
        ∃ next, decodeInteger type decoder = .ok (integer, next) := by
  refine ⟨fun _ _ _ isAt => decodesExactly_iff type isAt, fun integer inRange => ?_⟩
  have shortest := encodeInteger_shortest inRange
  refine ⟨shortest, fun _ _ isAt => ?_⟩
  have regular : Regular type (AbstractSyntaxEncoder.encodeInteger type integer) := by
    intro _ outside
    rw [shortest.represents] at outside
    contradiction
  exact ((decodesExactly_iff type isAt).mpr regular integer).mpr
    ⟨shortest.nonempty, shortest.represents, inRange⟩

theorem least_long_decoded :
    (DecodesExactly .long (behindTag 2 [0x80] []) [0x80] ↔ Regular .long [0x80]) ∧
      Shortest (AbstractSyntaxEncoder.encodeInteger .long (-2 ^ 63)) (-2 ^ 63) :=
  ⟨(numbers_decoded_iff .long).1 _ _ _ (behindTag_at (show 2 ∈ [2] by decide) [0x80] []),
    ((numbers_decoded_iff .long).2 (-2 ^ 63) (by decide)).1⟩

/-- Nine octets that stand for 2 to the power of 64, plus five: the five is decoded. -/
theorem long_content_wrapped : ¬ ∀ type decoder content later, At decoder [2] content later ->
      DecodesExactly type decoder content := by
  intro all
  have isAt := behindTag_at (show 2 ∈ [2] by decide) [1, 0, 0, 0, 0, 0, 0, 0, 5] []
  have decoded := (all .short _ _ _ isAt 5).mp ⟨_, by rfl⟩
  exact absurd decoded.2.1 (by decide)

end AbstractSyntaxDecoder

end NtfCore.Ntsa
