import NtfCore.Ntsa.Syntax.Octets

/-!
Contract: strings, and sequences of bits and bytes, as the content of tags.

Owns: the conditions that every `decodeValue` begins with, and which of these values
are read back from the content that they are written as.
-/

namespace NtfCore.Ntsa

open AbstractSyntaxDecoderUtil
open AbstractSyntaxEncoderFrame

/-! ## The conditions on the context -/

namespace AbstractSyntaxDecoder

/-- What each `decodeValue` checks before it reads, for a type that has these universal
tag numbers and at least so many octets. The result is the length of the content. -/
def examine (decoder : AbstractSyntaxDecoder) (tagNumbers : List Nat) (minimum : Nat) :
    Except Error Nat :=
  if decoder.contextStack.isEmpty then .error .invalid
  else if decoder.current.tagClass = .universal ∧ decoder.current.tagNumber ∉ tagNumbers then
    .error .invalid
  else if decoder.current.tagType ≠ .primitive then .error .invalid
  else
    match decoder.current.contentLength with
    | none => .error .invalid
    | some length => if length < minimum then .error .invalid else .ok length

structure At (decoder : AbstractSyntaxDecoder) (tagNumbers : List Nat)
    (content later : List UInt8) : Prop where
  entered : decoder.contextStack ≠ []
  matching : decoder.current.tagClass = .universal -> decoder.current.tagNumber ∈ tagNumbers
  primitive : decoder.current.tagType = .primitive
  length : decoder.current.contentLength = some content.length
  isRest : decoder.source.rest = content ++ later

variable {decoder : AbstractSyntaxDecoder} {tagNumbers : List Nat} {content later : List UInt8}

section

variable (isAt : decoder.At tagNumbers content later)
include isAt

theorem At.examine_eq (minimum : Nat) : decoder.examine tagNumbers minimum =
      if content.length < minimum then .error .invalid else .ok content.length := by
  have entered : ¬ decoder.contextStack.isEmpty = true := by simpa using isAt.entered
  have matching : ¬ (decoder.current.tagClass = .universal ∧
      decoder.current.tagNumber ∉ tagNumbers) := fun other => other.2 (isAt.matching other.1)
  rw [examine, if_neg entered, if_neg matching, if_neg (not_not_intro isAt.primitive), isAt.length]

theorem At.examine_short {minimum : Nat} (short : content.length < minimum) :
    decoder.examine tagNumbers minimum = .error .invalid := by
  rw [isAt.examine_eq, if_pos short]

theorem At.examine_long {minimum : Nat} (long : minimum ≤ content.length) :
    decoder.examine tagNumbers minimum = .ok content.length := by
  rw [isAt.examine_eq, if_neg (Nat.not_lt.mpr long)]

end

def behindTag (tagNumber : Nat) (content later : List UInt8) : AbstractSyntaxDecoder :=
  ⟨⟨content ++ later, 0⟩, [{ tagNumber := tagNumber, contentLength := some content.length }]⟩

theorem behindTag_at {tagNumber : Nat} (mem : tagNumber ∈ tagNumbers) (content later : List UInt8) :
    (behindTag tagNumber content later).At tagNumbers content later :=
  ⟨List.cons_ne_nil _ _, fun _ => mem, rfl, rfl, rfl⟩

def behind (decoder : AbstractSyntaxDecoder) (content : List UInt8) : AbstractSyntaxDecoder :=
  { decoder with source := decoder.source.advance content.length }

end AbstractSyntaxDecoder

def Restored {Value : Type} (tagNumbers : List Nat) (encoded : Except Error (List UInt8))
    (decodeValue : AbstractSyntaxDecoder -> Except Error (Value × AbstractSyntaxDecoder))
    (IsSame : Value -> Prop) : Prop :=
  ∃ content, encoded = .ok content ∧ ∀ decoder later,
    AbstractSyntaxDecoder.At decoder tagNumbers content later ->
      ∃ value, decodeValue decoder = .ok (value, decoder.behind content) ∧ IsSame value

theorem not_restored {Value : Type} {tagNumbers : List Nat} {content : List UInt8}
    {decodeValue : AbstractSyntaxDecoder -> Except Error (Value × AbstractSyntaxDecoder)}
    {IsSame : Value -> Prop} {tagNumber : Nat} (mem : tagNumber ∈ tagNumbers) {error : Error}
    (refused : ∀ decoder, AbstractSyntaxDecoder.At decoder tagNumbers content [] ->
      decodeValue decoder = .error error) :
    ¬ Restored tagNumbers (.ok content) decodeValue IsSame := by
  rintro ⟨_, isWritten, restored⟩
  cases isWritten
  have isAt := AbstractSyntaxDecoder.behindTag_at mem content []
  obtain ⟨_, decoded, _⟩ := restored _ _ isAt
  rw [refused _ isAt] at decoded
  cases decoded

/-- A number that grows by the bits of an octet. -/
theorem shift_or_ofNat {width : Nat} (isWidth : width = 7 ∨ width = 8) (start : Nat)
    {digit : UInt8} (small : digit.toNat < 2 ^ width) :
    (UInt64.ofNat start <<< UInt64.ofNat width) ||| digit.toUInt64 =
      UInt64.ofNat (start * 2 ^ width + digit.toNat) := by
  apply UInt64.toNat_inj.mp
  have shifted : (UInt64.ofNat start <<< UInt64.ofNat width).toNat =
      2 ^ width * (start % 2 ^ (64 - width)) := by
    rw [UInt64.toNat_shiftLeft, UInt64.toNat_ofNat', Nat.shiftLeft_eq]
    obtain rfl | rfl := isWidth
    · change start % 2 ^ 64 * 2 ^ 7 % 2 ^ 64 = 2 ^ 7 * (start % 2 ^ 57)
      omega
    · change start % 2 ^ 64 * 2 ^ 8 % 2 ^ 64 = 2 ^ 8 * (start % 2 ^ 56)
      omega
  rw [UInt64.toNat_or, UInt8.toNat_toUInt64, shifted, ← Nat.two_pow_add_eq_or_of_lt small,
    UInt64.toNat_ofNat']
  obtain rfl | rfl := isWidth
  · omega
  · omega

/-! ## The values -/

/-- `AbstractString`. The type is an `AbstractSyntaxTagNumber`. -/
structure AbstractString where
  type : Nat
  data : List UInt8

/-- `AbstractBitSequence`. -/
structure AbstractBitSequence where
  numBitsOmitted : Nat
  data : List UInt8

namespace AbstractSyntaxEncoderFrame

/-- `encodeValue` of a `bsl::string`, and of the data of an `AbstractString` and of an
`AbstractByteSequence`. -/
def encodeData (data : List UInt8) : Except Error (List UInt8) :=
  .ok data

/-- `encodeValue` of an `AbstractString`. -/
def encodeString (value : AbstractString) : Except Error (List UInt8) :=
  encodeData value.data

/-- `encodeValue` of an `AbstractBitSequence`. -/
def encodeBitSequence (value : AbstractBitSequence) : Except Error (List UInt8) :=
  if value.numBitsOmitted > 255 then .error .invalid
  else .ok (UInt8.ofNat value.numBitsOmitted :: value.data)

end AbstractSyntaxEncoderFrame

namespace AbstractSyntaxDecoder

/-- `e_UTF8_STRING`, `e_IA5_STRING`, `e_VISIBLE_STRING` and `e_PRINTABLE_STRING`. -/
def stringTags : List Nat := [12, 22, 26, 19]

/-- The tags of a `bsl::string`, and `e_T61_STRING`. -/
def abstractStringTags : List Nat := stringTags ++ [20]

/-- `e_BIT_STRING`. -/
def bitTags : List Nat := [3]

/-- `e_OCTET_STRING`. -/
def byteTags : List Nat := [4]

/-- `decodeValue` of a `bsl::string` or of an `AbstractByteSequence`, which differ in the
tags. -/
def decodeData (tagNumbers : List Nat) (decoder : AbstractSyntaxDecoder) :
    Except Error (List UInt8 × AbstractSyntaxDecoder) := do
  let length ← decoder.examine tagNumbers 1
  let (data, source) ← readBytes decoder.source length
  pure (data, { decoder with source := source })

/-- `decodeValue` of an `AbstractString`. -/
def decodeString (decoder : AbstractSyntaxDecoder) :
    Except Error (AbstractString × AbstractSyntaxDecoder) := do
  let type := decoder.current.tagNumber
  let (data, decoder) ← decodeData abstractStringTags decoder
  pure (⟨type, data⟩, decoder)

/-- `decodeValue` of an `AbstractBitSequence`. -/
def decodeBitSequence (decoder : AbstractSyntaxDecoder) :
    Except Error (AbstractBitSequence × AbstractSyntaxDecoder) := do
  let length ← decoder.examine bitTags 2
  let (numBitsOmitted, source) ← read decoder.source
  let (data, source) ← readBytes source (length - 1)
  pure (⟨numBitsOmitted.toNat, data⟩, { decoder with source := source })

variable {decoder : AbstractSyntaxDecoder} {tagNumbers : List Nat} {content later : List UInt8}

theorem At.decodeData_eq (isAt : decoder.At tagNumbers content later) :
    decodeData tagNumbers decoder =
      if content = [] then .error .invalid else .ok (content, decoder.behind content) := by
  rw [decodeData]
  split
  · rename_i isNil
    rw [isAt.examine_short (by simp [isNil])]
    rfl
  · rename_i ne
    rw [isAt.examine_long (List.length_pos_iff.mpr ne)]
    simp only [ok_bind, pure_eq_ok, readBytes_eq isAt.isRest]
    rfl

theorem At.decodeString_eq (isAt : decoder.At abstractStringTags content later) :
    decodeString decoder = if content = [] then .error .invalid
      else .ok (⟨decoder.current.tagNumber, content⟩, decoder.behind content) := by
  rw [decodeString, isAt.decodeData_eq]
  split
  · rfl
  · rfl

theorem At.decodeBitSequence_eq {omitted : UInt8} {data : List UInt8}
    (isAt : decoder.At bitTags (omitted :: data) later) :
    decodeBitSequence decoder = if data = [] then .error .invalid
      else .ok (⟨omitted.toNat, data⟩, decoder.behind (omitted :: data)) := by
  obtain ⟨isRead, isLater⟩ := read_eq isAt.isRest
  rw [decodeBitSequence]
  split
  · rename_i isNil
    rw [isAt.examine_short (by simp [isNil])]
    rfl
  · rename_i ne
    rw [isAt.examine_long (Nat.succ_le_succ (List.length_pos_iff.mpr ne))]
    simp only [ok_bind, pure_eq_ok, isRead, List.length_cons, Nat.add_sub_cancel,
      readBytes_eq isLater, behind, Source.advance_advance, Nat.add_comm 1]

/-- The values are read back if and only if there is data, and the number of omitted bits
is a byte. -/
theorem contents_restored_iff (type numBitsOmitted : Nat) (data : List UInt8) :
    (Restored stringTags (encodeData data) (decodeData stringTags) (· = data) ↔ data ≠ []) ∧
    (Restored abstractStringTags (encodeString ⟨type, data⟩)
      decodeString (·.data = data) ↔ data ≠ []) ∧
    (Restored bitTags (encodeBitSequence ⟨numBitsOmitted, data⟩)
      decodeBitSequence (· = ⟨numBitsOmitted, data⟩) ↔ data ≠ [] ∧ numBitsOmitted ≤ 255) ∧
    (Restored byteTags (encodeData data) (decodeData byteTags) (· = data) ↔ data ≠ []) := by
  have ofData : ∀ {tagNumber} tagNumbers, tagNumber ∈ tagNumbers ->
      (Restored tagNumbers (encodeData data) (decodeData tagNumbers) (· = data) ↔ data ≠ []) := by
    intro _ _ mem
    constructor
    · rintro restored rfl
      exact not_restored mem (fun _ isAt => isAt.decodeData_eq.trans (if_pos rfl)) restored
    · intro ne
      refine ⟨data, rfl, fun decoder later isAt => ⟨data, ?_, rfl⟩⟩
      rw [isAt.decodeData_eq, if_neg ne]
  refine ⟨ofData _ (show 12 ∈ stringTags by decide), ⟨?_, ?_⟩, ⟨?_, ?_⟩,
    ofData _ (show 4 ∈ byteTags by decide)⟩
  · rintro restored rfl
    exact not_restored (show 12 ∈ abstractStringTags by decide)
      (fun _ isAt => isAt.decodeString_eq.trans (if_pos rfl)) restored
  · intro ne
    refine ⟨data, rfl, fun decoder later isAt => ⟨⟨decoder.current.tagNumber, data⟩, ?_, rfl⟩⟩
    rw [isAt.decodeString_eq, if_neg ne]
  · intro restored
    by_cases fits : numBitsOmitted ≤ 255
    · refine ⟨?_, fits⟩
      rintro rfl
      rw [encodeBitSequence, if_neg (Nat.not_lt.mpr fits)] at restored
      exact not_restored (show 3 ∈ bitTags by decide)
        (fun _ isAt => isAt.decodeBitSequence_eq.trans (if_pos rfl)) restored
    · obtain ⟨_, isContent, _⟩ := restored
      rw [encodeBitSequence, if_pos (Nat.not_le.mp fits)] at isContent
      cases isContent
  · rintro ⟨ne, fits⟩
    refine ⟨_, if_neg (Nat.not_lt.mpr fits), fun _ _ isAt =>
      ⟨⟨(UInt8.ofNat numBitsOmitted).toNat, data⟩, ?_, ?_⟩⟩
    · rw [isAt.decodeBitSequence_eq, if_neg ne]
    · rw [UInt8.toNat_ofNat', Nat.mod_eq_of_lt (Nat.lt_succ_of_le fits)]

/-- An empty octet string is written and not read. -/
theorem empty_not_restored : ¬ Restored byteTags (encodeData []) (decodeData byteTags) (· = []) :=
  not_restored (List.mem_singleton.mpr rfl) fun _ isAt =>
    isAt.decodeData_eq.trans (if_pos rfl)

end AbstractSyntaxDecoder

end NtfCore.Ntsa
