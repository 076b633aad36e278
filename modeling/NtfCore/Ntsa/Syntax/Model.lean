import NtfCore.Foundation.Bytes

/-!
Contract: the encoder and the decoder of tagged values
(`ntsa::AbstractSyntaxEncoder` and `ntsa::AbstractSyntaxDecoder`).

Owns: the octets of tags and lengths, the frames of the encoder with their cached
lengths, and the positions that the decoder keeps.

Content is written and read as bytes, which is what every `encodeValue` comes to.

The destination of the encoder takes every byte, and the source of the decoder is
a stream in memory.
-/

namespace NtfCore.Ntsa

/-- The codes of `ntsa::Error` that are returned here. -/
inductive Error where
  | eof
  | invalid
deriving DecidableEq

/-- `AbstractSyntaxTagClass`. -/
inductive AbstractSyntaxTagClass where
  | universal
  | application
  | contextSpecific
  | private'
deriving DecidableEq

/-- `AbstractSyntaxTagType`. -/
inductive AbstractSyntaxTagType where
  | primitive
  | constructed
deriving DecidableEq

namespace AbstractSyntaxTagClass

def value : AbstractSyntaxTagClass -> UInt8
  | universal => 0x00
  | application => 0x40
  | contextSpecific => 0x80
  | private' => 0xC0

/-- `fromValue`. -/
def fromValue (value : UInt8) : Except Error AbstractSyntaxTagClass :=
  if value = 0x00 then .ok universal
  else if value = 0x40 then .ok application
  else if value = 0x80 then .ok contextSpecific
  else if value = 0xC0 then .ok private'
  else .error .invalid

end AbstractSyntaxTagClass

namespace AbstractSyntaxTagType

def value : AbstractSyntaxTagType -> UInt8
  | primitive => 0x00
  | constructed => 0x20

/-- `fromValue`. -/
def fromValue (value : UInt8) : Except Error AbstractSyntaxTagType :=
  if value = 0x00 then .ok primitive
  else if value = 0x20 then .ok constructed
  else .error .invalid

end AbstractSyntaxTagType

/-- `AbstractSyntaxTagNumber::validate`. -/
def AbstractSyntaxTagNumber.validate (value : Nat) : Except Error Unit :=
  if value > 256 then .error .invalid else .ok ()

/-! ## The octets that are written -/

namespace AbstractSyntaxEncoderUtil

/-- The second loop of `numSignificantBits`. -/
def countBits (value i : Nat) : Nat :=
  if value ≠ 0 then countBits (value >>> 1) (i + 1) else i
termination_by value
decreasing_by
  omega

/-- The first loop of `numSignificantBits`. -/
def countOctets (value i : Nat) : Nat :=
  if value > 255 then countOctets (value >>> 8) (i + 8) else countBits value i
termination_by value
decreasing_by
  omega

/-- `numSignificantBits`. -/
def numSignificantBits (value : Nat) : Nat :=
  if value = 0 then 1 else countOctets value 0

/-- The loop of `encodeIntegerBase128`, with this number of octets before the last. -/
def base128Loop (n : Nat) : Nat -> List UInt8
  | 0 => [UInt8.ofNat (n &&& 0x7F)]
  | i + 1 => UInt8.ofNat ((n >>> ((i + 1) * 7)) &&& 0x7F ||| 0x80) :: base128Loop n i

/-- `encodeIntegerBase128`. -/
def encodeIntegerBase128 (value : Nat) : List UInt8 :=
  let length := (numSignificantBits value + 6) / 7
  base128Loop value (length - 1)

/-- `k_MAX_TAG_NUMBER_IN_ONE_OCTET`. -/
def maxTagNumberInOneOctet : Nat := 30

/-- `encodeTag`. -/
def encodeTag (tagClass : AbstractSyntaxTagClass) (tagType : AbstractSyntaxTagType)
    (tagNumber : Nat) : List UInt8 :=
  let firstOctet := tagClass.value ||| tagType.value
  if tagNumber ≤ maxTagNumberInOneOctet then [firstOctet ||| UInt8.ofNat tagNumber]
  else (firstOctet ||| 0x1F) :: encodeIntegerBase128 tagNumber

/-- The loop of `encodeLength`, with this number of octets left. -/
def lengthLoop (n : Nat) : Nat -> List UInt8
  | 0 => []
  | i + 1 => UInt8.ofNat ((n >>> (i * 8)) &&& 0xFF) :: lengthLoop n i

/-- `k_MAX_LENGTH_IN_ONE_OCTET`. -/
def maxLengthInOneOctet : Nat := 127

/-- `encodeLength`. -/
def encodeLength (length : Nat) : List UInt8 :=
  if length ≤ maxLengthInOneOctet then [UInt8.ofNat length]
  else
    let numOctets := (numSignificantBits length + 7) / 8
    UInt8.ofNat (numOctets ||| 0x80) :: lengthLoop length numOctets

end AbstractSyntaxEncoderUtil

/-! ## The frames of the encoder -/

/-- `AbstractSyntaxEncoderFrame`. The parent of a frame is the next one in the
encoder, so it is not stored. -/
structure AbstractSyntaxEncoderFrame where
  tagClass : AbstractSyntaxTagClass
  tagType : AbstractSyntaxTagType
  tagNumber : Nat
  length : Nat := 0
  header : List UInt8 := []
  content : List UInt8 := []
  children : List AbstractSyntaxEncoderFrame := []

namespace AbstractSyntaxEncoderFrame

/-- The part of `synchronize` behind the children, with the length of the content. -/
def complete (frame : AbstractSyntaxEncoderFrame) (contentLength : Nat) : AbstractSyntaxEncoderFrame :=
  let header := frame.header ++
    AbstractSyntaxEncoderUtil.encodeTag frame.tagClass frame.tagType frame.tagNumber ++
    AbstractSyntaxEncoderUtil.encodeLength contentLength
  { frame with header := header, length := contentLength + header.length }

mutual

/-- `synchronize`. The frame holds the length that it adds to that of its parent. -/
def synchronize : AbstractSyntaxEncoderFrame -> AbstractSyntaxEncoderFrame
  | ⟨tagClass, tagType, tagNumber, length, header, content, children⟩ =>
    if length > 0 then ⟨tagClass, tagType, tagNumber, length, header, content, children⟩
    else
      let synchronized := synchronizeAll children
      let contentLength :=
        if children.isEmpty then content.length
        else
          (if content.length ≠ 0 then content.length else 0) + (synchronized.map (·.length)).sum
      complete ⟨tagClass, tagType, tagNumber, length, header, content, synchronized⟩ contentLength

/-- The loop of `synchronize` over the children. -/
def synchronizeAll : List AbstractSyntaxEncoderFrame -> List AbstractSyntaxEncoderFrame
  | [] => []
  | child :: rest => synchronize child :: synchronizeAll rest

end

mutual

/-- `flush`: the bytes that are written. -/
def flush : AbstractSyntaxEncoderFrame -> Except Error (List UInt8)
  | ⟨_, _, _, _, header, content, children⟩ =>
    if header.length = 0 then .error .invalid
    else if !children.isEmpty then do
      let later ← flushAll children
      pure (header ++ (if content.length ≠ 0 then content else []) ++ later)
    else .ok (header ++ if content.length ≠ 0 then content else [])

/-- The loop of `flush` over the children. -/
def flushAll : List AbstractSyntaxEncoderFrame -> Except Error (List UInt8)
  | [] => .ok []
  | child :: rest => do
    let first ← flush child
    let later ← flushAll rest
    pure (first ++ later)

end

end AbstractSyntaxEncoderFrame

/-! ## The encoder -/

/-- `AbstractSyntaxEncoder`: the current frame with its parents, of which the last
is the root. -/
structure AbstractSyntaxEncoder where
  buffer : List UInt8 := []
  frames : List AbstractSyntaxEncoderFrame := []

namespace AbstractSyntaxEncoder

/-- `encodeTag`. -/
def encodeTag (encoder : AbstractSyntaxEncoder) (tagClass : AbstractSyntaxTagClass)
    (tagType : AbstractSyntaxTagType) (tagNumber : Nat) : Except Error AbstractSyntaxEncoder :=
  .ok { encoder with
    frames := { tagClass := tagClass, tagType := tagType, tagNumber := tagNumber } ::
      encoder.frames }

/-- `encodeNull`. -/
def encodeNull (encoder : AbstractSyntaxEncoder) : Except Error AbstractSyntaxEncoder :=
  if encoder.frames.isEmpty then .error .invalid else .ok encoder

/-- `encodeLiteral`, and `encodeValue` of the bytes that a value is written as. -/
def encodeValue (encoder : AbstractSyntaxEncoder) (value : List UInt8) :
    Except Error AbstractSyntaxEncoder :=
  match encoder.frames with
  | [] => .error .invalid
  | current :: parents =>
    .ok { encoder with
      frames := { current with content := current.content ++ value } :: parents }

/-- `encodeTagComplete`. A frame becomes a child of its parent here; in the source it
is one from the beginning, but its parent is not touched in between. -/
def encodeTagComplete (encoder : AbstractSyntaxEncoder) : Except Error AbstractSyntaxEncoder :=
  match encoder.frames with
  | [] => .error .invalid
  | [root] => do
    let bytes ← root.synchronize.flush
    pure { encoder with buffer := encoder.buffer ++ bytes, frames := [] }
  | current :: parent :: ancestors =>
    .ok { encoder with
      frames := { parent with children := parent.children ++ [current.synchronize] } ::
        ancestors }

end AbstractSyntaxEncoder

/-! ## The octets that are read -/

structure Source where
  data : List UInt8
  position : Nat := 0

namespace AbstractSyntaxDecoderUtil

/-- `seek`. -/
def seek (source : Source) (position : Nat) : Except Error Source :=
  if position ≤ source.data.length then .ok { source with position := position }
  else .error .invalid

/-- `read` of one byte. -/
def read (source : Source) : Except Error (UInt8 × Source) :=
  match source.data[source.position]? with
  | some byte => .ok (byte, { source with position := source.position + 1 })
  | none => .error .eof

/-- `read` of a number of bytes. -/
def readBytes (source : Source) (size : Nat) : Except Error (List UInt8 × Source) :=
  let bytes := (source.data.drop source.position).take size
  if bytes.length = size then .ok (bytes, { source with position := source.position + size })
  else .error .eof

/-- `k_MAX_TAG_NUMBER_OCTETS`. -/
def maxTagNumberOctets : Nat := 4 * 8 / 7 + 1

/-- The loop of `decodeTag` over the octets of a number, of which this many are
allowed. -/
def numberLoop : Nat -> Nat -> Source -> Except Error (Nat × Source)
  | 0, _, _ => .error .invalid
  | count + 1, candidate, source => do
    let (nextOctet, source) ← read source
    let candidate := (candidate <<< 7) ||| (nextOctet &&& 0x7F).toNat
    if nextOctet &&& 0x80 = 0 then pure (candidate, source)
    else numberLoop count candidate source

/-- `decodeTag`. -/
def decodeTag (source : Source) :
    Except Error (AbstractSyntaxTagClass × AbstractSyntaxTagType × Nat × Source) := do
  let (nextOctet, source) ← read source
  let tagClass ← AbstractSyntaxTagClass.fromValue (nextOctet &&& 0xC0)
  let tagType ← AbstractSyntaxTagType.fromValue (nextOctet &&& 0x20)
  let (tagNumber, source) ←
    if nextOctet &&& 0x1F = 0x1F then numberLoop maxTagNumberOctets 0 source
    else pure ((nextOctet &&& 0x1F).toNat, source)
  AbstractSyntaxTagNumber.validate tagNumber
  pure (tagClass, tagType, tagNumber, source)

/-- The loop of `decodeLength`. -/
def lengthLoop : Nat -> Nat -> Source -> Except Error (Nat × Source)
  | 0, candidate, source => .ok (candidate, source)
  | count + 1, candidate, source => do
    let (nextOctet, source) ← read source
    lengthLoop count ((candidate <<< 8) ||| nextOctet.toNat) source

/-- `decodeLength`. A length that is not definite is null. -/
def decodeLength (source : Source) : Except Error (Option Nat × Source) := do
  let (nextOctet, source) ← read source
  if nextOctet ≠ 0x80 then
    if nextOctet &&& 0x80 = 0 then pure (some nextOctet.toNat, source)
    else
      let numOctets := (nextOctet &&& 0x7F).toNat
      if numOctets > 4 then throw .invalid
      else
        let (length, source) ← lengthLoop numOctets 0 source
        pure (some length, source)
  else pure (none, source)

end AbstractSyntaxDecoderUtil

/-! ## The decoder -/

/-- `AbstractSyntaxDecoderFrame`. -/
structure AbstractSyntaxDecoderFrame where
  tagClass : AbstractSyntaxTagClass := .universal
  tagType : AbstractSyntaxTagType := .primitive
  tagNumber : Nat := 5
  tagPosition : Nat := 0
  tagLength : Nat := 0
  contentPosition : Nat := 0
  contentLength : Option Nat := none

/-- `AbstractSyntaxDecoder`: the source and the context, with the current frame
first. -/
structure AbstractSyntaxDecoder where
  source : Source
  contextStack : List AbstractSyntaxDecoderFrame := []

namespace AbstractSyntaxDecoder

open AbstractSyntaxDecoderUtil

/-- `decodeTag`. -/
def decodeTag (decoder : AbstractSyntaxDecoder) : Except Error AbstractSyntaxDecoder := do
  let tagPosition := decoder.source.position
  let (tagClass, tagType, tagNumber, source) ← AbstractSyntaxDecoderUtil.decodeTag decoder.source
  let (length, source) ← decodeLength source
  let contentPosition := source.position
  let context : AbstractSyntaxDecoderFrame :=
    { tagClass := tagClass, tagType := tagType, tagNumber := tagNumber,
      tagPosition := tagPosition, tagLength := contentPosition - tagPosition,
      contentPosition := contentPosition, contentLength := length }
  pure ⟨source, context :: decoder.contextStack⟩

/-- `current`. -/
def current (decoder : AbstractSyntaxDecoder) : AbstractSyntaxDecoderFrame :=
  decoder.contextStack.headD {}

/-- `decodeTag` of an expected tag. -/
def decodeTagOf (decoder : AbstractSyntaxDecoder) (tagClass : AbstractSyntaxTagClass)
    (tagType : AbstractSyntaxTagType) (tagNumber : Nat) : Except Error AbstractSyntaxDecoder := do
  let decoder ← decoder.decodeTag
  if decoder.current.tagClass ≠ tagClass then throw .invalid
  else if decoder.current.tagType ≠ tagType then throw .invalid
  else if decoder.current.tagNumber ≠ tagNumber then throw .invalid
  else pure decoder

/-- `decodeByte`. -/
def decodeByte (decoder : AbstractSyntaxDecoder) :
    Except Error (UInt8 × AbstractSyntaxDecoder) := do
  let (byte, source) ← read decoder.source
  pure (byte, { decoder with source := source })

/-- `decodeValue` of a value of any type: its data. -/
def decodeValue (decoder : AbstractSyntaxDecoder) :
    Except Error (List UInt8 × AbstractSyntaxDecoder) :=
  if decoder.contextStack.isEmpty then .error .invalid
  else
    match decoder.current.contentLength with
    | some (length + 1) => do
      let (data, source) ← readBytes decoder.source (length + 1)
      pure (data, { decoder with source := source })
    | _ => .ok ([], decoder)

/-- `skip`. -/
def skip (decoder : AbstractSyntaxDecoder) : Except Error AbstractSyntaxDecoder :=
  if decoder.contextStack.isEmpty then .error .invalid
  else
    match decoder.current.contentLength with
    | none => .error .invalid
    | some length =>
      let endPosition := decoder.current.contentPosition + length
      if decoder.source.position > endPosition then .error .invalid
      else if decoder.source.position < endPosition then do
        let source ← seek decoder.source endPosition
        pure { decoder with source := source }
      else .ok decoder

/-- `decodeTagComplete`. -/
def decodeTagComplete (decoder : AbstractSyntaxDecoder) : Except Error AbstractSyntaxDecoder :=
  if decoder.contextStack.isEmpty then .error .invalid
  else do
    let decoder ← decoder.skip
    pure { decoder with contextStack := decoder.contextStack.tail }

end AbstractSyntaxDecoder

end NtfCore.Ntsa
