import NtfCore.Foundation.Buffer
import NtfCore.Foundation.Bytes

/-!
Contract: reading and writing the elements of a domain name message
(`ntcdns::MemoryEncoder`, `ntcdns::MemoryDecoder`).

A function that fails returns the code of its `ntsa::Error`.

Owns: the two buffers with their positions, and numbers, character strings and
domain names in them.
-/

namespace NtfCore.Ntcdns

open NtfCore.Foundation

/-- The codes of `ntsa::Error` that the protocol returns. -/
inductive Fault where
  | invalid
  | notImplemented
deriving DecidableEq

/-- `Validation::k_MAX_LABEL_LENGTH`. -/
def maxLabelLength : Nat := 63

/-- `Validation::k_MAX_CHARACTER_STRING_LENGTH`. -/
def maxCharacterStringLength : Nat := 255

/-- `Validation::k_MAX_LABEL_RESOLUTION_RECURSION_DEPTH`. -/
def maxLabelResolutionRecursionDepth : Nat := 32

def dot : UInt8 := 46

def joinLabels (labels : List (List UInt8)) : List UInt8 := [dot].intercalate labels

/-- `bdlb::Tokenizer` with `.` as the only delimiter, and a soft one. -/
structure Tokenizer where
  tokens : List UInt8 -> List (List UInt8)
  tokens_join : ∀ labels : List (List UInt8), (∀ label ∈ labels, label ≠ [] ∧ dot ∉ label) ->
    tokens (joinLabels labels) = labels

/-! ## The encoder -/

/-- `ntcdns::MemoryEncoder`. -/
structure MemoryEncoder where
  data : List UInt8
  current : Nat := 0

namespace MemoryEncoder

/-- `MemoryEncoder::encodeRaw`. -/
def encodeRaw (encoder : MemoryEncoder) (bytes : List UInt8) : Except Fault MemoryEncoder :=
  if encoder.data.length - encoder.current < bytes.length then .error .invalid
  else .ok {
    data := Buffer.overwrite encoder.data encoder.current bytes
    current := encoder.current + bytes.length }

/-- `MemoryEncoder::encodeUint8`. -/
def encodeUint8 (encoder : MemoryEncoder) (value : UInt8) : Except Fault MemoryEncoder :=
  encoder.encodeRaw [value]

/-- `MemoryEncoder::encodeUint16`. -/
def encodeUint16 (encoder : MemoryEncoder) (value : UInt16) : Except Fault MemoryEncoder :=
  encoder.encodeRaw (Bytes.storeBigEndian 2 value.toNat)

/-- `MemoryEncoder::encodeUint32`. -/
def encodeUint32 (encoder : MemoryEncoder) (value : UInt32) : Except Fault MemoryEncoder :=
  encoder.encodeRaw (Bytes.storeBigEndian 4 value.toNat)

/-- One round of the loop of `MemoryEncoder::encodeDomainName`. -/
def encodeToken (encoder : MemoryEncoder) (token : List UInt8) : Except Fault MemoryEncoder :=
  if maxLabelLength < token.length then .error .invalid
  else do
    let encoder ← encoder.encodeRaw [UInt8.ofNat token.length]
    encoder.encodeRaw token

/-- `MemoryEncoder::encodeDomainName`. -/
def encodeDomainName (tokenizer : Tokenizer) (value : List UInt8) (encoder : MemoryEncoder) :
    Except Fault MemoryEncoder := do
  let encoder ← (tokenizer.tokens value).foldlM encodeToken encoder
  encoder.encodeRaw [0]

/-- `MemoryEncoder::encodeCharacterString`. -/
def encodeCharacterString (encoder : MemoryEncoder) (value : List UInt8) :
    Except Fault MemoryEncoder :=
  if maxCharacterStringLength < value.length then .error .invalid
  else do
    let encoder ← encoder.encodeRaw [UInt8.ofNat value.length]
    encoder.encodeRaw value

/-- `MemoryEncoder::seek`. -/
def seek (encoder : MemoryEncoder) (position : Nat) : Except Fault MemoryEncoder :=
  if encoder.data.length < position then .error .invalid
  else .ok { encoder with current := position }

def produced (encoder : MemoryEncoder) : List UInt8 := encoder.data.take encoder.current

end MemoryEncoder

/-! ## The decoder -/

/-- `ntcdns::MemoryDecoder`. -/
structure MemoryDecoder where
  data : List UInt8
  current : Nat := 0

namespace MemoryDecoder

/-- `MemoryDecoder::decodeRaw`. -/
def decodeRaw (decoder : MemoryDecoder) (size : Nat) : Except Fault (List UInt8 × MemoryDecoder) :=
  if decoder.data.length - decoder.current < size then .error .invalid
  else .ok ((decoder.data.drop decoder.current).take size,
    { decoder with current := decoder.current + size })

/-- `MemoryDecoder::decodeUint8`. -/
def decodeUint8 (decoder : MemoryDecoder) : Except Fault (UInt8 × MemoryDecoder) := do
  let (bytes, decoder) ← decoder.decodeRaw 1
  pure (UInt8.ofNat (Bytes.loadBigEndian bytes), decoder)

/-- `MemoryDecoder::decodeUint16`. -/
def decodeUint16 (decoder : MemoryDecoder) : Except Fault (UInt16 × MemoryDecoder) := do
  let (bytes, decoder) ← decoder.decodeRaw 2
  pure (UInt16.ofNat (Bytes.loadBigEndian bytes), decoder)

/-- `MemoryDecoder::decodeUint32`. -/
def decodeUint32 (decoder : MemoryDecoder) : Except Fault (UInt32 × MemoryDecoder) := do
  let (bytes, decoder) ← decoder.decodeRaw 4
  pure (UInt32.ofNat (Bytes.loadBigEndian bytes), decoder)

/-- `MemoryDecoder::decodeCharacterString`, into a string that is empty. -/
def decodeCharacterString (decoder : MemoryDecoder) :
    Except Fault (List UInt8 × MemoryDecoder) := do
  let (length, decoder) ← decoder.decodeUint8
  decoder.decodeRaw length.toNat

/-- The state of the loop of `decodeDomainName` and `decodeLabel` when it ends: the
error, the name decoded until then, and the position. -/
structure NameOutcome where
  error : Option Fault
  value : List UInt8
  current : Nat
deriving DecidableEq

def separated (value : List UInt8) : List UInt8 := if value = [] then [] else value ++ [dot]

/-- The loop of `decodeDomainName` and of `decodeLabel`. A pointer is followed by the
given function. Every round reads a byte, so that the bytes ahead bound the
rounds. -/
def nameLoop (data : List UInt8) (follow : Nat -> Except Fault (List UInt8)) :
    Nat -> List UInt8 -> Nat -> NameOutcome
  | 0, value, current => { error := some .invalid, value := value, current := current }
  | fuel + 1, value, current =>
    match data[current]? with
    | none => { error := some .invalid, value := value, current := current }
    | some length =>
      if length = 0 then { error := none, value := value, current := current + 1 }
      else if length.toNat ≤ maxLabelLength then
        if data.length - (current + 1) < length.toNat then
          { error := some .invalid, value := separated value, current := current + 1 }
        else nameLoop data follow fuel
          (separated value ++ (data.drop (current + 1)).take length.toNat)
          (current + 1 + length.toNat)
      else if length &&& 0xC0 = 0xC0 then
        match data[current + 1]? with
        | none => { error := some .invalid, value := value, current := current + 1 }
        | some offsetLower =>
          match follow ((length &&& 0x3F).toNat * 256 + offsetLower.toNat) with
          | .error fault => { error := some fault, value := value, current := current + 2 }
          | .ok reference =>
            { error := none, value := separated value ++ reference, current := current + 2 }
      else { error := some .invalid, value := value, current := current + 1 }

/-- `MemoryDecoder::decodeLabel`, with the number of pointers that may still be
followed. -/
def decodeLabel (data : List UInt8) : Nat -> Nat -> Except Fault (List UInt8)
  | levels, offset =>
    if data.length < offset then .error .invalid
    else
      let follow : Nat -> Except Fault (List UInt8) := match levels with
        | 0 => fun _ => .error .invalid
        | levels + 1 => decodeLabel data levels
      let outcome := nameLoop data follow (data.length - offset + 1) [] offset
      match outcome.error with
      | some fault => .error fault
      | none => .ok outcome.value

/-- `MemoryDecoder::decodeDomainName`, with the name and the position it leaves behind
also when it fails. -/
def decodeDomainName (decoder : MemoryDecoder) : NameOutcome :=
  nameLoop decoder.data (decodeLabel decoder.data maxLabelResolutionRecursionDepth)
    (decoder.data.length - decoder.current + 1) [] decoder.current

def decodeName (decoder : MemoryDecoder) : Except Fault (List UInt8 × MemoryDecoder) :=
  let outcome := decoder.decodeDomainName
  match outcome.error with
  | some fault => .error fault
  | none => .ok (outcome.value, { decoder with current := outcome.current })

end MemoryDecoder

end NtfCore.Ntcdns
