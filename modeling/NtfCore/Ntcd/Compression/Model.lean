import NtfCore.Foundation.Buffer
import NtfCore.Foundation.Bytes
import NtfCore.Foundation.Resumable

/-!
Contract: run-length compression of streams (`ntcd::Compression`).

Owns: the frame header, the frame footer and the block, as they are laid out in memory; the
scanner and the frames of `CompressionEncoder`; the states of `CompressionDecoder`; and the
checksum of the contents of a frame.

The layout is that of a little-endian machine. A blob holds less than `2 ^ 31` bytes, and an
operation that would have to hold more is `none`.
-/

namespace NtfCore.Ntcd.Compression

open NtfCore.Foundation

/-- One bit of `ChecksumCrc32::update`. -/
def crcBit (result : UInt32) : UInt32 :=
  if result &&& 1 ≠ 0 then (result >>> 1) ^^^ 0xEDB88320 else result >>> 1

/-- One byte of `ChecksumCrc32::update`. -/
def crcByte (result : UInt32) (byte : UInt8) : UInt32 :=
  Nat.repeat crcBit 8 (result ^^^ byte.toUInt32)

/-- `ChecksumCrc32::update`. -/
def crcUpdate (value : UInt32) (data : List UInt8) : UInt32 :=
  ~~~(data.foldl crcByte (~~~value))

/-! ## Formats -/

inductive Decoded (Value : Type) where
  | wouldBlock
  | invalid
  | value (value : Value)

def word (value : UInt32) : List UInt8 :=
  Bytes.storeLittleEndian 4 value.toNat

def loadWord (bytes : List UInt8) : UInt32 :=
  UInt32.ofNat (Bytes.loadLittleEndian bytes)

/-- `CompressionFrameHeader`. -/
structure FrameHeader where
  magic : UInt32 := 1212501074
  length : UInt32 := 0
  flags : UInt32 := 0
  checksum : UInt32 := 0
deriving DecidableEq

namespace FrameHeader

def size : Nat := 16

def encode (header : FrameHeader) : List UInt8 :=
  word header.magic ++ word header.length ++ word header.flags ++ word header.checksum

def validate (header : FrameHeader) : Bool :=
  header.magic = 1212501074

def decode (source : List UInt8) : Decoded FrameHeader :=
  if source.length < size then .wouldBlock
  else
    let header : FrameHeader :=
      { magic := loadWord (source.take 4)
        length := loadWord ((source.drop 4).take 4)
        flags := loadWord ((source.drop 8).take 4)
        checksum := loadWord ((source.drop 12).take 4) }
    if header.validate then .value header else .invalid

end FrameHeader

/-- `CompressionFrameFooter`. -/
structure FrameFooter where
  magic : UInt32 := 1178946642
  checksum : UInt32 := 0

namespace FrameFooter

def size : Nat := 8

def encode (footer : FrameFooter) : List UInt8 :=
  word footer.magic ++ word footer.checksum

def validate (footer : FrameFooter) : Bool :=
  footer.magic = 1178946642

def decode (source : List UInt8) : Decoded FrameFooter :=
  if source.length < size then .wouldBlock
  else
    let footer : FrameFooter :=
      { magic := loadWord (source.take 4)
        checksum := loadWord ((source.drop 4).take 4) }
    if footer.validate then .value footer else .invalid

end FrameFooter

/-- `CompressionBlockType`. -/
inductive BlockType where
  | undefined
  | raw
  | rle

/-- `CompressionBlockType::fromInt`. -/
def BlockType.fromInt (number : UInt8) : Option BlockType :=
  if number = 0 then some .undefined
  else if number = 1 then some .raw
  else if number = 2 then some .rle
  else none

def BlockType.toInt : BlockType -> UInt8
  | .undefined => 0
  | .raw => 1
  | .rle => 2

/-- `CompressionBlock`. -/
structure Block where
  length : UInt16 := 0
  literal : UInt8 := 0
  flags : UInt8 := 0
deriving DecidableEq

namespace Block

def size : Nat := 4

def encode (block : Block) : List UInt8 :=
  Bytes.storeLittleEndian 2 block.length.toNat ++ [block.literal, block.flags]

/-- `type`, of a block that is valid. -/
def type (block : Block) : Option BlockType :=
  BlockType.fromInt block.flags

def decode (source : List UInt8) : Decoded Block :=
  match source with
  | low :: high :: literal :: flags :: _ =>
    let block : Block :=
      { length := UInt16.ofNat (Bytes.loadLittleEndian [low, high])
        literal := literal
        flags := flags }
    if block.type.isSome then .value block else .invalid
  | _ => .wouldBlock

end Block

/-! ## Encoder -/

inductive Span where
  | raw (bytes : List UInt8)
  | rle (count : Nat) (literal : UInt8)

def Span.block : Span -> Block
  | .raw bytes => { length := UInt16.ofNat bytes.length, flags := BlockType.raw.toInt }
  | .rle count literal =>
    { length := UInt16.ofNat count, literal := literal, flags := BlockType.rle.toInt }

def Span.payload : Span -> List UInt8
  | .raw bytes => bytes.take (Span.raw bytes).block.length.toNat
  | .rle _ _ => []

def Span.encode (span : Span) : List UInt8 :=
  span.block.encode ++ span.payload

inductive Mode where
  | default
  | same
  | different

/-- The mode of the scanner, and the bytes from `mark` up to `current`, the last of which is
the one at `previous`. There are none while `mark` is null. -/
structure Scan where
  mode : Mode := .default
  marked : List UInt8 := []

/-- One iteration of the loop of `deflateNext`, and the block that it encodes. -/
def Scan.next (scan : Scan) (current : UInt8) : Scan × List Span :=
  match scan.marked.head?, scan.marked.getLast? with
  | some mark, some previous =>
    match scan.mode with
    | .default =>
      if current = mark then (⟨.same, scan.marked ++ [current]⟩, [])
      else (⟨.different, scan.marked ++ [current]⟩, [])
    | .same =>
      if current ≠ previous then
        (⟨.default, [current]⟩, [.rle scan.marked.length previous])
      else (⟨.same, scan.marked ++ [current]⟩, [])
    | .different =>
      if current = previous then
        (⟨.same, [previous, current]⟩, [.raw scan.marked.dropLast])
      else (⟨.different, scan.marked ++ [current]⟩, [])
  | _, _ => (⟨scan.mode, [current]⟩, [])

/-- The loop of `deflateNext`, and the block behind it. -/
def Scan.spans (scan : Scan) : List UInt8 -> List Span
  | [] =>
    match scan.mode with
    | .same => [.rle scan.marked.length (scan.marked.getLast?.getD 0)]
    | _ => [.raw scan.marked]
  | current :: rest => (scan.next current).2 ++ (scan.next current).1.spans rest

/-- The spans that `deflateNext` finds in its data. -/
def spans (data : List UInt8) : List Span :=
  if data = [] then [] else Scan.spans {} data

/-- `CompressionEncoder`. -/
structure Encoder where
  frameHeader : FrameHeader := {}
  frameHeaderPosition : Nat := 0
  frameContentBytesTotal : Nat := 0
  frameContentCrc : UInt32 := 0

namespace Encoder

def deflateBegin (result : List UInt8) : Encoder × List UInt8 :=
  let encoder : Encoder := { frameHeaderPosition := result.length }
  (encoder, result ++ encoder.frameHeader.encode)

def deflateNext (encoder : Encoder) (result data : List UInt8) : Encoder × List UInt8 :=
  let encoded := (spans data).flatMap Span.encode
  ({ encoder with
      frameContentBytesTotal := encoder.frameContentBytesTotal + encoded.length
      frameContentCrc := crcUpdate encoder.frameContentCrc data },
    result ++ encoded)

def deflateEnd (encoder : Encoder) (result : List UInt8) : List UInt8 :=
  let frameHeader :=
    { encoder.frameHeader with
      length := UInt32.ofNat encoder.frameContentBytesTotal
      checksum := encoder.frameContentCrc }
  let frameFooter : FrameFooter := { checksum := encoder.frameContentCrc }
  Buffer.overwrite result encoder.frameHeaderPosition frameHeader.encode ++ frameFooter.encode

/-- `deflateNext` for each chunk. -/
def deflateAll (encoder : Encoder) (result : List UInt8) : List (List UInt8) -> Encoder × List UInt8
  | [] => (encoder, result)
  | chunk :: rest =>
    let next := encoder.deflateNext result chunk
    next.1.deflateAll next.2 rest

def deflateFrame (result : List UInt8) (chunks : List (List UInt8)) : List UInt8 :=
  let begun := deflateBegin result
  let filled := begun.1.deflateAll begun.2 chunks
  filled.1.deflateEnd filled.2

end Encoder

def lengthLimit : Nat := 2 ^ 31

def deflate (frames : List (List (List UInt8))) : Option (List UInt8) :=
  let result := frames.foldl Encoder.deflateFrame []
  if result.length < lengthLimit then some result else none

/-! ## Decoder -/

inductive State where
  | wantFrameHeader
  | wantBlock
  | wantBlockPayload
  | wantFrameFooter
  | error
deriving DecidableEq

/-- `CompressionDecoder`. All errors are `e_INVALID`. -/
structure Decoder where
  state : State := .wantFrameHeader
  input : List UInt8 := []
  frameHeader : FrameHeader := {}
  frameContentBytesNeeded : Nat := 0
  frameContentCrc : UInt32 := 0
  block : Block := {}
deriving DecidableEq

/-- The input that is left when `process` fails: a block or a footer that is well formed has
been popped. -/
def Decoder.failedInput (decoder : Decoder) : List UInt8 :=
  match decoder.state with
  | .wantBlock =>
    match Block.decode decoder.input with
    | .value _ => decoder.input.drop Block.size
    | _ => decoder.input
  | .wantFrameFooter =>
    match FrameFooter.decode decoder.input with
    | .value _ => decoder.input.drop FrameFooter.size
    | _ => decoder.input
  | _ => decoder.input

/-- `fail`. -/
def Decoder.fail (decoder : Decoder) : Decoder :=
  { input := decoder.failedInput, state := .error }

/-- The difference of two values of `size_t`. -/
def sizeSub (left right : Nat) : Nat :=
  (left + 2 ^ 64 - right) % 2 ^ 64

def Decoder.wantNext (frameContentBytesNeeded : Nat) : State :=
  if 0 < frameContentBytesNeeded then .wantBlock else .wantFrameFooter

/-- One iteration of the loop of `process`. -/
def Decoder.advance (decoder : Decoder) : Resumable.Progress Decoder UInt8 :=
  match decoder.state with
  | .wantFrameHeader =>
    match FrameHeader.decode decoder.input with
    | .wouldBlock => .blocked
    | .invalid => .failed
    | .value frameHeader =>
      let needed := frameHeader.length.toNat
      .moved
        { decoder with
          state := wantNext needed
          input := decoder.input.drop FrameHeader.size
          frameHeader := frameHeader
          frameContentBytesNeeded := needed } []
  | .wantBlock =>
    match Block.decode decoder.input with
    | .wouldBlock => .blocked
    | .invalid => .failed
    | .value block =>
      let needed := sizeSub decoder.frameContentBytesNeeded Block.size
      let popped :=
        { decoder with
          input := decoder.input.drop Block.size, frameContentBytesNeeded := needed }
      match block.type with
      | some .raw =>
        if 0 < block.length.toNat then
          .moved { popped with state := .wantBlockPayload, block := block } []
        else .moved { popped with state := wantNext needed, block := {} } []
      | some .rle =>
        let expansion := List.replicate block.length.toNat block.literal
        .moved
          { popped with
            state := wantNext needed
            frameContentCrc := crcUpdate decoder.frameContentCrc expansion
            block := {} } expansion
      | _ => .failed
  | .wantBlockPayload =>
    let length := decoder.block.length.toNat
    if length ≤ decoder.input.length then
      let payload := decoder.input.take length
      let needed := sizeSub decoder.frameContentBytesNeeded length
      .moved
        { decoder with
          state := wantNext needed
          input := decoder.input.drop length
          frameContentBytesNeeded := needed
          frameContentCrc := crcUpdate decoder.frameContentCrc payload } payload
    else .blocked
  | .wantFrameFooter =>
    match FrameFooter.decode decoder.input with
    | .wouldBlock => .blocked
    | .invalid => .failed
    | .value _ =>
      if decoder.frameContentCrc ≠ decoder.frameHeader.checksum then .failed
      else .moved { input := decoder.input.drop FrameFooter.size } []
  | .error => .failed

/-- What `inflateNext` of a blob appends to the input. -/
def Decoder.feed (decoder : Decoder) (data : List UInt8) : Decoder :=
  { decoder with input := decoder.input ++ data }

/-- A bound of the iterations of `process`: each of them consumes input, but for one behind
a block. -/
def Decoder.size (decoder : Decoder) : Nat :=
  2 * decoder.input.length + if decoder.state = .wantBlockPayload then 1 else 0

/-- `process`. -/
def Decoder.process (decoder : Decoder) : Decoder × List UInt8 × Bool :=
  Resumable.process advance fail (decoder.size + 1) decoder

/-- `inflateNext` of a blob, with what it writes and whether it fails. -/
def Decoder.inflateNext (decoder : Decoder) (data : List UInt8) : Decoder × List UInt8 × Bool :=
  (decoder.feed data).process

/-- `inflateNext` for each piece, up to the first that fails. -/
def Decoder.inflateAll (decoder : Decoder) (pieces : List (List UInt8)) :
    Decoder × List UInt8 × Bool :=
  Resumable.processAll advance fail feed size decoder pieces

def inflate (pieces : List (List UInt8)) : Option (Decoder × List UInt8 × Bool) :=
  let inflated := Decoder.inflateAll {} pieces
  if inflated.2.1.length < lengthLimit then some inflated else none

end NtfCore.Ntcd.Compression
