import NtfCore.Foundation.Run
import NtfCore.Ntcd.Compression.Decoding

/-!
Contract: what the decoder makes of any stream.

Owns: that neither the cuts of the stream nor the buffers of the input matter exactly while
the stream is passed in blobs, and when the bytes that a frame still needs are counted.
-/

namespace NtfCore.Ntcd.Compression

open NtfCore.Foundation FrameFooter

/-! ## Buffers -/

/-- `decode` of a blob: from the first buffer if it has enough bytes, else from a stream. -/
def decodeBlob {Format : Type} (decode : List UInt8 -> Decoded Format) (size : Nat)
    (source : List (List UInt8)) : Decoded Format :=
  if size ≤ source.flatten.length then
    if size ≤ (source.headD []).length then decode (source.headD [])
    else decode (source.flatten.take size)
  else .wouldBlock

theorem decodeBlob_eq {Format : Type} {decode : List UInt8 -> Decoded Format} {size : Nat}
    (append : ∀ source, ¬ source.length < size -> ∀ more, decode (source ++ more) = decode source)
    (short : ∀ source, source.length < size -> decode source = .wouldBlock)
    (source : List (List UInt8)) : decodeBlob decode size source = decode source.flatten := by
  rw [decodeBlob]
  split
  · rename_i enough
    split
    · rename_i first
      cases source with
      | nil => rfl
      | cons buffer rest => exact (append buffer (Nat.not_lt.mpr first) rest.flatten).symm
    · have isTaken : ¬ (source.flatten.take size).length < size := by
        rw [List.length_take, Nat.min_eq_left enough]
        exact Nat.lt_irrefl size
      have whole := append _ isTaken (source.flatten.drop size)
      rw [List.take_append_drop] at whole
      exact whole.symm
  · rename_i few
    exact (short _ (Nat.not_le.mp few)).symm

theorem Block.type_isSome {source : List UInt8} {block : Block}
    (decoded : Block.decode source = .value block) : block.type.isSome = true := by
  unfold decode at decoded
  split at decoded
  · dsimp only at decoded
    split at decoded
    · cases decoded
      assumption
    · contradiction
  · contradiction

namespace Decoder

/-! ## Cuts -/

theorem wanted_le_of_failed {decoder : Decoder} (fails : decoder.advance = .failed) :
    decoder.wanted ≤ decoder.input.length := by
  by_contra short
  rw [advance_short (Nat.lt_of_not_le short)] at fails
  contradiction

theorem stuck : Resumable.Stuck advance fail feed where
  fail_feed decoder more fails := by
    have enough := wanted_le_of_failed fails
    unfold wanted at enough
    unfold fail failedInput feed
    cases isState : decoder.state with
    | wantFrameHeader => rfl
    | wantBlock =>
      rw [isState] at enough
      rw [Block.decode_append (Nat.not_lt_of_le enough)]
      cases Block.decode decoder.input with
      | wouldBlock => rfl
      | invalid => rfl
      | value => rw [List.drop_append_of_le_length enough]
    | wantBlockPayload => rfl
    | wantFrameFooter =>
      rw [isState] at enough
      rw [decode_append (Nat.not_lt_of_le enough)]
      cases decode decoder.input with
      | wouldBlock => rfl
      | invalid => rfl
      | value => rw [List.drop_append_of_le_length enough]
    | error => rfl
  advance_fail _ _ := rfl
  fail_fail _ _ := rfl

/-- `inflateNext` for each piece. -/
def inflateEach (decoder : Decoder) (pieces : List (List UInt8)) : Decoder × List UInt8 × Bool :=
  Resumable.processEach advance fail feed size decoder pieces

theorem inflateEach_flatten (pieces : List (List UInt8)) :
    inflateEach {} pieces = inflateNext {} pieces.flatten := by
  cases pieces with
  | nil => rfl
  | cons piece rest => exact Resumable.processEach_cons lawful stuck rest piece {}

/-- The data of a call of `inflateNext`: memory, or the buffers of a blob. -/
inductive Piece where
  | memory (data : List UInt8)
  | blob (buffers : List (List UInt8))

def Piece.buffers : Piece -> List (List UInt8)
  | .memory data => [data]
  | .blob buffers => buffers

/-- `d_input` is given no factory of blob buffers, and grows by the buffers of blobs only. -/
def Piece.Supported : Piece -> Prop
  | .memory data => data = []
  | .blob _ => True

/-- What both versions of `inflateNext` append to `d_input`. A length over the total size of
a blob that has no factory is undefined, which is `none`. -/
def append (decoder : Decoder) : Piece -> Option Decoder
  | .memory [] => some decoder
  | .memory (_ :: _) => none
  | .blob buffers => some (decoder.feed buffers.flatten)

/-- `inflateNext` for each piece, of either kind. -/
def inflatePieces : Decoder -> List Piece -> Option (Decoder × List UInt8 × Bool)
  | decoder, [] => some (decoder, [], false)
  | decoder, piece :: rest => do
    let fed ← decoder.append piece
    let next := fed.process
    let last ← inflatePieces next.1 rest
    some (last.1, next.2.1 ++ last.2.1, next.2.2 || last.2.2)

theorem append_supported {piece : Piece} (supported : piece.Supported) (decoder : Decoder) :
    decoder.append piece = some (decoder.feed piece.buffers.flatten) := by
  cases piece with
  | memory data =>
    rw [show data = [] from supported]
    exact congrArg some (lawful.feed_nil decoder).symm
  | blob => rfl

theorem inflatePieces_supported {pieces : List Piece}
    (supported : ∀ piece ∈ pieces, piece.Supported) (decoder : Decoder) :
    inflatePieces decoder pieces =
      some (inflateEach decoder (pieces.map fun piece => piece.buffers.flatten)) := by
  induction pieces generalizing decoder with
  | nil => rfl
  | cons piece _ ih =>
    rw [inflatePieces, append_supported (supported piece List.mem_cons_self)]
    dsimp only [Option.bind_eq_bind, Option.bind_some]
    rw [ih fun other mem => supported other (List.mem_cons_of_mem _ mem)]
    rfl

theorem supported_of_inflatePieces {pieces : List Piece} {decoder : Decoder}
    {result : Decoder × List UInt8 × Bool} (inflated : inflatePieces decoder pieces = some result) :
    ∀ piece ∈ pieces, piece.Supported := by
  induction pieces generalizing decoder result with
  | nil => exact List.forall_mem_nil _
  | cons piece _ ih =>
    obtain ⟨_, isFed, rest⟩ := Option.bind_eq_some_iff.mp inflated
    obtain ⟨_, isLast, _⟩ := Option.bind_eq_some_iff.mp rest
    refine List.forall_mem_cons.mpr ⟨?_, ih isLast⟩
    cases piece with
    | memory data =>
      cases data with
      | nil => rfl
      | cons => contradiction
    | blob => trivial

def bufferList (pieces : List Piece) : List (List UInt8) :=
  pieces.flatMap Piece.buffers

/-- The pieces are inflated to the same state, output and failure, and headers, blocks and
footers are decoded the same, whatever the buffers. -/
structure Independent (pieces others : List Piece) : Prop where
  inflates : ∃ result, inflatePieces {} pieces = some result ∧ inflatePieces {} others = some result
  frameHeader : decodeBlob FrameHeader.decode FrameHeader.size (bufferList pieces) =
    decodeBlob FrameHeader.decode FrameHeader.size (bufferList others)
  block : decodeBlob Block.decode Block.size (bufferList pieces) =
    decodeBlob Block.decode Block.size (bufferList others)
  frameFooter : decodeBlob FrameFooter.decode FrameFooter.size (bufferList pieces) =
    decodeBlob FrameFooter.decode FrameFooter.size (bufferList others)

theorem flatten_bufferList (pieces : List Piece) : (bufferList pieces).flatten =
    (pieces.map fun piece => piece.buffers.flatten).flatten := by
  rw [bufferList, List.flatMap_def, List.flatten_flatten, List.map_map]
  rfl

/-- Two cuts of a stream into pieces are inflated the same exactly when all that is not empty
is passed in blobs. -/
theorem pieces_independent_iff {pieces others : List Piece}
    (same : (bufferList pieces).flatten = (bufferList others).flatten) :
    Independent pieces others ↔ ∀ piece ∈ pieces ++ others, piece.Supported := by
  constructor
  · rintro ⟨⟨_, inflated, alsoInflated⟩, _⟩ piece mem
    rcases List.mem_append.mp mem with here | there
    · exact supported_of_inflatePieces inflated piece here
    · exact supported_of_inflatePieces alsoInflated piece there
  · intro supported
    obtain ⟨first, second⟩ := List.forall_mem_append.mp supported
    refine ⟨⟨_, inflatePieces_supported first {}, ?_⟩, ?_, ?_, ?_⟩
    · rw [inflatePieces_supported second, inflateEach_flatten, inflateEach_flatten,
        ← flatten_bufferList, ← flatten_bufferList, same]
    · have isDecoded := decodeBlob_eq (fun _ => FrameHeader.decode_append)
        (fun _ => FrameHeader.decode_short)
      rw [isDecoded, isDecoded, same]
    · have isDecoded := decodeBlob_eq (fun _ => Block.decode_append) (fun _ => Block.decode_short)
      rw [isDecoded, isDecoded, same]
    · have isDecoded := decodeBlob_eq (fun _ => decode_append) (fun _ => decode_short)
      rw [isDecoded, isDecoded, same]

def frameHeaderBytes : List UInt8 := [82, 76, 69, 72, 4, 0, 0, 0, 0, 0, 0, 0, 14, 41, 216, 76]

def frameBytes : List UInt8 := frameHeaderBytes ++ [8, 0, 7, 2, 82, 76, 69, 70, 14, 41, 216, 76]

/-- A frame of eight equal bytes, cut within its header and behind its block. -/
theorem pieces_independent_frame :
    Independent [.blob [frameBytes.take 3, []], .memory [], .blob [frameBytes.drop 3]]
        [.blob [frameBytes.take 20], .blob [frameBytes.drop 20]] ∧
      (inflatePieces {} [.blob [frameBytes]]).map (fun result => result.2) =
        some (List.replicate 8 7, false) := by
  refine ⟨(pieces_independent_iff ?_).mpr ?_, by decide +kernel⟩
  · rfl
  intro piece mem
  simp only [List.cons_append, List.nil_append, List.mem_cons, List.not_mem_nil, or_false] at mem
  rcases mem with rfl | rfl | rfl | rfl | rfl <;> trivial

/-- Passed as memory, no byte of the frame can be appended. -/
theorem memory_not_independent : ¬ Independent [.memory frameBytes] [.blob [frameBytes]] := by
  intro independent
  obtain ⟨_, inflated, _⟩ := independent.inflates
  contradiction

/-! ## The content of frames -/

/-- A decoder within its loops, and the bytes of blocks and payloads behind the header. -/
structure Framed where
  decoder : Decoder := {}
  content : Nat := 0
deriving DecidableEq

inductive Call where
  /-- `inflateNext` appends its data to the input. -/
  | feed (data : List UInt8)
  /-- One iteration of the loop of `process`. -/
  | iterate

/-- The state of a decoder that takes bytes of content. -/
def inContent (decoder : Decoder) : Bool :=
  decoder.state = .wantBlock || decoder.state = .wantBlockPayload

namespace Framed

def step (framed : Framed) : Call -> Option Framed
  | .feed data => some { framed with decoder := framed.decoder.feed data }
  | .iterate =>
    match framed.decoder.advance with
    | .blocked => none
    | .failed => some ⟨framed.decoder.fail, 0⟩
    | .moved next _ =>
      some ⟨next, if framed.decoder.inContent then framed.content + framed.decoder.wanted else 0⟩

/-- What is taken and what is needed make up the length in the header. -/
def Accounted (framed : Framed) : Prop :=
  match framed.decoder.state with
  | .wantBlock | .wantBlockPayload =>
    framed.content + framed.decoder.frameContentBytesNeeded =
      framed.decoder.frameHeader.length.toNat
  | .wantFrameFooter =>
    framed.content = framed.decoder.frameHeader.length.toNat ∧
      framed.decoder.frameContentBytesNeeded = 0
  | _ => True

/-- A block or a payload that is longer than what the frame needs is an error. -/
def Refuses (framed : Framed) : Call -> Prop
  | .feed _ => True
  | .iterate => framed.decoder.inContent = true ->
    framed.decoder.frameContentBytesNeeded < framed.decoder.wanted ->
      framed.decoder.advance = .failed

/-- The block or the payload is no longer than what the frame needs. -/
def Fits (framed : Framed) : Call -> Prop
  | .feed _ => True
  | .iterate =>
    match framed.decoder.state with
    | .wantBlock => ∀ block, Block.decode framed.decoder.input = .value block ->
      block.type ≠ some .undefined -> Block.size ≤ framed.decoder.frameContentBytesNeeded
    | .wantBlockPayload => framed.decoder.block.length.toNat ≤ framed.decoder.input.length ->
      framed.decoder.block.length.toNat ≤ framed.decoder.frameContentBytesNeeded
    | _ => True

variable {framed : Framed}

theorem accounted_wantNext
    (isNext : framed.decoder.state = wantNext framed.decoder.frameContentBytesNeeded) :
    framed.Accounted ↔ framed.content + framed.decoder.frameContentBytesNeeded =
      framed.decoder.frameHeader.length.toNat := by
  unfold wantNext at isNext
  unfold Accounted
  split at isNext
  · rw [isNext]
  · rw [isNext]
    omega

/-- What a step does in the content of a frame. -/
theorem content_cases (inside : framed.decoder.inContent = true) :
    framed.decoder.advance = .blocked ∨ (framed.decoder.advance = .failed ∧ framed.Fits .iterate) ∨
      ∃ next written, framed.decoder.advance = .moved next written ∧ (framed.Fits .iterate ↔
          framed.decoder.wanted ≤ framed.decoder.frameContentBytesNeeded) ∧
        next.frameHeader = framed.decoder.frameHeader ∧ next.frameContentBytesNeeded =
          sizeSub framed.decoder.frameContentBytesNeeded framed.decoder.wanted ∧
        (next.state = .wantBlockPayload ∨ next.state = wantNext next.frameContentBytesNeeded) := by
  unfold inContent at inside
  unfold advance Fits wanted
  cases isState : framed.decoder.state with
  | wantBlock =>
    cases isBlock : Block.decode framed.decoder.input with
    | wouldBlock => exact .inl rfl
    | invalid => exact .inr (.inl ⟨rfl, nofun⟩)
    | value block =>
      right
      have fits : block.type ≠ some .undefined ->
          ((∀ other, Decoded.value block = .value other -> other.type ≠ some .undefined ->
              Block.size ≤ framed.decoder.frameContentBytesNeeded) ↔
            Block.size ≤ framed.decoder.frameContentBytesNeeded) := fun defined =>
        ⟨fun all => all block rfl defined, fun enough _ _ _ => enough⟩
      dsimp only
      cases isType : block.type with
      | none =>
        have isSome := Block.type_isSome isBlock
        rw [isType] at isSome
        contradiction
      | some type =>
        cases type with
        | undefined =>
          refine .inl ⟨rfl, ?_⟩
          rintro _ ⟨⟩ defined
          contradiction
        | raw =>
          right
          dsimp only
          split
          · exact ⟨_, _, rfl, fits (by rw [isType]; nofun), rfl, rfl, .inl rfl⟩
          · refine ⟨_, _, rfl, fits (by rw [isType]; nofun), rfl, rfl, .inr ?_⟩
            dsimp only
        | rle =>
          refine .inr ⟨_, _, rfl, fits (by rw [isType]; nofun), rfl, rfl, .inr ?_⟩
          dsimp only
  | wantBlockPayload =>
    dsimp only
    split
    · rename_i enough
      exact .inr (.inr ⟨_, _, rfl, ⟨fun fits => fits enough, fun fits _ => fits⟩, rfl, rfl,
        .inr rfl⟩)
    · exact .inl rfl
  | wantFrameHeader | wantFrameFooter | error =>
    rw [isState] at inside
    contradiction

/-- The difference does not wrap if and only if the sum is kept. -/
theorem sizeSub_iff {content needed wanted length : Nat} (isLength : content + needed = length)
    (small : length < 2 ^ 32) (fewWanted : wanted < 2 ^ 32) :
    content + wanted + sizeSub needed wanted = length ↔ wanted ≤ needed := by
  unfold sizeSub
  omega

theorem accounted_moved {next : Decoder}
    (accounted : framed.Accounted) (inside : framed.decoder.inContent = true)
    (isHeader : next.frameHeader = framed.decoder.frameHeader)
    (isNeeded : next.frameContentBytesNeeded =
      sizeSub framed.decoder.frameContentBytesNeeded framed.decoder.wanted)
    (isState : next.state = .wantBlockPayload ∨
      next.state = wantNext next.frameContentBytesNeeded) :
    Accounted ⟨next, framed.content + framed.decoder.wanted⟩ ↔
      framed.decoder.wanted ≤ framed.decoder.frameContentBytesNeeded := by
  have few : framed.decoder.wanted < 2 ^ 32 := by
    have short := framed.decoder.block.length.toNat_lt
    unfold wanted
    split
    · decide
    · decide
    · omega
    · decide
    · decide
  have isLength : framed.content + framed.decoder.frameContentBytesNeeded =
      framed.decoder.frameHeader.length.toNat := by
    unfold Accounted at accounted
    unfold inContent at inside
    cases isState : framed.decoder.state with
    | wantBlock | wantBlockPayload =>
      rw [isState] at accounted
      exact accounted
    | wantFrameHeader | wantFrameFooter | error =>
      rw [isState] at inside
      contradiction
  rw [← sizeSub_iff isLength framed.decoder.frameHeader.length.toNat_lt few, ← isNeeded, ← isHeader]
  obtain isPayload | isNext := isState
  · unfold Accounted
    rw [isPayload]
  · exact accounted_wantNext isNext

variable {next : Framed}

theorem step_content (accounted : framed.Accounted)
    (inside : framed.decoder.inContent = true) (taken : framed.step .iterate = some next) :
    next.Accounted ↔ framed.Fits .iterate := by
  rw [step, if_pos inside] at taken
  obtain isBlocked | ⟨isFailed, fits⟩ | ⟨_, _, moves, fits, isHeader, isNeeded, isState⟩ :=
    content_cases inside
  · rw [isBlocked] at taken
    contradiction
  · rw [isFailed] at taken
    cases taken
    exact iff_of_true trivial fits
  · rw [moves] at taken
    cases taken
    rw [fits]
    exact accounted_moved accounted inside isHeader isNeeded isState

theorem step_outside (outside : framed.decoder.inContent = false)
    (taken : framed.step .iterate = some next) : next.Accounted ∧ framed.Fits .iterate := by
  unfold step at taken
  unfold inContent at outside
  unfold advance at taken
  unfold Fits
  cases isState : framed.decoder.state with
  | wantFrameHeader =>
    rw [isState] at taken
    dsimp only at taken
    split at taken
    · contradiction
    · cases taken
      exact ⟨trivial, trivial⟩
    · rename_i moves
      split at moves
      · contradiction
      · contradiction
      · cases moves
        cases taken
        rw [if_neg (by rw [inContent, outside]; exact Bool.false_ne_true)]
        exact ⟨(accounted_wantNext rfl).mpr (Nat.zero_add _), trivial⟩
  | wantFrameFooter =>
    rw [isState] at taken
    dsimp only at taken
    split at taken
    · contradiction
    · cases taken
      exact ⟨trivial, trivial⟩
    · rename_i moves
      split at moves
      · contradiction
      · contradiction
      · split at moves
        · contradiction
        · cases moves
          cases taken
          exact ⟨trivial, trivial⟩
  | error =>
    rw [isState] at taken
    cases taken
    exact ⟨trivial, trivial⟩
  | wantBlock | wantBlockPayload =>
    rw [isState] at outside
    contradiction

theorem step_refuses (taken : framed.step .iterate = some next) :
    framed.Refuses .iterate ↔ framed.Fits .iterate := by
  cases inside : framed.decoder.inContent with
  | false =>
    refine iff_of_true (fun content => ?_) (step_outside inside taken).2
    rw [inside] at content
    contradiction
  | true =>
    obtain isBlocked | ⟨isFailed, fits⟩ | ⟨_, _, moves, fits, _⟩ := content_cases inside
    · rw [step, isBlocked] at taken
      contradiction
    · exact iff_of_true (fun _ _ => isFailed) fits
    · rw [fits]
      constructor
      · intro refuses
        by_contra exceeds
        have fails := refuses inside (Nat.not_le.mp exceeds)
        rw [moves] at fails
        contradiction
      · exact fun enough _ exceeds => absurd enough (Nat.not_le.mpr exceeds)

/-- The bytes that a frame needs never wrap, and what exceeds them is refused, in exactly the
runs in which every block and payload fits. -/
theorem accounted_iff_fits (calls : List Call) :
    (Run.Always step Accounted {} calls ∧ Run.Along step Refuses {} calls) ↔
      Run.Along step Fits {} calls := by
  have keeps : ∀ framed call next, Accounted framed -> Fits framed call ->
      step framed call = some next -> Accounted next := by
    intro framed call next accounted fits taken
    cases call with
    | feed data =>
      cases taken
      exact accounted
    | iterate =>
      cases inside : framed.decoder.inContent with
      | true => exact (step_content accounted inside taken).mpr fits
      | false => exact (step_outside inside taken).1
  have detects : ∀ framed call next, Accounted framed -> step framed call = some next ->
      Accounted next -> Fits framed call := by
    intro framed call next accounted taken after
    cases call with
    | feed data => trivial
    | iterate =>
      cases inside : framed.decoder.inContent with
      | true => exact (step_content accounted inside taken).mp after
      | false => exact (step_outside inside taken).2
  have start : Accounted {} := trivial
  have always : Run.Always step Accounted {} calls ↔ Run.Along step Fits {} calls :=
    Run.always_iff_along (fun _ accounted => accounted) keeps detects start
  have along : Run.Along step Refuses {} calls ↔ Run.Along step Fits {} calls := by
    refine Run.along_iff ?_ keeps start
    intro _ call _ _ taken
    cases call with
    | feed => exact Iff.rfl
    | iterate => exact step_refuses taken
  rw [always, along, and_self_iff]

/-- A frame of one byte, in which a block begins. -/
def overrun : List UInt8 :=
  ({ length := 1 } : FrameHeader).encode ++ ({ flags := 1 } : Block).encode

theorem overrun_not_accounted :
    ¬ ∀ calls, Run.Always step Accounted {} calls ∧ Run.Along step Refuses {} calls := by
  intro all
  have always := (all [.feed overrun, .iterate, .iterate]).1
  have ran : Run.run step {} [.feed overrun, .iterate, .iterate] =
      some ⟨{ state := .wantBlock, frameHeader := { length := 1 },
              frameContentBytesNeeded := 2 ^ 64 - 3 }, 4⟩ := by decide +kernel
  have accounted := (Run.always_iff _ _).mp always _ [] _ (List.append_nil _) ran
  exact absurd accounted (by decide : ¬ 4 + (2 ^ 64 - 3) = 1)

end Framed

end Decoder

end NtfCore.Ntcd.Compression
