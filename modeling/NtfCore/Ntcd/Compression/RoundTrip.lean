import NtfCore.Ntcd.Compression.Encoding

/-!
Contract: what is deflated is inflated again.

Owns: what the decoder writes for the blocks, the frames and the sequences of frames that
the encoder writes, in whatever pieces it is fed with them; and the condition under which
that is what was deflated.
-/

namespace NtfCore.Ntcd.Compression

open NtfCore.Foundation List Resumable
open NtfCore.Ntcd.Compression.Span
open Decoder

def Span.cost : Span -> Nat
  | .raw bytes => Block.size + bytes.length
  | .rle _ _ => Block.size

def frameCost (chunks : List (List UInt8)) : Nat :=
  FrameHeader.size + ((chunks.flatMap segments).map cost).sum + FrameFooter.size

/-- Each run of a byte, and each stretch between two runs, has a length of 16 bits; and a
blob can hold what is deflated, and what is inflated. -/
structure Narrow (frames : List (List (List UInt8))) : Prop where
  segments : ∀ chunks ∈ frames, ∀ chunk ∈ chunks, ∀ segment ∈ segments chunk,
    segment.length < 2 ^ 16
  deflated : (frames.map frameCost).sum < lengthLimit
  inflated : frames.flatten.flatten.length < lengthLimit

/-- In whatever pieces it is inflated, what was deflated is written again without an error;
no input is left, and the next frame header is wanted. -/
def RoundTrips (frames : List (List (List UInt8))) : Prop :=
  ∃ blob, deflate frames = some blob ∧ ∀ pieces, pieces.flatten = blob ->
    ∃ decoder, inflate pieces = some (decoder, frames.flatten.flatten, false) ∧
      decoder.state = .wantFrameHeader ∧ decoder.input = []

theorem frameSpans_eq (chunks : List (List UInt8)) : frameSpans chunks = chunks.flatMap segments :=
  flatMap_congr fun chunk _ => spans_eq_segments chunk

variable {frames : List (List (List UInt8))}

theorem Narrow.spans (narrow : Narrow frames) :
    ∀ chunks ∈ frames, ∀ span ∈ frameSpans chunks, span.length < 2 ^ 16 := by
  intro chunks isFrame span mem
  rw [frameSpans_eq] at mem
  obtain ⟨chunk, isChunk, isSegment⟩ := mem_flatMap.mp mem
  exact narrow.segments chunks isFrame chunk isChunk span isSegment

/-! ## Blocks -/

def Span.carried : Span -> List UInt8
  | .raw bytes => bytes.take (bytes.length % 2 ^ 16)
  | .rle count literal => List.replicate (count % 2 ^ 16) literal

theorem Span.block_length (span : Span) : span.block.length.toNat = span.length % 2 ^ 16 := by
  cases span with
  | raw bytes | rle _ _ => exact UInt16.toNat_ofNat'

theorem Span.carried_length (span : Span) : span.carried.length = span.length % 2 ^ 16 := by
  cases span with
  | raw =>
    unfold carried length
    rw [length_take, Nat.min_eq_left (Nat.mod_le _ _)]
  | rle => exact length_replicate

variable {span : Span}

theorem Span.carried_of_narrow (narrow : span.length < 2 ^ 16) : span.carried = span.contents := by
  cases span with
  | raw bytes =>
    have isNarrow : bytes.length < 2 ^ 16 := narrow
    rw [carried, Nat.mod_eq_of_lt isNarrow, take_length]
    rfl
  | rle count =>
    have isNarrow : count < 2 ^ 16 := narrow
    rw [carried, Nat.mod_eq_of_lt isNarrow]
    rfl

theorem Span.payload_eq_carried (bytes : List UInt8) :
    (raw bytes).payload = (raw bytes).carried := by
  rw [payload, carried, block_length]
  rfl

theorem sizeSub_eq {left right : Nat} (atMost : right ≤ left) (small : left < 2 ^ 64) :
    sizeSub left right = left - right := by
  unfold sizeSub
  omega

structure Inside (header : FrameHeader) (needed : Nat) (crc : UInt32) (input : List UInt8)
    (decoder : Decoder) : Prop where
  state : decoder.state = wantNext needed
  input : decoder.input = input
  frameHeader : decoder.frameHeader = header
  frameContentBytesNeeded : decoder.frameContentBytesNeeded = needed
  frameContentCrc : decoder.frameContentCrc = crc

variable {header : FrameHeader} {crc : UInt32} {decoder : Decoder} {more : List UInt8} {rest : Nat}

theorem advance_block
    (inside : Inside header (span.encode.length + rest) crc (span.encode ++ more) decoder)
    (small : span.encode.length + rest < 2 ^ 64) :
    decoder.state = .wantBlock ∧ Block.decode decoder.input = .value span.block ∧
      decoder.input.drop Block.size = span.payload ++ more ∧
      sizeSub decoder.frameContentBytesNeeded Block.size = span.payload.length + rest := by
  have isType : span.block.type.isSome = true := by cases span <;> rfl
  have isLength : span.encode.length = Block.size + span.payload.length := by
    unfold encode
    rw [length_append, Block.encode_length]
  have isInput : decoder.input = span.block.encode ++ (span.payload ++ more) := by
    rw [inside.input, encode, append_assoc]
  have isFour : Block.size = 4 := rfl
  refine ⟨?_, ?_, ?_, ?_⟩
  · rw [inside.state, wantNext, if_pos (by omega)]
  · rw [isInput]
    exact Block.decode_encode isType _
  · rw [isInput, ← span.block.encode_length]
    exact drop_left
  · rw [inside.frameContentBytesNeeded, sizeSub_eq (by omega) small]
    omega

theorem reaches_rle {count : Nat} {literal : UInt8}
    (small : (rle count literal).encode.length + rest < 2 ^ 64)
    (inside : Inside header ((rle count literal).encode.length + rest) crc
      ((rle count literal).encode ++ more) decoder) :
    ∃ next, Reaches advance decoder (rle count literal).carried next ∧
      Inside header rest (crcUpdate crc (rle count literal).carried) more next := by
  obtain ⟨isState, isBlock, isRest, isNeeded⟩ := advance_block inside small
  have isCarried : replicate (rle count literal).block.length.toNat literal =
      (rle count literal).carried := by
    rw [carried, block_length]
    rfl
  have isMore : decoder.input.drop Block.size = more := isRest
  have isLeft : sizeSub decoder.frameContentBytesNeeded Block.size = rest :=
    isNeeded.trans (Nat.zero_add rest)
  have moves : decoder.advance = .moved
      { decoder with
        state := wantNext rest
        input := more
        frameContentBytesNeeded := rest
        frameContentCrc := crcUpdate decoder.frameContentCrc (rle count literal).carried
        block := {} } (rle count literal).carried := by
    unfold advance
    rw [isState]
    rw [isBlock]
    rw [isMore, isLeft, ← isCarried]
    rfl
  refine ⟨_, .single moves, rfl, rfl, inside.frameHeader, rfl, ?_⟩
  rw [← inside.frameContentCrc]

/-- A stretch of bytes is written once its payload is read, if there is any. -/
theorem reaches_raw {bytes : List UInt8} (small : (raw bytes).encode.length + rest < 2 ^ 64)
    (inside : Inside header ((raw bytes).encode.length + rest) crc
      ((raw bytes).encode ++ more) decoder) :
    ∃ next, Reaches advance decoder (raw bytes).carried next ∧
      Inside header rest (crcUpdate crc (raw bytes).carried) more next := by
  obtain ⟨isState, isBlock, isRest, isNeeded⟩ := advance_block inside small
  have bound : (raw bytes).payload.length + rest < 2 ^ 64 := by
    unfold encode at small
    rw [length_append] at small
    omega
  rw [payload_eq_carried] at isRest isNeeded bound
  have isLength : (raw bytes).block.length.toNat = (raw bytes).carried.length := by
    rw [block_length, carried_length]
  generalize (raw bytes).carried = carried at *
  by_cases someCarried : 0 < carried.length
  · have moves : decoder.advance = .moved
        { decoder with
          state := .wantBlockPayload
          input := carried ++ more
          frameContentBytesNeeded := carried.length + rest
          block := (raw bytes).block } [] := by
      unfold advance
      rw [isState]
      rw [isBlock]
      dsimp only
      rw [isRest, isNeeded, isLength]
      exact if_pos someCarried
    have movesOn : advance
        { decoder with
          state := .wantBlockPayload
          input := carried ++ more
          frameContentBytesNeeded := carried.length + rest
          block := (raw bytes).block } = .moved
        { decoder with
          state := wantNext rest
          input := more
          frameContentBytesNeeded := rest
          frameContentCrc := crcUpdate decoder.frameContentCrc carried
          block := (raw bytes).block } carried := by
      unfold advance
      dsimp only
      rw [isLength, if_pos (by rw [length_append]; omega), take_left, drop_left,
        sizeSub_eq (by omega) bound, Nat.add_sub_cancel_left]
    refine ⟨_, .move moves (.single movesOn), rfl, rfl, inside.frameHeader, rfl, ?_⟩
    rw [← inside.frameContentCrc]
  · have noneCarried : carried = [] := eq_nil_of_length_eq_zero (by omega)
    have moves : decoder.advance = .moved
        { decoder with
          state := wantNext rest
          input := more
          frameContentBytesNeeded := rest
          block := {} } [] := by
      unfold advance
      rw [isState]
      rw [isBlock]
      dsimp only
      rw [isRest, isNeeded, isLength, noneCarried, nil_append, length_nil, Nat.zero_add]
      rfl
    rw [noneCarried]
    refine ⟨_, .single moves, rfl, rfl, inside.frameHeader, rfl, ?_⟩
    rw [crcUpdate_nil]
    exact inside.frameContentCrc

/-- The decoder is behind a block, and writes what the block stands for. -/
theorem reaches_span (span : Span) (rest : Nat) (more : List UInt8)
    (small : span.encode.length + rest < 2 ^ 64)
    (inside : Inside header (span.encode.length + rest) crc (span.encode ++ more) decoder) :
    ∃ next, Reaches advance decoder span.carried next ∧
      Inside header rest (crcUpdate crc span.carried) more next := by
  cases span with
  | raw => exact reaches_raw small inside
  | rle => exact reaches_rle small inside

theorem reaches_spans (spans : List Span) (more : List UInt8)
    (small : (spans.flatMap encode).length < 2 ^ 64)
    (inside : Inside header (spans.flatMap encode).length crc
      (spans.flatMap encode ++ more) decoder) :
    ∃ next, Reaches advance decoder (spans.flatMap carried) next ∧
      Inside header 0 (crcUpdate crc (spans.flatMap carried)) more next := by
  induction spans generalizing crc decoder with
  | nil =>
    refine ⟨decoder, .stay decoder, ?_⟩
    rw [flatMap_nil, crcUpdate_nil]
    exact inside
  | cons span _ ih =>
    rw [flatMap_cons, length_append] at small
    rw [flatMap_cons, length_append, append_assoc] at inside
    obtain ⟨_, reaches, insideMiddle⟩ := reaches_span span _ _ small inside
    obtain ⟨next, goesOn, insideNext⟩ := ih (by omega) insideMiddle
    refine ⟨next, ?_, ?_⟩
    · rw [flatMap_cons]
      exact reaches.trans goesOn
    · rw [flatMap_cons, ← crcUpdate_append]
      exact insideNext

def idle (input : List UInt8) : Decoder where
  input := input

def frameCarried (chunks : List (List UInt8)) : List UInt8 :=
  (frameSpans chunks).flatMap carried

/-- The decoder reads a frame up to its footer, which it accepts if the checksum of what it
has written is that of the chunks. -/
theorem reaches_footer (chunks : List (List UInt8)) (more : List UInt8)
    (small : (frameBody chunks).length < 2 ^ 32) :
    ∃ next, Reaches advance (idle (frame chunks ++ more)) (frameCarried chunks) next ∧
      next.advance = if crcUpdate 0 (frameCarried chunks) ≠ crcUpdate 0 chunks.flatten then .failed
        else .moved (idle more) [] := by
  have isNeeded : (frameHeader chunks).length.toNat = (frameBody chunks).length := by
    unfold frameHeader
    rw [UInt32.toNat_ofNat_of_lt' small]
  have isInput : frame chunks ++ more =
      (frameHeader chunks).encode ++ (frameBody chunks ++ ((frameFooter chunks).encode ++ more)) := by
    unfold frame
    rw [append_assoc, append_assoc]
  have begins : (idle (frame chunks ++ more)).advance = .moved
      { idle (frameBody chunks ++ ((frameFooter chunks).encode ++ more)) with
        state := wantNext (frameBody chunks).length
        frameHeader := frameHeader chunks
        frameContentBytesNeeded := (frameBody chunks).length } [] := by
    unfold idle advance
    rw [isInput, FrameHeader.decode_encode rfl]
    dsimp only
    rw [isNeeded, ← (frameHeader chunks).encode_length, drop_left]
  have inside : Inside (frameHeader chunks) (frameBody chunks).length 0
      (frameBody chunks ++ ((frameFooter chunks).encode ++ more))
      { idle (frameBody chunks ++ ((frameFooter chunks).encode ++ more)) with
        state := wantNext (frameBody chunks).length
        frameHeader := frameHeader chunks
        frameContentBytesNeeded := (frameBody chunks).length } :=
    ⟨rfl, rfl, rfl, rfl, rfl⟩
  obtain ⟨next, reaches, insideNext⟩ := reaches_spans (frameSpans chunks)
    ((frameFooter chunks).encode ++ more) (by unfold frameBody at small; omega) inside
  refine ⟨next, .move begins reaches, ?_⟩
  have isState : next.state = .wantFrameFooter := insideNext.state
  unfold advance
  rw [isState]
  rw [insideNext.input, FrameFooter.decode_encode rfl, insideNext.frameContentCrc,
    insideNext.frameHeader]
  rw [← (frameFooter chunks).encode_length, drop_left]
  rfl

def allCarried (frames : List (List (List UInt8))) : List UInt8 :=
  frames.flatMap frameCarried

variable {chunks : List (List UInt8)}

theorem frameCarried_of_narrow (narrow : ∀ span ∈ frameSpans chunks, span.length < 2 ^ 16) :
    frameCarried chunks = chunks.flatten := by
  rw [← frameSpans_contents]
  exact flatMap_congr fun span mem => carried_of_narrow (narrow span mem)

/-- Frames whose blocks are narrow are read one after another. -/
theorem reaches_frames (frames : List (List (List UInt8)))
    (narrow : ∀ chunks ∈ frames, ∀ span ∈ frameSpans chunks, span.length < 2 ^ 16)
    (small : ∀ chunks ∈ frames, (frameBody chunks).length < 2 ^ 32) :
    Reaches advance (idle (frames.flatMap frame)) frames.flatten.flatten (idle []) := by
  induction frames with
  | nil => exact .stay _
  | cons chunks rest ih =>
    have isCarried := frameCarried_of_narrow (narrow chunks mem_cons_self)
    obtain ⟨_, reaches, ends⟩ :=
      reaches_footer chunks (rest.flatMap frame) (small chunks mem_cons_self)
    rw [isCarried, if_neg (fun differs => differs rfl)] at ends
    rw [isCarried] at reaches
    have follows := ih (fun other mem => narrow other (mem_cons_of_mem chunks mem))
      (fun other mem => small other (mem_cons_of_mem chunks mem))
    rw [flatMap_cons, flatten_cons, flatten_append]
    exact reaches.trans (.move ends follows)

/-- Whatever the frames, the decoder fails, or has written what their blocks carry. -/
theorem process_frames (frames : List (List (List UInt8)))
    (small : ∀ chunks ∈ frames, (frameBody chunks).length < 2 ^ 32) (fuel : Nat)
    (enough : (idle (frames.flatMap frame)).size < fuel) :
    (process advance fail fuel (idle (frames.flatMap frame))).2.2 = true ∨
      (process advance fail fuel (idle (frames.flatMap frame))).2.1 = allCarried frames := by
  induction frames generalizing fuel with
  | nil =>
    cases fuel with
    | zero => omega
    | succ fuel => exact .inr rfl
  | cons chunks rest ih =>
    obtain ⟨footer, reaches, ends⟩ :=
      reaches_footer chunks (rest.flatMap frame) (small chunks mem_cons_self)
    rw [flatMap_cons] at enough ⊢
    obtain ⟨left, enoughLeft, processed⟩ := process_through fail lawful reaches fuel enough
    rw [processed]
    cases left with
    | zero => omega
    | succ left =>
      split at ends
      · rw [Resumable.process, ends]
        exact .inl rfl
      · have isShorter := lawful.size_lt footer _ _ ends
        rw [Resumable.process, ends]
        obtain fails | isWritten := ih
          (fun other mem => small other (mem_cons_of_mem chunks mem)) left (by omega)
        · exact .inl fails
        · refine .inr ?_
          dsimp only
          rw [isWritten, nil_append]
          rfl

/-! ## Lengths -/

theorem Span.encode_length_of_narrow (narrow : span.length < 2 ^ 16) :
    span.encode.length = span.cost := by
  unfold encode
  rw [length_append, Block.encode_length]
  cases span with
  | raw =>
    rw [payload_eq_carried, carried_of_narrow narrow]
    rfl
  | rle => rfl

theorem frame_length_of_narrow (narrow : ∀ span ∈ frameSpans chunks, span.length < 2 ^ 16) :
    (frame chunks).length = frameCost chunks := by
  have isBody : (frameBody chunks).length = ((frameSpans chunks).map cost).sum := by
    unfold frameBody
    rw [length_flatMap]
    congr 1
    exact map_congr_left fun span mem => encode_length_of_narrow (narrow span mem)
  unfold frame frameCost
  rw [length_append, length_append, FrameHeader.encode_length,
    FrameFooter.encode_length, isBody, frameSpans_eq]

theorem frames_length_of_narrow
    (narrow : ∀ chunks ∈ frames, ∀ span ∈ frameSpans chunks, span.length < 2 ^ 16) :
    (frames.flatMap frame).length = (frames.map frameCost).sum := by
  rw [length_flatMap]
  congr 1
  exact map_congr_left fun chunks mem => frame_length_of_narrow (narrow chunks mem)

theorem body_lt (mem : chunks ∈ frames) (fits : (frames.flatMap frame).length < lengthLimit) :
    (frameBody chunks).length < 2 ^ 32 := by
  have isWithin : (frame chunks).length ≤ (frames.flatMap frame).length := by
    rw [flatMap_def]
    exact (sublist_flatten_of_mem (mem_map_of_mem mem)).length_le
  have isFrame : (frame chunks).length = (frameHeader chunks).encode.length +
      (frameBody chunks).length + (frameFooter chunks).encode.length := by
    unfold frame
    rw [length_append, length_append]
  unfold lengthLimit at fits
  omega

theorem carried_length_le (spans : List Span) :
    (spans.flatMap carried).length ≤ (spans.flatMap contents).length := by
  induction spans with
  | nil => exact Nat.le_refl 0
  | cons =>
    rw [flatMap_cons, flatMap_cons, length_append, length_append, carried_length, contents_length]
    omega

/-- A block that is not narrow carries too little. -/
theorem narrow_of_length {spans : List Span}
    (sameLength : (spans.flatMap carried).length = (spans.flatMap contents).length) :
    ∀ span ∈ spans, span.length < 2 ^ 16 := by
  induction spans with
  | nil => exact by simp
  | cons first rest ih =>
    rw [flatMap_cons, flatMap_cons, length_append, length_append,
      carried_length, contents_length] at sameLength
    have restAtMost := carried_length_le rest
    intro span mem
    obtain isFirst | isLater := mem_cons.mp mem
    · rw [isFirst]
      omega
    · exact ih (by omega) span isLater

/-! ## Round trips -/

theorem deflate_eq (frames : List (List (List UInt8))) : deflate frames =
      if (frames.flatMap frame).length < lengthLimit then some (frames.flatMap frame)
    else none := by
  unfold deflate
  rw [deflateFrames_eq, nil_append]

theorem inflate_of_narrow (narrow : Narrow frames)
    {pieces : List (List UInt8)} (isCut : pieces.flatten = frames.flatMap frame) :
    inflate pieces = some (idle [], frames.flatten.flatten, false) := by
  have fits : (frames.flatMap frame).length < lengthLimit := by
    rw [frames_length_of_narrow narrow.spans]
    exact narrow.deflated
  have reaches : Reaches advance (feed {} pieces.flatten) frames.flatten.flatten (idle []) := by
    rw [isCut]
    exact reaches_frames frames narrow.spans fun _ mem => body_lt mem fits
  have isInflated : inflateAll {} pieces = (idle [], frames.flatten.flatten, false) :=
    processAll_of_reaches fail lawful rfl pieces {} rfl reaches
  unfold inflate
  rw [isInflated]
  exact if_pos narrow.inflated

/-- What the decoder writes without an error is what the blocks carry, so that they carry
all that was deflated. -/
theorem spans_narrow_of_inflated {decoder : Decoder}
    (small : ∀ chunks ∈ frames, (frameBody chunks).length < 2 ^ 32)
    (isInflated : inflateAll {} [frames.flatMap frame] = (decoder, frames.flatten.flatten, false)) :
    ∀ chunks ∈ frames, ∀ span ∈ frameSpans chunks, span.length < 2 ^ 16 := by
  have isCarried : allCarried frames = frames.flatten.flatten := by
    unfold inflateAll at isInflated
    rw [processAll] at isInflated
    dsimp only [processAll] at isInflated
    have isProcessed := process_frames frames small _ .refl
    have isFed : feed {} (frames.flatMap frame) = idle (frames.flatMap frame) := rfl
    rw [isFed] at isInflated
    split at isInflated
    · rename_i fails
      have failed := congrArg (fun result => result.2.2) isInflated
      rw [fails] at failed
      contradiction
    · rename_i succeeds
      obtain fails | isWritten := isProcessed
      · contradiction
      · have output := congrArg (fun result => result.2.1) isInflated
        rw [isWritten, append_nil] at output
        exact output
  have isAll : frames.flatten.flatten = (frames.flatMap frameSpans).flatMap contents := by
    rw [flatMap_assoc]
    simp only [frameSpans_contents]
    rw [flatten_flatten]
    rfl
  have carriedAll : allCarried frames = (frames.flatMap frameSpans).flatMap carried := by
    rw [flatMap_assoc]
    rfl
  have narrow : ∀ span ∈ frames.flatMap frameSpans, span.length < 2 ^ 16 := by
    refine narrow_of_length ?_
    rw [← carriedAll, isCarried, isAll]
  intro chunks mem span isSpan
  exact narrow span (mem_flatMap.mpr ⟨chunks, mem, isSpan⟩)

theorem narrow_of_roundTrips (roundTrips : RoundTrips frames) : Narrow frames := by
  obtain ⟨_, isDeflated, inflates⟩ := roundTrips
  rw [deflate_eq] at isDeflated
  split at isDeflated
  · rename_i fits
    cases isDeflated
    obtain ⟨decoder, isInflated, _, _⟩ := inflates [frames.flatMap frame] (append_nil _)
    unfold inflate at isInflated
    dsimp only at isInflated
    split at isInflated
    · rename_i inflatedFits
      have isAll : inflateAll {} [frames.flatMap frame] =
          (decoder, frames.flatten.flatten, false) := Option.some.inj isInflated
      rw [isAll] at inflatedFits
      have narrow := spans_narrow_of_inflated (fun chunks mem => body_lt mem fits) isAll
      refine ⟨fun chunks isFrame chunk isChunk segment isSegment => ?_, ?_, inflatedFits⟩
      · refine narrow chunks isFrame segment ?_
        rw [frameSpans_eq]
        exact mem_flatMap.mpr ⟨chunk, isChunk, isSegment⟩
      · rw [← frames_length_of_narrow narrow]
        exact fits
    · contradiction
  · contradiction

/-- What is deflated is inflated again, in whatever pieces, exactly when every run and every
stretch has a length of 16 bits and blobs can hold both sides. -/
theorem roundTrips_iff (frames : List (List (List UInt8))) : RoundTrips frames ↔ Narrow frames := by
  constructor
  · exact narrow_of_roundTrips
  · intro narrow
    refine ⟨frames.flatMap frame, ?_, fun _ isCut =>
      ⟨idle [], inflate_of_narrow narrow isCut, rfl, rfl⟩⟩
    rw [deflate_eq, if_pos]
    rw [frames_length_of_narrow narrow.spans]
    exact narrow.deflated

/-- A run of `2 ^ 16` bytes is deflated to a block of length zero. -/
theorem not_roundTrips_long_run : ¬ RoundTrips [[List.replicate (2 ^ 16) 0]] := by
  intro roundTrips
  have isLength : 2 ^ 16 = 65534 + 2 := by decide
  have isRun : rle (2 ^ 16) 0 ∈ segments (replicate (2 ^ 16) 0) := by
    rw [← append_nil (replicate (2 ^ 16) 0), isLength, segments_replicate 65534 0 [] nofun]
    exact mem_cons_self
  have isNarrow := (narrow_of_roundTrips roundTrips).segments _ mem_cons_self _
    mem_cons_self _ isRun
  exact Nat.lt_irrefl _ isNarrow

end NtfCore.Ntcd.Compression
