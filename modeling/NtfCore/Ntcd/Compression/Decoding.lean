import NtfCore.Ntcd.Compression.Model

/-!
Contract: what the decoder makes of the formats that the encoder writes.

Owns: that a header, a footer and a block are decoded as they were encoded, whatever
follows; and that the decoder is a machine that can be fed piece by piece.
-/

namespace NtfCore.Ntcd.Compression

open NtfCore.Foundation List Resumable.Progress FrameHeader Bytes

/-! ## Formats -/

theorem loadWord_word (value : UInt32) : loadWord (word value) = value := by
  unfold loadWord word
  rw [load_storeLittleEndian value.toNat_lt]
  exact UInt32.ofNat_toNat

@[simp]
theorem word_length (value : UInt32) : (word value).length = 4 := storeLittleEndian_length 4 _

theorem drop_take_second {first second rest : List UInt8} {start count : Nat}
    (isStart : first.length = start) (isCount : second.length = count) :
    ((first ++ second ++ rest).drop start).take count = second := by
  rw [append_assoc, ← isStart, drop_left, ← isCount, take_left]

theorem FrameHeader.encode_length (header : FrameHeader) : header.encode.length = size := by
  simp [encode, size]

theorem FrameFooter.encode_length (footer : FrameFooter) :
    footer.encode.length = FrameFooter.size := by
  simp [FrameFooter.encode, FrameFooter.size]

theorem Block.encode_length (block : Block) : block.encode.length = Block.size := by
  simp [Block.encode, Block.size]

theorem FrameHeader.decode_encode {header : FrameHeader} (isValid : header.validate = true)
    (more : List UInt8) : decode (header.encode ++ more) = .value header := by
  have isLength : ¬ (header.encode ++ more).length < size := by
    rw [length_append, encode_length]
    omega
  have isMagic : (header.encode ++ more).take 4 = word header.magic := by
    exact take_left' (word_length _)
  have isHeaderLength : ((header.encode ++ more).drop 4).take 4 = word header.length := by
    rw [encode, append_assoc (_ ++ _) _ more, append_assoc (_ ++ _)]
    exact drop_take_second (word_length _) (word_length _)
  have isFlags : ((header.encode ++ more).drop 8).take 4 = word header.flags := by
    rw [encode, append_assoc (_ ++ _) _ more]
    exact drop_take_second (by simp) (word_length _)
  have isChecksum : ((header.encode ++ more).drop 12).take 4 = word header.checksum := by
    exact drop_take_second (by simp) (word_length _)
  unfold decode
  rw [if_neg isLength, isMagic, isHeaderLength, isFlags, isChecksum, loadWord_word, loadWord_word,
    loadWord_word, loadWord_word]
  exact if_pos isValid

theorem FrameFooter.decode_encode {footer : FrameFooter} (isValid : footer.validate = true)
    (more : List UInt8) : FrameFooter.decode (footer.encode ++ more) = .value footer := by
  have isLength : ¬ (footer.encode ++ more).length < FrameFooter.size := by
    rw [length_append, encode_length]
    omega
  have isMagic : (footer.encode ++ more).take 4 = word footer.magic := by
    exact take_left' (word_length _)
  have isChecksum : ((footer.encode ++ more).drop 4).take 4 = word footer.checksum := by
    rw [encode]
    exact drop_take_second (word_length _) (word_length _)
  unfold decode
  rw [if_neg isLength, isMagic, isChecksum, loadWord_word, loadWord_word]
  exact if_pos isValid

theorem Block.decode_encode {block : Block} (isValid : block.type.isSome = true)
    (more : List UInt8) : Block.decode (block.encode ++ more) = .value block := by
  have fits : block.length.toNat < 256 ^ 2 := block.length.toNat_lt
  have isLength := load_storeLittleEndian fits
  obtain ⟨low, high, isStored⟩ := length_eq_two.mp (storeLittleEndian_length 2 block.length.toNat)
  rw [isStored] at isLength
  have isBlock : ({ length := UInt16.ofNat (loadLittleEndian [low, high])
                    literal := block.literal
                    flags := block.flags } : Block) = block := by
    rw [isLength, UInt16.ofNat_toNat]
  rw [encode, isStored]
  unfold decode
  dsimp only [cons_append, nil_append]
  rw [isBlock, if_pos isValid]

/-! ## More input -/

variable {source : List UInt8}

theorem word_append {start : Nat} (more : List UInt8) (within : start + 4 ≤ source.length) :
    ((source ++ more).drop start).take 4 = (source.drop start).take 4 := by
  rw [drop_append_of_le_length (by omega), take_append_of_le_length]
  rw [length_drop]
  omega

theorem FrameHeader.decode_append (enough : ¬ source.length < size)
    (more : List UInt8) : decode (source ++ more) = decode source := by
  have isLength : 16 ≤ source.length := Nat.le_of_not_lt enough
  have stillEnough : ¬ (source ++ more).length < size := by
    rw [length_append]
    omega
  unfold decode
  rw [if_neg enough, if_neg stillEnough]
  rw [take_append_of_le_length (by omega), word_append more (by omega),
    word_append more (by omega), word_append more (by omega)]

theorem FrameFooter.decode_append (enough : ¬ source.length < FrameFooter.size)
    (more : List UInt8) : FrameFooter.decode (source ++ more) = FrameFooter.decode source := by
  have isLength : 8 ≤ source.length := Nat.le_of_not_lt enough
  have stillEnough : ¬ (source ++ more).length < FrameFooter.size := by
    rw [length_append]
    omega
  unfold decode
  rw [if_neg enough, if_neg stillEnough]
  rw [take_append_of_le_length (by omega), word_append more (by omega)]

theorem Block.decode_append (enough : ¬ source.length < Block.size)
    (more : List UInt8) : Block.decode (source ++ more) = Block.decode source := by
  match source, enough with
  | _ :: _ :: _ :: _ :: _, _ => rfl
  | [], short | [_], short | [_, _], short
  | [_, _, _], short => exact absurd (by simp [Block.size]) short

theorem FrameHeader.decode_short (short : source.length < size) : decode source = .wouldBlock :=
  if_pos short

theorem FrameFooter.decode_short (short : source.length < FrameFooter.size) :
    FrameFooter.decode source = .wouldBlock :=
  if_pos short

theorem Block.decode_short (short : source.length < Block.size) :
    Block.decode source = .wouldBlock := by
  match source, short with
  | [], _ | [_], _ | [_, _], _ | [_, _, _], _ => rfl
  | _ :: _ :: _ :: _ :: _, long => exact absurd long (by simp [Block.size])

/-! ## The machine -/

namespace Decoder

variable {decoder next : Decoder} {written : List UInt8}

def wanted (decoder : Decoder) : Nat :=
  match decoder.state with
  | .wantFrameHeader => FrameHeader.size
  | .wantBlock => Block.size
  | .wantBlockPayload => decoder.block.length.toNat
  | .wantFrameFooter => FrameFooter.size
  | .error => 0

theorem advance_short (short : decoder.input.length < decoder.wanted) :
    decoder.advance = .blocked := by
  unfold wanted at short
  unfold advance
  cases isState : decoder.state with
  | wantFrameHeader =>
    rw [isState] at short
    rw [decode_short short]
  | wantBlock =>
    rw [isState] at short
    rw [Block.decode_short short]
  | wantBlockPayload =>
    rw [isState] at short
    rw [if_neg (Nat.not_le_of_lt short)]
  | wantFrameFooter =>
    rw [isState] at short
    rw [FrameFooter.decode_short short]
  | error =>
    rw [isState] at short
    exact absurd short (Nat.not_lt_zero _)

def extend (progress : Resumable.Progress Decoder UInt8) (more : List UInt8) :
    Resumable.Progress Decoder UInt8 :=
  match progress with
  | .blocked => .blocked
  | .failed => .failed
  | .moved next written => .moved (next.feed more) written

theorem advance_feed (enough : decoder.wanted ≤ decoder.input.length) (more : List UInt8) :
    (decoder.feed more).advance = extend decoder.advance more := by
  have dropped : ∀ {count}, count ≤ decoder.input.length ->
      (decoder.input ++ more).drop count = decoder.input.drop count ++ more := fun within =>
    drop_append_of_le_length within
  unfold wanted at enough
  unfold advance
  cases isState : decoder.state with
  | wantFrameHeader =>
    rw [isState] at enough
    have same := decode_append (Nat.not_lt_of_le enough) more
    simp only [feed, isState, same]
    cases decode decoder.input with
    | wouldBlock | invalid => rfl
    | value =>
      dsimp only [extend, feed]
      rw [dropped enough]
  | wantBlock =>
    rw [isState] at enough
    have same := Block.decode_append (Nat.not_lt_of_le enough) more
    simp only [feed, isState, same]
    cases Block.decode decoder.input with
    | wouldBlock | invalid => rfl
    | value block =>
      dsimp only
      rw [dropped enough]
      cases block.type with
      | none => rfl
      | some type =>
        cases type with
        | undefined => rfl
        | raw =>
          dsimp only
          split <;> simp only [extend, feed]
        | rle => simp only [extend, feed]
  | wantBlockPayload =>
    rw [isState] at enough
    have stillEnough : decoder.block.length.toNat ≤ (decoder.input ++ more).length := by
      rw [length_append]
      exact Nat.le_trans enough (Nat.le_add_right _ _)
    simp only [feed, isState]
    rw [if_pos enough, if_pos stillEnough, dropped enough, take_append_of_le_length enough]
    rfl
  | wantFrameFooter =>
    rw [isState] at enough
    have same := FrameFooter.decode_append (Nat.not_lt_of_le enough) more
    simp only [feed, isState, same]
    cases FrameFooter.decode decoder.input with
    | wouldBlock | invalid => rfl
    | value =>
      dsimp only
      rw [dropped enough]
      split <;> rfl
  | error =>
    simp only [feed, isState]
    rfl

/-- A step that moves consumes what it reads. -/
theorem moved_input (moves : decoder.advance = .moved next written) :
    decoder.wanted ≤ decoder.input.length ∧ next.input = decoder.input.drop decoder.wanted ∧
      (decoder.state = .wantBlockPayload -> next.state ≠ .wantBlockPayload) ∧
      decoder.state ≠ .error := by
  have enough : decoder.wanted ≤ decoder.input.length := by
    by_contra short
    rw [advance_short (Nat.lt_of_not_le short)] at moves
    contradiction
  refine ⟨enough, ?_⟩
  have notPayload : ∀ needed, wantNext needed ≠ .wantBlockPayload := by
    intro _
    unfold wantNext
    split <;> nofun
  unfold advance at moves
  unfold wanted
  cases isState : decoder.state with
  | wantFrameHeader =>
    rw [isState] at moves
    dsimp only at moves
    split at moves
    · contradiction
    · contradiction
    · rw [← (moved.inj moves).1]
      exact ⟨rfl, nofun, nofun⟩
  | wantBlock =>
    rw [isState] at moves
    dsimp only at moves
    split at moves
    · contradiction
    · contradiction
    · split at moves
      · split at moves
        · rw [← (moved.inj moves).1]
          exact ⟨rfl, nofun, nofun⟩
        · rw [← (moved.inj moves).1]
          exact ⟨rfl, nofun, nofun⟩
      · rw [← (moved.inj moves).1]
        exact ⟨rfl, nofun, nofun⟩
      · contradiction
  | wantBlockPayload =>
    rw [isState] at moves
    dsimp only at moves
    split at moves
    · rw [← (moved.inj moves).1]
      exact ⟨rfl, fun _ => notPayload _, nofun⟩
    · contradiction
  | wantFrameFooter =>
    rw [isState] at moves
    dsimp only at moves
    split at moves
    · contradiction
    · contradiction
    · split at moves
      · contradiction
      · rw [← (moved.inj moves).1]
        exact ⟨rfl, nofun, nofun⟩
  | error =>
    rw [isState] at moves
    contradiction

theorem size_lt_of_moved (moves : decoder.advance = .moved next written) :
    next.size < decoder.size := by
  obtain ⟨_, isInput, notAgain, notError⟩ := moved_input moves
  unfold size
  rw [isInput, length_drop]
  cases isState : decoder.state with
  | wantBlockPayload =>
    rw [if_neg (notAgain isState), if_pos rfl]
    omega
  | wantFrameHeader =>
    have isWanted : decoder.wanted = 16 := by
      unfold wanted
      rw [isState]
      rfl
    split <;> split <;> omega
  | wantBlock =>
    have isWanted : decoder.wanted = 4 := by
      unfold wanted
      rw [isState]
      rfl
    split <;> split <;> omega
  | wantFrameFooter =>
    have isWanted : decoder.wanted = 8 := by
      unfold wanted
      rw [isState]
      rfl
    split <;> split <;> omega
  | error => contradiction

theorem lawful : Resumable.Lawful advance feed size where
  feed_nil decoder := by
    unfold feed
    rw [append_nil]
  feed_append decoder first second := by
    unfold feed
    rw [append_assoc]
  moved_feed decoder next written more moves := by
    have enough : decoder.wanted ≤ decoder.input.length := by
      by_contra short
      rw [advance_short (Nat.lt_of_not_le short)] at moves
      contradiction
    rw [advance_feed enough, moves]
    rfl
  failed_feed decoder more fails := by
    have enough : decoder.wanted ≤ decoder.input.length := by
      by_contra short
      rw [advance_short (Nat.lt_of_not_le short)] at fails
      contradiction
    rw [advance_feed enough, fails]
    rfl
  size_lt decoder next written moves := size_lt_of_moved moves

end Decoder

end NtfCore.Ntcd.Compression
