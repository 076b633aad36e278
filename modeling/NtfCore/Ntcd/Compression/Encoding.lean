import NtfCore.Ntcd.Compression.Decoding

/-!
Contract: what the encoder writes.

Owns: the bytes that each span stands for, and that the spans of some data stand for the
data and are its runs and the stretches between them; and the bytes of a frame.
-/

namespace NtfCore.Ntcd.Compression

open NtfCore.Foundation List Scan Encoder

theorem crcUpdate_append (value : UInt32) (first second : List UInt8) :
    crcUpdate (crcUpdate value first) second = crcUpdate value (first ++ second) := by
  unfold crcUpdate
  rw [UInt32.not_not, foldl_append]

theorem crcUpdate_nil (value : UInt32) : crcUpdate value [] = value := UInt32.not_not

/-! ## Spans -/

def Span.contents : Span -> List UInt8
  | .raw bytes => bytes
  | .rle count literal => List.replicate count literal

def Span.length : Span -> Nat
  | .raw bytes => bytes.length
  | .rle count _ => count

theorem Span.contents_length (span : Span) : span.contents.length = span.length := by
  cases span with
  | raw => rfl
  | rle => exact length_replicate

structure Scan.Valid (scan : Scan) : Prop where
  default : scan.mode = .default -> scan.marked.length ≤ 1
  same : scan.mode = .same -> ∃ count literal, scan.marked = List.replicate (count + 1) literal

variable {scan : Scan}

theorem Scan.next_nil (noneMarked : scan.marked = []) (current : UInt8) :
    scan.next current = (⟨scan.mode, [current]⟩, []) := by
  unfold next
  rw [noneMarked]
  rfl

theorem Scan.next_marked (valid : scan.Valid) (init : List UInt8) (previous : UInt8)
    (isMarked : scan.marked = init ++ [previous]) (current : UInt8) : (scan.next current).1.Valid ∧
      (scan.next current).2.flatMap Span.contents ++ (scan.next current).1.marked =
        scan.marked ++ [current] := by
  obtain ⟨mark, isMark⟩ : ∃ mark, scan.marked.head? = some mark := by
    rw [isMarked]
    cases init with
    | nil => exact ⟨previous, rfl⟩
    | cons first => exact ⟨first, rfl⟩
  have isPrevious : scan.marked.getLast? = some previous := by rw [isMarked, getLast?_concat]
  unfold next
  rw [isMark, isPrevious]
  cases isMode : scan.mode with
  | default =>
    have isSingle : init = [] := by
      have short := valid.default isMode
      rw [isMarked, length_append, length_singleton] at short
      exact eq_nil_of_length_eq_zero (by omega)
    rw [isMarked, isSingle] at isMark
    cases isMark
    dsimp only
    split
    · rename_i isSame
      refine ⟨⟨nofun, fun _ => ⟨1, previous, ?_⟩⟩, rfl⟩
      rw [isMarked, isSingle, isSame]
      rfl
    · exact ⟨⟨nofun, nofun⟩, rfl⟩
  | same =>
    obtain ⟨count, literal, isRun⟩ := valid.same isMode
    have isLiteral : literal = previous := by
      rw [isRun, getLast?_replicate, if_neg (Nat.succ_ne_zero count)] at isPrevious
      exact Option.some.inj isPrevious
    dsimp only
    split
    · refine ⟨⟨fun _ => .refl, nofun⟩, ?_⟩
      rw [isRun, length_replicate, isLiteral]
      simp [Span.contents]
    · rename_i isSame
      refine ⟨⟨nofun, fun _ => ⟨count + 1, literal, ?_⟩⟩, rfl⟩
      rw [isRun, isLiteral, Classical.not_not.mp isSame]
      exact replicate_succ'.symm
  | different =>
    dsimp only
    split
    · rename_i isSame
      refine ⟨⟨nofun, fun _ => ⟨1, previous, ?_⟩⟩, ?_⟩
      · rw [isSame]
        rfl
      · rw [isMarked, dropLast_concat]
        simp [Span.contents]
    · exact ⟨⟨nofun, nofun⟩, rfl⟩

theorem Scan.next_valid (valid : scan.Valid) (current : UInt8) : (scan.next current).1.Valid ∧
      (scan.next current).2.flatMap Span.contents ++ (scan.next current).1.marked =
        scan.marked ++ [current] := by
  obtain noneMarked | ⟨init, previous, isMarked⟩ := eq_nil_or_concat scan.marked
  · rw [next_nil noneMarked, noneMarked]
    refine ⟨⟨fun _ => .refl, fun isSame => ?_⟩, rfl⟩
    obtain ⟨_, _, isRun⟩ := valid.same isSame
    rw [noneMarked, replicate_succ] at isRun
    contradiction
  · rw [concat_eq_append] at isMarked
    exact next_marked valid init previous isMarked current

/-- The spans stand for the bytes that are marked and the bytes that follow. -/
theorem Scan.contents_spans (valid : scan.Valid) (rest : List UInt8) :
    (scan.spans rest).flatMap Span.contents = scan.marked ++ rest := by
  induction rest generalizing scan with
  | nil =>
    unfold spans
    cases isMode : scan.mode with
    | same =>
      obtain ⟨_, _, isMarked⟩ := valid.same isMode
      rw [isMarked]
      simp [Span.contents, getLast?_replicate]
    | default | different => simp [Span.contents]
  | cons current _ ih =>
    obtain ⟨nextValid, nextContents⟩ := next_valid valid current
    rw [spans, flatMap_append, ih nextValid, ← append_assoc, nextContents, append_assoc]
    rfl

theorem spans_contents (data : List UInt8) : (spans data).flatMap Span.contents = data := by
  unfold spans
  split
  · rename_i isEmpty
    rw [isEmpty]
    rfl
  · have isValid : Valid {} := ⟨fun _ => Nat.zero_le 1, nofun⟩
    exact contents_spans isValid data

/-! ## Segments -/

def runs : List UInt8 -> List (Nat × UInt8)
  | [] => []
  | byte :: rest =>
    match runs rest with
    | (count, literal) :: more =>
      if byte = literal then (count + 1, literal) :: more
      else (1, byte) :: (count, literal) :: more
    | [] => [(1, byte)]

def attach (byte : UInt8) : List Span -> List Span
  | .raw bytes :: more => .raw (byte :: bytes) :: more
  | more => .raw [byte] :: more

def joined : List (Nat × UInt8) -> List Span
  | [] => []
  | (count, literal) :: rest =>
    if count = 1 then attach literal (joined rest) else .rle count literal :: joined rest

def segments (data : List UInt8) : List Span :=
  joined (runs data)

theorem runs_cons (byte : UInt8) (rest : List UInt8) :
    ∃ count more, runs (byte :: rest) = (count + 1, byte) :: more := by
  unfold runs
  split
  · split
    · rename_i count _ more _ isSame
      exact ⟨count, more, by rw [isSame]⟩
    · exact ⟨0, _, rfl⟩
  · exact ⟨0, [], rfl⟩

theorem runs_of_ne {byte next : UInt8} (differs : byte ≠ next) (rest : List UInt8) :
    runs (byte :: next :: rest) = (1, byte) :: runs (next :: rest) := by
  obtain ⟨_, _, isRuns⟩ := runs_cons next rest
  rw [runs, isRuns]
  exact if_neg differs

theorem runs_replicate (count : Nat) (literal : UInt8) {rest : List UInt8}
    (differs : rest.head? ≠ some literal) :
    runs (replicate (count + 1) literal ++ rest) = (count + 1, literal) :: runs rest := by
  induction count with
  | zero =>
    cases rest with
    | nil => rfl
    | cons _ more => exact runs_of_ne (fun isSame => differs (by rw [isSame]; rfl)) more
  | succ _ ih =>
    rw [replicate_succ, cons_append, runs, ih]
    exact if_pos rfl

theorem segments_replicate (count : Nat) (literal : UInt8) (rest : List UInt8)
    (differs : rest.head? ≠ some literal) : segments (replicate (count + 2) literal ++ rest) =
      .rle (count + 2) literal :: segments rest := by
  unfold segments
  rw [runs_replicate (count + 1) literal differs, joined]
  exact if_neg (by omega)

theorem segments_of_ne {byte next : UInt8} (differs : byte ≠ next) (rest : List UInt8) :
    segments (byte :: next :: rest) = attach byte (segments (next :: rest)) := by
  unfold segments
  rw [runs_of_ne differs, joined]
  exact if_pos rfl

section

variable (first : UInt8) (stretch : List UInt8)

/-- A stretch goes as far as no byte is repeated. -/
theorem segments_stretch (distinct : (first :: stretch).IsChain (· ≠ ·)) :
    segments (first :: stretch) = [.raw (first :: stretch)] := by
  induction stretch generalizing first with
  | nil => rfl
  | cons second _ ih =>
    rw [isChain_cons_cons] at distinct
    rw [segments_of_ne distinct.1, ih second distinct.2]
    rfl

theorem segments_stretch_run (repeated : UInt8)
    (distinct : (first :: (stretch ++ [repeated])).IsChain (· ≠ ·)) (rest : List UInt8) :
    segments (first :: stretch ++ repeated :: repeated :: rest) =
      .raw (first :: stretch) :: segments (repeated :: repeated :: rest) := by
  induction stretch generalizing first with
  | nil =>
    obtain ⟨count, more, isRuns⟩ := runs_cons repeated rest
    have isRle : segments (repeated :: repeated :: rest) =
        .rle (count + 2) repeated :: joined more := by
      unfold segments
      rw [runs, isRuns]
      dsimp only
      rw [if_pos rfl, joined]
      exact if_neg (by omega)
    rw [nil_append, isChain_cons_cons] at distinct
    rw [cons_append, nil_append, segments_of_ne distinct.1, isRle]
    rfl
  | cons second _ ih =>
    rw [cons_append, isChain_cons_cons] at distinct
    rw [cons_append, cons_append, segments_of_ne distinct.1, ← cons_append, ih second distinct.2]
    rfl

end

inductive Scan.Segmenting : Scan -> Prop
  | single (byte : UInt8) : Segmenting ⟨.default, [byte]⟩
  | run (count : Nat) (literal : UInt8) : Segmenting ⟨.same, List.replicate (count + 2) literal⟩
  | stretch (first : UInt8) (init : List UInt8) (previous : UInt8)
      (distinct : (first :: (init ++ [previous])).IsChain (· ≠ ·)) :
      Segmenting ⟨.different, first :: (init ++ [previous])⟩

/-- The scanner finds the segments of the bytes that are marked and the bytes that follow. -/
theorem Scan.spans_eq_segments (segmenting : scan.Segmenting) (rest : List UInt8) :
    scan.spans rest = segments (scan.marked ++ rest) := by
  induction rest generalizing scan with
  | nil =>
    cases segmenting with
    | single byte => rfl
    | run count literal =>
      have isRun := segments_replicate count literal [] nofun
      rw [isRun]
      simp [spans, getLast?_replicate, segments, runs, joined]
    | stretch first init prev distinct =>
      rw [append_nil, segments_stretch first _ distinct]
      rfl
  | cons current rest ih =>
    cases segmenting with
    | single byte =>
      rw [spans]
      by_cases isSame : current = byte
      · have moves : next ⟨.default, [byte]⟩ current = (⟨.same, [byte, current]⟩, []) :=
          if_pos isSame
        rw [moves, isSame, nil_append]
        exact ih (.run 0 byte)
      · have moves : next ⟨.default, [byte]⟩ current =
            (⟨.different, [byte, current]⟩, []) := if_neg isSame
        rw [moves, nil_append]
        exact ih (.stretch byte [] current (by simp [Ne.symm isSame]))
    | run count literal =>
      have isLast : (replicate (count + 2) literal).getLast? = some literal := by
        rw [getLast?_replicate, if_neg (by omega)]
      by_cases isSame : current = literal
      · have moves : next ⟨.same, replicate (count + 2) literal⟩ current =
            (⟨.same, replicate (count + 3) literal⟩, []) := by
          unfold next
          rw [isLast, replicate_succ' (n := count + 2), isSame]
          exact if_neg (fun differs => differs rfl)
        rw [spans, moves, nil_append, ih (.run (count + 1) literal),
          isSame, replicate_succ' (n := count + 2), append_assoc]
        rfl
      · have moves : next ⟨.same, replicate (count + 2) literal⟩ current =
            (⟨.default, [current]⟩, [.rle (count + 2) literal]) := by
          unfold next
          rw [isLast, length_replicate]
          exact if_pos isSame
        have differs : (current :: rest).head? ≠ some literal :=
          fun isLiteral => isSame (Option.some.inj isLiteral)
        rw [spans, moves, ih (.single current),
          segments_replicate count literal (current :: rest) differs]
        rfl
    | stretch first init prev distinct =>
      have isLast : (first :: (init ++ [prev])).getLast? = some prev := by
        rw [← cons_append, getLast?_concat]
      by_cases isSame : current = prev
      · have moves : next ⟨.different, first :: (init ++ [prev])⟩ current =
            (⟨.same, [prev, current]⟩, [.raw (first :: init)]) := by
          unfold next
          rw [isLast, ← cons_append, dropLast_concat]
          exact if_pos isSame
        have isStretch := segments_stretch_run first init prev distinct rest
        have continues : spans ⟨.same, [prev, prev]⟩ rest =
            segments (prev :: prev :: rest) := ih (.run 0 prev)
        rw [spans, moves, isSame, continues]
        simp only [cons_append, append_assoc, nil_append] at isStretch ⊢
        exact isStretch.symm
      · have moves : next ⟨.different, first :: (init ++ [prev])⟩ current =
            (⟨.different, first :: (init ++ [prev] ++ [current])⟩, []) := by
          unfold next
          rw [isLast]
          exact if_neg isSame
        have isDistinct : (first :: (init ++ [prev] ++ [current])).IsChain (· ≠ ·) := by
          rw [append_assoc, ← cons_append]
          rw [← cons_append] at distinct
          exact isChain_append_cons_cons.mpr ⟨distinct, Ne.symm isSame, .singleton current⟩
        rw [spans, moves, nil_append, ih (.stretch _ _ _ isDistinct)]
        simp

theorem spans_eq_segments (data : List UInt8) : spans data = segments data := by
  cases data with
  | nil => rfl
  | cons byte rest => exact Scan.spans_eq_segments (.single byte) rest

def frameSpans (chunks : List (List UInt8)) : List Span :=
  chunks.flatMap spans

def frameBody (chunks : List (List UInt8)) : List UInt8 :=
  (frameSpans chunks).flatMap Span.encode

theorem frameSpans_contents (chunks : List (List UInt8)) :
    (frameSpans chunks).flatMap Span.contents = chunks.flatten := by
  unfold frameSpans
  induction chunks with
  | nil => rfl
  | cons _ _ ih => rw [flatMap_cons, flatMap_append, spans_contents, ih, flatten_cons]

def frameHeader (chunks : List (List UInt8)) : FrameHeader where
  length := UInt32.ofNat (frameBody chunks).length
  checksum := crcUpdate 0 chunks.flatten

def frameFooter (chunks : List (List UInt8)) : FrameFooter where
  checksum := crcUpdate 0 chunks.flatten

def frame (chunks : List (List UInt8)) : List UInt8 :=
  (frameHeader chunks).encode ++ frameBody chunks ++ (frameFooter chunks).encode

theorem deflateAll_eq (encoder : Encoder) (result : List UInt8) (chunks : List (List UInt8)) :
    encoder.deflateAll result chunks = ({ encoder with
          frameContentBytesTotal := encoder.frameContentBytesTotal + (frameBody chunks).length
          frameContentCrc := crcUpdate encoder.frameContentCrc chunks.flatten },
        result ++ frameBody chunks) := by
  induction chunks generalizing encoder result with
  | nil =>
    rw [deflateAll, flatten_nil, crcUpdate_nil]
    simp [frameBody, frameSpans]
  | cons chunk rest ih =>
    have isBody : frameBody (chunk :: rest) =
        (spans chunk).flatMap Span.encode ++ frameBody rest := by
      unfold frameBody frameSpans
      rw [flatMap_cons, flatMap_append]
    rw [deflateAll, ih, isBody, length_append]
    unfold deflateNext
    rw [flatten_cons, crcUpdate_append, Nat.add_assoc, append_assoc]

/-- A frame is written behind what was written before. -/
theorem deflateFrame_eq (result : List UInt8) (chunks : List (List UInt8)) :
    deflateFrame result chunks = result ++ frame chunks := by
  unfold deflateFrame deflateBegin
  dsimp only
  rw [deflateAll_eq]
  unfold deflateEnd
  dsimp only
  rw [Nat.zero_add, Buffer.overwrite_split rfl]
  · unfold frame
    rw [← append_assoc, ← append_assoc]
    rfl
  · rw [FrameHeader.encode_length, FrameHeader.encode_length]

theorem deflateFrames_eq (result : List UInt8) (frames : List (List (List UInt8))) :
    frames.foldl deflateFrame result = result ++ frames.flatMap frame := by
  induction frames generalizing result with
  | nil => exact (append_nil result).symm
  | cons _ _ ih => rw [foldl_cons, deflateFrame_eq, ih, flatMap_cons, append_assoc]

end NtfCore.Ntcd.Compression
