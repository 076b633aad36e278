import Mathlib.Data.List.Basic

/-!
Contract: the checksum XXH32 of `ntca::ChecksumXxHash32`.

Owns: the state as it is updated, and the digest of the bytes that it stands for, however
they are cut; the published digest, and the data that have it.
-/

namespace NtfCore.Ntca

open List UInt32

/-- `ChecksumXxHash32`. The buffer holds the bytes up to `d_bufferSize`. -/
structure ChecksumXxHash32 where
  accumulator : Fin 4 -> UInt32
  buffer : List UInt8 := []
  entireSize : UInt32 := 0
  full : Bool := false

namespace ChecksumXxHash32

def p1 : UInt32 := 0x9E3779B1

def p2 : UInt32 := 0x85EBCA77

def p3 : UInt32 := 0xC2B2AE3D

def p4 : UInt32 := 0x27D4EB2F

def p5 : UInt32 := 0x165667B1

def seed : UInt32 := 0

def byteAt (data : List UInt8) (offset : Nat) : UInt32 :=
  (data.getD offset 0).toUInt32

/-- `decode`. -/
def decode (data : List UInt8) (offset : Nat) : UInt32 :=
  byteAt data offset ||| (byteAt data (offset + 1) <<< 8) ||| (byteAt data (offset + 2) <<< 16) |||
    (byteAt data (offset + 3) <<< 24)

/-- `rotate`. -/
def rotate (value amount : UInt32) : UInt32 :=
  (value <<< (amount % 32)) ||| (value >>> (32 - amount % 32))

/-- The accumulators in `reset`. -/
def lanes (digest : UInt32) : Fin 4 -> UInt32
  | 0 => digest + p1 + p2
  | 1 => digest + p2
  | 2 => digest + 0
  | 3 => digest - p1

/-- `reset` to a digest. -/
def reset (digest : UInt32) : ChecksumXxHash32 where
  accumulator := lanes digest

/-- What is done to an accumulator. -/
def round (value next : UInt32) : UInt32 :=
  rotate (value + next * p2) 13 * p1

/-- The loops of `update` over the accumulators and the offsets, of which there is one. -/
def consume (accumulator : Fin 4 -> UInt32) (buffer : List UInt8) : Fin 4 -> UInt32 :=
  fun lane => round (accumulator lane) (decode buffer 0)

/-- The loop of `update`, with the number of its iterations. -/
def stripeLoop : (count : Nat) -> (Fin 4 -> UInt32) -> (buffer source : List UInt8) ->
    (Fin 4 -> UInt32) × List UInt8
  | 0, accumulator, _, source => (accumulator, source)
  | count + 1, accumulator, buffer, source =>
    let filled := buffer ++ source.take (16 - buffer.length)
    stripeLoop count (consume accumulator filled) [] (source.drop (16 - buffer.length))

/-- `update`. -/
def update (checksum : ChecksumXxHash32) (data : List UInt8) : ChecksumXxHash32 :=
  let entireSize := checksum.entireSize + UInt32.ofNat data.length
  let full := checksum.full || (decide (16 ≤ data.length) || decide (16 ≤ entireSize))
  let remaining := checksum.buffer.length + data.length
  if remaining < 16 then
    { checksum with buffer := checksum.buffer ++ data, entireSize := entireSize, full := full }
  else
    let stripes := stripeLoop (remaining / 16) checksum.accumulator checksum.buffer data
    { accumulator := stripes.1, buffer := stripes.2, entireSize := entireSize, full := full }

/-- The first loop of `value`, over the words of the buffer. -/
def wordLoop (buffer : List UInt8) (result : UInt32) (offset : Nat) : (length : Nat) -> UInt32 × Nat
  | length + 4 =>
    wordLoop buffer (rotate (result + decode buffer offset * p3) 17 * p4) (offset + 4) length
  | _ => (result, offset)

/-- The second loop of `value`, over the bytes that are left. -/
def byteLoop (buffer : List UInt8) (result : UInt32) (offset : Nat) : (length : Nat) -> UInt32
  | 0 => result
  | length + 1 =>
    byteLoop buffer (rotate (result + byteAt buffer offset * p5) 11 * p1) (offset + 1) length

def avalanche (result : UInt32) : UInt32 :=
  let result := (result ^^^ (result >>> 15)) * p2
  let result := (result ^^^ (result >>> 13)) * p3
  result ^^^ (result >>> 16)

def merge (accumulator : Fin 4 -> UInt32) : UInt32 :=
  rotate (accumulator 0) 1 + rotate (accumulator 1) 7 + rotate (accumulator 2) 12 +
    rotate (accumulator 3) 18

/-- `value`. -/
def value (checksum : ChecksumXxHash32) : UInt32 :=
  let result := if checksum.full then merge checksum.accumulator else checksum.accumulator 2 + p5
  let words := wordLoop checksum.buffer (result + checksum.entireSize) 0 checksum.buffer.length
  avalanche (byteLoop checksum.buffer words.1 words.2 (checksum.buffer.length % 4))

/-! ## The published digest -/

/-- The lanes behind so many stripes, where lane `i` consumes the word at `offset i`. -/
def lanesBehind (offset : Fin 4 -> Nat) : (count : Nat) -> (Fin 4 -> UInt32) -> List UInt8 ->
    Fin 4 -> UInt32
  | 0, accumulator, _ => accumulator
  | count + 1, accumulator, data =>
    lanesBehind offset count (fun lane => round (accumulator lane) (decode data (offset lane)))
      (data.drop 16)

def tail (result : UInt32) : List UInt8 -> UInt32
  | a :: b :: c :: d :: rest => tail (rotate (result + decode [a, b, c, d] 0 * p3) 17 * p4) rest
  | bytes => bytes.foldl (fun result byte => rotate (result + byte.toUInt32 * p5) 11 * p1) result

def digest (offset : Fin 4 -> Nat) (start : UInt32) (data : List UInt8) : UInt32 :=
  let result :=
    if 16 ≤ data.length then merge (lanesBehind offset (data.length / 16) (lanes start) data)
    else start + p5
  avalanche (tail (result + UInt32.ofNat data.length) (data.drop (16 * (data.length / 16))))

/-- XXH32. -/
def xxh32 (start : UInt32) (data : List UInt8) : UInt32 :=
  digest (fun lane => 4 * lane) start data

/-! ## What is updated -/

variable {start : UInt32} {data more : List UInt8} {offset : Fin 4 -> Nat} {pos : Nat}

theorem decode_of_getD {other : List UInt8} {position' : Nat}
    (same : ∀ index < 4, other.getD (position' + index) 0 = data.getD (pos + index) 0) :
    decode other position' = decode data pos := by
  have first := same 0 (by decide)
  have second := same 1 (by decide)
  have third := same 2 (by decide)
  have fourth := same 3 (by decide)
  simp only [Nat.add_zero] at first
  simp only [decode, byteAt, first, second, third, fourth]

theorem decode_take (within : pos + 4 ≤ 16) : decode (data.take 16) pos = decode data pos := by
  refine decode_of_getD fun _ _ => ?_
  rw [getD_eq_getElem?_getD, getD_eq_getElem?_getD, getElem?_take_of_lt (by omega)]

theorem decode_append (within : pos + 4 ≤ data.length) :
    decode (data ++ more) pos = decode data pos := by
  refine decode_of_getD fun _ _ => ?_
  rw [getD_eq_getElem?_getD, getD_eq_getElem?_getD, getElem?_append_left (by omega)]

theorem lanesBehind_add (first second : Nat) (accumulator : Fin 4 -> UInt32) (data : List UInt8) :
    lanesBehind offset (first + second) accumulator data =
      lanesBehind offset second (lanesBehind offset first accumulator data)
        (data.drop (16 * first)) := by
  induction first generalizing accumulator data with
  | zero => rw [Nat.zero_add, lanesBehind, Nat.mul_zero, drop_zero]
  | succ _ ih =>
    rw [Nat.add_right_comm, lanesBehind, ih, lanesBehind, drop_drop]
    congr 2
    omega

variable {count : Nat}

theorem lanesBehind_append (within : ∀ lane, offset lane + 4 ≤ 16)
    (accumulator : Fin 4 -> UInt32) (enough : 16 * count ≤ data.length) :
    lanesBehind offset count accumulator (data ++ more) =
      lanesBehind offset count accumulator data := by
  induction count generalizing accumulator data with
  | zero => rfl
  | succ _ ih =>
    have same : ∀ lane, decode (data ++ more) (offset lane) = decode data (offset lane) := fun lane =>
      decode_append (by have := within lane; omega)
    rw [lanesBehind, lanesBehind, drop_append_of_le_length (by omega),
      ih _ (by rw [length_drop]; omega)]
    simp only [same]

theorem stripeLoop_nil (count : Nat) (accumulator : Fin 4 -> UInt32) (source : List UInt8) :
    stripeLoop count accumulator [] source =
      (lanesBehind (fun _ => 0) count accumulator source, source.drop (16 * count)) := by
  induction count generalizing accumulator source with
  | zero => rfl
  | succ _ ih =>
    rw [stripeLoop, lanesBehind, ih, drop_drop, Nat.mul_succ, Nat.add_comm _ 16]
    have same : consume accumulator (source.take 16) =
        fun lane => round (accumulator lane) (decode source 0) := by
      funext lane
      rw [consume, decode_take (by decide)]
    rw [nil_append, length_nil, Nat.sub_zero, same]

variable {buffer : List UInt8}

theorem stripeLoop_eq (pos : 0 < count) (accumulator : Fin 4 -> UInt32)
    (short : buffer.length < 16) (source : List UInt8) :
    stripeLoop count accumulator buffer source =
      (lanesBehind (fun _ => 0) count accumulator (buffer ++ source),
        (buffer ++ source).drop (16 * count)) := by
  have filled : buffer ++ source.take (16 - buffer.length) = [] ++ (buffer ++ source).take 16 := by
    rw [take_append, take_of_length_le (Nat.le_of_lt short), nil_append]
  have left : source.drop (16 - buffer.length) = (buffer ++ source).drop 16 := by
    rw [drop_append, drop_of_length_le (Nat.le_of_lt short), nil_append]
  obtain ⟨_, rfl⟩ := Nat.exists_eq_succ_of_ne_zero (Nat.ne_of_gt pos)
  rw [← stripeLoop_nil, stripeLoop, stripeLoop, filled, left]
  rfl

/-- The state behind the data. -/
structure Represents (checksum : ChecksumXxHash32) (start : UInt32) (data : List UInt8) : Prop where
  accumulator : checksum.accumulator =
    lanesBehind (fun _ => 0) (data.length / 16) (lanes start) data
  buffer : checksum.buffer = data.drop (16 * (data.length / 16))
  entireSize : checksum.entireSize = UInt32.ofNat data.length
  full : checksum.full = decide (16 ≤ data.length)

theorem reset_represents (start : UInt32) : (reset start).Represents start [] where
  accumulator := rfl
  buffer := rfl
  entireSize := rfl
  full := rfl

variable {checksum : ChecksumXxHash32}

theorem Represents.unique {other : ChecksumXxHash32}
    (rep : checksum.Represents start data) (others : other.Represents start data) :
    checksum = other := by
  obtain ⟨_, _, _, _⟩ := checksum
  obtain ⟨rfl, rfl, rfl, rfl⟩ := rep
  obtain ⟨_, _, _, _⟩ := other
  obtain ⟨rfl, rfl, rfl, rfl⟩ := others
  rfl

theorem Represents.update (rep : checksum.Represents start data)
    (more : List UInt8) : (checksum.update more).Represents start (data ++ more) := by
  have isBuffer : checksum.buffer ++ more = (data ++ more).drop (16 * (data.length / 16)) := by
    rw [rep.buffer, drop_append_of_le_length (Nat.mul_div_le _ _)]
  have isShort : checksum.buffer.length = data.length % 16 := by
    rw [rep.buffer, length_drop]
    omega
  have isSize : checksum.entireSize + ofNat more.length = ofNat (data ++ more).length := by
    rw [rep.entireSize, length_append, ofNat_add]
  have isFull : (checksum.full || (decide (16 ≤ more.length) ||
      decide (16 ≤ ofNat (data ++ more).length))) = decide (16 ≤ (data ++ more).length) := by
    rw [rep.full, length_append]
    by_cases before : 16 ≤ data.length
    · simp [before, Nat.le_add_right_of_le before]
    · by_cases after : 16 ≤ more.length
      · simp [after, Nat.le_add_left_of_le after]
      · have isNat : (ofNat (data.length + more.length)).toNat = data.length + more.length := by
          rw [toNat_ofNat', Nat.mod_eq_of_lt (by omega)]
        simp only [before, after, le_iff_toNat_le, isNat]
        rfl
  have isPrefix : lanesBehind (fun _ => 0) (data.length / 16) (lanes start) (data ++ more) = _ :=
    lanesBehind_append (fun _ => by decide) _ (Nat.mul_div_le data.length 16)
  unfold ChecksumXxHash32.update
  dsimp only
  rw [isSize, isFull]
  split
  · have same : (data ++ more).length / 16 = data.length / 16 := by
      rw [length_append]
      omega
    exact ⟨by rw [same, isPrefix]; exact rep.accumulator, by rw [same]; exact isBuffer, rfl, rfl⟩
  · have sum : (data ++ more).length / 16 =
        data.length / 16 + (checksum.buffer.length + more.length) / 16 := by
      rw [length_append, isShort]
      omega
    rw [stripeLoop_eq (by omega) _ (by omega), isBuffer]
    refine ⟨?_, ?_, rfl, rfl⟩
    · rw [sum, lanesBehind_add, isPrefix, rep.accumulator]
    · rw [sum, Nat.mul_add, drop_drop]

theorem updates_represents (pieces : List (List UInt8)) (rep : checksum.Represents start data) :
    (pieces.foldl update checksum).Represents start (data ++ pieces.flatten) := by
  induction pieces generalizing checksum data with
  | nil =>
    rw [flatten_nil, append_nil]
    exact rep
  | cons piece _ ih =>
    rw [flatten_cons, ← append_assoc]
    exact ih (rep.update piece)

/-! ## What is loaded -/

theorem byteLoop_eq (length : Nat) (result : UInt32) (pos : Nat)
    (isLength : buffer.length = pos + length) :
    byteLoop buffer result pos length = (buffer.drop pos).foldl
        (fun result byte => rotate (result + byte.toUInt32 * p5) 11 * p1) result := by
  induction length generalizing result pos with
  | zero => rw [byteLoop, drop_of_length_le (by omega), foldl_nil]
  | succ _ ih =>
    have inside : pos < buffer.length := by omega
    rw [byteLoop, ih _ _ (by omega), drop_eq_getElem_cons inside, foldl_cons, byteAt,
      getD_eq_getElem?_getD, getElem?_eq_getElem inside, Option.getD_some]

theorem tail_short (result : UInt32) {bytes : List UInt8} (short : bytes.length < 4) :
    tail result bytes =
      bytes.foldl (fun result byte => rotate (result + byte.toUInt32 * p5) 11 * p1) result :=
  match bytes, short with
  | [], _ | [_], _ | [_, _], _ | [_, _, _], _ => rfl

theorem loops_eq (length : Nat) (result : UInt32) (pos : Nat)
    (isLength : buffer.length = pos + length) :
    byteLoop buffer (wordLoop buffer result pos length).1
        (wordLoop buffer result pos length).2 (length % 4) = tail result (buffer.drop pos) := by
  induction length using Nat.strongRecOn generalizing result pos with
  | ind length ih =>
    by_cases short : length < 4
    · have stays : wordLoop buffer result pos length = (result, pos) := match length, short with
        | 0, _ | 1, _ | 2, _ | 3, _ => rfl
      rw [stays, Nat.mod_eq_of_lt short, byteLoop_eq length _ _ isLength, tail_short]
      rw [length_drop]
      omega
    · obtain ⟨length, rfl⟩ := Nat.exists_eq_add_of_le' (Nat.not_lt.mp short)
      have isRest : buffer.drop pos =
          buffer[pos] :: buffer[pos + 1] :: buffer[pos + 2] :: buffer[pos + 3] ::
            buffer.drop (pos + 4) := by
        rw [drop_eq_getElem_cons, drop_eq_getElem_cons, drop_eq_getElem_cons, drop_eq_getElem_cons]
      have isWord : decode (buffer.drop pos) 0 = decode buffer pos := by
        refine decode_of_getD fun _ _ => ?_
        rw [getD_eq_getElem?_getD, getD_eq_getElem?_getD, getElem?_drop, Nat.zero_add]
      rw [wordLoop, Nat.add_mod_right, ih length (by omega) _ _ (by omega), isRest, tail]
      rw [isRest] at isWord
      rw [← isWord]
      rfl

theorem Represents.value_eq (rep : checksum.Represents start data) :
    checksum.value = digest (fun _ => 0) start data := by
  have isResult : (if checksum.full then merge checksum.accumulator
      else checksum.accumulator 2 + p5) =
      if 16 ≤ data.length then merge (lanesBehind (fun _ => 0) (data.length / 16) (lanes start) data)
      else start + p5 := by
    rw [rep.full, rep.accumulator]
    by_cases long : 16 ≤ data.length
    · rw [if_pos (decide_eq_true long), if_pos long]
    · have none : data.length / 16 = 0 := by omega
      rw [if_neg (by simpa using long), if_neg long, none]
      exact congrArg (· + p5) (UInt32.add_zero start)
  unfold value digest
  dsimp only
  rw [isResult, rep.entireSize, loops_eq _ _ 0 (Nat.zero_add _).symm, drop_zero, rep.buffer]

/-! ## The words that are consumed -/

/-- Each stripe replaced by four copies of its first word. -/
def repeatStripes : (count : Nat) -> List UInt8 -> List UInt8
  | 0, data => data
  | count + 1, data =>
    data.take 4 ++ (data.take 4 ++ (data.take 4 ++ (data.take 4 ++
      repeatStripes count (data.drop 16))))

def repeated (data : List UInt8) : List UInt8 :=
  repeatStripes (data.length / 16) data

theorem exists_four (long : 4 ≤ data.length) : ∃ a b c d later, data = a :: b :: c :: d :: later :=
  match data, long with
  | a :: b :: c :: d :: later, _ => ⟨a, b, c, d, later, rfl⟩

theorem repeatStripes_spec (enough : 16 * count ≤ data.length) (accumulator : Fin 4 -> UInt32) :
    (repeatStripes count data).length = data.length ∧
      (repeatStripes count data).drop (16 * count) = data.drop (16 * count) ∧
      lanesBehind (fun lane => 4 * lane) count accumulator (repeatStripes count data) =
        lanesBehind (fun _ => 0) count accumulator data := by
  induction count generalizing data accumulator with
  | zero => exact ⟨rfl, rfl, rfl⟩
  | succ count ih =>
    have isLong : 16 ≤ data.length := by omega
    have enoughLater : 16 * count ≤ (data.drop 16).length := by
      rw [length_drop]
      omega
    obtain ⟨isLength, isRest, isLanes⟩ := ih enoughLater
      (fun lane => round (accumulator lane) (decode data 0))
    obtain ⟨a, b, c, d, _, isData⟩ := exists_four (Nat.le_trans (by decide) isLong)
    have isWord : ∀ lane : Fin 4,
        decode (repeatStripes (count + 1) data) (4 * lane) = decode data 0 := by
      intro lane
      rw [isData]
      match lane with
      | 0 | 1 | 2 | 3 => rfl
    have dropped : (repeatStripes (count + 1) data).drop 16 = repeatStripes count (data.drop 16) := by
      rw [isData]
      rfl
    have isTotal : (repeatStripes (count + 1) data).length =
        (repeatStripes count (data.drop 16)).length + 16 := by
      rw [isData]
      rfl
    refine ⟨?_, ?_, ?_⟩
    · rw [isTotal, isLength, length_drop]
      omega
    · rw [Nat.mul_succ, Nat.add_comm, ← drop_drop, ← drop_drop, dropped, isRest]
    · rw [lanesBehind, lanesBehind, dropped]
      simp only [isWord]
      exact isLanes

/-- The digest of the code is that of the repeated words. -/
theorem digest_repeated (start : UInt32) (data : List UInt8) :
    xxh32 start (repeated data) = digest (fun _ => 0) start data := by
  obtain ⟨isLength, isRest, isLanes⟩ :=
    repeatStripes_spec (Nat.mul_div_le data.length 16) (lanes start)
  unfold xxh32 digest repeated
  rw [isLength, isRest, isLanes]

/-- Data is digested as published, however it is cut, if and only if it has the digest of
the data whose stripes repeat their first words. -/
theorem digests_published_iff (data : List UInt8) :
    (∀ pieces : List (List UInt8), pieces.flatten = data ->
      (pieces.foldl update (reset seed)).value = xxh32 seed data) ↔
      xxh32 seed (repeated data) = xxh32 seed data := by
  have isValue : ∀ pieces : List (List UInt8), pieces.flatten = data ->
      (pieces.foldl update (reset seed)).value = xxh32 seed (repeated data) := by
    intro pieces isData
    have rep := updates_represents pieces (reset_represents seed)
    rw [rep.value_eq, nil_append, isData, digest_repeated]
  constructor
  · intro published
    rw [← isValue [data] (append_nil data), published [data] (append_nil data)]
  · intro same pieces isData
    rw [isValue pieces isData, same]

def counting : List UInt8 :=
  (List.range 16).map UInt8.ofNat

theorem counting_not_published : ¬ ∀ data (pieces : List (List UInt8)), pieces.flatten = data ->
      (pieces.foldl update (reset seed)).value = xxh32 seed data := by
  intro all
  exact absurd (all counting [counting] (append_nil counting)) (by decide +kernel)

end ChecksumXxHash32

end NtfCore.Ntca
