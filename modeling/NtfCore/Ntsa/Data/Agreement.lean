import NtfCore.Ntsa.Data.Consumption

/-!
Contract: the ways to read a container agree on its bytes.

Owns: the condition under which `DataUtil::append` appends the bytes of a container, and
that it fails to do so for a file whenever the condition is not met; that `DataUtil::copy`
copies the bytes of every container that fits into a blob, and that `DataUtil::equals`
compares them.
-/

namespace NtfCore.Ntsa

open List Option File.Readable

/-- A file of so many bytes is read into buffers none of which is empty. What the buffers
cannot hold is read into buffers that are allocated. -/
def Fills : List Nat -> Nat -> Prop
  | [], _ => True
  | size :: rest, remaining => remaining = 0 ∨ (0 < size ∧ Fills rest (remaining - size))

/-- An empty file is appended where there is a buffer behind the data. Another one is where
there is no data, or where the first buffer behind the data has no bytes. -/
def FileAppendable (destination : Blob) (remaining : Nat) : Prop :=
  (remaining = 0 ∧ destination.spare ≠ []) ∨
    (0 < remaining ∧ destination.data = [] ∧ Fills destination.spare remaining) ∨
      (0 < remaining ∧ destination.data ≠ [] ∧
        ∃ rest, destination.spare = 0 :: rest ∧ Fills rest remaining)

def Appendable (destination : Blob) (source : Data) : Prop :=
  destination.length + source.contents.length < lengthLimit ∧
    match source with
    | .file file => FileAppendable destination file.bytesRemaining.toNat
    | _ => True

theorem File.Readable.stored_length {file : File} (readable : file.Readable) :
    file.bytesRemaining.toNat ≤ (file.stored.drop file.position.toNat).length := by
  obtain ⟨_, _, _, _⟩ := readable
  rw [length_drop]
  omega

theorem File.Readable.contents_length {file : File} (readable : file.Readable) :
    file.contents.length = file.bytesRemaining.toNat := by
  unfold File.contents
  rw [length_take, Nat.min_eq_left readable.stored_length]

namespace DataUtil

variable (library : BlobLibrary)

def Appends (library : BlobLibrary) (destination : Blob) (source : Data) : Prop :=
  ∀ stale, ∃ next, append library stale destination source = some (next, source.contents.length) ∧
    next.contents = destination.contents ++ source.contents

def Copies (library : BlobLibrary) (destination : Blob) (source : Data) : Prop :=
  ∃ next, copy library destination source = some (next, none) ∧ next.contents = source.contents

def Compares (library : BlobLibrary) (lhs rhs : Data) : Prop :=
  ∃ same, equals library lhs rhs = some same ∧ (same = true ↔ lhs.contents = rhs.contents)

/-! ## Bytes -/

theorem narrow_of_lt {value : Nat} (small : value < lengthLimit) : narrow value = value := by
  unfold lengthLimit at small
  unfold narrow
  exact Int.bmod_eq_of_le (by omega) (by omega)

section

variable (dest : Blob)

theorem appendBytes_spec (bytes : List UInt8) (fits : dest.length + bytes.length < lengthLimit) :
    ∃ next, appendBytes library dest bytes = some next ∧
      next.contents = dest.contents ++ bytes := by
  refine ⟨library.append dest bytes fits, ?_, library.append_contents _ _ _⟩
  unfold appendBytes
  rw [dif_pos fits]

theorem appendSized_spec (buffer : Buffer) (fits : dest.length + buffer.length < lengthLimit) :
    ∃ next, appendSized library dest buffer = some next ∧
      next.contents = dest.contents ++ buffer := by
  unfold appendSized
  rw [narrow_of_lt (by omega), if_neg (by omega), Int.toNat_natCast, take_length]
  exact appendBytes_spec library dest buffer fits

theorem appendBuffers_spec (total : Nat) (buffers : List Buffer)
    (fits : dest.length + buffers.flatten.length < lengthLimit) :
    ∃ next, appendBuffers library dest total buffers = some (next, total + buffers.flatten.length) ∧
      next.contents = dest.contents ++ buffers.flatten := by
  induction buffers generalizing dest total with
  | nil => exact ⟨dest, rfl, (append_nil _).symm⟩
  | cons buffer _ ih =>
    rw [flatten_cons, length_append] at fits
    obtain ⟨middle, taken, isMiddle⟩ := appendSized_spec library dest buffer (by omega)
    have middleLength : middle.length = dest.length + buffer.length := by
      unfold Blob.length
      rw [isMiddle, length_append]
    obtain ⟨next, takenRest, isNext⟩ := ih middle (total + buffer.length) (by omega)
    refine ⟨next, ?_, ?_⟩
    · rw [appendBuffers, taken, bind_some, takenRest, flatten_cons, length_append, Nat.add_assoc]
    · rw [isNext, isMiddle, flatten_cons, append_assoc]

end

theorem listed_of_agrees {array : BufferPtrArray} (agrees : array.Agrees) :
    listed array = some array.buffers := by
  unfold listed
  rw [if_pos (Nat.le_of_eq agrees.numBuffers), agrees.numBuffers, take_length]

/-! ## Reads of a file into buffers -/

def Holds : List Nat -> Nat -> Prop
  | [], remaining => remaining = 0
  | size :: rest, remaining => remaining = 0 ∨ (0 < size ∧ Holds rest (remaining - size))

theorem holds_zero (sizes : List Nat) : Holds sizes 0 := by
  cases sizes with
  | nil => rfl
  | cons => exact .inl rfl

variable {remaining : Nat} {sizes : List Nat}

theorem readLoop_of_holds {stored : List UInt8} (holds : Holds sizes remaining)
    (within : remaining ≤ stored.length) :
    readLoop sizes stored remaining = some (stored.take remaining) := by
  induction sizes generalizing stored remaining with
  | nil =>
    cases holds
    rfl
  | cons size _ ih =>
    cases remaining with
    | zero => rfl
    | succ fewer =>
      obtain _ | ⟨_, holdsRest⟩ := holds
      · contradiction
      have isRead : (stored.take (min (fewer + 1) size)).length = min (fewer + 1) size := by
        rw [length_take]
        omega
      rw [readLoop, isRead]
      rw [if_neg (by omega), if_neg (by omega)]
      have left : fewer + 1 - min (fewer + 1) size = fewer + 1 - size := by omega
      rw [left, ih holdsRest (by
        rw [length_drop]
        omega), map_some]
      congr 1
      rw [← left, ← take_add]
      congr 1
      omega

variable {stored read : List UInt8}

section

variable (taken : readLoop sizes stored remaining = some read)
include taken

theorem readLoop_length : read.length ≤ remaining := by
  induction sizes generalizing stored read remaining with
  | nil =>
    cases remaining with
    | zero =>
      cases taken
      exact Nat.le_refl _
    | succ => contradiction
  | cons size _ ih =>
    cases remaining with
    | zero =>
      cases taken
      exact Nat.le_refl _
    | succ fewer =>
      rw [readLoop] at taken
      have atMost : (stored.take (min (fewer + 1) size)).length ≤ fewer + 1 := by
        rw [length_take]
        omega
      split at taken
      · cases taken
        exact Nat.zero_le _
      · split at taken
        · cases taken
          exact atMost
        · obtain ⟨_, takenRest, isRead⟩ := map_eq_some_iff.mp taken
          have fewerRest := ih takenRest
          rw [← isRead, length_append]
          omega

theorem holds_of_readLoop (isWhole : read.length = remaining) : Holds sizes remaining := by
  induction sizes generalizing stored read remaining with
  | nil =>
    cases remaining with
    | zero => rfl
    | succ => contradiction
  | cons size _ ih =>
    cases remaining with
    | zero => exact .inl rfl
    | succ fewer =>
      rw [readLoop] at taken
      refine .inr ?_
      split at taken
      · cases taken
        contradiction
      · have isRead := length_take (l := stored) (i := min (fewer + 1) size)
        split at taken
        · cases taken
          omega
        · obtain ⟨_, takenRest, isAppended⟩ := map_eq_some_iff.mp taken
          rw [← isAppended, length_append] at isWhole
          have holdsRest := ih takenRest (by omega)
          have left : fewer + 1 - (stored.take (min (fewer + 1) size)).length =
              fewer + 1 - size := by omega
          rw [left] at holdsRest
          exact ⟨by omega, holdsRest⟩

end

/-! ## The buffers behind the data -/

theorem allocateUntil_pos (fuel index missing : Nat) :
    ∀ size ∈ allocateUntil library fuel index missing, 0 < size := by
  induction fuel generalizing index missing with
  | zero => exact forall_mem_nil _
  | succ _ ih =>
    intro size mem
    rw [allocateUntil] at mem
    split at mem
    · contradiction
    · obtain isFirst | isLater := mem_cons.mp mem
      · rw [isFirst]
        exact library.allocate_pos index
      · exact ih _ _ size isLater

theorem le_allocateUntil_sum (fuel index missing : Nat) (enough : missing ≤ fuel) :
    missing ≤ (allocateUntil library fuel index missing).sum := by
  induction fuel generalizing index missing with
  | zero => exact Nat.le_trans enough (Nat.zero_le _)
  | succ _ ih =>
    rw [allocateUntil]
    have pos := library.allocate_pos index
    split
    · omega
    · rw [sum_cons]
      have rest := ih (index + 1) (missing - library.allocate index) (by omega)
      omega

theorem holds_of_pos (pos : ∀ size ∈ sizes, 0 < size)
    (enough : remaining ≤ sizes.sum) : Holds sizes remaining := by
  induction sizes generalizing remaining with
  | nil => exact Nat.le_zero.mp enough
  | cons size _ ih =>
    rw [sum_cons] at enough
    exact .inr ⟨pos size mem_cons_self, ih
      (fun other mem => pos other (mem_cons_of_mem size mem)) (by omega)⟩

/-- Buffers that are allocated are never empty. -/
theorem holds_append_iff {spare allocated : List Nat} (pos : ∀ size ∈ allocated, 0 < size)
    (enough : remaining ≤ (spare ++ allocated).sum) :
    Holds (spare ++ allocated) remaining ↔ Fills spare remaining := by
  induction spare generalizing remaining with
  | nil => exact iff_of_true (holds_of_pos pos enough) trivial
  | cons _ _ ih =>
    rw [cons_append, sum_cons] at enough
    rw [cons_append, Holds, Fills, ih (by omega)]

def reservedSizes (destination : Blob) (remaining : Nat) : List Nat :=
  destination.spare ++ allocateUntil library (remaining - destination.spare.sum) 0
    (remaining - destination.spare.sum)

theorem le_reservedSizes_sum (dest : Blob) (remaining : Nat) :
    remaining ≤ (reservedSizes library dest remaining).sum := by
  unfold reservedSizes
  rw [sum_append]
  have enough := le_allocateUntil_sum library _ 0 _ (Nat.le_refl (remaining - dest.spare.sum))
  omega

theorem reservedSizes_zero (dest : Blob) : reservedSizes library dest 0 = dest.spare := by
  unfold reservedSizes
  rw [Nat.zero_sub]
  exact append_nil _

def reservedBlob (destination : Blob) (remaining : Nat) : Blob :=
  { destination with rest := 0, spare := reservedSizes library destination remaining }

variable {dest : Blob}

theorem reserve_eq (fits : dest.length + remaining < lengthLimit) :
    reserve library dest.trimLastDataBuffer (narrow (dest.length + remaining)) =
      some (reservedBlob library dest remaining) := by
  have missing : dest.length + remaining -
      (dest.trimLastDataBuffer.length + dest.trimLastDataBuffer.available) =
        remaining - dest.spare.sum := by
    have sameLength : dest.trimLastDataBuffer.length = dest.length := rfl
    have isAvailable : dest.trimLastDataBuffer.available = 0 + dest.spare.sum := rfl
    omega
  unfold reserve
  rw [narrow_of_lt fits, if_neg (by omega), Int.toNat_natCast, missing]
  rfl

/-! ## Appending a file -/

section AppendFile

variable {dest : Blob} {file : File} (stale : Nat -> UInt8)

def firstIndex (destination : Blob) : Nat :=
  if destination.numDataBuffers = 0 then 0 else 1

def skippedBytes (stale : Nat -> UInt8) (destination : Blob) (remaining : Nat) : List UInt8 :=
  (List.range ((reservedSizes library destination remaining).take (firstIndex destination)).sum).map
    stale

def fileRead (destination : Blob) (file : File) : Option (List UInt8) :=
  readLoop ((reservedSizes library destination file.bytesRemaining.toNat).drop
    (firstIndex destination)) (file.stored.drop file.position.toNat) file.bytesRemaining.toNat

theorem firstIndex_of_nil (noData : dest.data = []) : firstIndex dest = 0 := by
  unfold firstIndex Blob.numDataBuffers
  rw [noData]
  rfl

theorem firstIndex_of_ne_nil (someData : dest.data ≠ []) : firstIndex dest = 1 := by
  unfold firstIndex Blob.numDataBuffers
  rw [if_neg (fun noData => someData (eq_nil_of_length_eq_zero noData))]

theorem append_file :
    append library stale dest (.file file) = appendFile library stale dest file := by
  rw [append]

section

variable (fits : dest.length + file.bytesRemaining.toNat < lengthLimit)
include fits

theorem appendFile_of_empty (noBuffer : reservedSizes library dest file.bytesRemaining.toNat = []) :
    appendFile library stale dest file = none := by
  unfold appendFile
  dsimp only
  rw [reserve_eq library fits, bind_some]
  have isBuffers : (reservedBlob library dest file.bytesRemaining.toNat).numBuffers =
      (reservedBlob library dest file.bytesRemaining.toNat).numDataBuffers := by
    unfold reservedBlob Blob.numBuffers Blob.numDataBuffers
    rw [noBuffer, length_nil, Nat.add_zero]
  split
  · rfl
  · rw [if_pos (Nat.le_of_eq isBuffers)]

section

variable (someBuffer : reservedSizes library dest file.bytesRemaining.toNat ≠ [])
include someBuffer

theorem appendFile_of_buffer : appendFile library stale dest file =
      (fileRead library dest file).bind fun read =>
        if fits : 0 ≤ narrow (dest.length + read.length) ∧
            (narrow (dest.length + read.length)).toNat < lengthLimit then
          some (library.setLength (reservedBlob library dest file.bytesRemaining.toNat)
            (skippedBytes library stale dest file.bytesRemaining.toNat ++ read)
            (narrow (dest.length + read.length)).toNat fits.2, read.length) else none := by
  have enough := le_reservedSizes_sum library dest file.bytesRemaining.toNat
  have someLength := length_pos_iff.mpr someBuffer
  have isAvailable : (reservedBlob library dest file.bytesRemaining.toNat).available =
    0 + (reservedSizes library dest file.bytesRemaining.toNat).sum := rfl
  have isBuffers : (reservedBlob library dest file.bytesRemaining.toNat).numBuffers =
    (reservedBlob library dest file.bytesRemaining.toNat).numDataBuffers +
      (reservedSizes library dest file.bytesRemaining.toNat).length := rfl
  unfold appendFile
  dsimp only
  rw [reserve_eq library fits, bind_some, if_neg (by omega), if_neg (by omega)]
  rfl

theorem appendFile_of_read {read : List UInt8} (isRead : fileRead library dest file = some read) :
    ∃ next, appendFile library stale dest file = some (next, read.length) ∧
      next.contents = dest.contents ++
        (skippedBytes library stale dest file.bytesRemaining.toNat ++ read).take read.length := by
  have atMost := readLoop_length isRead
  have isLength : narrow (dest.length + read.length) = ((dest.length + read.length : Nat) : Int) :=
    narrow_of_lt (by omega)
  have nonnegative : 0 ≤ narrow (dest.length + read.length) := by omega
  have isNat : (narrow (dest.length + read.length)).toNat = dest.length + read.length := by omega
  refine ⟨library.setLength (reservedBlob library dest file.bytesRemaining.toNat)
    (skippedBytes library stale dest file.bytesRemaining.toNat ++ read)
    (narrow (dest.length + read.length)).toNat (by omega), ?_, ?_⟩
  · rw [appendFile_of_buffer library stale fits someBuffer, isRead, bind_some,
      dif_pos ⟨nonnegative, by omega⟩]
  · have sameLength : (reservedBlob library dest file.bytesRemaining.toNat).length =
      dest.length := rfl
    rw [library.setLength_contents, isNat]
    · exact take_length_add_append _
    · rw [isNat, sameLength, length_append]
      omega

end

end

theorem appendsFile_of_holds (readable : file.Readable)
    (fits : dest.length + file.bytesRemaining.toNat < lengthLimit)
    (someBuffer : reservedSizes library dest file.bytesRemaining.toNat ≠ [])
    (noneSkipped : ((reservedSizes library dest file.bytesRemaining.toNat).take
      (firstIndex dest)).sum = 0)
    (holds : Holds ((reservedSizes library dest file.bytesRemaining.toNat).drop
      (firstIndex dest)) file.bytesRemaining.toNat) : Appends library dest (.file file) := by
  intro stale
  have isRead : fileRead library dest file = some file.contents :=
    readLoop_of_holds holds readable.stored_length
  obtain ⟨next, taken, isContents⟩ := appendFile_of_read library stale fits someBuffer isRead
  refine ⟨next, taken, ?_⟩
  rw [isContents]
  unfold skippedBytes
  rw [noneSkipped, range_zero, map_nil, nil_append, take_length]
  rfl

theorem appendsFile_of_appendable (readable : file.Readable)
    (appendable : Appendable dest (.file file)) : Appends library dest (.file file) := by
  obtain ⟨fits, fileAppendable⟩ := appendable
  have isLength : (Data.file file).contents.length = file.bytesRemaining.toNat :=
    readable.contents_length
  rw [isLength] at fits
  have enough := le_reservedSizes_sum library dest file.bytesRemaining.toNat
  have pos := allocateUntil_pos library (file.bytesRemaining.toNat - dest.spare.sum) 0
    (file.bytesRemaining.toNat - dest.spare.sum)
  obtain ⟨isEmpty, someSpare⟩ | ⟨someBytes, noData, fills⟩ | ⟨someBytes, someData, rest, isSpare,
    fills⟩ := fileAppendable
  · intro stale
    have noBytes : file.contents = [] := eq_nil_of_length_eq_zero (isLength.trans isEmpty)
    have isRead : fileRead library dest file = some [] := by
      unfold fileRead
      rw [isEmpty, readLoop_of_holds (holds_zero _) (Nat.zero_le _), take_zero]
    have someBuffer : reservedSizes library dest file.bytesRemaining.toNat ≠ [] := by
      rw [isEmpty, reservedSizes_zero]
      exact someSpare
    obtain ⟨next, taken, isContents⟩ := appendFile_of_read library stale fits someBuffer isRead
    refine ⟨next, ?_, ?_⟩
    · rw [isLength, isEmpty]
      exact taken
    · rw [isContents, length_nil, take_zero]
      exact congrArg (dest.contents ++ ·) noBytes.symm
  · have isFirst := firstIndex_of_nil noData
    refine appendsFile_of_holds library readable fits ?_ ?_ ?_
    · intro noBuffer
      rw [noBuffer] at enough
      exact absurd enough (Nat.not_le_of_lt someBytes)
    · rw [isFirst, take_zero]
      rfl
    · rw [isFirst, drop_zero]
      exact (holds_append_iff pos enough).mpr fills
  · have isFirst := firstIndex_of_ne_nil someData
    have isSizes : reservedSizes library dest file.bytesRemaining.toNat =
        0 :: (rest ++ allocateUntil library (file.bytesRemaining.toNat - dest.spare.sum) 0
          (file.bytesRemaining.toNat - dest.spare.sum)) := by
      unfold reservedSizes
      rw [isSpare, cons_append]
    refine appendsFile_of_holds library readable fits ?_ ?_ ?_
    · rw [isSizes]
      exact cons_ne_nil _ _
    · rw [isFirst, isSizes]
      rfl
    · rw [isSizes, sum_cons, Nat.zero_add] at enough
      rw [isFirst, isSizes, drop_one, tail_cons]
      exact (holds_append_iff pos enough).mpr fills

/-- The bytes before the ones of the file are those of the file whatever the skipped buffer
holds, so that it holds none. -/
theorem head_eq_zero (size : Nat) (sizes : List Nat) (read bytes : List UInt8)
    (someBytes : 0 < bytes.length) (isLength : read.length = bytes.length)
    (isBytes : ∀ stale : Nat -> UInt8,
      ((List.range ((size :: sizes).take 1).sum).map stale ++ read).take read.length = bytes) :
    size = 0 := by
  by_contra someSize
  obtain ⟨_, isSize⟩ := Nat.exists_eq_succ_of_ne_zero someSize
  obtain ⟨first, _, isRest⟩ := exists_cons_of_length_pos someBytes
  have isFirst := congrArg head? (isBytes fun _ => first + 1)
  rw [isSize, isRest] at isFirst
  have someRead : read.length ≠ 0 := by omega
  simp only [take_one, head?_cons, toList_some, sum_singleton,
    range_succ_eq_map, map_cons, cons_append, head?_take, someRead,
    if_false, some.injEq] at isFirst
  have isNat := congrArg UInt8.toNat isFirst
  rw [UInt8.toNat_add, UInt8.toNat_one] at isNat
  omega

theorem appendable_of_appendsFile (readable : file.Readable)
    (appends : Appends library dest (.file file)) : Appendable dest (.file file) := by
  have isLength : (Data.file file).contents.length = file.bytesRemaining.toNat :=
    readable.contents_length
  have fits : dest.length + file.bytesRemaining.toNat < lengthLimit := by
    obtain ⟨next, _, isContents⟩ := appends fun _ => 0
    have bound := next.length_lt
    have isNext : next.data.flatten.length = dest.length + (Data.file file).contents.length := by
      rw [show next.data.flatten = _ from isContents, length_append]
      rfl
    omega
  refine ⟨by rw [isLength]; exact fits, ?_⟩
  have enough := le_reservedSizes_sum library dest file.bytesRemaining.toNat
  have pos := allocateUntil_pos library (file.bytesRemaining.toNat - dest.spare.sum) 0
    (file.bytesRemaining.toNat - dest.spare.sum)
  have someBuffer : reservedSizes library dest file.bytesRemaining.toNat ≠ [] := by
    intro noBuffer
    obtain ⟨_, taken, _⟩ := appends fun _ => 0
    rw [append_file, appendFile_of_empty library _ fits noBuffer] at taken
    contradiction
  cases isRead : fileRead library dest file with
  | none =>
    obtain ⟨_, taken, _⟩ := appends fun _ => 0
    rw [append_file, appendFile_of_buffer library _ fits someBuffer, isRead, bind_none] at taken
    contradiction
  | some read =>
    have isBytes : ∀ stale, read.length = file.bytesRemaining.toNat ∧
        (skippedBytes library stale dest file.bytesRemaining.toNat ++ read).take
          read.length = file.contents := by
      intro stale
      obtain ⟨_, taken, isContents⟩ := appends stale
      obtain ⟨_, takenOther, otherContents⟩ :=
        appendFile_of_read library stale fits someBuffer isRead
      rw [append_file, takenOther] at taken
      obtain ⟨sameBlob, sameCount⟩ := Prod.mk.inj (some.inj taken)
      rw [← sameBlob, otherContents] at isContents
      exact ⟨sameCount.trans isLength, append_cancel_left isContents⟩
    have holds := holds_of_readLoop isRead (isBytes fun _ => 0).1
    by_cases isEmpty : file.bytesRemaining.toNat = 0
    · rw [isEmpty, reservedSizes_zero] at someBuffer
      exact .inl ⟨isEmpty, someBuffer⟩
    have someBytes := Nat.pos_of_ne_zero isEmpty
    by_cases noData : dest.data = []
    · rw [firstIndex_of_nil noData, drop_zero] at holds
      exact .inr (.inl ⟨someBytes, noData, (holds_append_iff pos enough).mp holds⟩)
    · refine .inr (.inr ⟨someBytes, noData, ?_⟩)
      rw [firstIndex_of_ne_nil noData] at holds
      obtain ⟨size, sizes, isSizes⟩ := exists_cons_of_ne_nil someBuffer
      have isZero : size = 0 := by
        refine head_eq_zero size sizes read file.contents ?_ ?_ ?_
        · rw [readable.contents_length]
          exact someBytes
        · exact (isBytes fun _ => 0).1.trans readable.contents_length.symm
        · intro stale
          have isStale := (isBytes stale).2
          unfold skippedBytes at isStale
          rw [firstIndex_of_ne_nil noData, isSizes] at isStale
          exact isStale
      rw [isSizes, isZero, drop_one, tail_cons] at holds
      rw [isSizes, isZero, sum_cons, Nat.zero_add] at enough
      unfold reservedSizes at isSizes
      cases isSpare : dest.spare with
      | nil =>
        rw [isSpare, nil_append] at isSizes
        rw [isSpare, isSizes] at pos
        exact absurd (pos size mem_cons_self) (by omega)
      | cons _ rest =>
        rw [isSpare, cons_append] at isSizes
        obtain ⟨isFirst, isRest⟩ := cons.inj isSizes
        rw [isSpare] at pos
        rw [← isRest] at holds enough
        refine ⟨rest, by rw [isFirst, isZero], ?_⟩
        exact (holds_append_iff pos enough).mp holds

end AppendFile

variable {source : Data}

/-- A container whose bytes are appended wherever they fit. -/
theorem appends_iff_of_spec (isAppendable : Appendable dest source ↔
      dest.length + source.contents.length < lengthLimit)
    (spec : dest.length + source.contents.length < lengthLimit -> ∀ stale, ∃ next,
      append library stale dest source = some (next, source.contents.length) ∧
        next.contents = dest.contents ++ source.contents) :
    Appends library dest source ↔ Appendable dest source := by
  rw [isAppendable]
  constructor
  · intro appends
    obtain ⟨next, _, isContents⟩ := appends fun _ => 0
    have isLength := congrArg length isContents
    rw [length_append] at isLength
    have bound : next.contents.length < lengthLimit := next.length_lt
    rw [isLength] at bound
    exact bound
  · exact spec

theorem appends_iff (dest : Blob) (source : Data) (agrees : source.Agrees) :
    Appends library dest source ↔ Appendable dest source := by
  have ofBytes : ∀ bytes : List UInt8, dest.length + bytes.length < lengthLimit ->
      ∃ next, (appendBytes library dest bytes).map (·, bytes.length) =
        some (next, bytes.length) ∧ next.contents = dest.contents ++ bytes := by
    intro bytes fits
    obtain ⟨next, taken, isContents⟩ := appendBytes_spec library dest bytes fits
    exact ⟨next, by rw [taken, map_some], isContents⟩
  have ofSized : ∀ bytes : List UInt8, dest.length + bytes.length < lengthLimit ->
      ∃ next, (appendSized library dest bytes).map (·, bytes.length) =
        some (next, bytes.length) ∧ next.contents = dest.contents ++ bytes := by
    intro bytes fits
    obtain ⟨next, taken, isContents⟩ := appendSized_spec library dest bytes fits
    exact ⟨next, by rw [taken, map_some], isContents⟩
  have ofBuffers : ∀ buffers : List Buffer, dest.length + buffers.flatten.length < lengthLimit ->
      ∃ next, appendBuffers library dest 0 buffers = some (next, buffers.flatten.length) ∧
          next.contents = dest.contents ++ buffers.flatten := by
    intro buffers fits
    obtain ⟨next, taken, isContents⟩ := appendBuffers_spec library dest 0 buffers fits
    rw [Nat.zero_add] at taken
    exact ⟨next, taken, isContents⟩
  cases source with
  | undefined =>
    refine appends_iff_of_spec library (iff_of_eq (and_true _)) fun _ stale => ?_
    exact ⟨dest, rfl, (append_nil _).symm⟩
  | blobBuffer buffer =>
    exact appends_iff_of_spec library (iff_of_eq (and_true _)) fun fits _ => ofBytes buffer fits
  | constBuffer buffer =>
    exact appends_iff_of_spec library (iff_of_eq (and_true _)) fun fits _ => ofSized buffer fits
  | constBufferArray array =>
    exact appends_iff_of_spec library (iff_of_eq (and_true _)) fun fits _ => ofBuffers array.buffers fits
  | constBufferPtrArray array =>
    refine appends_iff_of_spec library (iff_of_eq (and_true _)) fun fits stale => ?_
    rw [append, listed_of_agrees agrees, bind_some]
    exact ofBuffers array.buffers fits
  | mutableBuffer buffer =>
    exact appends_iff_of_spec library (iff_of_eq (and_true _)) fun fits _ => ofSized buffer fits
  | mutableBufferArray array =>
    exact appends_iff_of_spec library (iff_of_eq (and_true _)) fun fits _ => ofBuffers array.buffers fits
  | mutableBufferPtrArray array =>
    refine appends_iff_of_spec library (iff_of_eq (and_true _)) fun fits _ => ?_
    rw [append, listed_of_agrees agrees, bind_some]
    exact ofBuffers array.buffers fits
  | blob value | sharedBlob value =>
    exact appends_iff_of_spec library (iff_of_eq (and_true _)) fun fits _ => ofBytes value.contents fits
  | string value =>
    exact appends_iff_of_spec library (iff_of_eq (and_true _)) fun fits _ => ofSized value fits
  | file =>
    exact ⟨appendable_of_appendsFile library agrees, appendsFile_of_appendable library agrees⟩

/-! ## Copying -/

theorem copyLoop_spec (fuel : Nat) (dest : Blob) (buffer : Buffer)
    (enough : buffer.length ≤ fuel) (fits : dest.length + buffer.length < lengthLimit) :
    ∃ next, copyLoop library fuel dest buffer = some (next, none) ∧
      next.contents = dest.contents ++ buffer := by
  induction fuel generalizing dest buffer with
  | zero =>
    have isEmpty : buffer = [] := eq_nil_of_length_eq_zero (Nat.le_zero.mp enough)
    exact ⟨dest, rfl, by rw [isEmpty, append_nil]⟩
  | succ _ ih =>
    rw [copyLoop]
    by_cases isEmpty : buffer.length = 0
    · rw [if_pos isEmpty, eq_nil_of_length_eq_zero isEmpty]
      exact ⟨dest, rfl, (append_nil _).symm⟩
    · have isSmall : buffer.length ≤ numBytesToCopyMax := by
        unfold lengthLimit at fits
        unfold numBytesToCopyMax
        omega
      obtain ⟨next, taken, isContents⟩ := appendBytes_spec library dest buffer fits
      rw [if_neg isEmpty, if_pos isSmall]
      dsimp only
      rw [take_length, sputn, taken, map_some, bind_some]
      rw [if_neg (fun differs => differs rfl), drop_length]
      obtain ⟨last, takenRest, lastContents⟩ := ih next [] (Nat.zero_le _) next.length_lt
      exact ⟨last, takenRest, by rw [lastContents, append_nil, isContents]⟩

theorem copyConstBuffer_spec (dest : Blob) (buffer : Buffer)
    (fits : dest.length + buffer.length < lengthLimit) :
    ∃ next, copyConstBuffer library dest buffer = some (next, none) ∧
      next.contents = dest.contents ++ buffer :=
  copyLoop_spec library buffer.length dest buffer .refl fits

theorem length_of_append {next : Blob} {bytes : List UInt8}
    (isContents : next.contents = dest.contents ++ bytes) :
    next.length = dest.length + bytes.length := by
  unfold Blob.length
  rw [isContents, length_append]

theorem copyBuffers_spec (dest : Blob) (buffers : List Buffer)
    (fits : dest.length + buffers.flatten.length < lengthLimit) :
    ∃ next, copyBuffers library dest buffers = some (next, none) ∧
      next.contents = dest.contents ++ buffers.flatten := by
  induction buffers generalizing dest with
  | nil => exact ⟨dest, rfl, (append_nil _).symm⟩
  | cons buffer _ ih =>
    rw [flatten_cons, length_append] at fits
    obtain ⟨middle, taken, isMiddle⟩ := copyConstBuffer_spec library dest buffer (by omega)
    have middleLength := length_of_append isMiddle
    obtain ⟨next, takenRest, isNext⟩ := ih middle (by omega)
    refine ⟨next, ?_, ?_⟩
    · rw [copyBuffers, taken, bind_some]
      exact takenRest
    · rw [isNext, isMiddle, flatten_cons, append_assoc]

theorem copyFileLoop_spec (fuel : Nat) (dest : Blob) (stored : List UInt8)
    (remaining : Nat) (enough : remaining ≤ fuel) (within : remaining ≤ stored.length)
    (fits : dest.length + remaining < lengthLimit) :
    ∃ next, copyFileLoop library fuel dest stored remaining = some (next, none) ∧
      next.contents = dest.contents ++ stored.take remaining := by
  induction fuel generalizing dest stored remaining with
  | zero =>
    rw [Nat.le_zero.mp enough]
    exact ⟨dest, rfl, (append_nil _).symm⟩
  | succ _ ih =>
    rw [copyFileLoop]
    by_cases isDone : remaining = 0
    · rw [if_pos isDone, isDone]
      exact ⟨dest, rfl, (append_nil _).symm⟩
    · have isRead : (if remaining < fileBufferSize then remaining else fileBufferSize) =
          min remaining fileBufferSize := by split <;> omega
      have pos : 0 < fileBufferSize := by decide
      have readLength : (stored.take (min remaining fileBufferSize)).length =
          min remaining fileBufferSize := by
        rw [length_take]
        omega
      obtain ⟨middle, taken, isMiddle⟩ := copyConstBuffer_spec library dest
        (stored.take (min remaining fileBufferSize)) (by omega)
      have middleLength := length_of_append isMiddle
      obtain ⟨next, takenRest, isNext⟩ := ih middle
        (stored.drop (min remaining fileBufferSize)) (remaining - min remaining fileBufferSize)
        (by omega) (by rw [length_drop]; omega) (by omega)
      rw [if_neg isDone, isRead]
      dsimp only
      rw [taken, bind_some]
      rw [isSome_none, if_neg Bool.false_ne_true, if_neg (fun differs => differs readLength)]
      refine ⟨next, takenRest, ?_⟩
      rw [isNext, isMiddle, append_assoc, ← take_add]
      congr 2
      omega

theorem copyOut_spec (dest : Blob) (source : Data) (agrees : source.Agrees)
    (fits : dest.length + source.contents.length < lengthLimit) :
    ∃ next, copyOut library dest source = some (next, none) ∧
      next.contents = dest.contents ++ source.contents := by
  cases source with
  | undefined => exact ⟨dest, rfl, (append_nil _).symm⟩
  | blobBuffer buffer
  | constBuffer buffer => exact copyConstBuffer_spec library dest buffer fits
  | constBufferArray array => exact copyBuffers_spec library dest array.buffers fits
  | constBufferPtrArray array =>
    rw [copyOut, listed_of_agrees agrees, bind_some]
    exact copyBuffers_spec library dest array.buffers fits
  | mutableBuffer buffer => exact copyConstBuffer_spec library dest buffer fits
  | mutableBufferArray array => exact copyBuffers_spec library dest array.buffers fits
  | mutableBufferPtrArray array =>
    rw [copyOut, listed_of_agrees agrees, bind_some]
    exact copyBuffers_spec library dest array.buffers fits
  | blob value | sharedBlob value => exact copyBuffers_spec library dest value.data fits
  | string value => exact copyConstBuffer_spec library dest value fits
  | file value =>
    have isLength : (Data.file value).contents.length = value.bytesRemaining.toNat :=
      contents_length agrees
    exact copyFileLoop_spec library _ dest _ _ .refl (stored_length agrees) (by omega)

theorem copies (dest : Blob) (agrees : source.Agrees)
    (fits : source.contents.length < lengthLimit) : Copies library dest source := by
  have noLength : dest.clear.length = 0 := rfl
  obtain ⟨next, taken, isContents⟩ := copyOut_spec library dest.clear source agrees (by omega)
  exact ⟨next, taken, isContents⟩

theorem size_eq_length {data : Data} (agrees : data.Agrees) : data.size = data.contents.length := by
  cases data with
  | constBufferArray array => exact agrees
  | constBufferPtrArray array => exact agrees.numBytes
  | mutableBufferArray array => exact agrees
  | mutableBufferPtrArray => exact agrees.numBytes
  | file => exact (File.size_eq agrees).trans (contents_length agrees).symm
  | _ => rfl

theorem compares {lhs rhs : Data} (agreesLhs : lhs.Agrees) (agreesRhs : rhs.Agrees)
    (fits : lhs.contents.length < lengthLimit) : Compares library lhs rhs := by
  unfold Compares equals
  rw [size_eq_length agreesLhs, size_eq_length agreesRhs]
  by_cases sameLength : lhs.contents.length = rhs.contents.length
  · rw [if_neg (fun differs => differs sameLength)]
    split
    · exact ⟨_, rfl, decide_eq_true_iff⟩
    · obtain ⟨_, takenLhs, isLhs⟩ := copies library emptyBlob agreesLhs fits
      obtain ⟨_, takenRhs, isRhs⟩ :=
        copies library emptyBlob agreesRhs (by rw [← sameLength]; exact fits)
      rw [takenLhs, bind_some]
      dsimp only
      rw [isSome_none, if_neg Bool.false_ne_true, takenRhs, bind_some]
      rw [isSome_none, if_neg Bool.false_ne_true, isLhs, isRhs]
      exact ⟨_, rfl, decide_eq_true_iff⟩
  · rw [if_pos sameLength]
    refine ⟨false, rfl, ?_⟩
    constructor
    · nofun
    · exact fun same => absurd (congrArg length same) sameLength

/-- The three ways to read a container agree exactly where the bytes of the container can
be appended to the blob, and the other two agree wherever a blob can hold the bytes. -/
theorem agree_iff (library : BlobLibrary) (destination : Blob) (source other : Data)
    (agrees : source.Agrees) (agreesOther : other.Agrees) :
    ((Appends library destination source ∧ Copies library destination source ∧
        Compares library source other) ↔ Appendable destination source) ∧
      (source.contents.length < lengthLimit ->
        Copies library destination source ∧ Compares library source other) := by
  have reads : source.contents.length < lengthLimit ->
      Copies library destination source ∧ Compares library source other := fun fits =>
    ⟨copies library destination agrees fits, compares library agrees agreesOther fits⟩
  refine ⟨?_, reads⟩
  rw [appends_iff library destination source agrees]
  constructor
  · exact fun agreed => agreed.1
  · exact fun appendable => ⟨appendable, reads (by have := appendable.1; omega)⟩

def partlyFilled : Blob where
  data := [[1, 2]]
  rest := 1
  spare := [2, 2]
  last_ne := nofun
  length_lt := by decide

def shortFile : File where
  stored := [7, 8, 9]
  position := 1
  bytesRemaining := 2

theorem shortFile_readable : shortFile.Readable := by
  constructor <;> decide

theorem shortFile_agrees :
    ∃ next, append .contiguous (fun _ => 0) emptyBlob (.file shortFile) = some (next, 2) ∧
      next.contents = [8, 9] :=
  ((agree_iff .contiguous emptyBlob (.file shortFile) (.string [8, 9]) shortFile_readable
    trivial).1.mpr ⟨by decide, .inr (.inl ⟨by decide, rfl, trivial⟩)⟩).1 fun _ => 0

/-- The buffer behind the last data buffer is skipped, so that the blob ends in bytes that
nothing has written. -/
theorem shortFile_not_appended :
    shortFile.Readable ∧ ¬ Appends .contiguous partlyFilled (.file shortFile) := by
  refine ⟨shortFile_readable, fun appends => ?_⟩
  obtain ⟨_, taken, isContents⟩ := appends fun _ => 0
  have isAppended : (append .contiguous (fun _ => 0) partlyFilled (.file shortFile)).map
      (fun result => result.1.contents) = some [1, 2, 0, 0] := by decide +kernel
  rw [taken, map_some, isContents] at isAppended
  exact absurd (some.inj isAppended) (by decide)

end DataUtil

end NtfCore.Ntsa
