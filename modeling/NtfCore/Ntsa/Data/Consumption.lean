import NtfCore.Foundation.Run
import NtfCore.Ntsa.Data.Model

/-!
Contract: bytes that are popped from a container are its first bytes.

Owns: the condition under which `DataUtil::pop` leaves the bytes behind the first ones,
for each representation, and that it leaves others whenever the condition is not met.
-/

namespace NtfCore.Ntsa

open NtfCore.Foundation List Option

def firstLength : List Buffer -> Nat
  | [] => 0
  | front :: rest => if front = [] then firstLength rest else front.length

def BufferArray.Poppable (array : BufferArray) (numBytes : Nat) : Prop :=
  array.numBytes ≤ numBytes ∨ numBytes ≤ firstLength array.buffers

def BufferPtrArray.Poppable (array : BufferPtrArray) (numBytes : Nat) : Prop :=
  min numBytes array.numBytes ≤ (array.buffers.head?.getD []).length

/-- Where a container has several buffers, what is popped does not go beyond the first
one, and from a file less is popped than the largest offset. -/
def Data.Poppable (data : Data) (numBytes : UInt64) : Prop :=
  match data with
  | .constBufferArray array => array.Poppable numBytes.toNat
  | .constBufferPtrArray array => array.Poppable numBytes.toNat
  | .mutableBufferArray array => array.Poppable numBytes.toNat
  | .mutableBufferPtrArray array => array.Poppable numBytes.toNat
  | .file _ => numBytes.toNat < 2 ^ 63
  | _ => True

def DataUtil.Pops (library : BlobLibrary) (data : Data) (numBytes : UInt64) : Prop :=
  ∃ next, DataUtil.pop library data numBytes = some next ∧
    next.contents = data.contents.drop numBytes.toNat ∧
    next.size = data.size - min numBytes.toNat data.size ∧ next.Agrees

theorem drop_clamped {Item : Type} (items : List Item) (count : Nat) :
    items.drop (if items.length < count then items.length else count) = items.drop count := by
  split
  · rename_i beyond
    rw [drop_length, drop_eq_nil_of_le (Nat.le_of_lt beyond)]
  · rfl

theorem advance_eq (buffer : Buffer) (n : Nat) : buffer.advance n = buffer.drop n := by
  unfold Buffer.advance
  split
  · rfl
  · rename_i beyond
    rw [drop_length, drop_eq_nil_of_le (Nat.le_of_not_lt beyond)]

/-! ## Arrays of buffers -/

namespace BufferArray

def remaining (numBytes : Nat) : List Buffer -> List Buffer
  | [] => []
  | front :: rest =>
    if front.length < numBytes then remaining numBytes rest else front.drop numBytes :: rest

section

variable (numBytes : Nat) (buffers : List Buffer)

theorem popLoop_eq : popLoop numBytes buffers buffers.flatten.length =
      some ⟨remaining numBytes buffers, (remaining numBytes buffers).flatten.length⟩ := by
  induction buffers with
  | nil => rfl
  | cons front _ ih =>
    rw [popLoop, remaining, flatten_cons, length_append]
    by_cases isWhole : front.length < numBytes
    · rw [if_pos isWhole, if_pos isWhole, if_pos (Nat.le_add_right _ _), Nat.add_sub_cancel_left]
      exact ih
    · rw [if_neg isWhole, if_neg isWhole, if_pos (by omega), advance_eq, flatten_cons,
        length_append, length_drop]
      congr 2
      omega

theorem remaining_suffix : (remaining numBytes buffers).flatten <:+ buffers.flatten := by
  induction buffers with
  | nil => exact nil_suffix
  | cons front _ ih =>
    rw [remaining]
    split
    · exact ih.trans (suffix_append _ _)
    · rw [flatten_cons, flatten_cons]
      obtain ⟨popped, isFront⟩ := drop_suffix numBytes front
      exact ⟨popped, by rw [← append_assoc, isFront]⟩

theorem remaining_length_le :
    (remaining numBytes buffers).flatten.length + min numBytes buffers.flatten.length ≤
      buffers.flatten.length := by
  induction buffers with
  | nil => simp [remaining]
  | cons =>
    rw [remaining, flatten_cons, length_append]
    split
    · omega
    · rw [flatten_cons, length_append, length_drop]
      omega

end

variable {buffers : List Buffer}

theorem remaining_of_lt {numBytes : Nat} (beyond : buffers.flatten.length < numBytes) :
    remaining numBytes buffers = [] := by
  induction buffers with
  | nil => rfl
  | cons _ _ ih =>
    rw [flatten_cons, length_append] at beyond
    rw [remaining, if_pos (by omega)]
    exact ih (by omega)

/-- As many bytes as asked for are left out only when they are all bytes or of one
buffer. -/
theorem remaining_length_iff {numBytes : Nat} (pos : 0 < numBytes)
    (fits : numBytes ≤ buffers.flatten.length) :
    (remaining numBytes buffers).flatten.length = buffers.flatten.length - numBytes ↔
      numBytes = buffers.flatten.length ∨ numBytes ≤ firstLength buffers := by
  induction buffers with
  | nil => simp at fits; omega
  | cons front rest ih =>
    rw [flatten_cons, length_append] at fits ⊢
    rw [remaining, firstLength]
    by_cases isEmpty : front = []
    · rw [isEmpty] at fits ⊢
      rw [if_pos (by exact pos), if_pos rfl, length_nil, Nat.zero_add]
      rw [length_nil, Nat.zero_add] at fits
      exact ih fits
    · have ne : 0 < front.length := length_pos_iff.mpr isEmpty
      rw [if_neg isEmpty]
      split
      · by_cases beyond : rest.flatten.length < numBytes
        · rw [remaining_of_lt beyond]
          simp only [flatten_nil, length_nil]
          omega
        · have atMost := remaining_length_le numBytes rest
          omega
      · rw [flatten_cons, length_append, length_drop]
        omega

theorem suffix_eq_drop {Item : Type} {left whole : List Item} (isSuffix : left <:+ whole)
    {count : Nat} (isLength : left.length = whole.length - count) : left = whole.drop count := by
  have isDrop := suffix_iff_eq_drop.mp isSuffix
  rw [isDrop, drop_eq_drop_iff]
  omega

theorem pop_eq {array : BufferArray} (agrees : array.Agrees) (numBytes : Nat) :
    ∃ next, array.pop numBytes = some next ∧ next.Agrees ∧
      next.buffers.flatten <:+ array.buffers.flatten ∧
      (next.buffers.flatten.length = array.numBytes - min numBytes array.numBytes ↔
        array.Poppable numBytes) := by
  unfold pop Poppable
  have isClamped : (if array.numBytes < numBytes then array.numBytes else numBytes) =
      min numBytes array.numBytes := by split <;> omega
  rw [isClamped]
  by_cases pos : 0 < min numBytes array.numBytes
  · rw [if_pos pos]
    have isPopped := popLoop_eq (min numBytes array.numBytes) array.buffers
    rw [← agrees] at isPopped
    refine ⟨_, isPopped, rfl, remaining_suffix _ _, ?_⟩
    have fits : min numBytes array.numBytes ≤ array.buffers.flatten.length := by
      rw [← agrees]
      exact Nat.min_le_right _ _
    have iff := remaining_length_iff pos fits
    rw [← agrees] at iff
    rw [iff]
    omega
  · rw [if_neg pos]
    refine ⟨array, rfl, agrees, suffix_refl _, ?_⟩
    rw [← agrees]
    omega

end BufferArray

namespace BufferPtrArray

theorem popLoop_spec {numBytes numBuffers : Nat} {buffers : List Buffer} {total : Nat}
    {next : BufferPtrArray} (taken : popLoop numBytes numBuffers buffers total = some next) :
    next.numBuffers = numBuffers ∧ next.buffers.length ≤ buffers.length := by
  induction buffers generalizing total with
  | nil => contradiction
  | cons _ _ ih =>
    rw [popLoop] at taken
    split at taken
    · split at taken
      · obtain ⟨same, fewer⟩ := ih taken
        exact ⟨same, Nat.le_succ_of_le fewer⟩
      · contradiction
    · obtain ⟨_, rfl⟩ := Run.guarded taken
      exact ⟨rfl, Nat.le_refl _⟩

/-- What `pop` of an array of the caller is. -/
theorem pop_iff {array : BufferPtrArray} (agrees : array.Agrees) (numBytes : Nat) :
    (∃ next, array.pop numBytes = some next ∧
      next.buffers.flatten = array.buffers.flatten.drop numBytes ∧
      next.numBytes = array.numBytes - min numBytes array.numBytes ∧ next.Agrees) ↔
        array.Poppable numBytes := by
  obtain ⟨isBuffers, isBytes⟩ := agrees
  unfold pop Poppable
  have isClamped : (if array.numBytes < numBytes then array.numBytes else numBytes) =
      min numBytes array.numBytes := by split <;> omega
  rw [isClamped]
  cases isEntries : array.buffers with
  | nil =>
    rw [isEntries] at isBuffers isBytes
    have noBytes : array.numBytes = 0 := isBytes
    have noBuffers : array.numBuffers = 0 := isBuffers
    rw [noBytes, Nat.min_zero, if_neg (by omega)]
    constructor
    · exact fun _ => Nat.zero_le _
    · refine fun _ => ⟨array, rfl, ?_, by rw [noBytes], ⟨?_, ?_⟩⟩
      · rw [isEntries, flatten_nil, drop_nil]
      · rw [isEntries, noBuffers]
        rfl
      · rw [isEntries, noBytes]
        rfl
  | cons front rest =>
    rw [isEntries] at isBuffers isBytes
    have someBuffers : array.numBuffers ≠ 0 := by
      rw [isBuffers]
      exact Nat.succ_ne_zero _
    rw [flatten_cons, length_append] at isBytes
    rw [head?_cons, getD_some]
    by_cases pos : 0 < min numBytes array.numBytes
    · rw [if_pos ⟨pos, someBuffers⟩, popLoop]
      split
      · rw [if_pos (by omega)]
        constructor
        · rintro ⟨_, taken, _, _, _, _⟩
          obtain ⟨_, _⟩ := popLoop_spec taken
          rw [length_cons] at isBuffers
          omega
        · omega
      · rename_i isWhole
        rw [if_pos (by omega)]
        constructor
        · omega
        · refine fun _ => ⟨_, rfl, ?_, rfl, ⟨isBuffers, ?_⟩⟩
          · dsimp only
            rw [advance_eq, flatten_cons, flatten_cons]
            by_cases within : numBytes ≤ array.numBytes
            · rw [Nat.min_eq_left within] at isWhole ⊢
              rw [drop_append_of_le_length (Nat.le_of_not_lt isWhole)]
            · have noRest : rest.flatten = [] := eq_nil_of_length_eq_zero (by omega)
              rw [noRest, append_nil, append_nil, drop_eq_nil_of_le (by omega),
                drop_eq_nil_of_le (by omega)]
          · dsimp only
            rw [advance_eq, flatten_cons, length_append, length_drop]
            omega
    · rw [if_neg (fun both => pos both.1)]
      constructor
      · omega
      · refine fun _ => ⟨array, rfl, ?_, by omega, ⟨?_, ?_⟩⟩
        · rw [isEntries]
          symm
          by_cases isZero : numBytes = 0
          · rw [isZero, drop_zero]
          · have noContents : (front :: rest).flatten = [] := by
              refine eq_nil_of_length_eq_zero ?_
              rw [flatten_cons, length_append]
              omega
            rw [noContents, drop_nil]
        · rw [isEntries, isBuffers]
        · rw [isEntries, isBytes, flatten_cons, length_append]

end BufferPtrArray

namespace File

variable {file : File}

theorem bmod_of_offset {offset : Int} (nonnegative : 0 ≤ offset) (small : offset < 2 ^ 63) :
    offset.bmod offsetModulus = offset := by
  unfold offsetModulus
  exact Int.bmod_eq_of_le (by omega) (by omega)

variable {numBytes : UInt64}

theorem toInt_of_small (small : numBytes.toNat < 2 ^ 63) :
    numBytes.toBitVec.toInt = numBytes.toNat := by
  rw [BitVec.toInt_eq_toNat_of_lt]
  · rfl
  · have isNat : numBytes.toBitVec.toNat = numBytes.toNat := rfl
    omega

theorem toInt_of_large (large : ¬ numBytes.toNat < 2 ^ 63) :
    numBytes.toBitVec.toInt = (numBytes.toNat : Int) - 2 ^ 64 := by
  have isNat : numBytes.toBitVec.toNat = numBytes.toNat := rfl
  rw [BitVec.toInt_eq_toNat_cond, isNat, if_neg (by omega)]
  rfl

variable (readable : file.Readable)
include readable

theorem size_eq : (Data.file file).size = file.bytesRemaining.toNat := by
  have nonnegative := readable.bytesRemaining
  have representable := readable.representable
  have isPosition := readable.position
  unfold Data.size offsetModulus
  dsimp only
  rw [Int.emod_eq_of_lt nonnegative (by omega)]

theorem pop_small (small : numBytes.toNat < 2 ^ 63) : (file.pop numBytes).Readable ∧
      (file.pop numBytes).contents = file.contents.drop numBytes.toNat ∧
      (file.pop numBytes).bytesRemaining.toNat =
        file.bytesRemaining.toNat - min numBytes.toNat file.bytesRemaining.toNat := by
  obtain ⟨_, _, _, _⟩ := readable
  have isPopped : (if file.bytesRemaining < numBytes.toBitVec.toInt then file.bytesRemaining
      else numBytes.toBitVec.toInt) = min (numBytes.toNat : Int) file.bytesRemaining := by
    rw [toInt_of_small small]
    split <;> omega
  unfold pop
  dsimp only
  rw [isPopped, bmod_of_offset (by omega) (by omega), bmod_of_offset (by omega) (by omega)]
  refine ⟨⟨?_, ?_, ?_, ?_⟩, ?_, ?_⟩
  · dsimp only
    omega
  · dsimp only
    omega
  · dsimp only
    omega
  · dsimp only
    omega
  · unfold contents
    dsimp only
    rw [drop_take, drop_drop]
    by_cases isWhole : file.bytesRemaining.toNat ≤ numBytes.toNat
    · rw [show (file.bytesRemaining - min (numBytes.toNat : Int) file.bytesRemaining).toNat = 0 by
          omega, Nat.sub_eq_zero_of_le isWhole, take_zero, take_zero]
    · congr 2
      · omega
      · omega
  · omega

/-- More bytes than the largest offset are a negative number of bytes. -/
theorem pop_large (large : ¬ numBytes.toNat < 2 ^ 63) : (Data.file (file.pop numBytes)).size ≠
      (Data.file file).size - min numBytes.toNat (Data.file file).size := by
  obtain ⟨_, _, _, _⟩ := readable
  have bound := numBytes.toNat_lt
  have isPopped : (if file.bytesRemaining < numBytes.toBitVec.toInt then file.bytesRemaining
      else numBytes.toBitVec.toInt) = (numBytes.toNat : Int) - 2 ^ 64 := by
    rw [toInt_of_large large, if_neg (by omega)]
  unfold pop Data.size
  dsimp only
  rw [isPopped, Int.bmod_emod]
  unfold offsetModulus
  omega

end File

/-! ## Containers -/

namespace DataUtil

variable {lib : BlobLibrary} {numBytes : UInt64}

theorem pops_bytes {data next : Data} (taken : pop lib data numBytes = some next)
    (isSize : data.size = data.contents.length)
    (nextSize : next.size = next.contents.length) (agrees : next.Agrees)
    (isContents : next.contents = data.contents.drop numBytes.toNat) : Pops lib data numBytes := by
  refine ⟨next, taken, isContents, ?_, agrees⟩
  rw [nextSize, isContents, isSize, length_drop]
  omega

theorem pops_array {make : BufferArray -> Data} {array : BufferArray} (agrees : array.Agrees)
    (isPop : pop lib (make array) numBytes = (array.pop numBytes.toNat).map make)
    (isContents : ∀ array, (make array).contents = array.buffers.flatten)
    (isSize : ∀ array, (make array).size = array.numBytes)
    (isAgrees : ∀ array : BufferArray, (make array).Agrees ↔ array.Agrees) :
    Pops lib (make array) numBytes ↔ array.Poppable numBytes.toNat := by
  obtain ⟨next, taken, nextAgrees, isSuffix, isLength⟩ := BufferArray.pop_eq agrees numBytes.toNat
  rw [← isLength]
  unfold Pops
  rw [isPop, taken, map_some]
  constructor
  · rintro ⟨_, isPopped, _, popSize, _⟩
    rw [← some.inj isPopped, isSize, isSize] at popSize
    rw [← popSize, nextAgrees]
  · intro sameLength
    refine ⟨make next, rfl, ?_, ?_, (isAgrees next).mpr nextAgrees⟩
    · rw [isContents, isContents]
      refine BufferArray.suffix_eq_drop isSuffix ?_
      rw [sameLength, agrees]
      omega
    · rw [isSize, isSize, nextAgrees, sameLength]

theorem pops_ptrArray {make : BufferPtrArray -> Data} {array : BufferPtrArray}
    (agrees : array.Agrees)
    (isPop : pop lib (make array) numBytes = (array.pop numBytes.toNat).map make)
    (isContents : ∀ array, (make array).contents = array.buffers.flatten)
    (isSize : ∀ array, (make array).size = array.numBytes)
    (isAgrees : ∀ array : BufferPtrArray, (make array).Agrees ↔ array.Agrees) :
    Pops lib (make array) numBytes ↔ array.Poppable numBytes.toNat := by
  rw [← BufferPtrArray.pop_iff agrees]
  unfold Pops
  rw [isPop]
  constructor
  · rintro ⟨_, isPopped, popContents, popSize, popAgrees⟩
    obtain ⟨next, taken, isNext⟩ := map_eq_some_iff.mp isPopped
    subst isNext
    rw [isContents, isContents] at popContents
    rw [isSize, isSize] at popSize
    exact ⟨next, taken, popContents, popSize, (isAgrees next).mp popAgrees⟩
  · rintro ⟨next, taken, nextContents, nextSize, nextAgrees⟩
    refine ⟨make next, ?_, ?_, ?_, (isAgrees next).mpr nextAgrees⟩
    · rw [taken, map_some]
    · rw [isContents, isContents, nextContents]
    · rw [isSize, isSize, nextSize]

theorem pops_blob (blob : Blob) (numBytes : Nat) :
    (popBlob lib blob numBytes).contents = blob.contents.drop numBytes := by
  unfold popBlob
  rw [lib.erase_contents]
  exact drop_clamped blob.contents numBytes

theorem pops_iff (data : Data) (agrees : data.Agrees) (numBytes : UInt64) :
    Pops lib data numBytes ↔ data.Poppable numBytes := by
  cases data with
  | undefined => exact iff_of_true (pops_bytes rfl rfl rfl trivial drop_nil.symm) trivial
  | blobBuffer buffer =>
    exact iff_of_true (pops_bytes rfl rfl rfl trivial (drop_clamped buffer _)) trivial
  | constBuffer buffer =>
    exact iff_of_true (pops_bytes rfl rfl rfl trivial (advance_eq buffer _)) trivial
  | constBufferArray array =>
    exact pops_array agrees rfl (fun _ => rfl) (fun _ => rfl) (fun _ => Iff.rfl)
  | constBufferPtrArray array =>
    exact pops_ptrArray agrees rfl (fun _ => rfl) (fun _ => rfl) (fun _ => Iff.rfl)
  | mutableBuffer buffer =>
    exact iff_of_true (pops_bytes rfl rfl rfl trivial (advance_eq buffer _)) trivial
  | mutableBufferArray array =>
    exact pops_array agrees rfl (fun _ => rfl) (fun _ => rfl) (fun _ => Iff.rfl)
  | mutableBufferPtrArray =>
    exact pops_ptrArray agrees rfl (fun _ => rfl) (fun _ => rfl) (fun _ => Iff.rfl)
  | blob blob
  | sharedBlob blob => exact iff_of_true (pops_bytes rfl rfl rfl trivial (pops_blob blob _)) trivial
  | string string =>
    exact iff_of_true (pops_bytes rfl rfl rfl trivial (drop_clamped string _)) trivial
  | file =>
    constructor
    · rintro ⟨_, isPopped, _, popSize, _⟩
      cases isPopped
      by_contra large
      exact File.pop_large agrees large popSize
    · intro small
      obtain ⟨readable, isContents, isRemaining⟩ := File.pop_small agrees small
      refine ⟨_, rfl, isContents, ?_, readable⟩
      rw [File.size_eq readable, File.size_eq agrees, isRemaining]

def PoppableEach (library : BlobLibrary) : Data -> List UInt64 -> Prop
  | _, [] => True
  | data, numBytes :: rest =>
    data.Poppable numBytes ∧
      ∀ next, pop library data numBytes = some next -> PoppableEach library next rest

def total (counts : List UInt64) : Nat :=
  (counts.map UInt64.toNat).sum

theorem popped_each (data : Data) (agrees : data.Agrees) (counts : List UInt64)
    (poppable : PoppableEach lib data counts) : ∃ last, Run.run (pop lib) data counts = some last ∧
      last.contents = data.contents.drop (total counts) ∧
      last.size = data.size - min (total counts) data.size ∧ last.Agrees := by
  induction counts generalizing data with
  | nil => exact ⟨data, rfl, drop_zero.symm, by simp [total], agrees⟩
  | cons numBytes rest ih =>
    obtain ⟨isPoppable, poppableRest⟩ := poppable
    obtain ⟨next, taken, isContents, isSize, nextAgrees⟩ :=
      (pops_iff data agrees numBytes).mpr isPoppable
    obtain ⟨last, takenRest, lastContents, lastSize, lastAgrees⟩ :=
      ih next nextAgrees (poppableRest next taken)
    have isTotal : total (numBytes :: rest) = numBytes.toNat + total rest := by simp [total]
    refine ⟨last, ?_, ?_, ?_, lastAgrees⟩
    · rw [Run.run_cons_of_step taken]
      exact takenRest
    · rw [lastContents, isContents, drop_drop, isTotal]
    · rw [lastSize, isSize, isTotal]
      omega

/-- A call of `pop` consumes the first bytes exactly when they are in the first buffer, and
calls that do so one after another consume what one call would. -/
theorem pops_exactly (library : BlobLibrary) (data : Data) (agrees : data.Agrees) :
    (∀ numBytes, Pops library data numBytes ↔ data.Poppable numBytes) ∧
      ∀ counts, PoppableEach library data counts ->
        ∃ last, Run.run (pop library) data counts = some last ∧
          last.contents = data.contents.drop (total counts) ∧
          last.size = data.size - min (total counts) data.size ∧ last.Agrees :=
  ⟨pops_iff data agrees, popped_each data agrees⟩

def gathered : Data :=
  .constBufferArray ⟨[[1, 2], [3, 4, 5]], 5⟩

theorem gathered_pops :
    gathered.Agrees ∧ ∃ last, Run.run (pop .contiguous) gathered [1, 1, 2] = some last ∧
      last.contents = [5] := by
  refine ⟨rfl, ?_⟩
  obtain ⟨last, taken, isContents, _⟩ := (pops_exactly .contiguous gathered rfl).2 [1, 1, 2] (by
    refine ⟨.inr (by decide), ?_⟩
    intro _ takenFirst
    cases takenFirst
    refine ⟨.inr (by decide), ?_⟩
    intro _ takenSecond
    cases takenSecond
    exact ⟨.inr (by decide), fun _ _ => trivial⟩)
  exact ⟨last, taken, isContents⟩

/-- The number of bytes to pop is taken from each of the two buffers: nothing is left of
five bytes, of which three are popped. -/
theorem gathered_not_popped : gathered.Agrees ∧ ¬ Pops .contiguous gathered 3 := by
  refine ⟨rfl, ?_⟩
  rintro ⟨_, taken, _, isSize, _⟩
  cases taken
  contradiction

end DataUtil

end NtfCore.Ntsa
