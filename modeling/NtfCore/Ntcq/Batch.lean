import NtfCore.Ntcq.Send
import NtfCore.Ntsa.Data.Model
import Mathlib.Data.List.TakeWhile

/-!
Contract: the batch that a socket sends from its send queue (`SendQueue::batchNext`).

Owns: `SendQueueEntry::batchNext`, with one overload for each representation of the data of an
entry, and `SendQueue::batchNext`, as `ntcq_send.cpp` computes them, where a read behind an
array of pointers is `none`; what each of them appends; and what a batch consists of.

The endpoint, the foreign handle and the zero-copy flag of the options are read by the
socket only, and left out.
-/

namespace NtfCore.Ntcq

open NtfCore.Ntsa List BufferArray

variable {Token Context Callback : Type}

/-- `ntsa::SendOptions`: a limit of zero is no limit. -/
structure SendOptions where
  maxBytes : Nat := 0
  maxBuffers : Nat := 0

/-- The limit of buffers that is in effect: `SocketUtil::maxBuffersPerSend` where there is none. -/
def SendOptions.bufferLimit (options : SendOptions) (maxBuffersPerSend : Nat) : Nat :=
  if options.maxBuffers = 0 then maxBuffersPerSend else options.maxBuffers

/-- `Data::isFile`. -/
def isFile : Data -> Bool
  | .file _ => true
  | _ => false

structure ContainerEntry (Token Context Callback : Type)
    extends SendQueueEntry Token Context Callback where
  container : Option Data := none
  data_eq : data = container.map Data.contents
  isFile_eq : toSendQueueEntry.isFile = container.any Ntcq.isFile

def ContainerEntry.ofContainer (container : Option Data) :
    ContainerEntry Token Context Callback where
  data := container.map Data.contents
  isFile := container.any Ntcq.isFile
  container := container
  data_eq := rfl
  isFile_eq := rfl

/-! ## The overloads -/

section Overloads

variable (maxBuffersPerSend : Nat) (options : SendOptions)

/-- `SendQueueEntry::batchNext` of a const buffer and of a mutable buffer: whether more should
be attempted, and the result. -/
def batchNextBuffer (result : BufferArray) (buffer : Buffer) : Bool × BufferArray :=
  if 0 < options.maxBytes ∧ options.maxBytes ≤ result.numBytes then (false, result)
  else
    let maxBuffers := options.bufferLimit maxBuffersPerSend
    if 0 < maxBuffers ∧ maxBuffers ≤ result.buffers.length then (false, result)
    else (true, result.append buffer)

/-- The loop of `SendQueueEntry::batchNext` of a blob. -/
def batchNextBlobLoop (maxBytes maxBuffers : Nat) (result : BufferArray) :
    List Buffer -> Bool × BufferArray
  | [] => (true, result)
  | buffer :: rest =>
    if 0 < maxBytes ∧ maxBytes ≤ result.numBytes then (false, result)
    else if 0 < maxBuffers ∧ maxBuffers ≤ result.buffers.length then (false, result)
    else batchNextBlobLoop maxBytes maxBuffers (result.append buffer) rest

/-- `SendQueueEntry::batchNext` of a blob. -/
def batchNextBlob (result : BufferArray) (blob : Blob) : Bool × BufferArray :=
  batchNextBlobLoop options.maxBytes (options.bufferLimit maxBuffersPerSend) result blob.data

/-- `SendQueueEntry::batchNext` of a const buffer array and of a mutable buffer array. -/
def batchNextArray (result : BufferArray) : List Buffer -> Bool × BufferArray
  | [] => (true, result)
  | buffer :: rest =>
    match batchNextBuffer maxBuffersPerSend options result buffer with
    | (false, appended) => (false, appended)
    | (true, appended) => batchNextArray appended rest

/-- `SendQueueEntry::batchNext` of an array of pointers to const buffers and to mutable
buffers: the loop for the buffers that are left by the count of the array. -/
def batchNextPtrArray (result : BufferArray) : Nat -> List Buffer -> Option (Bool × BufferArray)
  | 0, _ => some (true, result)
  | _ + 1, [] => none
  | numBuffers + 1, buffer :: rest =>
    match batchNextBuffer maxBuffersPerSend options result buffer with
    | (false, appended) => some (false, appended)
    | (true, appended) => batchNextPtrArray appended numBuffers rest

/-- `SendQueueEntry::isBatchable`. -/
def ContainerEntry.isBatchable (entry : ContainerEntry Token Context Callback) : Bool :=
  entry.container.isSome && !entry.container.any Ntcq.isFile && entry.foreignHandle.isNone

/-- `SendQueueEntry::batchNext`. -/
def ContainerEntry.batchNext (entry : ContainerEntry Token Context Callback)
    (result : BufferArray) : Option (Bool × BufferArray) :=
  if entry.isBatchable then
    match entry.container with
    | some (.blob blob) => some (batchNextBlob maxBuffersPerSend options result blob)
    | some (.sharedBlob blob) => some (batchNextBlob maxBuffersPerSend options result blob)
    | some (.blobBuffer buffer) => some (batchNextBuffer maxBuffersPerSend options result buffer)
    | some (.constBuffer buffer) => some (batchNextBuffer maxBuffersPerSend options result buffer)
    | some (.constBufferArray array) =>
      some (batchNextArray maxBuffersPerSend options result array.buffers)
    | some (.constBufferPtrArray array) =>
      batchNextPtrArray maxBuffersPerSend options result array.numBuffers array.buffers
    | some (.mutableBuffer buffer) =>
      some (batchNextBuffer maxBuffersPerSend options result buffer)
    | some (.mutableBufferArray array) =>
      some (batchNextArray maxBuffersPerSend options result array.buffers)
    | some (.mutableBufferPtrArray array) =>
      batchNextPtrArray maxBuffersPerSend options result array.numBuffers array.buffers
    | some (.string string) => some (batchNextBuffer maxBuffersPerSend options result string)
    | some .undefined => some (false, result)
    | some (.file _) => some (false, result)
    | none => some (false, result)
  else some (false, result)

/-- The loop of `SendQueue::batchNext`. -/
def batchNextLoop (result : BufferArray) :
    List (ContainerEntry Token Context Callback) -> Option BufferArray
  | [] => some result
  | entry :: rest =>
    match entry.batchNext maxBuffersPerSend options result with
    | none => none
    | some (false, appended) => some appended
    | some (true, appended) => batchNextLoop appended rest

/-- `SendQueue::batchNext`. -/
def batchNext (entryList : List (ContainerEntry Token Context Callback)) :
    Option (Bool × BufferArray) :=
  if entryList.length < 2 then some (false, {})
  else
    let effectiveOptions :=
      if options.maxBuffers = 0 then { options with maxBuffers := maxBuffersPerSend } else options
    match batchNextLoop maxBuffersPerSend effectiveOptions {} entryList with
    | none => none
    | some result => some (decide (result.buffers.length ≠ 0), result)

end Overloads

/-! ## What is appended -/

def dataBuffers : Data -> List Buffer
  | .undefined => []
  | .blobBuffer buffer => [buffer]
  | .constBuffer buffer => [buffer]
  | .constBufferArray array => array.buffers
  | .constBufferPtrArray array => array.buffers.take array.numBuffers
  | .mutableBuffer buffer => [buffer]
  | .mutableBufferArray array => array.buffers
  | .mutableBufferPtrArray array => array.buffers.take array.numBuffers
  | .blob blob => blob.data
  | .sharedBlob blob => blob.data
  | .string string => [string]
  | .file _ => []

def Full (maxBytes maxBuffers : Nat) (result : BufferArray) : Prop :=
  (0 < maxBytes ∧ maxBytes ≤ result.numBytes) ∨
    (0 < maxBuffers ∧ maxBuffers ≤ result.buffers.length)

structure Bounded (maxBytes maxBuffers : Nat) (result : BufferArray) : Prop where
  agrees : result.Agrees
  buffers : 0 < maxBuffers -> result.buffers.length ≤ maxBuffers
  bytes : 0 < maxBytes -> result.buffers ≠ [] -> result.buffers.dropLast.flatten.length < maxBytes

structure Appended (maxBytes maxBuffers : Nat) (result : BufferArray) (offered : List Buffer)
    (answer : Bool × BufferArray) : Prop where
  bounded : Bounded maxBytes maxBuffers result -> Bounded maxBytes maxBuffers answer.2
  taken : ∃ taken rest, offered = taken ++ rest ∧ answer.2.buffers = result.buffers ++ taken ∧
    (answer.1 = true -> rest = []) ∧ (answer.1 = false -> Full maxBytes maxBuffers answer.2)

namespace Appended

variable {maxBytes maxBuffers : Nat} {result middle : BufferArray} {offered more : List Buffer}
  {answer : Bool × BufferArray}

theorem nothing : Appended maxBytes maxBuffers result [] (true, result) where
  bounded := id
  taken := ⟨[], [], rfl, (append_nil _).symm, fun _ => rfl, nofun⟩

theorem stop (full : Full maxBytes maxBuffers result) :
    Appended maxBytes maxBuffers result offered (false, result) where
  bounded := id
  taken := ⟨[], offered, rfl, (append_nil _).symm, nofun, fun _ => full⟩

theorem single {buffer : Buffer} (room : ¬ Full maxBytes maxBuffers result) :
    Appended maxBytes maxBuffers result [buffer] (true, result.append buffer) where
  bounded := by
    intro before
    have agrees := before.agrees
    unfold Agrees at agrees
    unfold Full at room
    constructor
    · unfold Agrees append
      simp [agrees]
    · intro limited
      simp only [append, length_append, length_singleton]
      omega
    · intro _ _
      simp only [append, dropLast_concat]
      omega
  taken := ⟨[buffer], [], rfl, rfl, fun _ => rfl, nofun⟩

theorem trans (first : Appended maxBytes maxBuffers result offered (true, middle))
    (second : Appended maxBytes maxBuffers middle more answer) :
    Appended maxBytes maxBuffers result (offered ++ more) answer where
  bounded := fun before => second.bounded (first.bounded before)
  taken := by
    obtain ⟨taken, _, isOffered, isMiddle, isAll, _⟩ := first.taken
    obtain ⟨takenMore, restMore, isMore, isAnswer, isAllMore, full⟩ := second.taken
    refine ⟨offered ++ takenMore, restMore, ?_, ?_, isAllMore, full⟩
    · rw [isMore, append_assoc]
    · have isTaken : taken = offered := by rw [isOffered, isAll rfl, append_nil]
      rw [isAnswer, isMiddle, isTaken, append_assoc]

theorem extend (stopped : Appended maxBytes maxBuffers result offered (false, middle)) :
    Appended maxBytes maxBuffers result (offered ++ more) (false, middle) := { stopped with
  taken := by
    obtain ⟨taken, rest, isOffered, isMiddle, _, full⟩ := stopped.taken
    exact ⟨taken, rest ++ more, by rw [isOffered, append_assoc], isMiddle, nofun, full⟩ }

end Appended

section Specifications

variable (maxBuffersPerSend : Nat) (options : SendOptions)

open Appended

theorem batchNextBuffer_appended (result : BufferArray) (buffer : Buffer) :
    Appended options.maxBytes (options.bufferLimit maxBuffersPerSend) result [buffer]
      (batchNextBuffer maxBuffersPerSend options result buffer) := by
  unfold batchNextBuffer
  dsimp only
  split
  · rename_i manyBytes
    exact stop (.inl manyBytes)
  · rename_i fewBytes
    split
    · rename_i manyBuffers
      exact stop (.inr manyBuffers)
    · rename_i fewBuffers
      exact single (not_or.mpr ⟨fewBytes, fewBuffers⟩)

theorem batchNextBlobLoop_appended (maxBytes maxBuffers : Nat) (result : BufferArray)
    (buffers : List Buffer) : Appended maxBytes maxBuffers result buffers
      (batchNextBlobLoop maxBytes maxBuffers result buffers) := by
  induction buffers generalizing result with
  | nil => exact nothing
  | cons buffer _ ih =>
    unfold batchNextBlobLoop
    split
    · rename_i manyBytes
      exact stop (.inl manyBytes)
    · rename_i fewBytes
      split
      · rename_i manyBuffers
        exact stop (.inr manyBuffers)
      · rename_i fewBuffers
        have first : Appended maxBytes maxBuffers result [buffer] (true, result.append buffer) :=
          single (not_or.mpr ⟨fewBytes, fewBuffers⟩)
        exact first.trans (ih _)

section

variable (result : BufferArray)

theorem batchNextArray_appended (buffers : List Buffer) :
    Appended options.maxBytes (options.bufferLimit maxBuffersPerSend) result buffers
      (batchNextArray maxBuffersPerSend options result buffers) := by
  induction buffers generalizing result with
  | nil => exact nothing
  | cons buffer _ ih =>
    have first := batchNextBuffer_appended maxBuffersPerSend options result buffer
    unfold batchNextArray
    split
    · rename_i stopped
      rw [stopped] at first
      exact first.extend
    · rename_i continued
      rw [continued] at first
      exact first.trans (ih _)

variable {numBuffers : Nat} {buffers : List Buffer}

theorem batchNextPtrArray_appended {answer : Bool × BufferArray}
    (returned : batchNextPtrArray maxBuffersPerSend options result numBuffers buffers =
      some answer) : Appended options.maxBytes (options.bufferLimit maxBuffersPerSend) result
      (buffers.take numBuffers) answer := by
  induction numBuffers generalizing result buffers with
  | zero =>
    rw [batchNextPtrArray, Option.some.injEq] at returned
    rw [← returned]
    exact nothing
  | succ _ ih =>
    cases buffers with
    | nil => contradiction
    | cons buffer =>
      have first := batchNextBuffer_appended maxBuffersPerSend options result buffer
      unfold batchNextPtrArray at returned
      split at returned
      · rename_i stopped
        cases returned
        rw [stopped] at first
        exact first.extend
      · rename_i continued
        rw [continued] at first
        exact first.trans (ih _ returned)

theorem batchNextPtrArray_isSome (within : numBuffers ≤ buffers.length) :
    (batchNextPtrArray maxBuffersPerSend options result numBuffers buffers).isSome = true := by
  induction numBuffers generalizing result buffers with
  | zero => rfl
  | succ _ ih =>
    cases buffers with
    | nil => exact absurd within (Nat.not_succ_le_zero _)
    | cons =>
      unfold batchNextPtrArray
      split
      · rfl
      · exact ih _ (Nat.le_of_succ_le_succ within)

end

def ContainerEntry.offers (entry : ContainerEntry Token Context Callback) : Bool :=
  entry.isBatchable && decide (entry.container ≠ some .undefined)

def ContainerEntry.buffers (entry : ContainerEntry Token Context Callback) : List Buffer :=
  (entry.container.map dataBuffers).getD []

def ContainerEntry.Counted (entry : ContainerEntry Token Context Callback) : Prop :=
  match entry.container with
  | some (.constBufferPtrArray array) => array.numBuffers ≤ array.buffers.length
  | some (.mutableBufferPtrArray array) => array.numBuffers ≤ array.buffers.length
  | _ => True

variable {entry : ContainerEntry Token Context Callback} {result : BufferArray}
  {answer : Bool × BufferArray}

open ContainerEntry

theorem ContainerEntry.batchNext_appended (offers : entry.offers = true)
    (returned : entry.batchNext maxBuffersPerSend options result = some answer) :
    Appended options.maxBytes (options.bufferLimit maxBuffersPerSend) result entry.buffers
      answer := by
  unfold ContainerEntry.offers at offers
  rw [Bool.and_eq_true, decide_eq_true_eq] at offers
  obtain ⟨isBatchable, isDefined⟩ := offers
  unfold batchNext at returned
  rw [if_pos isBatchable] at returned
  unfold ContainerEntry.isBatchable at isBatchable
  unfold ContainerEntry.buffers
  cases isContainer : entry.container with
  | none =>
    rw [isContainer] at isBatchable
    contradiction
  | some data =>
    rw [isContainer] at isBatchable isDefined returned
    cases data with
    | undefined => contradiction
    | file => contradiction
    | blob blob | sharedBlob _
    | blobBuffer buffer | constBuffer buffer | mutableBuffer buffer | string _ =>
      cases returned
      exact batchNextBlobLoop_appended _ _ _ _
    | constBufferArray array | mutableBufferArray array =>
      cases returned
      exact batchNextArray_appended _ _ _ _
    | constBufferPtrArray array | mutableBufferPtrArray _ =>
      exact batchNextPtrArray_appended _ _ _ returned

theorem ContainerEntry.batchNext_stops (stops : entry.offers = false) :
    entry.batchNext maxBuffersPerSend options result = some (false, result) := by
  unfold batchNext
  split
  · rename_i isBatchable
    unfold offers at stops
    rw [isBatchable, Bool.true_and, decide_eq_false_iff_not, not_not] at stops
    rw [stops]
  · rfl

theorem ContainerEntry.batchNext_isSome (result : BufferArray) (counted : entry.Counted) :
    (entry.batchNext maxBuffersPerSend options result).isSome = true := by
  unfold Counted at counted
  unfold batchNext
  split
  · split
    case h_6 _ isContainer | h_9 _ isContainer =>
      rw [isContainer] at counted
      exact batchNextPtrArray_isSome _ _ _ counted
    all_goals rfl
  · rfl

def batchable (entryList : List (ContainerEntry Token Context Callback)) : List Buffer :=
  (entryList.takeWhile ContainerEntry.offers).flatMap ContainerEntry.buffers

variable {entryList : List (ContainerEntry Token Context Callback)}

theorem batchNextLoop_appended {result after : BufferArray}
    (returned : batchNextLoop maxBuffersPerSend options result entryList = some after) :
    ∃ more, Appended options.maxBytes (options.bufferLimit maxBuffersPerSend) result
      (batchable entryList) (more, after) := by
  induction entryList generalizing result with
  | nil =>
    cases returned
    exact ⟨true, nothing⟩
  | cons entry _ ih =>
    unfold batchable
    unfold batchNextLoop at returned
    cases offers : entry.offers with
    | false =>
      rw [batchNext_stops _ _ offers] at returned
      cases returned
      rw [takeWhile_cons_of_neg (by simp [offers])]
      exact ⟨true, nothing⟩
    | true =>
      rw [takeWhile_cons_of_pos offers, flatMap_cons]
      split at returned
      · contradiction
      · rename_i appended stopped
        cases returned
        exact ⟨false, (batchNext_appended _ _ offers stopped).extend⟩
      · rename_i _ continued
        obtain ⟨more, second⟩ := ih returned
        exact ⟨more, (batchNext_appended _ _ offers continued).trans second⟩

theorem batchNextLoop_isSome (result : BufferArray) (counted : ∀ entry ∈ entryList, entry.Counted) :
    (batchNextLoop maxBuffersPerSend options result entryList).isSome = true := by
  induction entryList generalizing result with
  | nil => rfl
  | cons entry _ ih =>
    obtain ⟨answer, returned⟩ := Option.isSome_iff_exists.mp
      (batchNext_isSome maxBuffersPerSend options result (counted entry (by simp)))
    unfold batchNextLoop
    rw [returned]
    obtain ⟨more, appended⟩ := answer
    cases more with
    | false => rfl
    | true => exact ih appended fun other mem => counted other (mem_cons_of_mem entry mem)

end Specifications

/-- What a batch of a queue consists of: a prefix of the buffers of the entries before the
first one that is not batchable, within the limits, and all of them or as many as the limits
allow. -/
structure IsBatch (maxBytes maxBuffers : Nat)
    (entryList : List (ContainerEntry Token Context Callback)) (answer : Bool × BufferArray) :
    Prop where
  isPrefix : answer.2.buffers <+: batchable entryList
  numBytes : answer.2.Agrees
  buffers : 0 < maxBuffers -> answer.2.buffers.length ≤ maxBuffers
  bytes : 0 < maxBytes -> ∀ last ∈ answer.2.buffers.getLast?,
    answer.2.numBytes < maxBytes + last.length
  complete : 2 ≤ entryList.length ->
    answer.2.buffers = batchable entryList ∨ Full maxBytes maxBuffers answer.2
  few : entryList.length < 2 -> answer.2.buffers = []
  returned : answer.1 = true ↔ answer.2.buffers ≠ []

variable {maxBytes maxBuffers : Nat}

theorem Bounded.numBytes_lt {result : BufferArray}
    (bounded : Bounded maxBytes maxBuffers result) (limited : 0 < maxBytes) :
    ∀ last ∈ result.buffers.getLast?, result.numBytes < maxBytes + last.length := by
  intro _ isLast
  obtain ⟨_, isBuffers⟩ := getLast?_eq_some_iff.mp isLast
  have before := bounded.bytes limited (by simp [isBuffers])
  have agrees := bounded.agrees
  rw [isBuffers, dropLast_concat] at before
  rw [agrees, isBuffers, flatten_append, length_append]
  simp only [flatten_cons, flatten_nil, append_nil]
  omega

theorem empty_isBatch
    {entryList : List (ContainerEntry Token Context Callback)} (few : entryList.length < 2) :
    IsBatch maxBytes maxBuffers entryList (false, {}) where
  isPrefix := nil_prefix
  numBytes := rfl
  buffers := fun _ => Nat.zero_le _
  bytes := fun _ _ isLast => absurd isLast nofun
  complete := fun many => absurd many (Nat.not_le_of_lt few)
  few := fun _ => rfl
  returned := ⟨nofun, fun notEmpty => absurd rfl notEmpty⟩

/-- A batch is a prefix of the buffers that the queue has to send, within the limits. Buffers
of no bytes are not left out. -/
theorem batchNext_isBatch (maxBuffersPerSend : Nat) (options : SendOptions)
    (entryList : List (ContainerEntry Token Context Callback)) :
    (∀ answer, batchNext maxBuffersPerSend options entryList = some answer ->
        IsBatch options.maxBytes (options.bufferLimit maxBuffersPerSend) entryList answer) ∧
      ((∀ entry ∈ entryList, entry.Counted) ->
        (batchNext maxBuffersPerSend options entryList).isSome = true) := by
  unfold batchNext
  by_cases few : entryList.length < 2
  · rw [if_pos few]
    refine ⟨fun answer returned => ?_, fun _ => rfl⟩
    cases returned
    exact empty_isBatch few
  · rw [if_neg few]
    dsimp only
    generalize isEffective : (if options.maxBuffers = 0 then
      { options with maxBuffers := maxBuffersPerSend } else options) = effective
    have sameBytes : effective.maxBytes = options.maxBytes := by
      rw [← isEffective]
      split <;> rfl
    have sameBuffers :
        effective.bufferLimit maxBuffersPerSend = options.bufferLimit maxBuffersPerSend := by
      rw [← isEffective]
      unfold SendOptions.bufferLimit
      split
      · dsimp only
        split
        · rfl
        · rfl
      · rfl
    constructor
    · intro _ returned
      split at returned
      · contradiction
      · rename_i result looped
        obtain ⟨more, appended⟩ := batchNextLoop_appended _ _ looped
        rw [sameBytes, sameBuffers] at appended
        have bounded := appended.bounded
          { agrees := rfl
            buffers := fun _ => Nat.zero_le _
            bytes := fun _ notEmpty => absurd rfl notEmpty }
        obtain ⟨_, rest, isOffered, isResult, isAll, full⟩ := appended.taken
        rw [nil_append] at isResult
        cases returned
        exact
          { isPrefix := ⟨rest, by rw [isOffered, isResult]⟩
            numBytes := bounded.agrees
            buffers := bounded.buffers
            bytes := bounded.numBytes_lt
            complete := by
              intro _
              cases more with
              | true => exact .inl (by rw [isResult, isOffered, isAll rfl, append_nil])
              | false => exact .inr (full rfl)
            few := fun isFew => absurd isFew few
            returned := by simp }
    · intro counted
      obtain ⟨_, looped⟩ := Option.isSome_iff_exists.mp
        (batchNextLoop_isSome maxBuffersPerSend effective {} counted)
      rw [looped]
      rfl

/-- The first entry was sent in part, up to the end of its first buffer, which stays as a
buffer of no bytes. -/
theorem batchNext_empty_buffer : ¬ (∀ (maxBuffersPerSend : Nat) (options : SendOptions)
        (entryList : List (ContainerEntry Unit Unit Unit)) (answer : Bool × BufferArray),
        batchNext maxBuffersPerSend options entryList = some answer ->
          IsBatch options.maxBytes (options.bufferLimit maxBuffersPerSend) entryList answer ∧
            ∀ buffer ∈ answer.2.buffers, buffer ≠ []) := by
  intro claimed
  have popped : ({ buffers := [[1], [2]], numBytes := 2 } : BufferArray).pop 1 =
      some { buffers := [[], [2]], numBytes := 1 } := by decide
  have returned : batchNext 1024 {} [ContainerEntry.ofContainer (some (.constBufferArray
      ((({ buffers := [[1], [2]], numBytes := 2 } : BufferArray).pop 1).getD {}))),
      (ContainerEntry.ofContainer (some (.string [3])) : ContainerEntry Unit Unit Unit)] =
        some (true, { buffers := [[], [2], [3]], numBytes := 2 }) := by
    decide
  exact (claimed _ _ _ _ returned).2 [] (by simp) rfl

end NtfCore.Ntcq
