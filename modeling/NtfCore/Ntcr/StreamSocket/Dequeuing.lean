import NtfCore.Ntcq.Receive

/-!
Contract: how the operations of a stream socket take bytes off its receive queue.

Owns: the sizes of `ntca::ReceiveOptions` as they can be set; the loops of the readable event
and of both versions of `receive`, with what each asserts; and that they take the same bytes,
from the front, unless the least size is zero.
-/

namespace NtfCore.Ntcr

open NtfCore.Ntcq List Option ReceiveQueue

variable {Token : Type}

/-- The sizes of `ntca::ReceiveOptions`. -/
structure ReceiveSizes where
  least : Nat := 1
  most : Nat := 18446744073709551615

namespace ReceiveSizes

/-- `setMaxSize`, which keeps the least size at most the greatest. -/
def setMaxSize (sizes : ReceiveSizes) (value : Nat) : ReceiveSizes :=
  if value < sizes.least then ⟨value, value⟩ else { sizes with most := value }

/-- `minSize`, which asserts that it is not zero, and at most `maxSize`. -/
def minSize (sizes : ReceiveSizes) : Option Nat :=
  if sizes.least ≠ 0 ∧ sizes.least ≤ sizes.most then some sizes.least else none

/-- `maxSize`, which asserts that it is at least the other. -/
def maxSize (sizes : ReceiveSizes) : Option Nat :=
  if sizes.least ≤ sizes.most then some sizes.most else none

end ReceiveSizes

namespace Receiver

/-- The loop over the entries. Where it is not guarded by `hasEntry`, `frontEntry` asserts that
there is one. -/
def takeLoop (guarded : Bool) (sizes : ReceiveSizes) :
    List ReceiveQueueEntry -> ReceiveQueue Token -> Nat -> ReceiveQueue.Dequeued ->
      Option (ReceiveQueue Token × ReceiveQueue.Dequeued)
  | [], queue, _, dequeued => if guarded then some (queue, dequeued) else none
  | entry :: rest, queue, numBytesRemaining, dequeued => do
    let numBytesToDequeue := min numBytesRemaining entry.length
    let taken := { dequeued.takeHandle entry with
      numBytes := dequeued.numBytes + numBytesToDequeue }
    let most ← sizes.maxSize
    if ¬ taken.numBytes ≤ most then none
    else if numBytesToDequeue = entry.length then
      let popped ← queue.popEntry entry rest
      if rest.isEmpty then some (popped, taken)
      else if numBytesRemaining - numBytesToDequeue = 0 then some (popped, taken)
      else takeLoop guarded sizes rest popped (numBytesRemaining - numBytesToDequeue) taken
    else
      let popped ← queue.popSize entry rest numBytesToDequeue
      some (popped, taken)

def takeBytes (guarded : Bool) (queue : ReceiveQueue Token) (sizes : ReceiveSizes) :
    Option (ReceiveQueue Token × List UInt8 × ReceiveQueue.Dequeued) := do
  let least ← sizes.minSize
  let most ← sizes.maxSize
  if queue.entryList ≠ [] ∧ queue.size = queue.data.length ∧ least ≤ queue.size then
    let (popped, dequeued) ← takeLoop guarded sizes queue.entryList queue most {}
    if least ≤ dequeued.numBytes ∧ dequeued.numBytes ≤ most ∧
        popped.size = (popped.data.drop dequeued.numBytes).length then
      some ({ popped with data := popped.data.drop dequeued.numBytes },
        popped.data.take dequeued.numBytes, dequeued)
    else none
  else none

/-- `privateSocketReadableIteration`, for a callback with these sizes. -/
def takeReadable (queue : ReceiveQueue Token) (sizes : ReceiveSizes) :
    Option (ReceiveQueue Token × List UInt8 × ReceiveQueue.Dequeued) :=
  takeBytes false queue sizes

/-- `receive`, the synchronous one. -/
def takeReceive (queue : ReceiveQueue Token) (sizes : ReceiveSizes) :
    Option (ReceiveQueue Token × List UInt8 × ReceiveQueue.Dequeued) :=
  takeBytes true queue sizes

/-- `receive`, the asynchronous one. -/
def takeReceiveAsync (queue : ReceiveQueue Token) (sizes : ReceiveSizes) :
    Option (ReceiveQueue Token × List UInt8 × ReceiveQueue.Dequeued) :=
  takeBytes true queue sizes

def Takes (queue : ReceiveQueue Token) (sizes : ReceiveSizes)
    (result : Option (ReceiveQueue Token × List UInt8 × ReceiveQueue.Dequeued)) : Prop :=
  ∃ next delivered dequeued, result = some (next, delivered, dequeued) ∧
    delivered = queue.data.take (min queue.size sizes.most) ∧
    next.data = queue.data.drop (min queue.size sizes.most) ∧
    next.entryList = removed (min queue.size sizes.most) queue.entryList ∧
    ReceiveQueue.Accounted next

variable {entries : List ReceiveQueueEntry}

variable {queue : ReceiveQueue Token} {sizes : ReceiveSizes}

/-- Within its sizes the loop is that of `ReceiveQueue.dequeue`: no guard is needed. -/
theorem takeLoop_eq (guarded : Bool) {left : Nat} {dequeued : ReceiveQueue.Dequeued}
    (ordered : sizes.least ≤ sizes.most) (ne : entries ≠ [])
    (budget : dequeued.numBytes + left ≤ sizes.most) :
    takeLoop guarded sizes entries queue left dequeued =
      dequeueLoop entries queue left dequeued := by
  induction entries generalizing queue left dequeued with
  | nil => contradiction
  | cons entry rest inductionHypothesis =>
    have isMost : sizes.maxSize = some sizes.most := if_pos ordered
    have within : dequeued.numBytes + min left entry.length ≤ sizes.most := by omega
    rw [takeLoop, dequeueLoop]
    simp only [isMost, within, not_true_eq_false, if_false, bind_eq_bind, bind_some]
    by_cases whole : min left entry.length = entry.length
    · rw [if_pos whole, if_pos whole]
      cases queue.popEntry entry rest with
      | none => rfl
      | some popped =>
        rw [bind_some]
        dsimp only
        by_cases isEmpty : rest.isEmpty = true
        · rw [if_pos isEmpty, if_pos (Or.inl isEmpty)]
        · rw [if_neg isEmpty]
          by_cases spent : left - min left entry.length = 0
          · rw [if_pos spent, if_pos (Or.inr spent)]
          · rw [if_neg spent, if_neg (not_or.mpr ⟨isEmpty, spent⟩)]
            refine inductionHypothesis (fun isNil => isEmpty (isEmpty_iff.mpr isNil)) ?_
            dsimp only
            omega
    · rw [if_neg whole, if_neg whole]
      cases queue.popSize entry rest (min left entry.length) <;> rfl

theorem takeBytes_takes_iff (guarded : Bool) (accounted : Accounted queue)
    (enough : sizes.least ≤ queue.size) (ordered : sizes.least ≤ sizes.most) :
    Takes queue sizes (takeBytes guarded queue sizes) ↔ 0 < sizes.least := by
  have isMost : sizes.maxSize = some sizes.most := if_pos ordered
  unfold takeBytes
  constructor
  · rintro ⟨_, _, _, isResult, _⟩
    by_contra isZero
    have fails : sizes.minSize = none := if_neg fun holds => isZero (Nat.pos_of_ne_zero holds.1)
    rw [fails] at isResult
    cases isResult
  · intro pos
    have isLeast : sizes.minSize = some sizes.least := if_pos ⟨Nat.pos_iff_ne_zero.mp pos, ordered⟩
    have ne := accounted.entries_ne_nil (Nat.lt_of_lt_of_le pos enough)
    obtain ⟨popped, taken, isLoop, isTaken, shrinks, holds, isRemoved⟩ :=
      dequeueLoop_spec {} ⟨accounted.entries, accounted.positive⟩ ne
        (Nat.lt_of_lt_of_le pos ordered)
    have isData := shrinks.data
    rw [Nat.zero_add, Nat.min_comm] at isTaken
    rw [Nat.min_comm] at isRemoved
    have dataSize : popped.size = (popped.data.drop taken.numBytes).length := by
      rw [length_drop, isData, ← accounted.data, shrinks.size, isTaken, Nat.min_comm]
    simp only [isMost, isLeast, bind_eq_bind, bind_some]
    rw [if_pos ⟨ne, accounted.data, enough⟩, takeLoop_eq guarded ordered ne (Nat.le_of_eq (Nat.zero_add _)),
      isLoop, bind_some]
    dsimp only
    rw [if_pos ⟨by omega, by omega, dataSize⟩]
    refine ⟨_, _, taken, rfl, ?_, ?_, isRemoved, ⟨holds.size, dataSize, holds.positive⟩⟩
    · rw [isData, isTaken]
    · rw [isTaken]
      exact congrArg (drop _) isData

section

variable (queue : ReceiveQueue Token) (sizes : ReceiveSizes)

/-- The guards make no difference, as the queue is not empty. -/
theorem takeBytes_guarded : takeBytes false queue sizes = takeBytes true queue sizes := by
  unfold takeBytes
  by_cases ne : queue.entryList = []
  · simp only [ne, ne_eq, not_true_eq_false, false_and, if_false]
  · by_cases ordered : sizes.least ≤ sizes.most
    · have isMost : sizes.maxSize = some sizes.most := if_pos ordered
      have isLoop (guarded : Bool) : takeLoop guarded sizes queue.entryList queue sizes.most {} =
        dequeueLoop queue.entryList queue sizes.most {} :=
          takeLoop_eq guarded ordered ne (Nat.le_of_eq (Nat.zero_add _))
      simp only [isMost, bind_eq_bind, bind_some, isLoop]
    · have isNone : sizes.maxSize = none := if_neg ordered
      simp only [isNone, bind_eq_bind, bind_none]

/-- When the loops deliver the first bytes, as many as they may, and all of them the same. -/
theorem same_bytes_taken_iff
    (accounted : ReceiveQueue.Accounted queue) (enough : sizes.least ≤ queue.size)
    (ordered : sizes.least ≤ sizes.most) :
    (Takes queue sizes (takeReadable queue sizes) ∧ Takes queue sizes (takeReceive queue sizes) ∧
        Takes queue sizes (takeReceiveAsync queue sizes) ∧
        takeReadable queue sizes = takeReceive queue sizes ∧
        takeReceive queue sizes = takeReceiveAsync queue sizes) ↔ 0 < sizes.least := by
  constructor
  · rintro ⟨delivers, _⟩
    exact (takeBytes_takes_iff false accounted enough ordered).mp delivers
  · intro pos
    have delivers := fun guarded =>
      (takeBytes_takes_iff guarded accounted enough ordered).mpr pos
    exact ⟨delivers false, delivers true, delivers true, takeBytes_guarded queue sizes, rfl⟩

end

def filled : ReceiveQueue Unit :=
  { entryList := [{ length := 2 }, { length := 3 }]
    data := [1, 2, 3, 4, 5]
    size := 5 }

theorem filled_accounted : Accounted filled := ⟨rfl, rfl, by decide⟩

theorem filled_taken :
    Takes filled { least := 1, most := 4 } (takeReadable filled { least := 1, most := 4 }) :=
  ((same_bytes_taken_iff filled { least := 1, most := 4 } filled_accounted (by decide)
    (by decide)).mpr (by decide)).1

/-- A greatest size of zero makes the least one zero too. -/
theorem nothing_not_taken :
    ¬ ∀ (queue : ReceiveQueue Unit) (sizes : ReceiveSizes), ReceiveQueue.Accounted queue ->
      sizes.least ≤ queue.size -> sizes.least ≤ sizes.most ->
        Takes queue sizes (takeReceive queue sizes) := by
  intro all
  obtain ⟨_, _, _, isResult, _⟩ :=
    all filled (ReceiveSizes.setMaxSize {} 0) filled_accounted (by decide) (by decide)
  cases isResult

end Receiver

end NtfCore.Ntcr
