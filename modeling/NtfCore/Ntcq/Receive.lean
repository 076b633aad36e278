import Mathlib.Algebra.GroupWithZero.Nat
import NtfCore.Ntcs.FlowControl
import Mathlib.Algebra.BigOperators.Group.List.Basic

/-!
Contract: the receive queue of a socket (`ntcq::ReceiveQueue`).

Owns: the entries, the data they account for, the size, the watermarks, the queue of
callbacks, and the operations of `ntcq_receive.h` on them, where a failed assertion is
`none`; the loop with which a stream socket takes the bytes of a receive operation off
the queue; and the accounting that the loop keeps.

The timestamps of the entries are left out.
-/

namespace NtfCore.Ntcq

open NtfCore.Ntcs List

/-- `ntcq::ReceiveQueueEntry`. A foreign handle is known by the order in which it was
received. -/
structure ReceiveQueueEntry where
  length : Nat
  foreignHandle : Option Nat := none

theorem ReceiveOptions.le_one : 1 ≤ 1 := Nat.le_refl 1

theorem ReceiveOptions.le_three : 1 ≤ 3 := Nat.le_of_ble_eq_true rfl

theorem ReceiveOptions.le_size : 1 ≤ 18446744073709551615 := Nat.le_of_ble_eq_true rfl

/-- `ntca::ReceiveOptions`. That `minSize` is positive and at most `maxSize` is what its
accessors assert. -/
structure ReceiveOptions (Token : Type) where
  minSize : Nat := 1
  maxSize : Nat := 18446744073709551615
  token : Option Token := none
  deadline : Option Int := none
  recurse : Bool := false
  positive : 0 < minSize := by first | exact Nat.one_pos | decide
  ordered : minSize ≤ maxSize := by
    first
    | exact NtfCore.Ntcq.ReceiveOptions.le_one
    | exact NtfCore.Ntcq.ReceiveOptions.le_three
    | exact NtfCore.Ntcq.ReceiveOptions.le_size
    | decide

/-- `ntcq::ReceiveCallbackQueueEntry`, known by an identifier. -/
structure ReceiveCallbackQueueEntry (Token : Type) where
  id : Nat
  options : ReceiveOptions Token

/-- `ntcq::ReceiveQueue`. `isEdge` is the trigger. -/
structure ReceiveQueue (Token : Type) where
  entryList : List ReceiveQueueEntry := []
  data : List UInt8 := []
  size : Nat := 0
  watermarkLow : Nat := 1
  watermarkLowWanted : Bool := true
  watermarkHigh : Nat := 536870912
  watermarkHighWanted : Bool := true
  isEdge : Bool := false
  callbackQueue : List (ReceiveCallbackQueueEntry Token) := []

namespace ReceiveQueue

variable {Token : Type}

/-- `ReceiveQueue::isLowWatermarkSatisfied`. -/
def isLowWatermarkSatisfied (queue : ReceiveQueue Token) : Bool :=
  queue.watermarkLow ≤ queue.size

/-- `ReceiveQueue::isHighWatermarkViolated`. -/
def isHighWatermarkViolated (queue : ReceiveQueue Token) : Bool :=
  queue.watermarkHigh ≤ queue.size

/-- `ReceiveQueue::pushEntry`. -/
def pushEntry (queue : ReceiveQueue Token) (entry : ReceiveQueueEntry) :
    Option (ReceiveQueue Token) :=
  if 0 < entry.length then
    some { queue with
      entryList := queue.entryList ++ [entry]
      size := queue.size + entry.length }
  else none

def rearm (queue : ReceiveQueue Token) : ReceiveQueue Token :=
  if queue.isEdge ∧ queue.size < queue.watermarkLow then
    { queue with watermarkLowWanted := true, watermarkHighWanted := true }
  else queue

/-- `ReceiveQueue::popEntry`, of the entry in front of the rest. -/
def popEntry (queue : ReceiveQueue Token) (entry : ReceiveQueueEntry)
    (rest : List ReceiveQueueEntry) : Option (ReceiveQueue Token) :=
  if 0 < entry.length ∧ entry.length ≤ queue.size then
    some (rearm { queue with entryList := rest, size := queue.size - entry.length })
  else none

/-- `ReceiveQueue::popSize`, of the entry in front of the rest. The entry keeps its
foreign handle. -/
def popSize (queue : ReceiveQueue Token) (entry : ReceiveQueueEntry)
    (rest : List ReceiveQueueEntry) (numBytes : Nat) : Option (ReceiveQueue Token) :=
  if numBytes ≤ entry.length ∧ numBytes ≤ queue.size then
    some (rearm { queue with
      entryList := { entry with length := entry.length - numBytes } :: rest
      size := queue.size - numBytes })
  else none

/-- `ReceiveQueue::popCallbackEntry`: the callback at the front, when there are enough
bytes for it. -/
def popCallbackEntry (queue : ReceiveQueue Token) :
    Option (ReceiveCallbackQueueEntry Token × ReceiveQueue Token) :=
  match queue.entryList, queue.callbackQueue with
  | _ :: _, callbackEntry :: rest =>
    if callbackEntry.options.minSize ≤ queue.size then
      some (callbackEntry, { queue with callbackQueue := rest })
    else none
  | _, _ => none

/-- `ReceiveQueue::authorizeLowWatermarkEvent`. -/
def authorizeLowWatermarkEvent (queue : ReceiveQueue Token) : Bool × ReceiveQueue Token :=
  if queue.isLowWatermarkSatisfied then
    if queue.isEdge then
      if queue.watermarkLowWanted then (true, { queue with watermarkLowWanted := false })
      else (false, queue)
    else (true, queue)
  else (false, queue)

/-- `ReceiveQueue::authorizeHighWatermarkEvent`. -/
def authorizeHighWatermarkEvent (queue : ReceiveQueue Token) : Bool × ReceiveQueue Token :=
  if queue.isHighWatermarkViolated then
    if queue.isEdge then
      if queue.watermarkHighWanted then (true, { queue with watermarkHighWanted := false })
      else (false, queue)
    else (true, queue)
  else (false, queue)

/-- `ReceiveQueue::setLowWatermark`. -/
def setLowWatermark (queue : ReceiveQueue Token) (lowWatermark : Nat) : ReceiveQueue Token :=
  let watermarks := sanitizeIncomingQueueWatermarks lowWatermark queue.watermarkHigh
  { queue with
    watermarkLow := watermarks.1
    watermarkHigh := watermarks.2
    watermarkLowWanted := true }

/-- `ReceiveQueue::setHighWatermark`. -/
def setHighWatermark (queue : ReceiveQueue Token) (highWatermark : Nat) : ReceiveQueue Token :=
  let watermarks := sanitizeIncomingQueueWatermarks queue.watermarkLow highWatermark
  { queue with
    watermarkLow := watermarks.1
    watermarkHigh := watermarks.2
    watermarkHighWanted := true }

structure Dequeued where
  numBytes : Nat := 0
  foreignHandle : Option Nat := none
  closed : List Nat := []

def Dequeued.takeHandle (dequeued : Dequeued) (entry : ReceiveQueueEntry) : Dequeued :=
  match entry.foreignHandle with
  | none => dequeued
  | some handle =>
    if dequeued.foreignHandle.isSome then
      { dequeued with closed := dequeued.closed ++ [handle] }
    else { dequeued with foreignHandle := some handle }

/-- The loop of a receive operation over the entries of the queue, which the three
operations of `ntcr_streamsocket.cpp` share. -/
def dequeueLoop : List ReceiveQueueEntry -> ReceiveQueue Token -> Nat -> Dequeued ->
    Option (ReceiveQueue Token × Dequeued)
  | [], queue, _, dequeued => some (queue, dequeued)
  | entry :: rest, queue, numBytesRemaining, dequeued =>
    let numBytesToDequeue := min numBytesRemaining entry.length
    let taken := { dequeued.takeHandle entry with
      numBytes := dequeued.numBytes + numBytesToDequeue }
    if numBytesToDequeue = entry.length then
      match queue.popEntry entry rest with
      | none => none
      | some popped =>
        if rest.isEmpty ∨ numBytesRemaining - numBytesToDequeue = 0 then some (popped, taken)
        else dequeueLoop rest popped (numBytesRemaining - numBytesToDequeue) taken
    else
      match queue.popSize entry rest numBytesToDequeue with
      | none => none
      | some popped => some (popped, taken)

def dequeue (queue : ReceiveQueue Token) (options : ReceiveOptions Token) :
    Option (ReceiveQueue Token × List UInt8 × Dequeued) :=
  if queue.entryList ≠ [] ∧ queue.size = queue.data.length then
    match dequeueLoop queue.entryList queue options.maxSize {} with
    | none => none
    | some (popped, dequeued) =>
      if options.minSize ≤ dequeued.numBytes ∧ dequeued.numBytes ≤ options.maxSize ∧
          popped.size = (popped.data.drop dequeued.numBytes).length then
        some ({ popped with data := popped.data.drop dequeued.numBytes },
          popped.data.take dequeued.numBytes, dequeued)
      else none
  else none

structure Accounted (queue : ReceiveQueue Token) : Prop where
  entries : queue.size = (queue.entryList.map ReceiveQueueEntry.length).sum
  data : queue.size = queue.data.length
  positive : ∀ entry ∈ queue.entryList, 0 < entry.length

variable {queue : ReceiveQueue Token}

theorem Accounted.entries_ne_nil (accounted : Accounted queue)
    (pos : 0 < queue.size) : queue.entryList ≠ [] := by
  intro isNil
  rw [accounted.entries, isNil] at pos
  contradiction

theorem rearm_cases (queue : ReceiveQueue Token) : ∃ lowWanted highWanted, rearm queue =
    { queue with watermarkLowWanted := lowWanted, watermarkHighWanted := highWanted } ∧
      (queue.watermarkHighWanted = true -> highWanted = true) ∧
      (queue.isEdge = true -> queue.size < queue.watermarkLow -> highWanted = true) := by
  unfold rearm
  split
  · exact ⟨true, true, rfl, fun _ => rfl, fun _ _ => rfl⟩
  · rename_i notLow
    refine ⟨queue.watermarkLowWanted, queue.watermarkHighWanted, rfl, id, ?_⟩
    intro edge low
    exact absurd ⟨edge, low⟩ notLow

structure Shrinks (numBytes : Nat) (before after : ReceiveQueue Token) : Prop where
  size : after.size = before.size - numBytes
  within : numBytes ≤ before.size
  data : after.data = before.data
  watermarkLow : after.watermarkLow = before.watermarkLow
  watermarkHigh : after.watermarkHigh = before.watermarkHigh
  isEdge : after.isEdge = before.isEdge
  callbackQueue : after.callbackQueue = before.callbackQueue
  wanted : before.watermarkHighWanted = true -> after.watermarkHighWanted = true
  rearmed : before.isEdge = true -> after.size < before.watermarkLow -> 0 < numBytes ->
    after.watermarkHighWanted = true

structure Holds (entries : List ReceiveQueueEntry) (queue : ReceiveQueue Token) : Prop where
  size : queue.size = (entries.map ReceiveQueueEntry.length).sum
  positive : ∀ entry ∈ entries, 0 < entry.length

variable {rest : List ReceiveQueueEntry} {entry : ReceiveQueueEntry}

def removed : Nat -> List ReceiveQueueEntry -> List ReceiveQueueEntry
  | _, [] => []
  | numBytes, entry :: rest =>
    if entry.length ≤ numBytes then removed (numBytes - entry.length) rest
    else { entry with length := entry.length - numBytes } :: rest

theorem removed_zero {entries : List ReceiveQueueEntry} (pos : ∀ entry ∈ entries, 0 < entry.length) :
    removed 0 entries = entries := by
  cases entries with
  | nil => rfl
  | cons entry => rw [removed, if_neg (Nat.not_le.mpr (pos entry mem_cons_self)), Nat.sub_zero]

theorem popEntry_spec (holds : Holds (entry :: rest) queue) :
    ∃ popped, queue.popEntry entry rest = some popped ∧ Shrinks entry.length queue popped ∧
      Holds rest popped ∧ popped.entryList = rest := by
  have pos := holds.positive entry mem_cons_self
  have isSize := holds.size
  rw [map_cons, sum_cons] at isSize
  have fits : entry.length ≤ queue.size := by omega
  unfold popEntry
  rw [if_pos ⟨pos, fits⟩]
  obtain ⟨_, _, isRearmed, keeps, rearms⟩ :=
    rearm_cases { queue with entryList := rest, size := queue.size - entry.length }
  rw [isRearmed]
  refine ⟨_, rfl, ⟨rfl, fits, rfl, rfl, rfl, rfl, rfl, keeps, fun edge low _ => rearms edge low⟩,
    ⟨?_, fun other mem => holds.positive other (mem_cons_of_mem _ mem)⟩, rfl⟩
  dsimp only
  omega

theorem popSize_spec {numBytes : Nat} (holds : Holds (entry :: rest) queue)
    (inside : numBytes < entry.length) :
    ∃ popped, queue.popSize entry rest numBytes = some popped ∧ Shrinks numBytes queue popped ∧
      Holds popped.entryList popped ∧
      popped.entryList = { entry with length := entry.length - numBytes } :: rest := by
  have isSize := holds.size
  rw [map_cons, sum_cons] at isSize
  have fits : numBytes ≤ queue.size := by omega
  unfold popSize
  rw [if_pos ⟨Nat.le_of_lt inside, fits⟩]
  obtain ⟨_, _, isRearmed, keeps, rearms⟩ := rearm_cases { queue with
    entryList := { entry with length := entry.length - numBytes } :: rest
    size := queue.size - numBytes }
  rw [isRearmed]
  refine ⟨_, rfl, ⟨rfl, fits, rfl, rfl, rfl, rfl, rfl, keeps, fun edge low _ => rearms edge low⟩,
    ⟨?_, ?_⟩, rfl⟩
  · dsimp only
    rw [map_cons, sum_cons]
    dsimp only
    omega
  · intro other mem
    rcases mem_cons.mp mem with isFront | inRest
    · rw [isFront]
      exact Nat.sub_pos_of_lt inside
    · exact holds.positive other (mem_cons_of_mem _ inRest)

theorem Shrinks.trans {first second : Nat} {before between after : ReceiveQueue Token}
    (earlier : Shrinks first before between) (later : Shrinks second between after)
    (pos : 0 < second) : Shrinks (first + second) before after where
  size := by
    rw [later.size, earlier.size]
    omega
  within := by
    have bound := later.within
    rw [earlier.size] at bound
    omega
  data := later.data.trans earlier.data
  watermarkLow := later.watermarkLow.trans earlier.watermarkLow
  watermarkHigh := later.watermarkHigh.trans earlier.watermarkHigh
  isEdge := later.isEdge.trans earlier.isEdge
  callbackQueue := later.callbackQueue.trans earlier.callbackQueue
  wanted := fun wants => later.wanted (earlier.wanted wants)
  rearmed := by
    intro edge low _
    exact later.rearmed (earlier.isEdge.trans edge) (earlier.watermarkLow ▸ low) pos

theorem dequeueLoop_spec {entries : List ReceiveQueueEntry} {left : Nat}
    (dequeued : Dequeued) (holds : Holds entries queue) (ne : entries ≠ []) (wanted : 0 < left) :
    ∃ popped taken, dequeueLoop entries queue left dequeued = some (popped, taken) ∧
      taken.numBytes = dequeued.numBytes + min left queue.size ∧
      Shrinks (min left queue.size) queue popped ∧ Holds popped.entryList popped ∧
      popped.entryList = removed (min left queue.size) entries := by
  induction entries generalizing queue left dequeued with
  | nil => contradiction
  | cons entry rest ih =>
    have isSize := holds.size
    rw [map_cons, sum_cons] at isSize
    rw [dequeueLoop]
    by_cases whole : min left entry.length = entry.length
    · obtain ⟨popped, isPopped, shrinks, restHolds, isRest⟩ := popEntry_spec holds
      have poppedSize := shrinks.size
      have inside : entry.length ≤ min left queue.size := by omega
      rw [if_pos whole, isPopped, removed, if_pos inside]
      dsimp only
      rw [whole]
      by_cases stops : rest.isEmpty ∨ left - entry.length = 0
      · have isMin : min left queue.size = entry.length := by
          rcases stops with isEmpty | _
          · rw [isEmpty_iff.mp isEmpty, map_nil, sum_nil] at isSize
            omega
          · omega
        rw [if_pos stops, isMin, Nat.sub_self, removed_zero restHolds.positive]
        exact ⟨popped, _, rfl, rfl, shrinks, isRest ▸ restHolds, isRest⟩
      · rw [if_neg stops]
        rw [not_or] at stops
        have restNonempty : rest ≠ [] := fun isNil => stops.1 (isEmpty_iff.mpr isNil)
        obtain ⟨final, taken, isLoop, isTaken, later, ends, isRemoved⟩ := ih
            { dequeued.takeHandle entry with numBytes := dequeued.numBytes + entry.length }
            restHolds restNonempty (Nat.pos_of_ne_zero stops.2)
        have restPositive : 0 < popped.size := by
          obtain ⟨other, _, isCons⟩ := exists_cons_of_ne_nil restNonempty
          have otherPositive := restHolds.positive other (isCons ▸ mem_cons_self)
          rw [restHolds.size, isCons, map_cons, sum_cons]
          omega
        have isMin : entry.length + min (left - entry.length) popped.size =
            min left queue.size := by
          rw [poppedSize]
          omega
        refine ⟨final, taken, isLoop, ?_, ?_, ends, ?_⟩
        · rw [isTaken, ← isMin]
          dsimp only
          omega
        · rw [← isMin]
          refine shrinks.trans later ?_
          omega
        · rw [isRemoved, ← isMin, Nat.add_sub_cancel_left]
    · have isRemaining : min left entry.length = left := by omega
      rw [isRemaining] at whole ⊢
      have inside : left < entry.length := by omega
      obtain ⟨popped, isPopped, shrinks, popHolds, isEntryList⟩ := popSize_spec holds inside
      have isMin : min left queue.size = left := by omega
      rw [if_neg whole, isPopped, isMin, removed, if_neg (Nat.not_le.mpr inside)]
      exact ⟨popped, _, rfl, rfl, shrinks, popHolds, isEntryList⟩

theorem Accounted.dequeue_spec (accounted : Accounted queue)
    {options : ReceiveOptions Token} (enough : options.minSize ≤ queue.size) :
    ∃ next delivered dequeued, queue.dequeue options = some (next, delivered, dequeued) ∧
      Accounted next ∧ dequeued.numBytes = min options.maxSize queue.size ∧
      next.size = queue.size - dequeued.numBytes ∧
      next.watermarkLow = queue.watermarkLow ∧ next.watermarkHigh = queue.watermarkHigh ∧
      next.isEdge = queue.isEdge ∧ next.callbackQueue = queue.callbackQueue ∧
      (queue.watermarkHighWanted = true -> next.watermarkHighWanted = true) ∧
      (queue.isEdge = true -> next.size < queue.watermarkLow -> next.watermarkHighWanted = true) := by
  have least := options.positive
  have bound := options.ordered
  have ne := accounted.entries_ne_nil (Nat.lt_of_lt_of_le least enough)
  obtain ⟨popped, taken, isLoop, isTaken, shrinks, holds, _⟩ :=
    dequeueLoop_spec {} ⟨accounted.entries, accounted.positive⟩ ne (Nat.lt_of_lt_of_le least bound)
  have numBytes : taken.numBytes = min options.maxSize queue.size := by
    rw [isTaken]
    exact Nat.zero_add _
  have poppedSize := shrinks.size
  rw [← numBytes] at shrinks poppedSize
  have dataSize : popped.size = (popped.data.drop taken.numBytes).length := by
    rw [length_drop, shrinks.data, ← accounted.data, poppedSize]
  unfold dequeue
  rw [if_pos ⟨ne, accounted.data⟩, isLoop]
  dsimp only
  rw [if_pos ⟨by omega, by omega, dataSize⟩]
  refine ⟨_, _, taken, rfl, ⟨holds.size, dataSize, holds.positive⟩, numBytes, poppedSize,
    shrinks.watermarkLow, shrinks.watermarkHigh, shrinks.isEdge, shrinks.callbackQueue,
    shrinks.wanted, ?_⟩
  intro edge low
  exact shrinks.rearmed edge low (by omega)

end ReceiveQueue

end NtfCore.Ntcq
