import NtfCore.Ntcs.FlowControl
import Mathlib.Data.List.Basic

/-!
Contract: the accept queue of a listener socket (`ntcq::AcceptQueue`,
`ntcq::AcceptCallbackQueue`).

Owns: the connections that were taken from the backlog, the callbacks that wait for one,
the size and the watermarks, and the operations of `ntcq_accept.h` on them.

A stream socket is known by the number of its connection, an entry of the callback queue
by an identifier. The timestamps of the entries are left out.
-/

namespace NtfCore.Ntcq

open NtfCore.Ntcs List

/-- `ntca::AcceptOptions`. -/
structure AcceptOptions (Token : Type) where
  token : Option Token := none
  deadline : Option Int := none
  recurse : Bool := false
deriving DecidableEq

/-- `ntcq::AcceptCallbackQueueEntry`, known by an identifier. -/
structure AcceptCallbackQueueEntry (Token : Type) where
  id : Nat
  options : AcceptOptions Token
deriving DecidableEq

/-- `ntcq::AcceptQueue`. `isEdge` is the trigger. -/
structure AcceptQueue (Token : Type) where
  entryList : List Nat := []
  size : Nat := 0
  watermarkLow : Nat := 1
  watermarkLowWanted : Bool := true
  watermarkHigh : Nat := 1024
  watermarkHighWanted : Bool := true
  isEdge : Bool := false
  callbackQueue : List (AcceptCallbackQueueEntry Token) := []
  counted : size = entryList.length := by rfl

namespace AcceptQueue

variable {Token : Type}

/-! ## Connections -/

/-- `AcceptQueue::hasEntry`. -/
def hasEntry (queue : AcceptQueue Token) : Bool :=
  !queue.entryList.isEmpty

/-- `AcceptQueue::frontEntry`, where there is one. -/
def frontEntry (queue : AcceptQueue Token) : Option Nat :=
  queue.entryList.head?

/-- `AcceptQueue::pushEntry`. -/
def pushEntry (queue : AcceptQueue Token) (connection : Nat) : AcceptQueue Token :=
  { queue with
    entryList := queue.entryList ++ [connection]
    size := queue.size + 1
    counted := by simp [queue.counted] }

def rearm (queue : AcceptQueue Token) : AcceptQueue Token :=
  if queue.isEdge ∧ queue.size < queue.watermarkLow then
    { queue with watermarkLowWanted := true, watermarkHighWanted := true }
  else queue

/-- `AcceptQueue::popEntry`. -/
def popEntry (queue : AcceptQueue Token) : AcceptQueue Token :=
  rearm { queue with
    entryList := queue.entryList.tail
    size := queue.size - 1
    counted := by simp [queue.counted] }

/-- `AcceptQueue::hasCallbackEntry`. -/
def hasCallbackEntry (queue : AcceptQueue Token) : Bool :=
  !queue.callbackQueue.isEmpty

/-- `AcceptQueue::pushCallbackEntry`. -/
def pushCallbackEntry (queue : AcceptQueue Token) (entry : AcceptCallbackQueueEntry Token) :
    AcceptQueue Token :=
  { queue with callbackQueue := queue.callbackQueue ++ [entry] }

/-- `AcceptQueue::popCallbackEntry`: the callback at the front, when there is a
connection for it. -/
def popCallbackEntry (queue : AcceptQueue Token) :
    Option (AcceptCallbackQueueEntry Token × AcceptQueue Token) :=
  if queue.entryList.isEmpty then none
  else
    match queue.callbackQueue with
    | [] => none
    | entry :: rest => some (entry, { queue with callbackQueue := rest })

/-- `AcceptQueue::popAllCallbackEntries`. -/
def popAllCallbackEntries (queue : AcceptQueue Token) :
    List (AcceptCallbackQueueEntry Token) × AcceptQueue Token :=
  (queue.callbackQueue, { queue with callbackQueue := [] })

/-- The search of both versions of `AcceptCallbackQueue::remove`. -/
def removeFirst (queue : AcceptQueue Token) (selects : AcceptCallbackQueueEntry Token -> Bool) :
    Option (AcceptCallbackQueueEntry Token × AcceptQueue Token) :=
  (queue.callbackQueue.find? selects).map fun entry =>
    (entry, { queue with callbackQueue := queue.callbackQueue.eraseP selects })

/-- `AcceptQueue::removeCallbackEntry` of an entry. -/
def removeCallbackEntry (queue : AcceptQueue Token) (id : Nat) :
    Option (AcceptCallbackQueueEntry Token × AcceptQueue Token) :=
  queue.removeFirst fun entry => entry.id == id

/-- `AcceptQueue::removeCallbackEntry` of the first entry with a token. -/
def removeCallbackEntryByToken [DecidableEq Token] (queue : AcceptQueue Token) (token : Token) :
    Option (AcceptCallbackQueueEntry Token × AcceptQueue Token) :=
  queue.removeFirst fun entry => entry.options.token == some token

/-- `AcceptQueue::isLowWatermarkSatisfied`. -/
def isLowWatermarkSatisfied (queue : AcceptQueue Token) : Bool :=
  queue.watermarkLow ≤ queue.size

/-- `AcceptQueue::isHighWatermarkViolated`. -/
def isHighWatermarkViolated (queue : AcceptQueue Token) : Bool :=
  queue.watermarkHigh ≤ queue.size

/-- `AcceptQueue::setLowWatermark`. -/
def setLowWatermark (queue : AcceptQueue Token) (lowWatermark : Nat) : AcceptQueue Token :=
  let watermarks := sanitizeIncomingQueueWatermarks lowWatermark queue.watermarkHigh
  { queue with
    watermarkLow := watermarks.1
    watermarkHigh := watermarks.2
    watermarkLowWanted := true }

/-- `AcceptQueue::setHighWatermark`. -/
def setHighWatermark (queue : AcceptQueue Token) (highWatermark : Nat) : AcceptQueue Token :=
  let watermarks := sanitizeIncomingQueueWatermarks queue.watermarkLow highWatermark
  { queue with
    watermarkLow := watermarks.1
    watermarkHigh := watermarks.2
    watermarkHighWanted := true }

/-- `AcceptQueue::authorizeLowWatermarkEvent`, and the queue behind it. -/
def authorizeLowWatermarkEvent (queue : AcceptQueue Token) : Bool × AcceptQueue Token :=
  if queue.isLowWatermarkSatisfied then
    if queue.isEdge then
      if queue.watermarkLowWanted then (true, { queue with watermarkLowWanted := false })
      else (false, queue)
    else (true, queue)
  else (false, queue)

/-- `AcceptQueue::authorizeHighWatermarkEvent`, and the queue behind it. -/
def authorizeHighWatermarkEvent (queue : AcceptQueue Token) : Bool × AcceptQueue Token :=
  if queue.isHighWatermarkViolated then
    if queue.isEdge then
      if queue.watermarkHighWanted then (true, { queue with watermarkHighWanted := false })
      else (false, queue)
    else (true, queue)
  else (false, queue)

/-! ## What the operations do to connections and callbacks -/

variable {entry : AcceptCallbackQueueEntry Token}

section

variable (queue : AcceptQueue Token)

@[simp] theorem rearm_keeps : queue.rearm.entryList = queue.entryList ∧
    queue.rearm.callbackQueue = queue.callbackQueue := by
  unfold rearm
  split
  · exact ⟨rfl, rfl⟩
  · exact ⟨rfl, rfl⟩

@[simp] theorem popEntry_entryList : queue.popEntry.entryList = queue.entryList.tail := by
  simp [popEntry]

@[simp] theorem popEntry_callbackQueue : queue.popEntry.callbackQueue = queue.callbackQueue := by
  simp [popEntry]

@[simp] theorem authorizeLow_keeps :
    queue.authorizeLowWatermarkEvent.2.entryList = queue.entryList ∧
      queue.authorizeLowWatermarkEvent.2.callbackQueue = queue.callbackQueue := by
  unfold authorizeLowWatermarkEvent
  repeat' split
  all_goals exact ⟨rfl, rfl⟩

@[simp] theorem authorizeHigh_keeps :
    queue.authorizeHighWatermarkEvent.2.entryList = queue.entryList ∧
      queue.authorizeHighWatermarkEvent.2.callbackQueue = queue.callbackQueue := by
  unfold authorizeHighWatermarkEvent
  repeat' split
  all_goals exact ⟨rfl, rfl⟩

end

/-- A callback is popped with a connection for it, and leaves the connections alone. -/
theorem popCallbackEntry_some {queue popped : AcceptQueue Token}
    (isPopped : queue.popCallbackEntry = some (entry, popped)) :
    queue.callbackQueue = entry :: popped.callbackQueue ∧ popped.entryList = queue.entryList ∧
      ∃ connection rest, queue.entryList = connection :: rest := by
  unfold popCallbackEntry at isPopped
  split at isPopped
  · contradiction
  · rename_i ne
    split at isPopped
    · contradiction
    · rename_i _ _ isCons
      rw [Option.some.injEq, Prod.mk.injEq] at isPopped
      rw [← isPopped.2, ← isPopped.1]
      refine ⟨isCons, rfl, exists_cons_of_ne_nil ?_⟩
      intro isNil
      exact ne (isEmpty_iff.mpr isNil)

theorem popCallbackEntry_none {queue : AcceptQueue Token} (isNone : queue.popCallbackEntry = none) :
    queue.entryList = [] ∨ queue.callbackQueue = [] := by
  unfold popCallbackEntry at isNone
  split at isNone
  · rename_i isEmpty
    exact .inl (isEmpty_iff.mp isEmpty)
  · split at isNone
    · rename_i isNil
      exact .inr isNil
    · contradiction

theorem removeFirst_some {queue removed : AcceptQueue Token}
    {selects : AcceptCallbackQueueEntry Token -> Bool}
    (isRemoved : queue.removeFirst selects = some (entry, removed)) :
    removed.entryList = queue.entryList ∧
      ∃ before after, queue.callbackQueue = before ++ entry :: after ∧
        removed.callbackQueue = before ++ after := by
  unfold removeFirst at isRemoved
  rw [Option.map_eq_some_iff] at isRemoved
  obtain ⟨_, isFound, isPair⟩ := isRemoved
  rw [Prod.mk.injEq] at isPair
  rw [← isPair.2, ← isPair.1]
  refine ⟨rfl, ?_⟩
  obtain ⟨selected, before, after, isSplit, notBefore⟩ := find?_eq_some_iff_append.mp isFound
  refine ⟨before, after, isSplit, ?_⟩
  rw [isSplit, eraseP_append_right _ (by simpa using notBefore), eraseP_cons_of_pos selected]

end AcceptQueue

end NtfCore.Ntcq
