import NtfCore.Ntcr.StreamSocket.Receive

/-!
Contract: what the critical sections of the receiving half do, and what they account
for.

Owns: the outcomes of a readable event and of the operations that take bytes off the
receive queue; that the size is always that of the entries; and the exact condition
under which it is also that of the data, so that no assertion of the receiving half
fails.
-/

namespace NtfCore.Ntcr

open NtfCore.Foundation NtfCore.Ntcq NtfCore.Ntcs NtfCore.Ntcq.ReceiveQueue List ReceiveQueue

variable {Token : Type}

namespace Receiver

def appended (receiver : Receiver Token) (data : List UInt8) : Receiver Token :=
  { receiver with receiveQueue := { receiver.receiveQueue with
      data := receiver.receiveQueue.data ++ data } }

def queued (receiver : Receiver Token) (data : List UInt8) (hasHandle : Bool) : Receiver Token :=
  if 0 < data.length then
    { receiver with
      receiveQueue := { receiver.receiveQueue with
        data := receiver.receiveQueue.data ++ data
        entryList := receiver.receiveQueue.entryList ++
          [⟨data.length, if hasHandle then some receiver.nextHandle else none⟩]
        size := receiver.receiveQueue.size + data.length }
      nextHandle := if hasHandle then receiver.nextHandle + 1 else receiver.nextHandle }
  else receiver.appended data

theorem store_eq (recv : Receiver Token) (data : List UInt8) (hasHandle : Bool) :
    ∃ events, recv.store data hasHandle = some (recv.queued data hasHandle, events) := by
  unfold store queued
  by_cases pos : 0 < data.length
  · rw [if_pos pos, if_pos pos]
    unfold pushEntry
    rw [if_pos pos]
    exact ⟨_, rfl⟩
  · rw [if_neg pos, if_neg pos]
    exact ⟨_, rfl⟩

def erred (receiver : Receiver Token) (error : Error) : Receiver Token :=
  if error = .wouldBlock then receiver else receiver.privateFail

/-- What a readable event can do: nothing, fail, append data that it does not queue
since an error comes first, queue data and then have an error, or queue data and go on
to the callbacks. -/
inductive Reading (receiver : Receiver Token) : RawReply -> Intake -> Receiver Token -> Prop where
  | nothing (raw : RawReply) (intake : Intake) : Reading receiver raw intake receiver
  | failed (raw : RawReply) (intake : Intake) : Reading receiver raw intake receiver.privateFail
  | lost {received data : List UInt8} (hasHandle : Bool) {intake : Intake} {error : Error}
      {later : Option Error} (reads : receiver.canReceive = true)
      (below : receiver.receiveQueue.isHighWatermarkViolated = false) (nonempty : received ≠ [])
      (isFill : intake.fill received = (data, some error, later)) :
      Reading receiver (.received received hasHandle) intake ((receiver.appended data).erred error)
  | late {received data : List UInt8} (hasHandle : Bool) {intake : Intake} {error : Error}
      (reads : receiver.canReceive = true)
      (below : receiver.receiveQueue.isHighWatermarkViolated = false) (nonempty : received ≠ [])
      (isFill : intake.fill received = (data, none, some error)) :
      Reading receiver (.received received hasHandle) intake
        ((receiver.queued data hasHandle).erred error)
  | filled {received data : List UInt8} (hasHandle : Bool) {intake : Intake}
      (reads : receiver.canReceive = true)
      (below : receiver.receiveQueue.isHighWatermarkViolated = false) (nonempty : received ≠ [])
      (isFill : intake.fill received = (data, none, none)) :
      Reading receiver (.received received hasHandle) intake
        { receiver.queued data hasHandle with phase := .draining }

theorem processDequeued_error (error : Error) (next : Receiver Token) (events : List HandleEvent) :
    processDequeued (some (some error, next, events)) = some (next.erred error, events) := by
  unfold processDequeued erred
  dsimp only
  split
  · rfl
  · rfl

open Reading

variable {received : List UInt8} {intake : Intake}

section

variable (recv : Receiver Token)

theorem queueFilled_cases (hasHandle : Bool) (reads : recv.canReceive = true)
    (below : recv.receiveQueue.isHighWatermarkViolated = false) (ne : received ≠ []) :
    (∃ next events,
      processDequeued (recv.queueFilled hasHandle (intake.fill received)) = some (next, events)
    ∧ Reading recv (.received received hasHandle) intake next) ∨
    (processDequeued (recv.queueFilled hasHandle (intake.fill received)) = none ∧
      ∃ data, (recv.queued data hasHandle).receiveQueue.size ≠
        (recv.queued data hasHandle).receiveQueue.data.length) := by
  cases isFill : intake.fill received with
  | mk data errors =>
    cases errors with
    | mk early later =>
      cases early with
      | some error =>
        refine .inl ⟨_, _, processDequeued_error error (recv.appended data) [], ?_⟩
        exact lost hasHandle reads below ne isFill
      | none =>
        obtain ⟨events, isStored⟩ := recv.store_eq data hasHandle
        unfold queueFilled
        dsimp only
        rw [isStored]
        cases later with
        | some error =>
          refine .inl ⟨_, _, processDequeued_error error _ events, ?_⟩
          exact late hasHandle reads below ne isFill
        | none =>
          unfold processDequeued
          dsimp only
          split
          · exact .inl ⟨_, _, rfl, Reading.filled hasHandle reads below ne isFill⟩
          · rename_i differs
            exact .inr ⟨rfl, data, differs⟩

theorem processSocketReadable_cases (raw : RawReply) (intake : Intake) :
    (∃ next events, recv.processSocketReadable raw intake = some (next, events) ∧
      Reading recv raw intake next) ∨ (recv.processSocketReadable raw intake = none ∧
      ∃ hasHandle data, (recv.queued data hasHandle).receiveQueue.size ≠
        (recv.queued data hasHandle).receiveQueue.data.length) := by
  unfold processSocketReadable
  by_cases reads : recv.canReceive = true
  · rw [reads, if_neg (by decide)]
    cases below : recv.receiveQueue.isHighWatermarkViolated with
    | true => exact .inl ⟨recv, [], rfl, nothing raw intake⟩
    | false =>
      rw [if_neg (by decide)]
      unfold privateDequeueReceiveBuffer
      cases raw with
      | error =>
        rw [processDequeued_error]
        refine .inl ⟨_, [], rfl, ?_⟩
        unfold erred
        split
        · exact nothing _ intake
        · exact failed _ intake
      | received received hasHandle =>
        dsimp only
        by_cases isEmpty : received.isEmpty = true
        · rw [if_pos isEmpty]
          exact .inl ⟨recv.privateFail, [], rfl, failed _ intake⟩
        · have ne : received ≠ [] := fun isNil => isEmpty (isEmpty_iff.mpr isNil)
          rw [if_neg isEmpty]
          rcases recv.queueFilled_cases hasHandle reads below ne with
            does | ⟨isNone, data, differs⟩
          · exact .inl does
          · exact .inr ⟨isNone, hasHandle, data, differs⟩
  · rw [Bool.not_eq_true] at reads
    rw [reads, if_pos (by decide)]
    exact .inl ⟨recv, [], rfl, nothing raw intake⟩

theorem processSocketReadable_late {data : List UInt8}
    (hasHandle : Bool) {error : Error} (reads : recv.canReceive = true)
    (below : recv.receiveQueue.isHighWatermarkViolated = false) (ne : received ≠ [])
    (isFill : intake.fill received = (data, none, some error)) :
    ∃ events, recv.processSocketReadable (.received received hasHandle) intake =
      some ((recv.queued data hasHandle).erred error, events) := by
  obtain ⟨events, isStored⟩ := recv.store_eq data hasHandle
  unfold processSocketReadable privateDequeueReceiveBuffer
  rw [reads, below, if_neg (by decide), if_neg (by decide)]
  dsimp only
  rw [if_neg (by simpa using ne), isFill]
  unfold queueFilled
  dsimp only
  rw [isStored]
  exact ⟨events, processDequeued_error error _ events⟩

end

structure Delivers (options : ReceiveOptions Token) (queue next : ReceiveQueue Token) : Prop where
  holds : Holds next.entryList next
  nonempty : queue.entryList ≠ []
  size : next.size = queue.size - min options.maxSize queue.size
  watermarkLow : next.watermarkLow = queue.watermarkLow
  watermarkHigh : next.watermarkHigh = queue.watermarkHigh
  isEdge : next.isEdge = queue.isEdge
  callbackQueue : next.callbackQueue = queue.callbackQueue
  wanted : queue.watermarkHighWanted = true -> next.watermarkHighWanted = true
  rearmed : queue.isEdge = true -> next.size < queue.watermarkLow -> next.watermarkHighWanted = true
  measured : next.size = next.data.length

variable {queue : ReceiveQueue Token} {options : ReceiveOptions Token}

/-- A receive operation succeeds, unless the size is found not to be that of the data. -/
theorem dequeue_cases
    (holds : Holds queue.entryList queue) (enough : options.minSize ≤ queue.size) :
    (∃ next delivered dequeued, queue.dequeue options = some (next, delivered, dequeued) ∧
      Delivers options queue next) ∨ queue.size ≠ queue.data.length := by
  by_cases isData : queue.size = queue.data.length
  · left
    have accounted : Accounted queue := ⟨holds.size, isData, holds.positive⟩
    obtain ⟨next, delivered, dequeued, isNext, ends, numBytes, size, low, high, edge, callbacks,
      wanted, rearmed⟩ := accounted.dequeue_spec enough
    refine ⟨next, delivered, dequeued, isNext, ⟨⟨ends.entries, ends.positive⟩, ?_, ?_, low, high,
      edge, callbacks, wanted, rearmed, ends.data⟩⟩
    · exact accounted.entries_ne_nil (Nat.lt_of_lt_of_le options.positive enough)
    · rw [size, numBytes]
  · exact .inr isData

theorem dequeue_of_ne
    (differs : queue.size ≠ queue.data.length) : queue.dequeue options = none := by
  unfold dequeue
  rw [if_neg (fun both => differs both.2)]

def Settled (queue : ReceiveQueue Token) : Prop :=
  ∀ front ∈ queue.callbackQueue.head?, queue.entryList ≠ [] -> queue.size < front.options.minSize

/-- The receiver behind a `receive` that invokes its callback. -/
def invoking (receiver : Receiver Token) (options : ReceiveOptions Token)
    (next : ReceiveQueue Token) : Receiver Token :=
  if options.recurse then
    { receiver with
      receiveQueue := next
      inFlight := receiver.inFlight ++ [receiver.receiveQueue.isHighWatermarkViolated] }
  else
    ({ receiver with receiveQueue := next }).finishReceive
      receiver.receiveQueue.isHighWatermarkViolated

def waiting (receiver : Receiver Token) (options : ReceiveOptions Token) : Receiver Token :=
  { receiver with
    nextCallback := receiver.nextCallback + 1
    receiveQueue := { receiver.receiveQueue with
      callbackQueue := receiver.receiveQueue.callbackQueue ++ [⟨receiver.nextCallback, options⟩] } }

inductive Does [DecidableEq Token] (receiver : Receiver Token) :
    Action Token -> Receiver Token -> Prop where
  | readable {raw : RawReply} {intake : Intake} {next : Receiver Token}
      (reading : Reading receiver raw intake next) : Does receiver (.readable raw intake) next
  | satisfied {callbackEntry : ReceiveCallbackQueueEntry Token}
      {rest : List (ReceiveCallbackQueueEntry Token)} {next : ReceiveQueue Token}
      (isFront : receiver.receiveQueue.callbackQueue = callbackEntry :: rest)
      (enough : callbackEntry.options.minSize ≤ receiver.receiveQueue.size)
      (delivers : Delivers callbackEntry.options
        { receiver.receiveQueue with callbackQueue := rest } next) :
      Does receiver .satisfyCallback { receiver with receiveQueue := next }
  | drained (lowWanted : Bool) (settled : Settled receiver.receiveQueue) :
      Does receiver .satisfyCallback
        { receiver with
          receiveQueue := { receiver.receiveQueue with watermarkLowWanted := lowWanted }
          phase := .announcing }
  | announced : Does receiver .announceHighWatermark receiver.announceHighWatermark
  | refused (options : ReceiveOptions Token) : Does receiver (.receive options) receiver
  | received {options : ReceiveOptions Token} {next : ReceiveQueue Token}
      (enough : options.minSize ≤ receiver.receiveQueue.size)
      (delivers : Delivers options receiver.receiveQueue next) :
      Does receiver (.receive options) (({ receiver with receiveQueue := next }).finishReceive
        receiver.receiveQueue.isHighWatermarkViolated)
  | blocked {options : ReceiveOptions Token}
      (few : receiver.receiveQueue.size < options.minSize) :
      Does receiver (.receive options) receiver.relax
  | refusedAsync (options : ReceiveOptions Token) : Does receiver (.receiveAsync options) receiver
  | receivedAsync {options : ReceiveOptions Token} {next : ReceiveQueue Token}
      (noCallbacks : receiver.receiveQueue.callbackQueue = [])
      (enough : options.minSize ≤ receiver.receiveQueue.size)
      (delivers : Delivers options receiver.receiveQueue next) :
      Does receiver (.receiveAsync options) (receiver.invoking options next)
  | waits {options : ReceiveOptions Token}
      (few : receiver.receiveQueue.callbackQueue = [] ->
        receiver.receiveQueue.size < options.minSize) :
      Does receiver (.receiveAsync options) (receiver.waiting options).relax
  | resumed (index : Nat) : Does receiver (.resumeReceive index) (receiver.resumeReceive index)
  | expired (callback : Nat) :
      Does receiver (.receiveDeadline callback) (receiver.processReceiveDeadlineTimer callback)
  | cancelled (token : Token) : Does receiver (.cancel token) (receiver.cancel token)
  | setLow (lowWatermark : Nat) : Does receiver (.setReadQueueLowWatermark lowWatermark)
      (receiver.setReadQueueLowWatermark lowWatermark)
  | setHigh (highWatermark : Nat) : Does receiver (.setReadQueueHighWatermark highWatermark)
      (receiver.setReadQueueHighWatermark highWatermark)
  | setBoth (lowWatermark highWatermark : Nat) :
      Does receiver (.setReadQueueWatermarks lowWatermark highWatermark)
        (receiver.setReadQueueWatermarks lowWatermark highWatermark)
  | relaxed : Does receiver .relaxFlowControl receiver.relaxFlowControl
  | shutDown (completed : Bool) :
      Does receiver (.shutdownReceive completed) (receiver.privateShutdownReceive completed)
  | completed (closes : Bool) : Does receiver (.shutdownSequenceComplete closes)
      (receiver.privateShutdownSequenceComplete closes)

/-- The callback that is taken off its queue, if one can be satisfied. -/
theorem popCallbackEntry_cases (queue : ReceiveQueue Token) :
    (∃ callbackEntry rest, queue.callbackQueue = callbackEntry :: rest ∧
      callbackEntry.options.minSize ≤ queue.size ∧
      queue.popCallbackEntry = some (callbackEntry, { queue with callbackQueue := rest })) ∨
    (queue.popCallbackEntry = none ∧ Settled queue) := by
  unfold popCallbackEntry Settled
  cases isEntries : queue.entryList with
  | nil =>
    right
    refine ⟨rfl, fun front isFront _ => ?_⟩
    contradiction
  | cons =>
    cases isCallbacks : queue.callbackQueue with
    | nil =>
      right
      exact ⟨rfl, nofun⟩
    | cons callbackEntry rest =>
      dsimp only
      split
      · rename_i enough
        exact .inl ⟨callbackEntry, rest, rfl, enough, rfl⟩
      · rename_i enough
        refine .inr ⟨rfl, fun _ isFront _ => ?_⟩
        cases isFront
        exact Nat.lt_of_not_le enough

theorem authorizeLow_cases (queue : ReceiveQueue Token) : ∃ lowWanted,
    queue.authorizeLowWatermarkEvent.2 = { queue with watermarkLowWanted := lowWanted } := by
  unfold authorizeLowWatermarkEvent
  split
  · split
    · split
      · exact ⟨false, rfl⟩
      · exact ⟨queue.watermarkLowWanted, rfl⟩
    · exact ⟨queue.watermarkLowWanted, rfl⟩
  · exact ⟨queue.watermarkLowWanted, rfl⟩

variable {recv : Receiver Token}

theorem queued_measured (isData : recv.receiveQueue.size = recv.receiveQueue.data.length)
    (data : List UInt8) (hasHandle : Bool) : (recv.queued data hasHandle).receiveQueue.size =
      (recv.queued data hasHandle).receiveQueue.data.length := by
  unfold queued appended
  split
  · dsimp only
    rw [length_append, isData]
  · rename_i noData
    have isNil : data = [] := eq_nil_of_length_eq_zero (by omega)
    rw [isNil, append_nil]
    exact isData

section

variable [DecidableEq Token]

theorem satisfyCallback_cases (holds : Holds recv.receiveQueue.entryList recv.receiveQueue) :
    (∃ next events, recv.satisfyCallback = some (next, events) ∧ Does recv .satisfyCallback next) ∨
    (recv.satisfyCallback = none ∧ recv.receiveQueue.size ≠ recv.receiveQueue.data.length) := by
  unfold satisfyCallback
  rcases popCallbackEntry_cases recv.receiveQueue with
    ⟨callbackEntry, rest, isFront, enough, isPopped⟩ | ⟨isNone, settled⟩
  · rw [isPopped]
    dsimp only
    rcases @dequeue_cases _ { recv.receiveQueue with callbackQueue := rest }
        callbackEntry.options ⟨holds.size, holds.positive⟩ enough with
      ⟨next, delivered, dequeued, isNext, delivers⟩ | differs
    · rw [isNext]
      exact .inl ⟨_, _, rfl, .satisfied isFront enough delivers⟩
    · rw [dequeue_of_ne differs]
      exact .inr ⟨rfl, differs⟩
  · rw [isNone]
    obtain ⟨lowWanted, isQueue⟩ := authorizeLow_cases recv.receiveQueue
    rw [isQueue]
    exact .inl ⟨_, _, rfl, .drained lowWanted settled⟩

section

variable (options : ReceiveOptions Token)
  (holds : Holds recv.receiveQueue.entryList recv.receiveQueue)
include holds

theorem receive_cases : (∃ error next events, recv.receive options = some (error, next, events) ∧
      Does recv (.receive options) next) ∨
    (recv.receive options = none ∧ recv.receiveQueue.size ≠ recv.receiveQueue.data.length) := by
  unfold receive
  split
  · exact .inl ⟨_, _, _, rfl, .refused options⟩
  · split
    · exact .inl ⟨_, _, _, rfl, .refused options⟩
    · split
      · rename_i enough
        rcases dequeue_cases holds enough with
          ⟨_, _, _, isNext, delivers⟩ | differs
        · rw [isNext]
          exact .inl ⟨_, _, _, rfl, .received enough delivers⟩
        · rw [dequeue_of_ne differs]
          exact .inr ⟨rfl, differs⟩
      · rename_i enough
        exact .inl ⟨_, _, _, rfl, .blocked (Nat.lt_of_not_le enough)⟩

theorem receiveAsync_cases :
    (∃ error next events, recv.receiveAsync options = some (error, next, events) ∧
      Does recv (.receiveAsync options) next) ∨ (recv.receiveAsync options = none ∧
      recv.receiveQueue.size ≠ recv.receiveQueue.data.length) := by
  unfold receiveAsync
  split
  · exact .inl ⟨_, _, _, rfl, .refusedAsync options⟩
  · split
    · exact .inl ⟨_, _, _, rfl, .refusedAsync options⟩
    · split
      · rename_i enough
        rcases dequeue_cases holds enough.2 with
          ⟨_, _, _, isNext, delivers⟩ | differs
        · rw [isNext]
          exact .inl ⟨_, _, _, rfl, .receivedAsync (isEmpty_iff.mp enough.1) enough.2 delivers⟩
        · rw [dequeue_of_ne differs]
          exact .inr ⟨rfl, differs⟩
      · rename_i enough
        refine .inl ⟨_, _, _, rfl, .waits fun isEmpty => ?_⟩
        rw [not_and] at enough
        exact Nat.lt_of_not_le (enough (isEmpty_iff.mpr isEmpty))

end

/-- Every critical section does one of these, or finds a size that is not that of the
data. -/
theorem perform_cases (recv : Receiver Token) (action : Action Token)
    (holds : Holds recv.receiveQueue.entryList recv.receiveQueue) :
    (∃ next events, recv.perform action = some (next, events) ∧ Does recv action next) ∨
      (recv.perform action = none ∧ recv.receiveQueue.size ≠ recv.receiveQueue.data.length) := by
  cases action with
  | readable raw intake =>
    rcases recv.processSocketReadable_cases raw intake with
      ⟨next, events, isNext, reading⟩ | ⟨isNone, hasHandle, data, differs⟩
    · exact .inl ⟨next, events, isNext, .readable reading⟩
    · exact .inr ⟨isNone, fun isData => differs (queued_measured isData data hasHandle)⟩
  | satisfyCallback => exact satisfyCallback_cases holds
  | announceHighWatermark => exact .inl ⟨_, _, rfl, Does.announced⟩
  | receive options =>
    unfold perform
    dsimp only
    rcases receive_cases options holds with ⟨error, next, events, isNext, does⟩ | ⟨isNone, differs⟩
    · rw [isNext]
      exact .inl ⟨next, events, rfl, does⟩
    · rw [isNone]
      exact .inr ⟨rfl, differs⟩
  | receiveAsync options =>
    unfold perform
    dsimp only
    rcases receiveAsync_cases options holds with
      ⟨_, next, events, isNext, does⟩ | ⟨isNone, differs⟩
    · rw [isNext]
      exact .inl ⟨next, events, rfl, does⟩
    · rw [isNone]
      exact .inr ⟨rfl, differs⟩
  | resumeReceive index => exact .inl ⟨_, _, rfl, .resumed index⟩
  | receiveDeadline callback => exact .inl ⟨_, _, rfl, .expired callback⟩
  | cancel token => exact .inl ⟨_, _, rfl, .cancelled token⟩
  | setReadQueueLowWatermark low => exact .inl ⟨_, _, rfl, .setLow low⟩
  | setReadQueueHighWatermark high => exact .inl ⟨_, _, rfl, .setHigh high⟩
  | setReadQueueWatermarks low high =>
    exact .inl ⟨_, _, rfl, .setBoth low high⟩
  | relaxFlowControl => exact .inl ⟨_, _, rfl, Does.relaxed⟩
  | shutdownReceive completed => exact .inl ⟨_, _, rfl, .shutDown completed⟩
  | shutdownSequenceComplete closes => exact .inl ⟨_, _, rfl, .completed closes⟩

end

section

variable (recv : Receiver Token)

theorem erred_receiveQueue (error : Error) :
    (recv.erred error).receiveQueue = recv.receiveQueue := by
  unfold erred
  split
  · rfl
  · rfl

theorem finishReceive_receiveQueue (violatedBefore : Bool) :
    (recv.finishReceive violatedBefore).receiveQueue = recv.receiveQueue := by
  unfold finishReceive
  split
  · rfl
  · rfl

theorem invoking_receiveQueue (options : ReceiveOptions Token) (next : ReceiveQueue Token) :
    (recv.invoking options next).receiveQueue = next := by
  unfold invoking
  split
  · rfl
  · rw [finishReceive_receiveQueue]

theorem resumeReceive_receiveQueue (index : Nat) :
    (recv.resumeReceive index).receiveQueue = recv.receiveQueue := by
  unfold resumeReceive
  split
  · rfl
  · rw [finishReceive_receiveQueue]

theorem announceHighWatermark_receiveQueue : ∃ highWanted, recv.announceHighWatermark.receiveQueue =
      { recv.receiveQueue with watermarkHighWanted := highWanted } := by
  unfold announceHighWatermark authorizeHighWatermarkEvent
  split
  rename_i queue isAuthorized
  have isQueue : ∃ highWanted,
      queue = { recv.receiveQueue with watermarkHighWanted := highWanted } := by
    split at isAuthorized
    · split at isAuthorized
      · split at isAuthorized
        · exact ⟨false, (congrArg Prod.snd isAuthorized).symm⟩
        · exact ⟨_, (congrArg Prod.snd isAuthorized).symm⟩
      · exact ⟨_, (congrArg Prod.snd isAuthorized).symm⟩
    · exact ⟨_, (congrArg Prod.snd isAuthorized).symm⟩
  split
  · exact isQueue
  · exact isQueue

end

structure SameContent (queue next : ReceiveQueue Token) : Prop where
  entryList : next.entryList = queue.entryList
  data : next.data = queue.data
  size : next.size = queue.size
  callbackQueue : next.callbackQueue = queue.callbackQueue

section

variable (recv : Receiver Token)

theorem setReadQueueLowWatermark_content (low : Nat) : SameContent recv.receiveQueue
      (recv.setReadQueueLowWatermark low).receiveQueue := by
  unfold setReadQueueLowWatermark
  dsimp only
  split
  · exact ⟨rfl, rfl, rfl, rfl⟩
  · exact ⟨rfl, rfl, rfl, rfl⟩

theorem setReadQueueHighWatermark_content (high : Nat) : SameContent recv.receiveQueue
      (recv.setReadQueueHighWatermark high).receiveQueue := by
  unfold setReadQueueHighWatermark
  dsimp only
  split
  · exact ⟨rfl, rfl, rfl, rfl⟩
  · exact ⟨rfl, rfl, rfl, rfl⟩

theorem setReadQueueWatermarks_content (low high : Nat) : SameContent recv.receiveQueue
      (recv.setReadQueueWatermarks low high).receiveQueue := by
  unfold setReadQueueWatermarks
  dsimp only
  split
  · split
    · exact ⟨rfl, rfl, rfl, rfl⟩
    · exact ⟨rfl, rfl, rfl, rfl⟩
  · split
    · exact ⟨rfl, rfl, rfl, rfl⟩
    · exact ⟨rfl, rfl, rfl, rfl⟩

end

theorem SameContent.holds {next : ReceiveQueue Token} (same : SameContent queue next)
    (holds : Holds queue.entryList queue) : Holds next.entryList next := by
  refine ⟨?_, ?_⟩
  · rw [same.size, same.entryList]
    exact holds.size
  · rw [same.entryList]
    exact holds.positive

theorem queued_holds (holds : Holds recv.receiveQueue.entryList recv.receiveQueue)
    (data : List UInt8)
    (hasHandle : Bool) : Holds (recv.queued data hasHandle).receiveQueue.entryList
      (recv.queued data hasHandle).receiveQueue := by
  unfold queued
  split
  · rename_i pos
    refine ⟨?_, ?_⟩
    · dsimp only
      rw [map_append, sum_append, ← holds.size, map_singleton, sum_singleton]
    · intro entry mem
      rcases mem_append.mp mem with isOld | isNew
      · exact holds.positive entry isOld
      · rw [mem_singleton.mp isNew]
        exact pos
  · exact ⟨holds.size, holds.positive⟩

variable {recv next : Receiver Token}

theorem Reading.holds {raw : RawReply} (reading : Reading recv raw intake next)
    (holds : Holds recv.receiveQueue.entryList recv.receiveQueue) :
    Holds next.receiveQueue.entryList next.receiveQueue := by
  cases reading with
  | nothing | failed => exact holds
  | lost =>
    rw [erred_receiveQueue]
    exact ⟨holds.size, holds.positive⟩
  | @late _ data hasHandle =>
    rw [erred_receiveQueue]
    exact queued_holds holds data hasHandle
  | @filled _ data hasHandle => exact queued_holds holds data hasHandle

variable {action : Action Token}

theorem Does.holds [DecidableEq Token] (does : Does recv action next)
    (holds : Holds recv.receiveQueue.entryList recv.receiveQueue) :
    Holds next.receiveQueue.entryList next.receiveQueue := by
  cases does with
  | readable reading => exact reading.holds holds
  | satisfied _ _ delivers => exact delivers.holds
  | drained => exact ⟨holds.size, holds.positive⟩
  | announced =>
    obtain ⟨_, isQueue⟩ := recv.announceHighWatermark_receiveQueue
    rw [isQueue]
    exact ⟨holds.size, holds.positive⟩
  | refused => exact holds
  | received _ delivers =>
    rw [finishReceive_receiveQueue]
    exact delivers.holds
  | blocked | refusedAsync => exact holds
  | receivedAsync _ _ delivers =>
    rw [invoking_receiveQueue]
    exact delivers.holds
  | waits => exact ⟨holds.size, holds.positive⟩
  | resumed =>
    rw [resumeReceive_receiveQueue]
    exact holds
  | expired | cancelled => exact ⟨holds.size, holds.positive⟩
  | setLow low => exact (setReadQueueLowWatermark_content recv low).holds holds
  | setHigh high =>
    exact (setReadQueueHighWatermark_content recv high).holds holds
  | setBoth low high =>
    exact (setReadQueueWatermarks_content recv low high).holds holds
  | relaxed | shutDown => exact holds
  | completed => exact ⟨holds.size, holds.positive⟩

def Clean (receiver : Receiver Token) : Action Token -> Prop
  | .readable (.received received _) intake =>
    receiver.canReceive = true -> receiver.receiveQueue.isHighWatermarkViolated = false ->
      received ≠ [] -> (intake.fill received).2.1.isSome = true -> (intake.fill received).1 = []
  | _ => True

theorem Does.measured [DecidableEq Token] (does : Does recv action next) (clean : recv.Clean action)
    (isData : recv.receiveQueue.size = recv.receiveQueue.data.length) :
    next.receiveQueue.size = next.receiveQueue.data.length := by
  cases does with
  | readable reading =>
    cases reading with
    | nothing | failed => exact isData
    | @lost received data _ _ _ _ reads below ne isFill =>
      have noData : data = [] := by
        have early := clean reads below ne
        rw [isFill] at early
        exact early rfl
      rw [erred_receiveQueue, noData]
      unfold appended
      rw [append_nil]
      exact isData
    | @late _ data hasHandle =>
      rw [erred_receiveQueue]
      exact queued_measured isData data hasHandle
    | @filled _ data hasHandle => exact queued_measured isData data hasHandle
  | satisfied _ _ delivers => exact delivers.measured
  | drained => exact isData
  | announced =>
    obtain ⟨_, isQueue⟩ := recv.announceHighWatermark_receiveQueue
    rw [isQueue]
    exact isData
  | refused => exact isData
  | received _ delivers =>
    rw [finishReceive_receiveQueue]
    exact delivers.measured
  | blocked | refusedAsync => exact isData
  | receivedAsync _ _ delivers =>
    rw [invoking_receiveQueue]
    exact delivers.measured
  | waits => exact isData
  | resumed =>
    rw [resumeReceive_receiveQueue]
    exact isData
  | expired | cancelled => exact isData
  | setLow low =>
    have same := setReadQueueLowWatermark_content recv low
    rw [same.size, same.data]
    exact isData
  | setHigh high =>
    have same := setReadQueueHighWatermark_content recv high
    rw [same.size, same.data]
    exact isData
  | setBoth low high =>
    have same := setReadQueueWatermarks_content recv low high
    rw [same.size, same.data]
    exact isData
  | relaxed | shutDown | completed => exact isData

end Receiver

namespace ReceiveHalf

open Receiver

def start (lowWatermark highWatermark : Nat) (isEdge : Bool) : ReceiveHalf Token :=
  let queue : ReceiveQueue Token := { isEdge := isEdge }
  { receiver := { receiveQueue :=
      (queue.setLowWatermark lowWatermark).setHighWatermark highWatermark } }

/-- What a section leaves: the receiver behind it, or a failed assertion. -/
theorem step_cases [DecidableEq Token] {half next : ReceiveHalf Token} {action : Action Token}
    (holds : Holds half.receiver.receiveQueue.entryList half.receiver.receiveQueue)
    (taken : half.step action = some next) :
    half.failed = false ∧ half.receiver.enabled action = true ∧
      ((Does half.receiver action next.receiver ∧ next.failed = false ∧
          next.completed = (action.isReadable && next.receiver.phase == .idle)) ∨
        (next = { half with failed := true } ∧
          half.receiver.receiveQueue.size ≠ half.receiver.receiveQueue.data.length)) := by
  unfold step at taken
  split at taken
  · contradiction
  · rename_i goesOn
    rw [not_or, Bool.not_eq_true, Bool.not_eq_false] at goesOn
    refine ⟨goesOn.1, goesOn.2, ?_⟩
    rcases half.receiver.perform_cases action holds with
      ⟨_, _, isPerformed, does⟩ | ⟨isNone, differs⟩
    · rw [isPerformed] at taken
      cases taken
      exact .inl ⟨does, goesOn.1, rfl⟩
    · rw [isNone] at taken
      exact .inr ⟨(Option.some.inj taken).symm, differs⟩

structure Accounts (half : ReceiveHalf Token) : Prop extends
    Accounted half.receiver.receiveQueue where
  sound : half.failed = false

def Clean (half : ReceiveHalf Token) (action : Receiver.Action Token) : Prop :=
  half.receiver.Clean action

theorem start_holds (low high : Nat) (isEdge : Bool) : Holds
    (start low high isEdge : ReceiveHalf Token).receiver.receiveQueue.entryList
      (start low high isEdge : ReceiveHalf Token).receiver.receiveQueue :=
  ⟨rfl, nofun⟩

section

variable [DecidableEq Token] (half : ReceiveHalf Token) (action : Receiver.Action Token)
  (next : ReceiveHalf Token) (accounts : Accounts half)
include accounts

theorem step_accounts
    (clean : half.Clean action) (taken : half.step action = some next) : Accounts next := by
  have holds : Holds half.receiver.receiveQueue.entryList half.receiver.receiveQueue :=
    ⟨accounts.entries, accounts.positive⟩
  obtain ⟨_, _, ⟨does, sound, _⟩ | ⟨_, differs⟩⟩ := step_cases holds taken
  · have nextHolds := does.holds holds
    exact ⟨⟨nextHolds.size, does.measured clean accounts.data, nextHolds.positive⟩, sound⟩
  · exact absurd accounts.data differs

/-- Data that are appended and not accounted for are found. -/
theorem step_detects
    (taken : half.step action = some next) (after : Accounts next) : half.Clean action := by
  unfold Clean Receiver.Clean
  split
  · rename_i received hasHandle intake
    intro reads below ne fails
    have goesOn : ¬ (half.failed = true ∨
        half.receiver.enabled (.readable (.received received hasHandle) intake) = false) := by
      intro refused
      unfold step at taken
      rw [if_pos refused] at taken
      contradiction
    cases isFill : intake.fill received with
    | mk data errors =>
      cases errors with
      | mk early =>
        rw [isFill] at fails
        cases early with
        | none => contradiction
        | some error =>
          have isPerformed : half.receiver.perform (.readable (.received received hasHandle)
              intake) = some ((half.receiver.appended data).erred error, []) := by
            change half.receiver.processSocketReadable _ _ = _
            unfold processSocketReadable privateDequeueReceiveBuffer
            rw [reads, below, if_neg (by decide), if_neg (by decide)]
            dsimp only
            rw [if_neg (by simpa using ne), isFill]
            exact processDequeued_error error (half.receiver.appended data) []
          unfold step at taken
          rw [if_neg goesOn, isPerformed] at taken
          have isData := after.data
          rw [← Option.some.inj taken] at isData
          rw [erred_receiveQueue] at isData
          unfold appended at isData
          rw [length_append, accounts.data] at isData
          have noData : data = [] := eq_nil_of_length_eq_zero (by omega)
          exact noData
  · trivial

end

/-- In every run the receive queue is accounted for in all states, with no assertion
failing, exactly when no readable event appends data in a call that fails before they
are accounted for. -/
theorem accounts_iff [DecidableEq Token] (lowWatermark highWatermark : Nat) (isEdge : Bool)
    (actions : List (Receiver.Action Token)) :
    Run.Always step Accounts (start lowWatermark highWatermark isEdge) actions ↔
      Run.Along step Clean (start lowWatermark highWatermark isEdge) actions :=
  Run.always_iff_along (fun _ accounts => accounts) step_accounts step_detects
    ⟨⟨rfl, rfl, nofun⟩, rfl⟩

/-- Ten bytes are received and inflated; of ten more the inflater appends five and then
fails; and the ten that were queued are asked for. -/
def failingInflater : List (Receiver.Action Nat) :=
  let data := List.replicate 10 7
  [.readable (.received data false) (.inflating { data := data }),
    .satisfyCallback, .announceHighWatermark,
    .readable (.received data false)
      (.inflating { data := List.replicate 5 7, error := some .failed }),
    .receive {}]

/-- The data of the queue are then longer than its size, and the assertion in `receive`
fails. -/
theorem failingInflater_unaccounted :
    ¬ Run.Always step Accounts (start 1 100 false) failingInflater ∧
      ∃ final, Run.run step (start 1 100 false) failingInflater = some final ∧
        final.failed = true := by
  constructor
  · intro always
    obtain ⟨_, _, _, _, accounts, _⟩ := always
    have isData := accounts.data
    contradiction
  · exact ⟨_, rfl, rfl⟩

end ReceiveHalf

end NtfCore.Ntcr
