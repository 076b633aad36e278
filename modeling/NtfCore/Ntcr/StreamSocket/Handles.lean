import NtfCore.Ntcr.StreamSocket.Passing
import NtfCore.Ntcr.StreamSocket.Reading

/-!
Contract: foreign handles are transferred once, in both directions of a stream socket.

Owns: the handles stored in the receive queue, delivered and closed; what the loop of a
receive operation does to them; and the condition under which no handle is delivered
twice, closed twice, or both. With the handles sent it makes up the transfer of handles.
-/

namespace NtfCore.Ntcr

open NtfCore.Foundation NtfCore.Ntcq NtfCore.Ntcq.ReceiveQueue List Option ReceiveQueue
open ReceiveHalf

variable {Token : Type}

def holdings (entries : List ReceiveQueueEntry) : List Nat :=
  entries.filterMap ReceiveQueueEntry.foreignHandle

theorem holdings_cons (entry : ReceiveQueueEntry) (rest : List ReceiveQueueEntry) :
    holdings (entry :: rest) = entry.foreignHandle.toList ++ holdings rest := by
  cases isHandle : entry.foreignHandle with
  | none | some _ => simp [holdings, isHandle]

def dividesHandle : List ReceiveQueueEntry -> Nat -> Bool
  | [], _ => false
  | entry :: rest, numBytes =>
    if numBytes < entry.length then entry.foreignHandle.isSome
    else if numBytes = entry.length then false
    else dividesHandle rest (numBytes - entry.length)

def takes (dequeued : Dequeued) (handle : Nat) : Nat :=
  dequeued.closed.count handle + dequeued.foreignHandle.toList.count handle

theorem takes_takeHandle (dequeued : Dequeued) (entry : ReceiveQueueEntry) (numBytes handle : Nat) :
    takes { dequeued.takeHandle entry with numBytes := numBytes } handle =
      takes dequeued handle + entry.foreignHandle.toList.count handle := by
  unfold takes Dequeued.takeHandle
  cases entry.foreignHandle with
  | none => rfl
  | some =>
    dsimp only
    cases isTaken : dequeued.foreignHandle with
    | none => rfl
    | some =>
      rw [if_pos isSome_some]
      rw [count_append]
      exact Nat.add_right_comm _ _ _

theorem rearm_entryList (queue : ReceiveQueue Token) :
    (rearm queue).entryList = queue.entryList := by
  obtain ⟨_, _, isRearmed, _⟩ := rearm_cases queue
  rw [isRearmed]

variable {queue popped : ReceiveQueue Token}

variable {rest : List ReceiveQueueEntry} {entry : ReceiveQueueEntry}

theorem popEntry_entryList (isPopped : queue.popEntry entry rest = some popped) :
    popped.entryList = rest := by
  unfold popEntry at isPopped
  split at isPopped
  · rw [← some.inj isPopped, rearm_entryList]
  · contradiction

theorem popSize_entryList {numBytes : Nat}
    (isPopped : queue.popSize entry rest numBytes = some popped) :
    popped.entryList = { entry with length := entry.length - numBytes } :: rest := by
  unfold popSize at isPopped
  split at isPopped
  · rw [← some.inj isPopped, rearm_entryList]
  · contradiction

/-- The loop moves handles out of the entries, when it does not end inside an entry that
has one. -/
theorem dequeueLoop_handles {entries : List ReceiveQueueEntry} {left : Nat}
    {dequeued taken : Dequeued} (isEntries : queue.entryList = entries)
    (undivided : dividesHandle entries left = false)
    (isLoop : dequeueLoop entries queue left dequeued = some (popped, taken))
    (handle : Nat) : (holdings popped.entryList).count handle + takes taken handle =
      (holdings entries).count handle + takes dequeued handle := by
  induction entries generalizing queue left dequeued with
  | nil =>
    cases isLoop
    rw [isEntries]
  | cons entry rest ih =>
    rw [dequeueLoop] at isLoop
    rw [holdings_cons, count_append]
    by_cases whole : min left entry.length = entry.length
    · rw [if_pos whole] at isLoop
      cases isPopped : queue.popEntry entry rest with
      | none =>
        rw [isPopped] at isLoop
        contradiction
      | some next =>
        rw [isPopped] at isLoop
        dsimp only at isLoop
        split at isLoop
        · cases isLoop
          rw [takes_takeHandle, popEntry_entryList isPopped]
          omega
        · rename_i stops
          rw [not_or, whole] at stops
          rw [dividesHandle, if_neg (by omega), if_neg (by omega)] at undivided
          rw [whole] at isLoop
          rw [ih (popEntry_entryList isPopped) undivided isLoop, takes_takeHandle]
          omega
    · have isInside : left < entry.length := by omega
      rw [if_neg whole] at isLoop
      rw [dividesHandle, if_pos isInside, isSome_eq_false_iff, isNone_iff_eq_none] at undivided
      cases isPopped : queue.popSize entry rest (min left entry.length) with
      | none =>
        rw [isPopped] at isLoop
        contradiction
      | some =>
        rw [isPopped] at isLoop
        cases isLoop
        rw [takes_takeHandle, popSize_entryList isPopped, holdings_cons, count_append]
        rw [undivided, toList_none, count_nil]
        omega

theorem dequeue_handles {queue next : ReceiveQueue Token} {options : ReceiveOptions Token}
    {delivered : List UInt8} {dequeued : Dequeued}
    (undivided : dividesHandle queue.entryList options.maxSize = false)
    (isDequeued : queue.dequeue options = some (next, delivered, dequeued)) (handle : Nat) :
    (holdings next.entryList).count handle + takes dequeued handle =
      (holdings queue.entryList).count handle := by
  unfold dequeue at isDequeued
  split at isDequeued
  · cases isLoop : dequeueLoop queue.entryList queue options.maxSize {} with
    | none =>
      rw [isLoop] at isDequeued
      contradiction
    | some =>
      rw [isLoop] at isDequeued
      dsimp only at isDequeued
      have moved := dequeueLoop_handles rfl undivided isLoop handle
      split at isDequeued
      · cases isDequeued
        exact moved
      · contradiction
  · contradiction

def givenAway (events : List HandleEvent) (handle : Nat) : Nat :=
  events.count (.delivered handle) + events.count (.closed handle)

theorem givenAway_append (left right : List HandleEvent) (handle : Nat) :
    givenAway (left ++ right) handle = givenAway left handle + givenAway right handle := by
  unfold givenAway
  rw [count_append, count_append]
  omega

theorem givenAway_handleEvents (dequeued : Dequeued) (handle : Nat) :
    givenAway (handleEvents dequeued) handle = takes dequeued handle := by
  have closedOf : ∀ handles : List Nat,
      givenAway (handles.map HandleEvent.closed) handle = handles.count handle := by
    intro handles
    induction handles with
    | nil => rfl
    | cons first _ ih =>
      unfold givenAway at ih ⊢
      rw [map_cons, count_cons, count_cons, count_cons, ← ih]
      simp
      omega
  have deliveredOf : givenAway (dequeued.foreignHandle.toList.map HandleEvent.delivered) handle =
      dequeued.foreignHandle.toList.count handle := by
    cases dequeued.foreignHandle with
    | none => rfl
    | some => simp [givenAway, count_singleton]
  unfold handleEvents takes
  rw [givenAway_append, closedOf, deliveredOf]

namespace Receiver

structure Hands (receiver next : Receiver Token) (events : List HandleEvent) : Prop where
  balance : ∀ handle, (holdings next.receiveQueue.entryList).count handle +
      givenAway events handle =
    (holdings receiver.receiveQueue.entryList).count handle +
      if receiver.nextHandle ≤ handle ∧ handle < next.nextHandle then 1 else 0
  counter : receiver.nextHandle ≤ next.nextHandle

variable {recv next : Receiver Token}

theorem Hands.idle
    (isHoldings : holdings next.receiveQueue.entryList = holdings recv.receiveQueue.entryList)
    (isCounter : next.nextHandle = recv.nextHandle) : Hands recv next [] where
  balance := by
    intro _
    rw [isHoldings, isCounter, if_neg (by omega)]
    rfl
  counter := Nat.le_of_eq isCounter.symm

theorem Hands.dequeued {dequeued : Dequeued}
    (moved : ∀ handle, (holdings next.receiveQueue.entryList).count handle +
      takes dequeued handle = (holdings recv.receiveQueue.entryList).count handle)
    (isCounter : next.nextHandle = recv.nextHandle) : Hands recv next (handleEvents dequeued) where
  balance := by
    intro _
    rw [givenAway_handleEvents, moved, isCounter, if_neg (by omega)]
    rfl
  counter := Nat.le_of_eq isCounter.symm

def operation (receiver : Receiver Token) : Action Token -> Option (ReceiveOptions Token)
  | .receive options =>
    if receiver.isOpen ∧ options.minSize ≤ receiver.receiveQueue.size then some options else none
  | .receiveAsync options =>
    if receiver.isOpen ∧ receiver.receiveQueue.callbackQueue = [] ∧
        options.minSize ≤ receiver.receiveQueue.size then some options
    else none
  | .satisfyCallback =>
    receiver.receiveQueue.popCallbackEntry.map fun popped => popped.1.options
  | _ => none

def Undivided (receiver : Receiver Token) (action : Action Token) : Prop :=
  ∀ options ∈ receiver.operation action,
    dividesHandle receiver.receiveQueue.entryList options.maxSize = false

variable {events : List HandleEvent} {hasHandle : Bool}

theorem store_hands {recv stored : Receiver Token} {data : List UInt8}
    (isStored : recv.store data hasHandle = some (stored, events)) : Hands recv stored events := by
  unfold store at isStored
  by_cases pos : 0 < data.length
  · rw [if_pos pos, pushEntry] at isStored
    rw [if_pos pos] at isStored
    cases isStored
    cases hasHandle with
    | false =>
      refine .idle ?_ rfl
      rw [holdings, filterMap_append]
      exact append_nil _
    | true =>
      refine ⟨fun handle => ?_, Nat.le_succ _⟩
      have isNew : (holdings [⟨data.length, some recv.nextHandle⟩]).count handle =
          if recv.nextHandle ≤ handle ∧ handle < recv.nextHandle + 1 then 1 else 0 := by
        rw [holdings_cons, toList_some, singleton_append, count_cons]
        by_cases isHandle : recv.nextHandle = handle
        · rw [if_pos (beq_iff_eq.mpr isHandle), if_pos (by omega)]
          rfl
        · rw [if_neg (fun same => isHandle (beq_iff_eq.mp same)), if_neg (by omega)]
          rfl
      rw [if_pos rfl, if_pos rfl, if_pos rfl, ← isNew, holdings, filterMap_append, count_append]
      rfl
  · rw [if_neg pos] at isStored
    cases isStored
    exact .idle rfl rfl

variable {error : Option Error}

theorem queueFilled_hands {filled : List UInt8 × Option Error × Option Error}
    (isNext : recv.queueFilled hasHandle filled = some (error, next, events)) :
    Hands recv next events := by
  obtain ⟨data, early, _⟩ := filled
  cases early with
  | some =>
    cases isNext
    exact .idle rfl rfl
  | none =>
    unfold queueFilled at isNext
    dsimp only at isNext
    cases isStored : recv.store data hasHandle with
    | none =>
      rw [isStored] at isNext
      contradiction
    | some =>
      rw [isStored] at isNext
      cases isNext
      exact store_hands isStored

variable {raw : RawReply} {intake : Intake}

theorem privateDequeueReceiveBuffer_hands
    (isNext : recv.privateDequeueReceiveBuffer raw intake = some (error, next, events)) :
    Hands recv next events := by
  cases raw with
  | error =>
    cases isNext
    exact .idle rfl rfl
  | received received =>
    unfold privateDequeueReceiveBuffer at isNext
    dsimp only at isNext
    split at isNext
    · cases isNext
      exact .idle rfl rfl
    · exact queueFilled_hands isNext

/-- What comes behind the data does not touch the queue. -/
theorem processDequeued_hands {dequeued : Option (Option Error × Receiver Token × List HandleEvent)}
    (hands : ∀ error between events, dequeued = some (error, between, events) ->
      Hands recv between events)
    (isNext : processDequeued dequeued = some (next, events)) : Hands recv next events := by
  cases dequeued with
  | none => contradiction
  | some result =>
    obtain ⟨error, between, between_events⟩ := result
    have stored := hands error between between_events rfl
    cases error with
    | some =>
      rw [processDequeued_error] at isNext
      cases isNext
      unfold erred
      split
      · exact stored
      · exact ⟨stored.balance, stored.counter⟩
    | none =>
      unfold processDequeued at isNext
      dsimp only at isNext
      split at isNext
      · cases isNext
        exact ⟨stored.balance, stored.counter⟩
      · contradiction

theorem processSocketReadable_hands
    (isNext : recv.processSocketReadable raw intake = some (next, events)) :
    Hands recv next events := by
  unfold processSocketReadable at isNext
  split at isNext
  · cases isNext
    exact .idle rfl rfl
  · split at isNext
    · cases isNext
      exact .idle rfl rfl
    · exact processDequeued_hands
        (fun _ _ _ isBetween => privateDequeueReceiveBuffer_hands isBetween) isNext

/-! ### Operations -/

theorem satisfyCallback_hands (undivided : recv.Undivided .satisfyCallback)
    (isNext : recv.satisfyCallback = some (next, events)) : Hands recv next events := by
  unfold satisfyCallback at isNext
  rcases popCallbackEntry_cases recv.receiveQueue with
    ⟨callbackEntry, rest, _, _, isPopped⟩ | ⟨isNone, _⟩
  · rw [isPopped] at isNext
    dsimp only at isNext
    have whole := undivided callbackEntry.options (by rw [operation, isPopped]; rfl)
    have same : ({ recv.receiveQueue with callbackQueue := rest } :
        ReceiveQueue Token).entryList = recv.receiveQueue.entryList :=
      rfl
    generalize ({ recv.receiveQueue with callbackQueue := rest } : ReceiveQueue Token) = queue
      at isNext same
    cases isDequeued : queue.dequeue callbackEntry.options with
    | none =>
      rw [isDequeued] at isNext
      contradiction
    | some =>
      rw [isDequeued] at isNext
      cases isNext
      rw [← same] at whole
      refine .dequeued ?_ rfl
      rw [← same]
      exact dequeue_handles whole isDequeued
  · rw [isNone] at isNext
    cases isNext
    obtain ⟨_, isQueue⟩ := authorizeLow_cases recv.receiveQueue
    rw [isQueue]
    exact .idle rfl rfl

theorem finishReceive_nextHandle (recv : Receiver Token) (violatedBefore : Bool) :
    (recv.finishReceive violatedBefore).nextHandle = recv.nextHandle := by
  unfold finishReceive
  split
  · rfl
  · rfl

variable {options : ReceiveOptions Token}

theorem receive_hands (undivided : recv.Undivided (.receive options))
    (isNext : recv.receive options = some (error, next, events)) : Hands recv next events := by
  unfold receive at isNext
  split at isNext
  · cases isNext
    exact .idle rfl rfl
  · rename_i isOpen
    split at isNext
    · cases isNext
      exact .idle rfl rfl
    · split at isNext
      · rename_i enough
        rw [Bool.not_eq_true, Bool.not_eq_false'] at isOpen
        have whole := undivided options (by rw [operation, if_pos ⟨isOpen, enough⟩]; rfl)
        cases isDequeued : recv.receiveQueue.dequeue options with
        | none =>
          rw [isDequeued] at isNext
          contradiction
        | some =>
          rw [isDequeued] at isNext
          cases isNext
          refine .dequeued ?_ (finishReceive_nextHandle _ _)
          rw [finishReceive_receiveQueue]
          exact dequeue_handles whole isDequeued
      · cases isNext
        exact .idle rfl rfl

theorem receiveAsync_hands (undivided : recv.Undivided (.receiveAsync options))
    (isNext : recv.receiveAsync options = some (error, next, events)) : Hands recv next events := by
  unfold receiveAsync at isNext
  split at isNext
  · cases isNext
    exact .idle rfl rfl
  · rename_i isOpen
    split at isNext
    · cases isNext
      exact .idle rfl rfl
    · split at isNext
      · rename_i enough
        rw [Bool.not_eq_true, Bool.not_eq_false'] at isOpen
        have whole := undivided options (by
          rw [operation, if_pos ⟨isOpen, isEmpty_iff.mp enough.1, enough.2⟩]; rfl)
        cases isDequeued : recv.receiveQueue.dequeue options with
        | none =>
          rw [isDequeued] at isNext
          contradiction
        | some =>
          rw [isDequeued] at isNext
          cases isNext
          split
          · exact .dequeued (dequeue_handles whole isDequeued) rfl
          · refine .dequeued ?_ (finishReceive_nextHandle _ _)
            rw [finishReceive_receiveQueue]
            exact dequeue_handles whole isDequeued
      · cases isNext
        exact .idle rfl rfl

theorem announceHighWatermark_nextHandle (recv : Receiver Token) :
    recv.announceHighWatermark.nextHandle = recv.nextHandle := by
  unfold announceHighWatermark
  dsimp only
  split
  · rfl
  · rfl

theorem resumeReceive_nextHandle (recv : Receiver Token) (index : Nat) :
    (recv.resumeReceive index).nextHandle = recv.nextHandle := by
  unfold resumeReceive
  split
  · rfl
  · rw [finishReceive_nextHandle]

theorem SameContent.holdings {queue next : ReceiveQueue Token} (same : SameContent queue next) :
    Ntcr.holdings next.entryList = Ntcr.holdings queue.entryList := by
  rw [same.entryList]

theorem setWatermarks_nextHandle (recv : Receiver Token) (low high : Nat) :
    (recv.setReadQueueLowWatermark low).nextHandle = recv.nextHandle ∧
      (recv.setReadQueueHighWatermark high).nextHandle = recv.nextHandle ∧
      (recv.setReadQueueWatermarks low high).nextHandle = recv.nextHandle := by
  unfold setReadQueueLowWatermark setReadQueueHighWatermark setReadQueueWatermarks
  dsimp only
  refine ⟨?_, ?_, ?_⟩
  · split
    · rfl
    · rfl
  · split
    · rfl
    · rfl
  · split
    · split
      · rfl
      · rfl
    · split
      · rfl
      · rfl

theorem perform_hands [DecidableEq Token] {action : Action Token}
    (undivided : recv.Undivided action)
    (isNext : recv.perform action = some (next, events)) : Hands recv next events := by
  cases action with
  | readable => exact processSocketReadable_hands isNext
  | satisfyCallback => exact satisfyCallback_hands undivided isNext
  | announceHighWatermark =>
    cases isNext
    obtain ⟨_, isQueue⟩ := recv.announceHighWatermark_receiveQueue
    refine .idle ?_ recv.announceHighWatermark_nextHandle
    rw [isQueue]
  | receive options =>
    obtain ⟨result, isResult, isSecond⟩ := map_eq_some_iff.mp isNext
    obtain ⟨error, rest⟩ := result
    cases isSecond
    exact receive_hands undivided isResult
  | receiveAsync =>
    obtain ⟨result, isResult, isSecond⟩ := map_eq_some_iff.mp isNext
    obtain ⟨_, _⟩ := result
    cases isSecond
    exact receiveAsync_hands undivided isResult
  | resumeReceive index =>
    cases isNext
    refine .idle ?_ (recv.resumeReceive_nextHandle index)
    rw [resumeReceive_receiveQueue]
  | receiveDeadline callback | cancel _ =>
    cases isNext
    exact .idle rfl rfl
  | setReadQueueLowWatermark low =>
    cases isNext
    exact .idle (recv.setReadQueueLowWatermark_content low).holdings
      (recv.setWatermarks_nextHandle low 0).1
  | setReadQueueHighWatermark high =>
    cases isNext
    exact .idle (recv.setReadQueueHighWatermark_content high).holdings
      (recv.setWatermarks_nextHandle 0 high).2.1
  | setReadQueueWatermarks low high =>
    cases isNext
    exact .idle (recv.setReadQueueWatermarks_content low high).holdings
      (recv.setWatermarks_nextHandle low high).2.2
  | relaxFlowControl | shutdownReceive completed | shutdownSequenceComplete _ =>
    cases isNext
    exact .idle rfl rfl

end Receiver

namespace ReceiveHalf

structure DeliveredOnce (half : ReceiveHalf Token) : Prop where
  delivered : ∀ handle, half.handles.count (.delivered handle) ≤ 1
  closed : ∀ handle, half.handles.count (.closed handle) ≤ 1
  apart : ∀ handle, .delivered handle ∈ half.handles -> .closed handle ∉ half.handles

def Handed (half : ReceiveHalf Token) : Prop :=
  ∀ handle, (holdings half.receiver.receiveQueue.entryList).count handle +
    givenAway half.handles handle = if handle < half.receiver.nextHandle then 1 else 0

theorem deliveredOnce_of_handed {half : ReceiveHalf Token} (handed : Handed half) :
    DeliveredOnce half := by
  have atMost : ∀ handle, givenAway half.handles handle ≤ 1 := by
    intro handle
    have single := handed handle
    split at single
    · omega
    · omega
  unfold givenAway at atMost
  constructor
  case delivered =>
    intro handle
    have single := atMost handle
    omega
  case closed =>
    intro handle
    have single := atMost handle
    omega
  case apart =>
    intro handle isDelivered isClosed
    have single := atMost handle
    have once := count_pos_iff.mpr isDelivered
    have twice := count_pos_iff.mpr isClosed
    omega

def Undivided (half : ReceiveHalf Token) (action : Receiver.Action Token) : Prop :=
  half.receiver.Undivided action

theorem step_handed [DecidableEq Token] (half : ReceiveHalf Token)
    (action : Receiver.Action Token) (next : ReceiveHalf Token) (handed : Handed half)
    (undivided : half.Undivided action) (taken : half.step action = some next) : Handed next := by
  unfold step at taken
  split at taken
  · contradiction
  · cases isPerformed : half.receiver.perform action with
    | none =>
      rw [isPerformed] at taken
      cases taken
      exact handed
    | some =>
      rw [isPerformed] at taken
      cases taken
      have hands := Receiver.perform_hands undivided isPerformed
      intro handle
      have before := handed handle
      have moved := hands.balance handle
      have counter := hands.counter
      dsimp only
      rw [givenAway_append]
      split at before <;> split at moved <;> split <;> omega

theorem always_deliveredOnce [DecidableEq Token] {low high : Nat} {isEdge : Bool}
    {actions : List (Receiver.Action Token)}
    (undivided : Run.Along step Undivided (start low high isEdge) actions) :
    Run.Always step DeliveredOnce (start low high isEdge) actions :=
  (Run.always_of_along step_handed (fun _ => rfl) undivided).mono
    fun _ handed => deliveredOnce_of_handed handed

end ReceiveHalf

/-- In every run in which no writable event writes a part of an entry with a handle, no
send with a handle has nothing to write, and no receive operation takes a part of an
entry with a handle, each handle sent is passed once, and each one received is given away
once at most. -/
theorem handles_transferred_once [DecidableEq Token]
    (sends : List (StreamSocket.Action Token)) (receives : List (Receiver.Action Token))
    (lowWatermark highWatermark : Nat) (isEdge : Bool)
    (sent : Run.Along SendHalf.step SendHalf.Undivided ({} : SendHalf Token) sends)
    (received : Run.Along step ReceiveHalf.Undivided
      (start lowWatermark highWatermark isEdge) receives) :
    Run.Always SendHalf.step SendHalf.PassedOnce ({} : SendHalf Token) sends ∧
      Run.Always step ReceiveHalf.DeliveredOnce
        (start lowWatermark highWatermark isEdge) receives :=
  ⟨SendHalf.always_passedOnce sent, always_deliveredOnce received⟩

def sendsWhole : List (StreamSocket.Action Nat) :=
  [.send (.blob [1, 2]) { foreignHandle := some 5 } false {} (.sent 1 false),
    .writable {} (fun _ => []) (.sent 1 false)]

def receivesWhole : List (Receiver.Action Nat) :=
  [.readable (.received [1, 2] true) .plain, .satisfyCallback, .announceHighWatermark,
    .readable (.received [3] true) .plain, .receive { maxSize := 3 }]

/-- The handle sent is passed once; of the handles received, the first one is delivered
and the second one closed. -/
theorem whole_handles_transferred :
    (Run.Always SendHalf.step SendHalf.PassedOnce ({} : SendHalf Nat) sendsWhole ∧
      Run.Always step ReceiveHalf.DeliveredOnce (start 1 100 false) receivesWhole) ∧
    (∃ final, Run.run SendHalf.step ({} : SendHalf Nat) sendsWhole = some final ∧
      final.passed = [(0, 5)]) ∧
    ∃ final, Run.run step (start 1 100 false) receivesWhole = some final ∧
      final.handles = [.stored 0, .stored 1, .closed 1, .delivered 0] := by
  refine ⟨handles_transferred_once sendsWhole receivesWhole 1 100 false ?_ ?_,
    ⟨_, rfl, rfl⟩, ⟨_, rfl, rfl⟩⟩
  · refine ⟨fun _ => nofun, ?_, trivial⟩
    intro _ _ _ isHead hasHandle
    cases isHead
    contradiction
  · refine ⟨nofun, nofun, nofun, nofun, ?_, trivial⟩
    intro options isOperation
    have isOptions : some ({ maxSize := 3 } : ReceiveOptions Nat) = some options := isOperation
    cases isOptions
    rfl

def sendsDivided : List (StreamSocket.Action Nat) :=
  [.send (.blob [1, 2]) { foreignHandle := some 5 } false {} .wouldBlock,
    .writable {} (fun _ => []) (.sent 1 false), .writable {} (fun _ => []) (.sent 1 false)]

def receivesDivided : List (Receiver.Action Nat) :=
  [.readable (.received [1, 2] true) .plain, .satisfyCallback, .announceHighWatermark,
    .receive { maxSize := 1 }, .receive { maxSize := 1 }]

/-- The handle sent is passed twice, and the one received is delivered twice. -/
theorem divided_handles_transferred_twice :
    (¬ Run.Always SendHalf.step SendHalf.PassedOnce ({} : SendHalf Nat) sendsDivided ∧
      ∃ final, Run.run SendHalf.step ({} : SendHalf Nat) sendsDivided = some final ∧
        final.passed = [(0, 5), (0, 5)]) ∧
    (¬ Run.Always step ReceiveHalf.DeliveredOnce (start 1 100 false) receivesDivided ∧
      ∃ final, Run.run step (start 1 100 false) receivesDivided = some final ∧
        final.handles = [.stored 0, .delivered 0, .delivered 0]) := by
  refine ⟨⟨?_, _, rfl, rfl⟩, ⟨?_, _, rfl, rfl⟩⟩
  · intro always
    obtain ⟨_, _, _, passedOnce⟩ := always
    exact absurd (passedOnce.once (0, 5) (by decide)) (by decide)
  · intro always
    obtain ⟨_, _, _, _, _, deliveredOnce⟩ := always
    exact absurd (deliveredOnce.delivered 0) (by decide)

end NtfCore.Ntcr
