import NtfCore.Ntcq.Receive
import NtfCore.Ntcr.StreamSocket.Model

/-!
Contract: the receiving half of a stream socket (`ntcr::StreamSocket`).

Owns: the readable event with `privateDequeueReceiveBuffer` in its four versions, both
versions of `receive`, the deadline timer of a receive and its `cancel`, the watermarks
of the read queue, and the flow control that goes with them, as
`ntcr_streamsocket.cpp` computes them.

A critical section ends where the mutex is released: a readable event is released
around every callback and announcement, and so is a `receive` that invokes its callback
at once, so that both are several actions with others in between. What the operating
system, the inflater and the encryption session do in an action is given with it. An
assertion of the source that fails is `none`. The rate limiter is left out, and so are
`upgrade` and `downgrade`: the announcements of a downgrade in `privateDequeueReceiveBuffer`
also release the mutex, but no section ends there.
-/

namespace NtfCore.Ntcr

open NtfCore.Ntcq NtfCore.Ntcs

variable {Token : Type}

inductive ReadPhase where
  | idle
  | draining
  | announcing
deriving DecidableEq

/-- `ntcr::StreamSocket`, connected, as far as it receives. The calls of `receive` that
are about to return from their callback are those in flight, with whether the high
watermark was violated before. -/
structure Receiver (Token : Type) where
  isOpen : Bool := true
  canReceive : Bool := true
  receiveQueue : ReceiveQueue Token := {}
  flowControlState : FlowControlState := { enableReceive := true }
  nextCallback : Nat := 0
  nextHandle : Nat := 0
  phase : ReadPhase := .idle
  inFlight : List Bool := []

/-- What `ntsi::StreamSocket::receive` answers: on an error nothing is received. -/
inductive RawReply where
  | error (error : Error)
  | received (data : List UInt8) (hasHandle : Bool)

structure Fill where
  data : List UInt8 := []
  error : Option Error := none

/-- What the session does in one call of `privateDequeueReceiveBuffer`: whether it takes
the cipher text; whether its handshake fails in doing so, which ends it; the plain text
and the leftovers it gives, if they are kept; and the error of what comes after the data
are queued, the shutdown of the session and the sending of its cipher text. -/
structure SessionReply where
  pushed : Option Error := none
  ended : Bool := false
  plainText : List Fill := []
  leftovers : List Fill := []
  later : Option Error := none

inductive Intake where
  | plain
  | inflating (inflated : Fill)
  | encrypted (session : SessionReply)
  | encryptedInflating (session : SessionReply) (inflated : Fill)

def popAll : List Fill -> List UInt8 × Option Error
  | [] => ([], none)
  | fill :: rest =>
    match fill.error with
    | some error => (fill.data, some error)
    | none => (fill.data ++ (popAll rest).1, (popAll rest).2)

def SessionReply.pop (session : SessionReply) : List UInt8 × Option Error :=
  match popAll session.plainText with
  | (plainText, some error) => (plainText, some error)
  | (plainText, none) =>
    (plainText ++ (popAll session.leftovers).1, (popAll session.leftovers).2)

def SessionReply.laterError (session : SessionReply) : Option Error :=
  if session.leftovers.isEmpty then session.later else none

/-- What the branches of `privateDequeueReceiveBuffer` do with data received: what is
appended to the data of the queue, the error before an entry is queued, and the error
after. -/
def Intake.fill (intake : Intake) (received : List UInt8) :
    List UInt8 × Option Error × Option Error :=
  match intake with
  | .plain => (received, none, none)
  | .inflating inflated => (inflated.data, inflated.error, none)
  | .encrypted session =>
    match session.pushed with
    | some error => ([], some error, none)
    | none =>
      if session.ended then ([], none, none)
      else
        match session.pop with
        | (data, some error) => (data, some error, none)
        | (data, none) => (data, none, session.laterError)
  | .encryptedInflating session inflated =>
    match session.pushed with
    | some error => ([], some error, none)
    | none =>
      if session.ended then ([], none, none)
      else
        match session.pop with
        | (_, some error) => ([], some error, none)
        | (_, none) =>
          match inflated.error with
          | some error => ([], some error, none)
          | none => (inflated.data, none, session.laterError)

inductive HandleEvent where
  | stored (handle : Nat)
  | delivered (handle : Nat)
  | closed (handle : Nat)
deriving DecidableEq

def handleEvents (dequeued : ReceiveQueue.Dequeued) : List HandleEvent :=
  dequeued.closed.map HandleEvent.closed ++ dequeued.foreignHandle.toList.map HandleEvent.delivered

namespace Receiver

/-- `privateRelaxFlowControl` of the receive direction, as far as interest goes. -/
def relax (receiver : Receiver Token) : Receiver Token :=
  { receiver with flowControlState := receiver.flowControlState.relax .receive false }

/-- `privateApplyFlowControl` of the receive direction. -/
def apply (receiver : Receiver Token) : Receiver Token :=
  { receiver with flowControlState := receiver.flowControlState.apply .receive false }

/-- `privateFail`, as far as the receive direction goes. -/
def privateFail (receiver : Receiver Token) : Receiver Token :=
  { receiver with canReceive := false, flowControlState := FlowControlState.close }

def store (receiver : Receiver Token) (data : List UInt8) (hasHandle : Bool) :
    Option (Receiver Token × List HandleEvent) :=
  let handle := receiver.nextHandle
  let filled := { receiver.receiveQueue with data := receiver.receiveQueue.data ++ data }
  if 0 < data.length then
    match filled.pushEntry ⟨data.length, if hasHandle then some handle else none⟩ with
    | none => none
    | some pushed =>
      some ({ receiver with
          receiveQueue := pushed
          nextHandle := if hasHandle then handle + 1 else handle },
        if hasHandle then [.stored handle] else [])
  else some ({ receiver with receiveQueue := filled }, [])

/-- The end of `privateDequeueReceiveBuffer`, with what was filled in. -/
def queueFilled (receiver : Receiver Token) (hasHandle : Bool) :
    List UInt8 × Option Error × Option Error ->
      Option (Option Error × Receiver Token × List HandleEvent)
  | (data, some error, _) =>
    some (some error, { receiver with receiveQueue := { receiver.receiveQueue with
      data := receiver.receiveQueue.data ++ data } }, [])
  | (data, none, later) =>
    match receiver.store data hasHandle with
    | none => none
    | some (stored, events) => some (later, stored, events)

/-- `privateDequeueReceiveBuffer`: its error, and the receiver behind it. -/
def privateDequeueReceiveBuffer (receiver : Receiver Token) (raw : RawReply) (intake : Intake) :
    Option (Option Error × Receiver Token × List HandleEvent) :=
  match raw with
  | .error error => some (some error, receiver, [])
  | .received received hasHandle =>
    if received.isEmpty then some (some .eof, receiver, [])
    else receiver.queueFilled hasHandle (intake.fill received)

/-- What `processSocketReadable` does behind `privateDequeueReceiveBuffer`. -/
def processDequeued : Option (Option Error × Receiver Token × List HandleEvent) ->
    Option (Receiver Token × List HandleEvent)
  | none => none
  | some (some error, next, events) =>
    if error = .wouldBlock then some (next, events) else some (next.privateFail, events)
  | some (none, next, events) =>
    if next.receiveQueue.size = next.receiveQueue.data.length then
      some ({ next with phase := .draining }, events)
    else none

/-- `processSocketReadable` up to the callbacks. -/
def processSocketReadable (receiver : Receiver Token) (raw : RawReply) (intake : Intake) :
    Option (Receiver Token × List HandleEvent) :=
  if !receiver.canReceive then some (receiver, [])
  else if receiver.receiveQueue.isHighWatermarkViolated then some (receiver, [])
  else processDequeued (receiver.privateDequeueReceiveBuffer raw intake)

/-- One turn of the loop over the callbacks in `privateSocketReadableIteration`. It is
left when no callback can be satisfied. -/
def satisfyCallback (receiver : Receiver Token) : Option (Receiver Token × List HandleEvent) :=
  match receiver.receiveQueue.popCallbackEntry with
  | some (callbackEntry, queue) =>
    match queue.dequeue callbackEntry.options with
    | none => none
    | some (next, _, dequeued) =>
      some ({ receiver with receiveQueue := next }, handleEvents dequeued)
  | none =>
    some ({ receiver with
      receiveQueue := receiver.receiveQueue.authorizeLowWatermarkEvent.2
      phase := .announcing }, [])

/-- The end of `privateSocketReadableIteration`. -/
def announceHighWatermark (receiver : Receiver Token) : Receiver Token :=
  let (authorized, queue) := receiver.receiveQueue.authorizeHighWatermarkEvent
  let next := { receiver with receiveQueue := queue, phase := .idle }
  if authorized then next.apply else next

def finishReceive (receiver : Receiver Token) (violatedBefore : Bool) : Receiver Token :=
  if violatedBefore && !receiver.receiveQueue.isHighWatermarkViolated then receiver.relax
  else receiver

/-- `receive` into a blob. -/
def receive (receiver : Receiver Token) (options : ReceiveOptions Token) :
    Option (Option Error × Receiver Token × List HandleEvent) :=
  if !receiver.isOpen then some (some .invalid, receiver, [])
  else if receiver.receiveQueue.size = 0 ∧ receiver.canReceive = false then
    some (some .eof, receiver, [])
  else if options.minSize ≤ receiver.receiveQueue.size then
    match receiver.receiveQueue.dequeue options with
    | none => none
    | some (next, _, dequeued) =>
      some (none, ({ receiver with receiveQueue := next }).finishReceive
        receiver.receiveQueue.isHighWatermarkViolated, handleEvents dequeued)
  else some (some .wouldBlock, receiver.relax, [])

/-- `receive` with a callback, up to its invocation. -/
def receiveAsync (receiver : Receiver Token) (options : ReceiveOptions Token) :
    Option (Option Error × Receiver Token × List HandleEvent) :=
  if !receiver.isOpen then some (some .invalid, receiver, [])
  else if receiver.receiveQueue.size = 0 ∧ receiver.canReceive = false then
    some (some .eof, receiver, [])
  else if receiver.receiveQueue.callbackQueue.isEmpty ∧
      options.minSize ≤ receiver.receiveQueue.size then
    match receiver.receiveQueue.dequeue options with
    | none => none
    | some (next, _, dequeued) =>
      let violatedBefore := receiver.receiveQueue.isHighWatermarkViolated
      let taken := { receiver with receiveQueue := next }
      some (none,
        if options.recurse then { taken with inFlight := taken.inFlight ++ [violatedBefore] }
        else taken.finishReceive violatedBefore,
        handleEvents dequeued)
  else
    let callbackEntry : ReceiveCallbackQueueEntry Token := ⟨receiver.nextCallback, options⟩
    some (none, ({ receiver with
      nextCallback := receiver.nextCallback + 1
      receiveQueue := { receiver.receiveQueue with
        callbackQueue := receiver.receiveQueue.callbackQueue ++ [callbackEntry] } }).relax, [])

/-- The return of a `receive` from its callback. -/
def resumeReceive (receiver : Receiver Token) (index : Nat) : Receiver Token :=
  match receiver.inFlight[index]? with
  | none => receiver
  | some violatedBefore =>
    ({ receiver with inFlight := receiver.inFlight.eraseIdx index }).finishReceive violatedBefore

def removeCallback (receiver : Receiver Token)
    (selects : ReceiveCallbackQueueEntry Token -> Bool) : Receiver Token :=
  { receiver with receiveQueue := { receiver.receiveQueue with
      callbackQueue := receiver.receiveQueue.callbackQueue.eraseP selects } }

/-- `processReceiveDeadlineTimer`, of the timer that a callback with a deadline has. -/
def processReceiveDeadlineTimer (receiver : Receiver Token) (callback : Nat) : Receiver Token :=
  receiver.removeCallback fun entry => entry.id == callback && entry.options.deadline.isSome

/-- `cancel` of a receive. -/
def cancel [DecidableEq Token] (receiver : Receiver Token) (token : Token) : Receiver Token :=
  receiver.removeCallback fun entry => entry.options.token == some token

/-! ## Watermarks and shutdown -/

/-- `setReadQueueLowWatermark`. -/
def setReadQueueLowWatermark (receiver : Receiver Token) (lowWatermark : Nat) : Receiver Token :=
  let next := { receiver with receiveQueue := receiver.receiveQueue.setLowWatermark lowWatermark }
  if !next.receiveQueue.isLowWatermarkSatisfied then next.relax else next

/-- `setReadQueueHighWatermark`. -/
def setReadQueueHighWatermark (receiver : Receiver Token) (highWatermark : Nat) : Receiver Token :=
  let next := { receiver with receiveQueue := receiver.receiveQueue.setHighWatermark highWatermark }
  if next.receiveQueue.isHighWatermarkViolated then next.apply else next

/-- `setReadQueueWatermarks`. -/
def setReadQueueWatermarks (receiver : Receiver Token) (lowWatermark highWatermark : Nat) :
    Receiver Token :=
  let next := { receiver with receiveQueue :=
    (receiver.receiveQueue.setLowWatermark lowWatermark).setHighWatermark highWatermark }
  let relaxed := if !next.receiveQueue.isLowWatermarkSatisfied then next.relax else next
  if relaxed.receiveQueue.isHighWatermarkViolated then relaxed.apply else relaxed

/-- `relaxFlowControl` of the receive direction. -/
def relaxFlowControl (receiver : Receiver Token) : Receiver Token :=
  { receiver with flowControlState := receiver.flowControlState.relax .receive true }

/-- `privateShutdownReceive`, where the send direction is up or not. -/
def privateShutdownReceive (receiver : Receiver Token) (completed : Bool) : Receiver Token :=
  { receiver with
    canReceive := false
    flowControlState :=
      if completed then FlowControlState.close
      else receiver.flowControlState.apply .receive true }

/-- `privateShutdownSequenceComplete` for the receive direction. -/
def privateShutdownSequenceComplete (receiver : Receiver Token) (closes : Bool) : Receiver Token :=
  { receiver with
    isOpen := receiver.isOpen && !closes
    receiveQueue := { receiver.receiveQueue with callbackQueue := [] } }

inductive Action (Token : Type) where
  | readable (raw : RawReply) (intake : Intake)
  | satisfyCallback
  | announceHighWatermark
  | receive (options : ReceiveOptions Token)
  | receiveAsync (options : ReceiveOptions Token)
  | resumeReceive (index : Nat)
  | receiveDeadline (callback : Nat)
  | cancel (token : Token)
  | setReadQueueLowWatermark (lowWatermark : Nat)
  | setReadQueueHighWatermark (highWatermark : Nat)
  | setReadQueueWatermarks (lowWatermark highWatermark : Nat)
  | relaxFlowControl
  | shutdownReceive (completed : Bool)
  | shutdownSequenceComplete (closes : Bool)

def enabled (receiver : Receiver Token) : Action Token -> Bool
  | .readable _ _ => receiver.phase = .idle
  | .satisfyCallback => receiver.phase = .draining
  | .announceHighWatermark => receiver.phase = .announcing
  | .shutdownSequenceComplete _ => !receiver.canReceive
  | _ => true

def perform [DecidableEq Token] (receiver : Receiver Token) :
    Action Token -> Option (Receiver Token × List HandleEvent)
  | .readable raw intake => receiver.processSocketReadable raw intake
  | .satisfyCallback => receiver.satisfyCallback
  | .announceHighWatermark => some (receiver.announceHighWatermark, [])
  | .receive options => (receiver.receive options).map Prod.snd
  | .receiveAsync options => (receiver.receiveAsync options).map Prod.snd
  | .resumeReceive index => some (receiver.resumeReceive index, [])
  | .receiveDeadline callback => some (receiver.processReceiveDeadlineTimer callback, [])
  | .cancel token => some (receiver.cancel token, [])
  | .setReadQueueLowWatermark lowWatermark =>
    some (receiver.setReadQueueLowWatermark lowWatermark, [])
  | .setReadQueueHighWatermark highWatermark =>
    some (receiver.setReadQueueHighWatermark highWatermark, [])
  | .setReadQueueWatermarks lowWatermark highWatermark =>
    some (receiver.setReadQueueWatermarks lowWatermark highWatermark, [])
  | .relaxFlowControl => some (receiver.relaxFlowControl, [])
  | .shutdownReceive completed => some (receiver.privateShutdownReceive completed, [])
  | .shutdownSequenceComplete closes => some (receiver.privateShutdownSequenceComplete closes, [])

def Action.isReadable : Action Token -> Bool
  | .readable _ _ | .satisfyCallback | .announceHighWatermark => true
  | _ => false

end Receiver

/-- A receiver, what has happened to foreign handles, whether the last section completed
a readable event, and whether an assertion has failed. -/
structure ReceiveHalf (Token : Type) where
  receiver : Receiver Token := {}
  handles : List HandleEvent := []
  completed : Bool := false
  failed : Bool := false

def ReceiveHalf.step [DecidableEq Token] (half : ReceiveHalf Token)
    (action : Receiver.Action Token) : Option (ReceiveHalf Token) :=
  if half.failed ∨ half.receiver.enabled action = false then none
  else
    match half.receiver.perform action with
    | none => some { half with failed := true }
    | some (next, events) =>
      some { half with
        receiver := next
        handles := half.handles ++ events
        completed := action.isReadable && next.phase == .idle }

end NtfCore.Ntcr
