import NtfCore.Ntcr.StreamSocket.Soundness
import NtfCore.Ntcs.FlowControl

/-!
Contract: the interest of a stream socket in writable events, and the watermarks of its
write queue.

Owns: the flow control and the watermark events that `ntcr_streamsocket.cpp` attaches to
the critical sections of the sending half, with the watermarks of `ntcq::SendQueue`.

A writable event releases the mutex around the callbacks of the sends that it completes:
its end, with the low watermark event and the flow control, is an action of its own. The
rate limiter is left out, but for the relaxation of flow control when it is removed, and
so is flow control that the user applies.
-/

namespace NtfCore.Ntcr

open NtfCore.Ntcq NtfCore.Ntcs StreamSocket Option

variable {Token : Type}

/-- The events of `ntca::WriteQueueEventType` that are authorized by the queue. -/
inductive WatermarkEvent where
  | low
  | high
deriving DecidableEq

/-- `ntcr::StreamSocket`, connected, as far as it sends, with the watermark events that
have been authorized. The high watermark is the one of the socket, and `finishing` is set
while a writable event invokes callbacks. -/
structure Sender (Token : Type) where
  socket : StreamSocket Token := {}
  flowControlState : FlowControlState := {}
  lowWatermark : Nat := 0
  watermarkLowWanted : Bool := false
  watermarkHighWanted : Bool := true
  finishing : Bool := false
  authorized : List WatermarkEvent := []

namespace Sender

def isEmpty (sender : Sender Token) : Bool :=
  sender.socket.sendQueue.entryList.isEmpty

/-- `privateRelaxFlowControl`, as far as interest goes. -/
def relax (sender : Sender Token) (type : FlowControlType) (unlock : Bool) : Sender Token :=
  { sender with flowControlState := sender.flowControlState.relax type unlock }

/-- `privateApplyFlowControl` of the send direction. -/
def apply (sender : Sender Token) (lock : Bool) : Sender Token :=
  { sender with flowControlState := sender.flowControlState.apply .send lock }

/-- `SendQueue::authorizeLowWatermarkEvent`. -/
def authorizeLowWatermarkEvent (sender : Sender Token) : Sender Token :=
  if sender.socket.sendQueue.size ≤ sender.lowWatermark ∧ sender.watermarkLowWanted = true then
    { sender with
      watermarkLowWanted := false
      watermarkHighWanted := true
      authorized := sender.authorized ++ [.low] }
  else sender

/-- `SendQueue::authorizeHighWatermarkEvent`, with the effective watermark. -/
def authorizeHighWatermarkEvent (sender : Sender Token) (effectiveHighWatermark : Nat) :
    Sender Token :=
  if effectiveHighWatermark ≤ sender.socket.sendQueue.size ∧ sender.watermarkHighWanted = true then
    { sender with
      watermarkHighWanted := false
      watermarkLowWanted := true
      authorized := sender.authorized ++ [.high] }
  else sender

/-- The end of `privateSendRaw`: interest comes with the first entry on the queue. -/
def pushed (sender : Sender Token) (socket : StreamSocket Token) : Sender Token :=
  let next := { sender with socket := socket }
  if sender.isEmpty && !next.isEmpty then next.relax .send false else next

/-- `send`. One that finds the queue above the high watermark, which may be one of its
own, is refused with an event. -/
def send (sender : Sender Token) (message : Message) (options : SendOptions Token)
    (hasCallback : Bool) (plugIns : PlugIns) (reply : Reply) : Option (Sender Token) :=
  match sender.socket.send message options hasCallback plugIns reply with
  | none => none
  | some outcome =>
    let effectiveHighWatermark := options.highWatermark.getD sender.socket.highWatermark
    if sender.socket.isOpen = true ∧ effectiveHighWatermark ≤ sender.socket.sendQueue.size then
      some (({ sender with socket := outcome.socket }).authorizeHighWatermarkEvent
        effectiveHighWatermark)
    else some (sender.pushed outcome.socket)

def sendCipherData (sender : Sender Token) (cipherData : List UInt8) (reply : Reply) :
    Option (Sender Token) :=
  (sender.socket.sendCipherData cipherData reply).map fun outcome => sender.pushed outcome.socket

/-- `privateFail`, as far as the send direction goes. -/
def privateFail (sender : Sender Token) : Sender Token :=
  { sender with
    socket := sender.socket.privateShutdownSend
    flowControlState := FlowControlState.close }

/-- `privateShutdownSend`, where the receive direction is up or not. -/
def privateShutdownSend (sender : Sender Token) (completed : Bool) : Sender Token :=
  { sender with
    socket := sender.socket.privateShutdownSend
    flowControlState :=
      if completed then FlowControlState.close else sender.flowControlState.apply .send true }

/-- `processSocketWritable`, one iteration up to the callbacks. An error other than that
the socket would block ends the connection, and an entry without data ends the sending. -/
def processSocketWritable (sender : Sender Token) (limits : StreamSocket.Limits)
    (layout : Nat -> List Nat) (reply : Reply) (completed : Bool) : Option (Sender Token) :=
  match sender.socket.processSocketWritable limits layout reply with
  | none => none
  | some outcome =>
    let next := { sender with socket := outcome.socket }
    if !sender.socket.canSend then some next
    else if !outcome.socket.canSend then some (next.privateShutdownSend completed)
    else
      match outcome.error with
      | none => some { next with finishing := true }
      | some .wouldBlock => some next
      | some _ => some next.privateFail

def finishWritable (sender : Sender Token) : Sender Token :=
  let next := { sender.authorizeLowWatermarkEvent with finishing := false }
  if next.isEmpty then next.apply false else next

def removed (sender : Sender Token) (socket : StreamSocket Token) : Sender Token :=
  let next := { sender with socket := socket }
  if next.isEmpty then next.apply false else next

/-- `processSendDeadlineTimer`. -/
def processSendDeadlineTimer (sender : Sender Token) (entryId : Nat) : Option (Sender Token) :=
  (sender.socket.processSendDeadlineTimer entryId).map fun outcome => sender.removed outcome.socket

/-- `cancel` of a token. -/
def cancel [DecidableEq Token] (sender : Sender Token) (token : Token) : Option (Sender Token) :=
  (sender.socket.cancel token).map fun outcome => sender.removed outcome.socket

/-! ## Watermarks, flow control and shutdown -/

/-- The watermarks of the queue, as `SendQueue` sets them. -/
def setWatermarks (sender : Sender Token) (lowWatermark highWatermark : Nat) : Sender Token :=
  let watermarks := sanitizeOutgoingQueueWatermarks lowWatermark highWatermark
  { sender with
    lowWatermark := watermarks.1
    socket := { sender.socket with highWatermark := watermarks.2 } }

/-- `setWriteQueueLowWatermark`. -/
def setWriteQueueLowWatermark (sender : Sender Token) (lowWatermark : Nat) : Sender Token :=
  (sender.setWatermarks lowWatermark sender.socket.highWatermark).authorizeLowWatermarkEvent

/-- `setWriteQueueHighWatermark`. -/
def setWriteQueueHighWatermark (sender : Sender Token) (highWatermark : Nat) : Sender Token :=
  let next := sender.setWatermarks sender.lowWatermark highWatermark
  next.authorizeHighWatermarkEvent next.socket.highWatermark

/-- `setWriteQueueWatermarks`. -/
def setWriteQueueWatermarks (sender : Sender Token) (lowWatermark highWatermark : Nat) :
    Sender Token :=
  let lowered := sender.setWatermarks lowWatermark sender.socket.highWatermark
  let next := lowered.setWatermarks lowered.lowWatermark highWatermark
  next.authorizeLowWatermarkEvent.authorizeHighWatermarkEvent next.socket.highWatermark

/-- `privateShutdown` of the send direction: behind entries on the queue a graceful one is
an entry of its own. -/
def privateShutdown (sender : Sender Token) (graceful completed : Bool) : Option (Sender Token) :=
  match sender.socket.privateShutdown graceful with
  | none => none
  | some outcome =>
    if sender.socket.canSend then
      if graceful && !sender.isEmpty then
        some (({ sender with socket := outcome.socket }).relax .send true)
      else some (sender.privateShutdownSend completed)
    else some sender

inductive Action (Token : Type) where
  | send (message : Message) (options : SendOptions Token) (hasCallback : Bool)
      (plugIns : PlugIns) (reply : Reply)
  | sendCipherData (cipherData : List UInt8) (reply : Reply)
  | writable (limits : StreamSocket.Limits) (layout : Nat -> List Nat) (reply : Reply)
      (completed : Bool)
  | finishWritable
  | sendDeadline (entryId : Nat)
  | cancel (token : Token)
  | zeroCopyUpdate (zeroCopy : ZeroCopy) (avoided : Bool)
  | setZeroCopyThreshold (threshold : Option Nat)
  | setWriteQueueLowWatermark (lowWatermark : Nat)
  | setWriteQueueHighWatermark (highWatermark : Nat)
  | setWriteQueueWatermarks (lowWatermark highWatermark : Nat)
  | relaxFlowControl (type : FlowControlType)
  | removeWriteRateLimiter
  | shutdown (graceful completed : Bool)
  | shutdownSequenceComplete (closes : Bool)

def enabled (sender : Sender Token) : Action Token -> Bool
  | .writable _ _ _ _ => !sender.finishing
  | .finishWritable => sender.finishing
  | _ => true

def perform [DecidableEq Token] (sender : Sender Token) : Action Token -> Option (Sender Token)
  | .send message options hasCallback plugIns reply =>
    sender.send message options hasCallback plugIns reply
  | .sendCipherData cipherData reply => sender.sendCipherData cipherData reply
  | .writable limits layout reply completed =>
    sender.processSocketWritable limits layout reply completed
  | .finishWritable => some sender.finishWritable
  | .sendDeadline entryId => sender.processSendDeadlineTimer entryId
  | .cancel token => sender.cancel token
  | .zeroCopyUpdate zeroCopy avoided =>
    some { sender with socket := (sender.socket.privateZeroCopyUpdate zeroCopy avoided).socket }
  | .setZeroCopyThreshold threshold =>
    some { sender with socket := { sender.socket with zeroCopyThreshold := threshold } }
  | .setWriteQueueLowWatermark lowWatermark => some (sender.setWriteQueueLowWatermark lowWatermark)
  | .setWriteQueueHighWatermark highWatermark =>
    some (sender.setWriteQueueHighWatermark highWatermark)
  | .setWriteQueueWatermarks lowWatermark highWatermark =>
    some (sender.setWriteQueueWatermarks lowWatermark highWatermark)
  | .relaxFlowControl type => some (sender.relax type true)
  | .removeWriteRateLimiter => some (sender.relax .send true)
  | .shutdown graceful completed => sender.privateShutdown graceful completed
  | .shutdownSequenceComplete closes =>
    some { sender with socket := (sender.socket.privateShutdownSequenceComplete closes).socket }

def step [DecidableEq Token] (sender : Sender Token) (action : Action Token) :
    Option (Sender Token) :=
  if sender.enabled action = false then none else sender.perform action

def start (lowWatermark highWatermark : Nat) : Sender Token :=
  ({} : Sender Token).setWatermarks lowWatermark highWatermark

/-! ## What the sections do to the queue -/

structure Keeps (socket next : StreamSocket Token) : Prop where
  sendQueue : next.sendQueue = socket.sendQueue
  canSend : next.canSend = socket.canSend
  highWatermark : next.highWatermark = socket.highWatermark

structure Grows (socket next : StreamSocket Token) : Prop where
  entryList : next.sendQueue.entryList = socket.sendQueue.entryList ∨
    next.sendQueue.entryList ≠ []
  size : socket.sendQueue.size ≤ next.sendQueue.size
  canSend : next.canSend = socket.canSend
  highWatermark : next.highWatermark = socket.highWatermark
  sized : StreamSocket.Sized next.sendQueue

variable {socket : StreamSocket Token} {outcome : StreamSocket.Outcome Token}
  {options : SendOptions Token} {reply : Reply}

theorem grows_of_sending {produced : Option (List UInt8)} {buffers : Buffers}
    (sending : Sending socket options produced buffers reply outcome)
    (sized : Sized socket.sendQueue) : Grows socket outcome.socket := by
  have isSized := sending.sized sized
  cases sending with
  | nothing same =>
    rcases same with rfl | rfl
    · exact ⟨.inl rfl, .refl, rfl, rfl, isSized⟩
    · exact ⟨.inl rfl, .refl, rfl, rfl, isSized⟩
  | raw _ _ _ isRaw =>
    cases isRaw with
    | failed | copied | written => exact ⟨.inl rfl, .refl, rfl, rfl, isSized⟩
    | queued =>
      refine ⟨.inr ?_, Nat.le_add_right _ _, rfl, rfl, isSized⟩
      exact List.append_ne_nil_of_right_ne_nil _ (List.cons_ne_nil _ _)
  | silent => exact ⟨.inl rfl, .refl, rfl, rfl, isSized⟩

theorem send_refused {message : Message}
    {hasCallback : Bool} {plugIns : PlugIns} (isOpen : socket.isOpen = true)
    (above : options.highWatermark.getD socket.highWatermark ≤ socket.sendQueue.size) :
    socket.send message options hasCallback plugIns reply =
      some { error := some .wouldBlock, socket := socket.counted } := by
  unfold StreamSocket.send
  rw [if_neg (by rw [isOpen]; decide), if_pos above]
  rfl

inductive Removes [DecidableEq Token] (socket : StreamSocket Token) :
    Action Token -> StreamSocket.Outcome Token -> Prop where
  | deadline {entryId : Nat} {outcome : StreamSocket.Outcome Token}
      (removing : StreamSocket.Removing socket
        (fun entry => entry.deadline.isSome && !entry.inProgress)
        (socket.sendQueue.indexOfId entryId) outcome) :
      Removes socket (.sendDeadline entryId) outcome
  | cancel {token : Token} {outcome : StreamSocket.Outcome Token}
      (removing : StreamSocket.Removing socket (fun entry => !entry.inProgress)
        (socket.sendQueue.indexOfToken token) outcome) :
      Removes socket (.cancel token) outcome

inductive Moves [DecidableEq Token] (sender : Sender Token) : Action Token -> Sender Token -> Prop where
  | refused {message : Message} {options : SendOptions Token} {hasCallback : Bool}
      {plugIns : PlugIns} {reply : Reply} (isOpen : sender.socket.isOpen = true)
      (above : options.highWatermark.getD sender.socket.highWatermark ≤
        sender.socket.sendQueue.size) :
      Moves sender (.send message options hasCallback plugIns reply)
        (({ sender with socket := sender.socket.counted }).authorizeHighWatermarkEvent
          (options.highWatermark.getD sender.socket.highWatermark))
  | sent {message : Message} {options : SendOptions Token} {hasCallback : Bool}
      {plugIns : PlugIns} {reply : Reply} {next : StreamSocket Token}
      (grows : Grows sender.socket next) :
      Moves sender (.send message options hasCallback plugIns reply) (sender.pushed next)
  | sentCipherData {cipherData : List UInt8} {reply : Reply} {next : StreamSocket Token}
      (grows : Grows sender.socket next) :
      Moves sender (.sendCipherData cipherData reply) (sender.pushed next)
  | blocked {limits : StreamSocket.Limits} {layout : Nat -> List Nat} {reply : Reply}
      {completed : Bool} {next : StreamSocket Token} (keeps : Keeps sender.socket next) :
      Moves sender (.writable limits layout reply completed) { sender with socket := next }
  | wrote {limits : StreamSocket.Limits} {layout : Nat -> List Nat} {reply : Reply}
      {completed : Bool} {next : StreamSocket Token} (sends : sender.socket.canSend = true)
      (had : Keeps sender.socket next ∨ sender.isEmpty = false)
      (highWatermark : next.highWatermark = sender.socket.highWatermark)
      (sized : StreamSocket.Sized next.sendQueue) :
      Moves sender (.writable limits layout reply completed)
        { sender with socket := next, finishing := true }
  | ended {limits : StreamSocket.Limits} {layout : Nat -> List Nat} {reply : Reply}
      {completed : Bool} {next : Sender Token} (shut : next.socket.canSend = false)
      (sized : StreamSocket.Sized next.socket.sendQueue) :
      Moves sender (.writable limits layout reply completed) next
  | finished : Moves sender .finishWritable sender.finishWritable
  | removed {action : Action Token} {outcome : StreamSocket.Outcome Token}
      (removes : Removes sender.socket action outcome) :
      Moves sender action (sender.removed outcome.socket)
  | zeroCopyUpdated {zeroCopy : ZeroCopy} {avoided : Bool} {next : StreamSocket Token}
      (keeps : Keeps sender.socket next) :
      Moves sender (.zeroCopyUpdate zeroCopy avoided) { sender with socket := next }
  | setThreshold {threshold : Option Nat} {next : StreamSocket Token}
      (keeps : Keeps sender.socket next) :
      Moves sender (.setZeroCopyThreshold threshold) { sender with socket := next }
  | setLow (lowWatermark : Nat) : Moves sender (.setWriteQueueLowWatermark lowWatermark)
      (sender.setWriteQueueLowWatermark lowWatermark)
  | setHigh (highWatermark : Nat) : Moves sender (.setWriteQueueHighWatermark highWatermark)
      (sender.setWriteQueueHighWatermark highWatermark)
  | setBoth (lowWatermark highWatermark : Nat) :
      Moves sender (.setWriteQueueWatermarks lowWatermark highWatermark)
        (sender.setWriteQueueWatermarks lowWatermark highWatermark)
  | relaxed (type : FlowControlType) :
      Moves sender (.relaxFlowControl type) (sender.relax type true)
  | unlimited : Moves sender .removeWriteRateLimiter (sender.relax .send true)
  | marked {graceful completed : Bool} {next : StreamSocket Token}
      (grows : Grows sender.socket next) (nonempty : next.sendQueue.entryList ≠ []) :
      Moves sender (.shutdown graceful completed)
        (({ sender with socket := next }).relax .send true)
  | shut {graceful completed : Bool} {next : Sender Token}
      (shut : next.socket.canSend = false) (sized : StreamSocket.Sized next.socket.sendQueue) :
      Moves sender (.shutdown graceful completed) next
  | closed {closes : Bool} {next : StreamSocket Token}
      (keeps : Keeps sender.socket next ∨ next.canSend = false)
      (sized : StreamSocket.Sized next.sendQueue) :
      Moves sender (.shutdownSequenceComplete closes) { sender with socket := next }

variable {sender next : Sender Token}

theorem writable_moves [DecidableEq Token] {limits : Limits} {layout : Nat -> List Nat}
    {completed : Bool} (sized : Sized sender.socket.sendQueue)
    (taken : sender.processSocketWritable limits layout reply completed = some next) :
    Moves sender (.writable limits layout reply completed) next := by
  unfold processSocketWritable at taken
  cases isOutcome : sender.socket.processSocketWritable limits layout reply with
  | none =>
    rw [isOutcome] at taken
    contradiction
  | some outcome =>
    rw [isOutcome] at taken
    have writing := processSocketWritable_cases sized.measured isOutcome
    have isSized : Sized outcome.socket.sendQueue := writing.sized sized
    dsimp only at taken
    by_cases sends : sender.socket.canSend = true
    · rw [if_neg (by rw [sends]; decide)] at taken
      by_cases stays : outcome.socket.canSend = true
      · rw [if_neg (by rw [stays]; decide)] at taken
        cases writing with
        | @idle error =>
          cases error with
          | none =>
            cases taken
            exact .wrote sends (.inl ⟨rfl, rfl, rfl⟩) rfl isSized
          | some error =>
            cases error with
            | wouldBlock =>
              cases taken
              exact .blocked ⟨rfl, rfl, rfl⟩
            | cancelled | eof | invalid | failed =>
              cases taken
              exact .ended rfl isSized
        | wrote _ _ _ writes =>
          cases taken
          refine .wrote sends (.inr ?_) rfl isSized
          unfold isEmpty
          cases isEntries : sender.socket.sendQueue.entryList with
          | nil =>
            rw [isEntries] at writes
            cases writes
            contradiction
          | cons => rfl
        | ended => contradiction
      · rw [Bool.not_eq_true] at stays
        rw [if_pos (by rw [stays]; decide)] at taken
        cases taken
        exact .ended rfl isSized
    · rw [Bool.not_eq_true] at sends
      rw [if_pos (by rw [sends]; decide)] at taken
      have isSame : outcome = { socket := sender.socket } := by
        unfold StreamSocket.processSocketWritable at isOutcome
        rw [sends, if_neg (by decide)] at isOutcome
        exact (some.inj isOutcome).symm
      rw [← some.inj taken, isSame]
      exact .blocked ⟨rfl, rfl, rfl⟩

theorem privateShutdown_moves [DecidableEq Token] {graceful completed : Bool}
    (sized : Sized sender.socket.sendQueue)
    (taken : sender.privateShutdown graceful completed = some next) :
    Moves sender (.shutdown graceful completed) next ∨ next = sender := by
  unfold privateShutdown at taken
  cases isOutcome : sender.socket.privateShutdown graceful with
  | none =>
    rw [isOutcome] at taken
    contradiction
  | some outcome =>
    rw [isOutcome] at taken
    dsimp only at taken
    split at taken
    · rename_i sends
      split at taken
      · rename_i waits
        obtain ⟨isGraceful, hasEntries⟩ := Bool.and_eq_true_iff.mp waits
        cases taken
        left
        have isMarked : outcome.socket = { sender.socket with
            nextEntryId := sender.socket.nextEntryId + 1
            sendQueue := ⟨sender.socket.sendQueue.entryList ++
              [{ id := sender.socket.nextEntryId + 1 }], sender.socket.sendQueue.size⟩ } := by
          unfold StreamSocket.privateShutdown at isOutcome
          rw [if_pos sends, if_pos ⟨isGraceful, by simpa [isEmpty] using hasEntries⟩] at isOutcome
          exact congrArg Outcome.socket (some.inj isOutcome).symm
        rw [isMarked]
        have ne : sender.socket.sendQueue.entryList ++
            [({ id := sender.socket.nextEntryId + 1 } : Entry Token)] ≠ [] :=
          List.append_ne_nil_of_right_ne_nil _ (List.cons_ne_nil _ _)
        exact .marked ⟨.inr ne, .refl, rfl, rfl, sized.concat rfl⟩ ne
      · cases taken
        exact .inl (.shut rfl sized)
    · exact .inr (some.inj taken).symm

variable {action : Action Token}

/-- Every critical section does one of these, or nothing. -/
theorem perform_moves [DecidableEq Token] (sized : Sized sender.socket.sendQueue)
    (taken : sender.perform action = some next)
 : Moves sender action next ∨ next = sender := by
  cases action with
  | send message options hasCallback plugIns reply =>
    left
    change sender.send message options hasCallback plugIns reply = some next at taken
    unfold send at taken
    cases isOutcome : sender.socket.send message options hasCallback plugIns reply with
    | none =>
      rw [isOutcome] at taken
      contradiction
    | some outcome =>
      rw [isOutcome] at taken
      dsimp only at taken
      split at taken
      · rename_i refused
        rw [send_refused refused.1 refused.2, some.injEq] at isOutcome
        rw [← some.inj taken, ← isOutcome]
        exact .refused refused.1 refused.2
      · cases taken
        exact .sent (grows_of_sending (send_cases isOutcome) sized)
  | sendCipherData _ reply =>
    left
    obtain ⟨outcome, isOutcome, isNext⟩ := map_eq_some_iff.mp taken
    rw [← isNext]
    exact .sentCipherData (grows_of_sending (sendCipherData_cases isOutcome) sized)
  | writable _ _ _ completed => exact .inl (writable_moves sized taken)
  | finishWritable =>
    cases taken
    exact .inl Moves.finished
  | sendDeadline =>
    left
    obtain ⟨outcome, isOutcome, isNext⟩ := map_eq_some_iff.mp taken
    rw [← isNext]
    exact .removed (.deadline (processSendDeadlineTimer_cases isOutcome))
  | cancel =>
    left
    obtain ⟨outcome, isOutcome, isNext⟩ := map_eq_some_iff.mp taken
    rw [← isNext]
    exact .removed (.cancel (cancel_cases isOutcome))
  | zeroCopyUpdate =>
    cases taken
    exact .inl (.zeroCopyUpdated ⟨rfl, rfl, rfl⟩)
  | setZeroCopyThreshold =>
    cases taken
    exact .inl (.setThreshold ⟨rfl, rfl, rfl⟩)
  | setWriteQueueLowWatermark low =>
    cases taken
    exact .inl (.setLow low)
  | setWriteQueueHighWatermark high =>
    cases taken
    exact .inl (.setHigh high)
  | setWriteQueueWatermarks low high =>
    cases taken
    exact .inl (.setBoth low high)
  | relaxFlowControl type =>
    cases taken
    exact .inl (.relaxed type)
  | removeWriteRateLimiter =>
    cases taken
    exact .inl Moves.unlimited
  | shutdown => exact privateShutdown_moves sized taken
  | shutdownSequenceComplete closes =>
    cases taken
    have closing := sender.socket.privateShutdownSequenceComplete_cases closes
    generalize sender.socket.privateShutdownSequenceComplete closes = outcome at closing
    have isSized := closing.sized sized
    refine .inl (.closed ?_ isSized)
    cases closing with
    | nothing => exact .inl ⟨rfl, rfl, rfl⟩
    | swept _ ended => exact .inr ended

theorem Removes.sized [DecidableEq Token] (removes : Removes socket action outcome)
    (sized : Sized socket.sendQueue) : Sized outcome.socket.sendQueue := by
  cases removes with
  | deadline removing | cancel removing => exact removing.sized sized

end Sender

end NtfCore.Ntcr
