import NtfCore.Ntcq.Send
import NtfCore.Ntcq.ZeroCopy.Queue

/-!
Contract: the sending half of a stream socket (`ntcr::StreamSocket`).

Owns: `send`, the direct attempts of `privateSendRaw` and `privateSendEncrypted`,
the two iterations of a writable event, the deadline timer of a send, `cancel`, the
notifications of zero-copy transfers and the shutdown sequence, as
`ntcr_streamsocket.cpp` computes them; and the record of what the socket does: the
calls of the system, the callbacks, what is accepted and what is removed.

Every definition is one critical section. What the operating system answers and
what the plug-ins for compression and encryption produce is given with each action.
An assertion of the source that fails is `none`. Flow control, watermark events,
rate limits, metrics and logging do not change the queues: a send that the rate
limiter refuses is one that would block. The shutdown sequence is two actions, since
the detachment from the reactor may come between them.
-/

namespace NtfCore.Ntcr

open NtfCore.Ntcq

variable {Token : Type}

/-- The errors of `ntsa::Error` that are told apart. -/
inductive Error where
  | wouldBlock
  | cancelled
  | eof
  | invalid
  | failed
deriving DecidableEq

/-- `ntca::SendContext`. The compression of the data is left out. -/
structure SendContext (Token : Type) where
  token : Option Token := none
  error : Option Error := none

/-- `ntca::SendOptions`. -/
structure SendOptions (Token : Type) where
  token : Option Token := none
  deadline : Option Int := none
  foreignHandle : Option Int := none
  highWatermark : Option Nat := none
/-- `ntca::SendEventType`. -/
inductive SendEventType where
  | complete
  | error

/-- The data of a send: a `bdlbb::Blob`, or an `ntsa::Data`, which may be a file or an
array of buffers. -/
inductive Message where
  | blob (bytes : List UInt8)
  | data (bytes : List UInt8) (isFile : Bool) (buffers : Buffers)

def Message.bytes : Message -> List UInt8
  | .blob bytes => bytes
  | .data bytes _ _ => bytes

def Message.buffers : Message -> Buffers
  | .blob _ => {}
  | .data _ _ buffers => buffers

inductive Reply where
  | failed
  | wouldBlock
  | sent (numBytes : Nat) (zeroCopy : Bool)

/-- What the deflater and the encryption session, where the socket has them, make of
the data they are given in one call of `send`. An error is `none`. -/
structure PlugIns where
  deflate : Option (List UInt8 -> Option (List UInt8)) := none
  encrypt : Option (List UInt8 -> Option (List UInt8)) := none

abbrev Entry (Token : Type) := SendQueueEntry Token (SendContext Token) Nat

abbrev ZeroCopies (Token : Type) := ZeroCopyQueue (List UInt8) (SendContext Token) Nat

abbrev Notice (Token : Type) := Option (SendContext Token) × Nat

/-- `ntcr::StreamSocket`, connected. The state of the connection is `isOpen`, of the
shutdown `canSend`, and `isWritable` tells whether the send direction of the socket
of the operating system is up. The largest threshold, which no data reach, is
`none`. -/
structure StreamSocket (Token : Type) where
  isOpen : Bool := true
  canSend : Bool := true
  isWritable : Bool := true
  sendCounter : Nat := 0
  sendQueue : SendQueue Token (SendContext Token) Nat := {}
  nextEntryId : Nat := 1
  highWatermark : Nat := 67108864
  zeroCopyQueue : ZeroCopies Token := {}
  zeroCopyThreshold : Option Nat := none

/-- What is observed of a socket, by the counters of the sends: data handed to
`privateSendRaw`; data accepted, with the handle and whether there is a callback;
one call of the system that wrote data, the sends that the data are of, the handle
passed, and whether the call used zero-copy; a callback invoked; an entry removed
from the queue by its deadline or its token; and the shutdown of the send direction
with the entries discarded. -/
inductive Event (Token : Type) where
  | handed (counter : Nat) (data : List UInt8)
  | accepted (counter : Nat) (data : List UInt8) (foreignHandle : Option Int) (callback : Bool)
  | wrote (owners : List Nat) (data : List UInt8) (foreignHandle : Option Int) (zeroCopy : Bool)
  | dispatched (callback : Nat) (type : SendEventType) (context : SendContext Token)
  | removed (counter : Nat)
  | shut (discarded : List Nat)
namespace StreamSocket

/-- The result of `privateEnqueueSendBuffer`: its error, and the context it loads. -/
structure Attempt (Token : Type) where
  error : Option Error := none
  bytesSent : Nat := 0
  zeroCopy : Bool := false
  socket : StreamSocket Token
  events : List (Event Token) := []

/-- Whether `privateEnqueueSendBuffer` asks for zero-copy. -/
def wantsZeroCopy (socket : StreamSocket Token) (data : List UInt8) (isFile : Bool) : Bool :=
  match socket.zeroCopyThreshold with
  | some threshold => decide (threshold ≤ data.length) && !isFile
  | none => false

/-- `privateEnqueueSendBuffer`. Which sends the first bytes of the data belong to is
only recorded. -/
def privateEnqueueSendBuffer (socket : StreamSocket Token) (data : List UInt8) (isFile : Bool)
    (foreignHandle : Option Int) (owners : Nat -> List Nat) (reply : Reply) : Attempt Token :=
  if socket.isWritable then
    match reply with
    | .failed => { error := some .failed, socket := socket }
    | .wouldBlock => { error := some .wouldBlock, socket := socket }
    | .sent numBytes zeroCopy =>
      let wanted := socket.wantsZeroCopy data isFile
      let used := wanted && zeroCopy
      let bytesSent := min numBytes data.length
      { error := if bytesSent = 0 ∧ data ≠ [] then some .wouldBlock else none
        bytesSent := bytesSent
        zeroCopy := used
        socket := { socket with
          zeroCopyThreshold := if wanted ≠ used then none else socket.zeroCopyThreshold }
        events := [.wrote (owners bytesSent) (data.take bytesSent) foreignHandle used] }
  else { error := some .failed, socket := socket }

structure Outcome (Token : Type) where
  error : Option Error := none
  socket : StreamSocket Token
  events : List (Event Token) := []

def dispatch (type : SendEventType) (error : Option Error) (notices : List (Notice Token)) :
    List (Event Token) :=
  notices.map fun notice =>
    .dispatched notice.2 type { notice.1.getD {} with error := error }

/-- The direct attempt of `privateSendRaw`, made only when the queue is empty. -/
def attemptSend (socket : StreamSocket Token) (data : List UInt8) (isFile : Bool) (counter : Nat)
    (foreignHandle : Option Int) (reply : Reply) : Attempt Token :=
  if socket.sendQueue.entryList.isEmpty then
    socket.privateEnqueueSendBuffer data isFile foreignHandle
      (fun numBytes => if numBytes = 0 then [] else [counter]) reply
  else { socket := socket }

/-- The entry that `privateSendRaw` puts on the queue for the data that are left. -/
def entryFor (bytesSent : Nat) (zeroCopy : Bool) (container : List UInt8) (buffers : Buffers)
    (isFile : Bool) (counter : Nat) (options : SendOptions Token) (context : SendContext Token)
    (callback : Option Nat) : Entry Token :=
  { id := counter
    data := some container
    layout := buffers
    length := container.length
    token := context.token
    context := some context
    callback := callback
    zeroCopy := zeroCopy
    isFile := isFile
    foreignHandle := if bytesSent = 0 then options.foreignHandle else none
    deadline := if bytesSent = 0 then options.deadline else none
    timer := if bytesSent = 0 then options.deadline.map fun _ => counter else none }

def pushRemainder (zeroCopyQueue : ZeroCopies Token) (zeroCopy : Bool) (counter : Nat)
    (container : List UInt8) (context : SendContext Token) (callback : Option Nat) :
    Option (ZeroCopies Token) :=
  if zeroCopy then (zeroCopyQueue.push counter container (some context) callback).map Prod.snd
  else some zeroCopyQueue

/-- The body of both versions of `privateSendRaw`: they differ in the callback that
the entry on the queue is given, which depends on whether zero-copy was used. -/
def privateSendRaw (entryCallback : Bool -> Option Nat) (socket : StreamSocket Token)
    (data : List UInt8) (isFile : Bool) (buffers : Buffers) (counter : Nat)
    (options : SendOptions Token) (context : SendContext Token) (callback : Option Nat)
    (reply : Reply) : Option (Outcome Token) :=
  let attempt := socket.attemptSend data isFile counter options.foreignHandle reply
  let handed := Event.handed counter data :: attempt.events
  let accepted := handed ++ [.accepted counter data options.foreignHandle callback.isSome]
  if attempt.error = some .failed then
    some { error := some .failed, socket := attempt.socket, events := handed }
  else if attempt.bytesSent = data.length then
    if attempt.zeroCopy then do
      let (_, pushed) ← attempt.socket.zeroCopyQueue.push counter data (some context) callback
      let framed ← pushed.frame counter
      some { socket := { attempt.socket with zeroCopyQueue := framed }, events := accepted }
    else
      some {
        socket := attempt.socket
        events := accepted ++
          dispatch .complete none (callback.toList.map fun callback => (some context, callback)) }
  else do
    let (buffers, container) ← buffers.pop attempt.bytesSent data
    let zeroCopyQueue ← pushRemainder attempt.socket.zeroCopyQueue attempt.zeroCopy counter
      container context callback
    let entry := entryFor attempt.bytesSent attempt.zeroCopy container buffers isFile counter
      options context (entryCallback attempt.zeroCopy)
    let (_, sendQueue) ← attempt.socket.sendQueue.pushEntry entry
    some {
      socket := { attempt.socket with zeroCopyQueue := zeroCopyQueue, sendQueue := sendQueue }
      events := accepted }

/-- `privateSendRaw` of a `bdlbb::Blob`: the callback is not given to the entry when
the zero-copy queue has it. -/
def privateSendRawBlob (socket : StreamSocket Token) (data : List UInt8) (counter : Nat)
    (options : SendOptions Token) (context : SendContext Token) (callback : Option Nat)
    (reply : Reply) : Option (Outcome Token) :=
  privateSendRaw (fun zeroCopy => if zeroCopy then none else callback) socket data false {} counter
    options context callback reply

/-- `privateSendRaw` of an `ntsa::Data`: the callback is given to the entry in any
case. -/
def privateSendRawData (socket : StreamSocket Token) (data : List UInt8) (isFile : Bool)
    (buffers : Buffers) (counter : Nat) (options : SendOptions Token) (context : SendContext Token)
    (callback : Option Nat) (reply : Reply) : Option (Outcome Token) :=
  privateSendRaw (fun _ => callback) socket data isFile buffers counter options context callback
    reply

/-- `privateSendEncrypted`, with what the session makes of the data. -/
def privateSendEncrypted (socket : StreamSocket Token) (cipherData : Option (List UInt8))
    (counter : Nat) (options : SendOptions Token) (context : SendContext Token)
    (callback : Option Nat) (reply : Reply) : Option (Outcome Token) :=
  match cipherData with
  | none => some { error := some .failed, socket := socket }
  | some cipherData =>
    if 0 < cipherData.length then
      socket.privateSendRawBlob cipherData counter options context callback reply
    else
      some {
        socket := socket
        events := Event.accepted counter [] options.foreignHandle callback.isSome ::
          dispatch .complete none (callback.toList.map fun callback => (some context, callback)) }

/-- `send`. -/
def send (socket : StreamSocket Token) (message : Message) (options : SendOptions Token)
    (hasCallback : Bool) (plugIns : PlugIns) (reply : Reply) : Option (Outcome Token) :=
  let counter := socket.sendCounter
  let socket := { socket with sendCounter := counter + 1 }
  let callback := if hasCallback then some counter else none
  let context : SendContext Token := { token := options.token }
  if !socket.isOpen then some { error := some .invalid, socket := socket }
  else if options.highWatermark.getD socket.highWatermark ≤ socket.sendQueue.size then
    some { error := some .wouldBlock, socket := socket }
  else
    match plugIns.deflate with
    | none =>
      match plugIns.encrypt with
      | none =>
        match message with
        | .blob data =>
          socket.privateSendRawBlob data counter options context callback reply
        | .data data isFile buffers =>
          socket.privateSendRawData data isFile buffers counter options context callback reply
      | some encrypt =>
        socket.privateSendEncrypted (encrypt message.bytes) counter options context callback reply
    | some deflate =>
      match deflate message.bytes with
      | none => some { error := some .failed, socket := socket }
      | some deflatedData =>
        match plugIns.encrypt with
        | none =>
          socket.privateSendRawBlob deflatedData counter options context callback reply
        | some encrypt =>
          socket.privateSendEncrypted (encrypt deflatedData) counter options context callback
            reply

/-- What the session produces outside of `send`, in the handshake of `privateUpgrade`,
in `privateDowngrade`, and in answer to cipher text that `privateDequeueReceiveBuffer`
reads. -/
def sendCipherData (socket : StreamSocket Token) (cipherData : List UInt8) (reply : Reply) :
    Option (Outcome Token) :=
  if 0 < cipherData.length then
    let counter := socket.sendCounter
    ({ socket with sendCounter := counter + 1 }).privateSendRawBlob cipherData counter {} {} none reply
  else some { socket := socket }

/-! ## Batches -/

def buffersOf : List Nat -> List UInt8 -> List (List UInt8)
  | [], [] => []
  | [], byte :: data => [byte :: data]
  | size :: sizes, data => data.take size :: buffersOf sizes (data.drop size)

/-- The limits of `ntsa::SendOptions`, where zero is none. -/
structure Limits where
  maxBytes : Nat := 0
  maxBuffers : Nat := 0

/-- `SendQueueEntry::batchNext` over the buffers of the entry: the buffers of the
batch, and whether all of the entry is among them. -/
def batchBuffers (limits : Limits) :
    List (List UInt8) -> List (List UInt8) -> List (List UInt8) × Bool
  | [], batch => (batch, true)
  | buffer :: rest, batch =>
    if 0 < limits.maxBytes ∧ limits.maxBytes ≤ batch.flatten.length then (batch, false)
    else if 0 < limits.maxBuffers ∧ limits.maxBuffers ≤ batch.length then (batch, false)
    else batchBuffers limits rest (batch ++ [buffer])

/-- `SendQueueEntry::isBatchable`. -/
def isBatchable (entry : Entry Token) : Bool :=
  entry.data.isSome && !entry.isFile && entry.foreignHandle.isNone

/-- The loop of `SendQueue::batchNext`. -/
def batchEntries (limits : Limits) (layout : Nat -> List Nat) :
    List (Entry Token) -> List (List UInt8) -> List (List UInt8)
  | [], batch => batch
  | entry :: rest, batch =>
    if isBatchable entry then
      match batchBuffers limits (buffersOf (layout entry.id) entry.bytes) batch with
      | (batch, true) => batchEntries limits layout rest batch
      | (batch, false) => batch
    else batch

/-- `SendQueue::batchNext`: the data of the batch, if it is used. -/
def batchNext (queue : SendQueue Token (SendContext Token) Nat) (limits : Limits)
    (layout : Nat -> List Nat) : Option (List UInt8) :=
  if queue.entryList.length < 2 then none
  else
    match batchEntries limits layout queue.entryList [] with
    | [] => none
    | buffer :: rest => some (buffer :: rest).flatten

def ownersOf : List (Entry Token) -> Nat -> List Nat
  | [], _ => []
  | entry :: rest, numBytes =>
    if numBytes = 0 then [] else entry.id :: ownersOf rest (numBytes - entry.length)

def beginEntry (zeroCopyQueue : ZeroCopies Token) (entry : Entry Token) (zeroCopy : Bool) :
    Option (ZeroCopies Token × Entry Token) :=
  let started := if entry.deadline.isSome then { entry.closeTimer with deadline := none } else entry
  if zeroCopy then
    if started.zeroCopy then
      (zeroCopyQueue.extend started.id).map fun result => (result.2, started)
    else
      (zeroCopyQueue.push started.id started.bytes started.context started.callback).map
        fun result => (result.2, { started with zeroCopy := true, callback := none })
  else some (zeroCopyQueue, started)

def finishEntry (zeroCopyQueue : ZeroCopies Token) (entry : Entry Token) :
    Option (ZeroCopies Token × Option (Notice Token)) :=
  if entry.zeroCopy then
    (zeroCopyQueue.frame entry.id).map fun framed =>
      if framed.doneList.isEmpty then (framed, none) else (framed.pop.2, framed.pop.1)
  else some (zeroCopyQueue, entry.callback.map fun callback => (entry.context, callback))

/-- The loop of `privateSocketWritableIterationBatch`, from the front of the queue, for
the bytes that remain to be accounted for. -/
def batchLoop (zeroCopy : Bool) : List (Entry Token) -> Nat -> Nat -> ZeroCopies Token ->
    Option (SendQueue Token (SendContext Token) Nat × ZeroCopies Token × List (Notice Token))
  | [], size, numBytesRemaining, zeroCopyQueue =>
    if numBytesRemaining = 0 then some (⟨[], size⟩, zeroCopyQueue, []) else none
  | entry :: rest, size, numBytesRemaining, zeroCopyQueue =>
    if numBytesRemaining = 0 then some (⟨entry :: rest, size⟩, zeroCopyQueue, [])
    else do
      let (zeroCopyQueue, entry) ← beginEntry zeroCopyQueue entry zeroCopy
      if entry.length ≤ numBytesRemaining then
        let (zeroCopyQueue, notice) ← finishEntry zeroCopyQueue entry
        let (_, queue) ← SendQueue.popEntry ⟨entry :: rest, size⟩
        let (queue, zeroCopyQueue, notices) ←
          batchLoop zeroCopy rest queue.size (numBytesRemaining - entry.length) zeroCopyQueue
        some (queue, zeroCopyQueue, notice.toList ++ notices)
      else
        let queue ← SendQueue.popSize ⟨entry :: rest, size⟩ numBytesRemaining
        some (queue, zeroCopyQueue, [])

/-- `privateSocketWritableIterationBatch`. -/
def privateSocketWritableIterationBatch (socket : StreamSocket Token) (batch : List UInt8)
    (reply : Reply) : Option (Outcome Token) :=
  let attempt := socket.privateEnqueueSendBuffer batch false none
    (ownersOf socket.sendQueue.entryList) reply
  if attempt.error.isSome then
    some { error := attempt.error, socket := attempt.socket, events := attempt.events }
  else do
    let (sendQueue, zeroCopyQueue, notices) ←
      batchLoop attempt.zeroCopy attempt.socket.sendQueue.entryList attempt.socket.sendQueue.size
        attempt.bytesSent attempt.socket.zeroCopyQueue
    some {
      socket := { attempt.socket with sendQueue := sendQueue, zeroCopyQueue := zeroCopyQueue }
      events := attempt.events ++ dispatch .complete none notices }

/-- `privateShutdownSend`, as far as the shutdown is recorded. -/
def privateShutdownSend (socket : StreamSocket Token) : StreamSocket Token :=
  { socket with canSend := false }

/-- `privateSocketWritableIterationFront`. An entry without data ends the sending. -/
def privateSocketWritableIterationFront (socket : StreamSocket Token) (reply : Reply) :
    Option (Outcome Token) :=
  match socket.sendQueue.entryList with
  | [] => none
  | entry :: rest =>
    match entry.data with
    | some data =>
      let attempt := socket.privateEnqueueSendBuffer data entry.isFile entry.foreignHandle
        (ownersOf [entry]) reply
      if attempt.error.isSome then
        some { error := attempt.error, socket := attempt.socket, events := attempt.events }
      else do
        let (zeroCopyQueue, entry) ←
          beginEntry attempt.socket.zeroCopyQueue entry attempt.zeroCopy
        let queue : SendQueue Token (SendContext Token) Nat :=
          ⟨entry :: rest, attempt.socket.sendQueue.size⟩
        if attempt.bytesSent = entry.length then
          let (zeroCopyQueue, notice) ← finishEntry zeroCopyQueue entry
          let (_, sendQueue) ← queue.popEntry
          some {
            socket := { attempt.socket with
              sendQueue := sendQueue, zeroCopyQueue := zeroCopyQueue }
            events := attempt.events ++ dispatch .complete none notice.toList }
        else
          let sendQueue ← queue.popSize attempt.bytesSent
          some {
            socket := { attempt.socket with
              sendQueue := sendQueue, zeroCopyQueue := zeroCopyQueue }
            events := attempt.events }
    | none => do
      let (_, sendQueue) ← socket.sendQueue.popEntry
      some { socket := ({ socket with sendQueue := sendQueue }).privateShutdownSend }

/-- `privateSocketWritableIteration`. -/
def privateSocketWritableIteration (socket : StreamSocket Token) (limits : Limits)
    (layout : Nat -> List Nat) (reply : Reply) : Option (Outcome Token) :=
  if socket.sendQueue.entryList.isEmpty then
    some { error := some .wouldBlock, socket := socket }
  else
    match batchNext socket.sendQueue limits layout with
    | some batch => socket.privateSocketWritableIterationBatch batch reply
    | none => socket.privateSocketWritableIterationFront reply

/-- One iteration of `processSocketWritable`. An iteration that fails is followed by
the shutdown of the socket. -/
def processSocketWritable (socket : StreamSocket Token) (limits : Limits)
    (layout : Nat -> List Nat) (reply : Reply) : Option (Outcome Token) :=
  if socket.canSend then socket.privateSocketWritableIteration limits layout reply
  else some { socket := socket }

/-- What is done with an entry that is removed from the queue: the queue was left at
`index`, and the callback is invoked with the error. -/
def removeEntry (socket : StreamSocket Token) (index : Nat) (error : Error)
    (removal : Option (SendQueue.Removal Token (SendContext Token) Nat)) : Option (Outcome Token) :=
  match removal with
  | none => none
  | some removal =>
    let removed :=
      if removal.queue.entryList.length < socket.sendQueue.entryList.length then
        (socket.sendQueue.entryList[index]?).toList.map fun entry => Event.removed entry.id
      else []
    some {
      socket := { socket with sendQueue := removal.queue }
      events := removed ++ dispatch .error (some error)
        (removal.callback.toList.map fun callback => (removal.context, callback)) }

/-- `processSendDeadlineTimer`, for the deadline event of the timer of an entry. -/
def processSendDeadlineTimer (socket : StreamSocket Token) (entryId : Nat) :
    Option (Outcome Token) :=
  socket.removeEntry (socket.sendQueue.indexOfId entryId) .wouldBlock
    (socket.sendQueue.removeEntryId entryId)

/-- `cancel` of a token. -/
def cancel [DecidableEq Token] (socket : StreamSocket Token) (token : Token) :
    Option (Outcome Token) :=
  socket.removeEntry (socket.sendQueue.indexOfToken token) .cancelled
    (socket.sendQueue.removeEntryToken token)

/-- `privateZeroCopyUpdate`, where the copy was avoided or not. All that is done is
popped. -/
def privateZeroCopyUpdate (socket : StreamSocket Token) (zeroCopy : ZeroCopy) (avoided : Bool) :
    Outcome Token :=
  let updated := socket.zeroCopyQueue.update zeroCopy
  { socket := { socket with
      zeroCopyThreshold := if avoided then socket.zeroCopyThreshold else none
      zeroCopyQueue := { updated with doneList := [] } }
    events := dispatch .complete none (updated.doneList.filterMap ZeroCopyEntry.notification) }

/-- `privateShutdown` of the send direction: a graceful shutdown waits for the
entries on the queue. -/
def privateShutdown (socket : StreamSocket Token) (graceful : Bool) : Option (Outcome Token) :=
  if socket.canSend then
    if graceful ∧ ¬ socket.sendQueue.entryList.isEmpty then do
      let entryId := socket.nextEntryId + 1
      let (_, sendQueue) ← socket.sendQueue.pushEntry { id := entryId }
      some { socket := { socket with nextEntryId := entryId, sendQueue := sendQueue } }
    else some { socket := socket.privateShutdownSend }
  else some { socket := socket }

def pendingNotices (socket : StreamSocket Token) : List (Notice Token) :=
  (socket.zeroCopyQueue.doneList ++ socket.zeroCopyQueue.waitList).filterMap
      ZeroCopyEntry.notification ++
    socket.sendQueue.entryList.filterMap fun entry =>
      entry.callback.map fun callback => (entry.context, callback)

/-- `privateShutdownSequenceComplete`. For the send direction it comes once, behind
`privateShutdownSend`. It closes the socket when both directions are down. -/
def privateShutdownSequenceComplete (socket : StreamSocket Token) (closes : Bool) : Outcome Token :=
  if socket.canSend then { socket := socket }
  else if socket.isWritable then
    { socket := { socket with
        isOpen := socket.isOpen && !closes
        isWritable := false
        sendQueue := {}
        zeroCopyQueue := { socket.zeroCopyQueue with waitList := [], doneList := [] } }
      events := .shut (socket.sendQueue.entryList.map SendQueueEntry.id) ::
        dispatch .error (some .cancelled) socket.pendingNotices }
  else { socket := { socket with isOpen := socket.isOpen && !closes } }

inductive Action (Token : Type) where
  | send (message : Message) (options : SendOptions Token) (hasCallback : Bool)
      (plugIns : PlugIns) (reply : Reply)
  | sendCipherData (cipherData : List UInt8) (reply : Reply)
  | writable (limits : Limits) (layout : Nat -> List Nat) (reply : Reply)
  | sendDeadline (entryId : Nat)
  | cancel (token : Token)
  | zeroCopyUpdate (zeroCopy : ZeroCopy) (avoided : Bool)
  | setZeroCopyThreshold (threshold : Option Nat)
  | setWriteQueueHighWatermark (highWatermark : Nat)
  | shutdown (graceful : Bool)
  | shutdownSequenceComplete (closes : Bool)

def perform [DecidableEq Token] (socket : StreamSocket Token) :
    Action Token -> Option (Outcome Token)
  | .send message options hasCallback plugIns reply =>
    socket.send message options hasCallback plugIns reply
  | .sendCipherData cipherData reply => socket.sendCipherData cipherData reply
  | .writable limits layout reply => socket.processSocketWritable limits layout reply
  | .sendDeadline entryId => socket.processSendDeadlineTimer entryId
  | .cancel token => socket.cancel token
  | .zeroCopyUpdate zeroCopy avoided => some (socket.privateZeroCopyUpdate zeroCopy avoided)
  | .setZeroCopyThreshold threshold =>
    some { socket := { socket with zeroCopyThreshold := threshold } }
  | .setWriteQueueHighWatermark highWatermark =>
    some { socket := { socket with highWatermark := highWatermark } }
  | .shutdown graceful => socket.privateShutdown graceful
  | .shutdownSequenceComplete closes => some (socket.privateShutdownSequenceComplete closes)

end StreamSocket

structure SendHalf (Token : Type) where
  socket : StreamSocket Token := {}
  events : List (Event Token) := []

def SendHalf.step [DecidableEq Token] (half : SendHalf Token) (action : StreamSocket.Action Token) :
    Option (SendHalf Token) :=
  (half.socket.perform action).map fun outcome =>
    { socket := outcome.socket, events := half.events ++ outcome.events }

end NtfCore.Ntcr
