import NtfCore.Foundation.Run
import NtfCore.Ntcq.Accept

/-!
Contract: how a listener socket accepts (`ntcr::ListenerSocket`).

Owns: both versions of `accept`, `privateDequeueBacklog`, the readable event with its
iterations, the deadline timer of an accept and its `cancel`, the failure of the socket,
`shutdown`, and the dispatch of an accept callback, as `ntcr_listenersocket.cpp` and
`ntcq_accept.cpp` compute them.

A critical section ends where the mutex is released: around every callback that is
invoked at once, and around every announcement that is not deferred. What goes on behind
it is an activity of the socket, which any other section may precede. What the operating
system and the new stream socket answer is given with an action.
-/

namespace NtfCore.Ntcr.Listening

open NtfCore.Foundation NtfCore.Ntcq

/-! ## Vocabulary -/

/-- The values of `ntsa::Error` other than success, which is `none` where it may occur. -/
inductive Error where
  | wouldBlock
  | eof
  | cancelled
  | interrupted
  | connectionDead
  | connectionReset
  | limit
  | invalid
  | other (number : Nat)
deriving DecidableEq

/-- What one call of `privateDequeueBacklog` is answered: whether the rate limiter would
be exceeded, the error of `ntsi::ListenerSocket::accept`, those of the endpoints and the
options of the socket accepted, whether there is a reactor pool, and the errors of the
manager's registration and of `open`. -/
structure BacklogReply where
  exceedsBandwidth : Bool := false
  accepted : Option Error := none
  sourceEndpoint : Option Error := none
  remoteEndpoint : Option Error := none
  configured : Option Error := none
  hasReactorPool : Bool := true
  registered : Option Error := none
  opened : Option Error := none

/-- The result of `privateDequeueBacklog`. -/
inductive Dequeued where
  | connection
  /-- `announces` when the mutex is released for announcements before the return. -/
  | wouldBlock (announces : Bool)
  | failed (error : Error)
deriving DecidableEq

/-- `privateDequeueBacklog`. A connection that cannot be made a stream socket is closed
there, and taken by nobody. -/
def privateDequeueBacklog (reply : BacklogReply) : Dequeued :=
  if reply.exceedsBandwidth then .wouldBlock true
  else
    match reply.accepted with
    | some .wouldBlock | some .interrupted | some .connectionDead | some .connectionReset =>
      .wouldBlock false
    | some .limit => .wouldBlock true
    | some error => .failed error
    | none =>
      if reply.sourceEndpoint.isSome || reply.remoteEndpoint.isSome || reply.configured.isSome
      then .wouldBlock false
      else if !reply.hasReactorPool then .failed .invalid
      else if reply.registered.isSome || reply.opened.isSome then .wouldBlock false
      else .connection

/-- What becomes of an accept, known by the number of its call: it returns a connection,
or its callback is dispatched, with a connection or with an error. -/
inductive Outcome where
  | returned (call connection : Nat)
  | completed (call connection : Nat)
  | failed (call : Nat) (error : Error)

namespace Outcome

def connection? : Outcome -> Option Nat
  | .returned _ connection | .completed _ connection => some connection
  | .failed _ _ => none

def returned? : Outcome -> Option Nat
  | .returned call _ => some call
  | _ => none

def served? : Outcome -> Option Nat
  | .completed call _ => some call
  | _ => none

def dispatched? : Outcome -> Option Nat
  | .completed call _ | .failed call _ => some call
  | .returned _ _ => none

end Outcome

variable {Token : Type}

/-- Where an iteration of a readable event has released the mutex: in
`privateDequeueBacklog`, around a callback of its loop, or to announce one of the two
watermark events. -/
inductive IterationPhase where
  | blocked
  | serving
  | lowWatermark
  | highWatermark
deriving DecidableEq

inductive Activity (Token : Type) where
  /-- `privateSocketReadableIteration`. -/
  | iterating (phase : IterationPhase)
  /-- `privateFail`, in its announcements. -/
  | failing
  /-- The shutdown sequence, up to the callbacks. -/
  | closing (defer : Bool)
  /-- The shutdown sequence, with the callbacks that it is about to dispatch. -/
  | draining (entries : List (AcceptCallbackQueueEntry Token))
  /-- An asynchronous accept, in `privateDequeueBacklog`. -/
  | accepting (entry : AcceptCallbackQueueEntry Token)
deriving DecidableEq

/-- `ntcr::ListenerSocket`, as far as it accepts. `finished` are the callbacks whose state
is finished, `timers` those with a deadline timer, which may fire as long as it likes, and
`drained` is whether the shutdown has taken the callbacks off the queue.
The last four fields record what has happened: how many connections were taken and how
many calls made, which asynchronous accepts have succeeded, and the outcomes. -/
structure ListenerSocket (Token : Type) where
  acceptGreedily : Bool := false
  canReceive : Bool := true
  acceptQueue : AcceptQueue Token := {}
  finished : List Nat := []
  timers : List Nat := []
  drained : Bool := false
  activities : List (Activity Token) := []
  taken : Nat := 0
  calls : Nat := 0
  accepted : List Nat := []
  outcomes : List Outcome := []

namespace ListenerSocket

def await (socket : ListenerSocket Token) (activity : Activity Token) : ListenerSocket Token :=
  { socket with activities := socket.activities ++ [activity] }

def resumed (socket : ListenerSocket Token) (index : Nat) : ListenerSocket Token :=
  { socket with activities := socket.activities.eraseIdx index }

def record (socket : ListenerSocket Token) (outcome : Outcome) : ListenerSocket Token :=
  { socket with outcomes := socket.outcomes ++ [outcome] }

/-- `AcceptCallbackQueueEntry::dispatch`: nothing when the state of the entry is finished. -/
def dispatch (socket : ListenerSocket Token) (call : Nat) (outcome : Outcome) :
    ListenerSocket Token :=
  if call ∈ socket.finished then socket
  else { socket with finished := socket.finished ++ [call] }.record outcome

def succeed (socket : ListenerSocket Token) (call : Nat) : ListenerSocket Token :=
  { socket with accepted := socket.accepted ++ [call] }

def pushCallbackEntry (socket : ListenerSocket Token) (entry : AcceptCallbackQueueEntry Token) :
    ListenerSocket Token :=
  { socket with
    acceptQueue := socket.acceptQueue.pushCallbackEntry entry
    timers := if entry.options.deadline.isSome then socket.timers ++ [entry.id] else socket.timers }

def dismiss (socket : ListenerSocket Token) (error : Error) :
    Option (AcceptCallbackQueueEntry Token × AcceptQueue Token) -> ListenerSocket Token
  | none => socket
  | some (entry, queue) =>
    { socket with acceptQueue := queue }.dispatch entry.id (.failed entry.id error)

/-- `processAcceptDeadlineTimer`. -/
def processAcceptDeadlineTimer (socket : ListenerSocket Token) (call : Nat) :
    ListenerSocket Token :=
  socket.dismiss .wouldBlock (socket.acceptQueue.removeCallbackEntry call)

/-- `cancel`, and whether it succeeds. -/
def cancel [DecidableEq Token] (socket : ListenerSocket Token) (token : Token) :
    Option Error × ListenerSocket Token :=
  let removed := socket.acceptQueue.removeCallbackEntryByToken token
  (if removed.isSome then none else some .invalid, socket.dismiss .cancelled removed)

/-! ## Accept operations -/

def called (socket : ListenerSocket Token) : ListenerSocket Token :=
  { socket with calls := socket.calls + 1 }

def take (socket : ListenerSocket Token) : ListenerSocket Token :=
  { socket with taken := socket.taken + 1 }

def popEntry (socket : ListenerSocket Token) : ListenerSocket Token :=
  { socket with acceptQueue := socket.acceptQueue.popEntry }

/-- The synchronous `accept`. -/
def accept (socket : ListenerSocket Token) (reply : BacklogReply) :
    Option Error × ListenerSocket Token :=
  match socket.acceptQueue.frontEntry with
  | some connection =>
    (none, socket.called.popEntry.record (.returned socket.calls connection))
  | none =>
    if !socket.canReceive then (some .eof, socket.called)
    else if socket.acceptGreedily then
      match privateDequeueBacklog reply with
      | .connection => (none, socket.called.take.record (.returned socket.calls socket.taken))
      | .wouldBlock _ => (some .wouldBlock, socket.called)
      | .failed error => (some error, socket.called)
    else (some .wouldBlock, socket.called)

def complete (socket : ListenerSocket Token) (call connection : Nat) : ListenerSocket Token :=
  (socket.succeed call).dispatch call (.completed call connection)

def enqueue (socket : ListenerSocket Token) (entry : AcceptCallbackQueueEntry Token) :
    ListenerSocket Token :=
  (socket.succeed entry.id).pushCallbackEntry entry

/-- The asynchronous `accept`. The error of one that goes on behind announcements is not
known yet. -/
def acceptAsync (socket : ListenerSocket Token) (options : AcceptOptions Token)
    (reply : BacklogReply) : Option Error × ListenerSocket Token :=
  let entry : AcceptCallbackQueueEntry Token := ⟨socket.calls, options⟩
  if !socket.acceptQueue.hasEntry && !socket.canReceive then (some .eof, socket.called)
  else
    match socket.acceptQueue.frontEntry, socket.acceptQueue.hasCallbackEntry with
    | some connection, false => (none, socket.called.popEntry.complete entry.id connection)
    | _, _ =>
      if socket.acceptGreedily then
        match privateDequeueBacklog reply with
        | .connection => (none, socket.called.take.complete entry.id socket.taken)
        | .wouldBlock false => (none, socket.called.enqueue entry)
        | .wouldBlock true => (none, socket.called.await (.accepting entry))
        | .failed error => (some error, socket.called)
      else (none, socket.called.enqueue entry)

/-- One turn of the loop over the callbacks in `privateSocketReadableIteration`, and what
comes behind the loop when it is left. -/
def serve (socket : ListenerSocket Token) : ListenerSocket Token :=
  match socket.acceptQueue.popCallbackEntry with
  | none =>
    { socket with acceptQueue := socket.acceptQueue.authorizeLowWatermarkEvent.2 }.await
      (.iterating .lowWatermark)
  | some (entry, queue) =>
    match queue.frontEntry with
    -- `BSLS_ASSERT(d_acceptQueue.hasEntry())`
    | none => socket
    | some connection =>
      ({ socket with acceptQueue := queue }.popEntry.dispatch entry.id
        (.completed entry.id connection)).await (.iterating .serving)

/-- `privateSocketReadableIteration` up to its first callback, with what
`processSocketReadable` does on an error. -/
def privateSocketReadableIteration (socket : ListenerSocket Token) (reply : BacklogReply) :
    ListenerSocket Token :=
  if socket.acceptQueue.isHighWatermarkViolated then socket
  else
    match privateDequeueBacklog reply with
    | .wouldBlock false => socket
    | .wouldBlock true => socket.await (.iterating .blocked)
    | .failed _ => socket.await .failing
    | .connection =>
      ({ socket with acceptQueue := socket.acceptQueue.pushEntry socket.taken }.take).serve

/-- `processSocketReadable`. While the socket is detached it cannot receive. -/
def processSocketReadable (socket : ListenerSocket Token) (reply : BacklogReply) :
    ListenerSocket Token :=
  if socket.canReceive then socket.privateSocketReadableIteration reply else socket

/-- `processSocketReadable` behind an iteration: another one for a greedy socket. -/
def iterateAgain (socket : ListenerSocket Token) (reply : BacklogReply) : ListenerSocket Token :=
  if socket.acceptGreedily then socket.processSocketReadable reply else socket

/-- `privateShutdown` of both directions, up to the end of the detachment. -/
def privateShutdown (socket : ListenerSocket Token) (defer : Bool) : ListenerSocket Token :=
  if socket.canReceive then { socket with canReceive := false }.await (.closing defer) else socket

/-- The loop over the callbacks in `privateShutdownSequenceComplete`. -/
def dispatchEof (socket : ListenerSocket Token) :
    List (AcceptCallbackQueueEntry Token) -> ListenerSocket Token
  | [] => socket
  | entry :: rest => (socket.dispatch entry.id (.failed entry.id .eof)).dispatchEof rest

/-- `privateShutdownSequenceComplete`: deferred callbacks are dispatched in one section,
others one by one. -/
def privateShutdownSequenceComplete (socket : ListenerSocket Token) (defer : Bool) :
    ListenerSocket Token :=
  let popped := { socket with
    acceptQueue := socket.acceptQueue.popAllCallbackEntries.2
    drained := true }
  let entries := socket.acceptQueue.popAllCallbackEntries.1
  if defer then popped.dispatchEof entries else popped.await (.draining entries)

def proceed (socket : ListenerSocket Token) (reply : BacklogReply) :
    Activity Token -> ListenerSocket Token
  | .iterating .blocked => socket
  | .iterating .serving => socket.serve
  | .iterating .lowWatermark =>
    { socket with acceptQueue := socket.acceptQueue.authorizeHighWatermarkEvent.2 }.await
      (.iterating .highWatermark)
  | .iterating .highWatermark => socket.iterateAgain reply
  | .failing => socket.privateShutdown false
  | .closing defer => socket.privateShutdownSequenceComplete defer
  | .draining [] => socket
  | .draining (entry :: rest) =>
    (socket.dispatch entry.id (.failed entry.id .eof)).await (.draining rest)
  | .accepting entry => socket.enqueue entry

end ListenerSocket

inductive Action (Token : Type) where
  | accept (reply : BacklogReply)
  | acceptAsync (options : AcceptOptions Token) (reply : BacklogReply)
  | readable (reply : BacklogReply)
  | socketError
  | proceed (index : Nat) (reply : BacklogReply)
  | acceptDeadline (call : Nat)
  | cancel (token : Token)
  | shutdown
  | setAcceptQueueLowWatermark (lowWatermark : Nat)
  | setAcceptQueueHighWatermark (highWatermark : Nat)

def step [DecidableEq Token] (socket : ListenerSocket Token) :
    Action Token -> Option (ListenerSocket Token)
  | .accept reply => some (socket.accept reply).2
  | .acceptAsync options reply => some (socket.acceptAsync options reply).2
  | .readable reply => some (socket.processSocketReadable reply)
  | .socketError => some (socket.await .failing)
  | .proceed index reply =>
    match socket.activities[index]? with
    | none => none
    | some activity => some ((socket.resumed index).proceed reply activity)
  | .acceptDeadline call =>
    if call ∈ socket.timers then some (socket.processAcceptDeadlineTimer call) else none
  | .cancel token => some (socket.cancel token).2
  | .shutdown => some (socket.privateShutdown true)
  | .setAcceptQueueLowWatermark lowWatermark =>
    some { socket with acceptQueue := socket.acceptQueue.setLowWatermark lowWatermark }
  | .setAcceptQueueHighWatermark highWatermark =>
    some { socket with acceptQueue := socket.acceptQueue.setHighWatermark highWatermark }

def start (acceptGreedily isEdge : Bool) (lowWatermark highWatermark : Nat) :
    ListenerSocket Token :=
  { acceptGreedily := acceptGreedily
    acceptQueue :=
      (({ isEdge := isEdge } : AcceptQueue Token).setLowWatermark lowWatermark).setHighWatermark
        highWatermark }

end NtfCore.Ntcr.Listening
