import Mathlib.Algebra.Group.Nat.Defs
import NtfCore.Foundation.Monitor

/-!
Contract: how a stream socket is connected, shut down, detached and closed
(`ntcr::StreamSocket`).

Owns: the state that takes part in this; the calls of the user, the events of the reactor,
the timers, the resolutions of names and the completions of detachments, each up to the next
point where the mutex is released; what is dispatched to the connect callback and to the
callbacks of `close` and `release`; and the assertions on the mode of the detachment and on
the close callback.

Does not own: the data that are sent and received, of which only the callbacks, the end of
the stream and the failures are kept, as inputs; flow control, whose announcements only
release the mutex; the other announcements to the session, which are always deferred.

What the operating system, the reactor and the resolver answer is an input. The mutex is
released in an announcement that is not deferred and that the strands let through, which is
an input too. Interest in the readability of a socket is shown only once it is connected. A
process whose assertion has failed takes no further step.
-/

namespace NtfCore.Ntcr.StreamSocket.Lifecycle

open NtfCore.Foundation

/-! ## Vocabulary -/

/-- The values of `ntsa::Error` other than success, which is `none` where it may occur. -/
inductive Error where
  | cancelled
  | connectionTimeout
  | connectionDead
  | connectionReset
  | eof
  | invalid
  | other (number : Nat)
deriving DecidableEq

/-- `ntcs::OpenState`. -/
inductive OpenState where
  | default
  | waiting
  | connecting
  | connected
  | closed
deriving DecidableEq

/-- `ntcs::DetachMode`. -/
inductive DetachMode where
  | idle
  | initiated
deriving DecidableEq

/-- `ntcs::DetachGoal`. -/
inductive DetachGoal where
  | toClose
  | toExport

/-- `ntsa::ShutdownType`. -/
inductive ShutdownType where
  | receive
  | send
  | both
deriving DecidableEq

/-- `ntsa::ShutdownMode`. -/
inductive ShutdownMode where
  | graceful
  | immediate
deriving DecidableEq

/-- `ntca::ConnectStrategy`. -/
inductive ConnectStrategy where
  | resolveIntoSingle
  | resolveIntoList

inductive ConnectEvent where
  | error (error : Option Error) (attemptsRemaining : Nat)
  | complete

/-- What `privateFailConnectPart2` is bound to. -/
structure Failure where
  defer : Bool
  connectCallback : Bool
  connectEvent : ConnectEvent

structure CloseEvent where
  callback : Nat
  descriptor : Bool
  openState : OpenState

inductive Assertion where
  | failConnect
  | failConnectPart2
  | shutdownSequenceComplete
  | closeFlowControl
  | closeCallback
deriving DecidableEq

/-- `ntcs::ShutdownContext`, without the origin and the announcement of the start. -/
structure ShutdownContext where
  shutdownSend : Bool := false
  shutdownReceive : Bool := false
  shutdownCompleted : Bool := false

namespace ShutdownContext

/-- `ntcs::ShutdownState::tryShutdownSend`, with the context of the caller and the state. -/
def tryShutdownSend (state : ShutdownContext) (keepHalfOpen : Bool) :
    Option (ShutdownContext × ShutdownContext) :=
  if state.shutdownSend then none
  else
    let alsoReceive := !keepHalfOpen && !state.shutdownReceive
    let shutdownReceive := state.shutdownReceive || alsoReceive
    let completes := shutdownReceive && !state.shutdownCompleted
    some
      (⟨true, alsoReceive, completes⟩,
        ⟨true, shutdownReceive, state.shutdownCompleted || completes⟩)

/-- `ntcs::ShutdownState::tryShutdownReceive`. -/
def tryShutdownReceive (state : ShutdownContext) (keepHalfOpen : Bool) :
    Option (ShutdownContext × ShutdownContext) :=
  if state.shutdownReceive then none
  else
    let alsoSend := !keepHalfOpen && !state.shutdownSend
    let shutdownSend := state.shutdownSend || alsoSend
    let completes := shutdownSend && !state.shutdownCompleted
    some
      (⟨alsoSend, true, completes⟩,
        ⟨shutdownSend, true, state.shutdownCompleted || completes⟩)

/-- `ntcs::ShutdownState::close`. -/
def closed : ShutdownContext := ⟨true, true, true⟩

end ShutdownContext

/-! ## Socket -/

inductive DetachCallback where
  | failConnectPart2 (failure : Failure)
  | shutdownSequenceComplete (context : ShutdownContext)

inductive DeferredCall where
  | processConnectDeadlineTimer
  | shutdown (direction : ShutdownType) (mode : ShutdownMode)
  | close (callback : Option Nat)

structure Socket where
  openState : OpenState := .default
  detachMode : DetachMode := .idle
  detachGoal : DetachGoal := .toClose
  shutdownState : ShutdownContext := {}
  keepHalfOpen : Bool := false
  /-- A name to connect to is set. -/
  connectName : Bool := false
  /-- The length of `connectEndpointVector`. -/
  connectEndpoints : Nat := 0
  connectStrategy : ConnectStrategy := .resolveIntoSingle
  /-- The count in `connectOptions`, zero if it is null. -/
  retryCount : Nat := 0
  connectAttempts : Nat := 0
  /-- The error in `connectContext`. -/
  connectError : Option Error := none
  connectCallback : Bool := false
  connectInProgress : Bool := false
  retryConnect : Bool := false
  upgradeInProgress : Bool := false
  /-- The entries of the send queue that stand for a shutdown. -/
  shutdownEntries : Nat := 0
  closeCallback : Option Nat := none
  deferredCalls : List DeferredCall := []
  /-- The socket object is there. -/
  socket : Bool := false
  /-- The socket object has a handle. -/
  descriptor : Bool := false
  /-- `systemHandle` is valid. -/
  handle : Bool := false
  session : Bool := false
  resolver : Bool := false
  /-- The socket is registered with the reactor. -/
  attached : Bool := false
  /-- The detachments that the reactor has not completed. -/
  detachments : List DetachCallback := []
  /-- The attempts whose name is being resolved. -/
  resolutions : List Nat := []
  /-- The deferred calls that were given to the executor. -/
  functors : List DeferredCall := []
  /-- What was dispatched to the connect callback. -/
  connectEvents : List ConnectEvent := []
  /-- What was dispatched to close callbacks. -/
  closeEvents : List CloseEvent := []
  /-- How many close callbacks were accepted; they are numbered in this order. -/
  accepted : Nat := 0
  /-- The retries asked for in `connect`. -/
  requested : Nat := 0
  /-- An attempt was started while the descriptor of another was open and attached. -/
  overlapped : Bool := false
  failed : Option Assertion := none

inductive Frame where
  | privateFailConnect (error : Option Error) (defer close : Bool)
  /-- `privateFailConnectPart2`, behind its assertions. -/
  | privateFailConnectPart2 (failure : Failure)
  /-- Behind the announcement to the session. -/
  | dispatchConnectFailure (failure : Failure)
  /-- Behind the connect callback. -/
  | finishConnectFailure
  /-- Behind the retry. -/
  | executeDeferredCalls
  | privateRetryConnect
  /-- `privateRetryConnectToEndpoint`, or `processRemoteEndpointResolution` with an endpoint. -/
  | connectToEndpoint
  /-- Behind the announcement that the attempt is initiated. -/
  | attachSocket (connectAttempts : Nat)
  | privateSocketWritableConnection
  /-- Behind the announcement that the connection is complete. -/
  | dispatchConnectComplete (connectCallback : Bool)
  | privateFail (error : Error)
  /-- Behind the announcement of flow control. -/
  | closeAfterFail (error : Error)
  /-- Behind the announcement of an error, or the upgrade callback. -/
  | shutdownAfterFail
  | privateFailUpgrade
  | dispatchUpgradeFailure
  /-- The loop of `processSocketReadable`. -/
  | readable
  /-- The loop of `processSocketWritable`. -/
  | writable

inductive Establishment where
  /-- `privateOpen` fails, with or without having created a descriptor. -/
  | failsToOpen (error : Error) (created : Bool)
  /-- A later step fails. -/
  | fails (error : Error)
  | connects

inductive Attachment where
  /-- `attachSocket` or `showWritable` fails, with or without the socket registered. -/
  | fails (error : Error) (registered : Bool)
  | attaches

inductive Transfer where
  | done
  /-- A callback is invoked, or an announcement is made. -/
  | invokes
  | upgrades
  | upgradeFails
  /-- The end of the stream, or the entry that stands for a shutdown, is reached. -/
  | ends
  | fails (error : Error)

structure Input where
  /-- The strands let an announcement through. -/
  inlines : Bool := false
  /-- The reactor is there and detaches a socket that is registered. -/
  detaches : Bool := true
  /-- The error of `getEndpoint`. -/
  resolves : Option Error := none
  establishment : Establishment := .connects
  attachment : Attachment := .attaches
  /-- The error of a socket that is writable for the first time. -/
  connection : Option Error := none
  transfer : Transfer := .done

abbrev Outcome := Monitor.Outcome Socket Frame

namespace Socket

def fail (socket : Socket) (assertion : Assertion) : Socket :=
  { socket with failed := some assertion }

def dispatchClose (socket : Socket) : Socket :=
  { socket with
    closeCallback := none
    closeEvents := socket.closeEvents ++ socket.closeCallback.toList.map fun callback =>
      ⟨callback, socket.descriptor, socket.openState⟩ }

def moveAndExecute (socket : Socket) : Socket :=
  { socket with functors := socket.functors ++ socket.deferredCalls, deferredCalls := [] }

/-- `detachSocket` of the reactor, for a socket with a handle. Whether or not a detachment
is begun, the socket is registered no more. -/
def detachSocket (socket : Socket) (detaches : Bool) (callback : DetachCallback) : Socket :=
  let begun := socket.handle && socket.attached && detaches
  { socket with
    attached := socket.attached && !socket.handle
    detachMode := if begun then .initiated else socket.detachMode
    detachments := if begun then socket.detachments ++ [callback] else socket.detachments }

/-- What `privateShutdownSequenceComplete` does with the socket, behind its assertions. -/
def shutdownSequenceEnd (socket : Socket) (context : ShutdownContext) : Socket :=
  let sendClosed :=
    if context.shutdownSend then
      { socket with upgradeInProgress := false, shutdownEntries := 0 }
    else socket
  let completed :=
    if context.shutdownCompleted then
      { dispatchClose
          { sendClosed with
            descriptor := sendClosed.descriptor && !sendClosed.socket
            handle := false
            openState := .closed } with
        resolver := false
        session := false }
    else sendClosed
  completed.moveAndExecute

/-- `privateShutdownSequenceComplete`. -/
def privateShutdownSequenceComplete (socket : Socket) (context : ShutdownContext) (lock : Bool) :
    Socket :=
  if lock = decide (socket.detachMode = .initiated) then
    shutdownSequenceEnd { socket with detachMode := .idle } context
  else socket.fail .shutdownSequenceComplete

/-- `privateShutdownSequence` with `privateCloseFlowControl`. -/
def privateShutdownSequence (socket : Socket) (context : ShutdownContext) (detaches : Bool) :
    Socket :=
  if context.shutdownCompleted ∧ socket.handle then
    if socket.detachMode = .initiated then socket.fail .closeFlowControl
    else
      let detached := socket.detachSocket detaches (.shutdownSequenceComplete context)
      if detached.detachMode = .initiated then detached
      else detached.privateShutdownSequenceComplete context false
  else socket.privateShutdownSequenceComplete context false

def privateShutdownSend (socket : Socket) (detaches : Bool) : Socket :=
  match socket.shutdownState.tryShutdownSend socket.keepHalfOpen with
  | none => socket
  | some (context, shutdownState) =>
    { socket with shutdownState := shutdownState }.privateShutdownSequence context detaches

def privateShutdownReceive (socket : Socket) (detaches : Bool) : Socket :=
  match socket.shutdownState.tryShutdownReceive socket.keepHalfOpen with
  | none => socket
  | some (context, shutdownState) =>
    { socket with shutdownState := shutdownState }.privateShutdownSequence context detaches

/-- `privateShutdown`. The send queue has an entry if `hasEntry`. -/
def privateShutdown (socket : Socket) (direction : ShutdownType) (mode : ShutdownMode)
    (hasEntry detaches : Bool) : Socket :=
  let closeAnnouncementRequired :=
    socket.closeCallback.isSome && socket.shutdownState.shutdownCompleted
  let receiveClosed :=
    if direction ≠ .send ∧ ¬ socket.shutdownState.shutdownReceive then
      socket.privateShutdownReceive detaches
    else socket
  let sendClosed :=
    if direction ≠ .receive ∧ ¬ receiveClosed.shutdownState.shutdownSend then
      if mode = .graceful ∧ hasEntry then
        { receiveClosed with shutdownEntries := receiveClosed.shutdownEntries + 1 }
      else receiveClosed.privateShutdownSend detaches
    else receiveClosed
  if closeAnnouncementRequired then sendClosed.dispatchClose else sendClosed

/-! ## Connection -/

def failForGood (socket : Socket) : Socket :=
  { socket with
    openState := .closed
    connectInProgress := false
    connectCallback := false
    connectError := none
    shutdownState := .closed }

def markFailed (socket : Socket) (error : Option Error) : Socket :=
  if socket.retryCount = 0 then socket.failForGood
  else { socket with connectError := error, openState := .waiting }

/-- What `privateFailConnectPart2` has to dispatch. -/
def connectFailure (socket : Socket) (error : Option Error) (defer : Bool) : Failure where
  defer := defer
  connectCallback := socket.connectCallback
  connectEvent := .error error socket.retryCount

/-- `privateFailConnect` of a connection in progress that is not being detached. -/
def failAttempt (socket : Socket) (error : Option Error) (defer detaches : Bool) : Outcome :=
  let failure := socket.connectFailure error defer
  let detached := (socket.markFailed error).detachSocket detaches (.failConnectPart2 failure)
  if detached.detachMode = .initiated then .continues detached []
  else .continues detached [.privateFailConnectPart2 failure]

def privateFailConnect (socket : Socket) (error : Option Error) (defer close detaches : Bool) :
    Outcome :=
  if ¬ socket.connectInProgress then .continues socket []
  else if socket.detachMode = .initiated then .continues (socket.fail .failConnect) []
  else if close then { socket with retryCount := 0 }.failAttempt error defer detaches
  else if socket.connectError = none then socket.failAttempt error defer detaches
  else if socket.retryConnect then
    .continues { socket with retryConnect := false } [.privateRetryConnect]
  else .continues socket []

/-- The thread goes on with a frame behind an announcement, which is made if `announced`. -/
def behind (socket : Socket) (announced : Bool) (frame : Frame) : Outcome :=
  if announced then .releases socket [frame] else .continues socket [frame]

def privateFailConnectPart2 (socket : Socket) (failure : Failure) (inlines : Bool) : Outcome :=
  let closed :=
    if socket.handle ∧ socket.socket then { socket with descriptor := false, handle := false }
    else socket
  closed.behind (closed.session && !failure.defer && inlines) (.dispatchConnectFailure failure)

def dispatchConnectFailure (socket : Socket) (failure : Failure) (inlines : Bool) : Outcome :=
  if failure.connectCallback then
    behind { socket with connectEvents := socket.connectEvents ++ [failure.connectEvent] }
      (!failure.defer && inlines) .finishConnectFailure
  else .continues socket [.finishConnectFailure]

def finishConnectFailure (socket : Socket) : Outcome :=
  let dispatched := socket.dispatchClose
  let reset :=
    if dispatched.retryCount = 0 then { dispatched with resolver := false, session := false }
    else dispatched
  if reset.retryConnect then
    .continues { reset with retryConnect := false } [.privateRetryConnect, .executeDeferredCalls]
  else .continues reset [.executeDeferredCalls]

def remainingEndpoints (socket : Socket) : Nat :=
  match socket.connectStrategy with
  | .resolveIntoSingle => socket.connectEndpoints
  | .resolveIntoList =>
    if socket.connectName then socket.connectEndpoints - 1 else socket.connectEndpoints

def startAttempt (socket : Socket) : Socket :=
  { socket with
    shutdownState := {}
    connectError := none
    openState := .connecting
    connectAttempts := socket.connectAttempts + 1
    retryCount := socket.retryCount - 1
    connectEndpoints := socket.remainingEndpoints
    overlapped :=
      socket.overlapped ||
        (socket.descriptor && (socket.attached || socket.detachMode = .initiated)) }

def privateRetryConnect (socket : Socket) (resolves : Option Error) : Outcome :=
  if socket.openState ≠ .waiting ∨ ¬ socket.connectInProgress ∨ socket.retryCount = 0 then
    .continues socket []
  else
    let started := socket.startAttempt
    if started.connectEndpoints = 0 then
      -- Without a resolver the error is the one that was not set.
      if ¬ started.resolver then .continues started [.privateFailConnect none false false]
      else
        match resolves with
        | some error => .continues started [.privateFailConnect (some error) false false]
        | none =>
          .continues
            { started with resolutions := started.resolutions ++ [started.connectAttempts] } []
    else .continues started [.connectToEndpoint]

/-- `privateOpen` succeeds. -/
def opened (socket : Socket) : Socket :=
  { socket with socket := true, descriptor := true, handle := true }

/-- `privateOpen` fails: a descriptor that it has created stays with a socket object that
was there before, and is closed with one that was not. -/
def openFailed (socket : Socket) (created : Bool) : Socket :=
  { socket with
    descriptor := socket.descriptor || (created && socket.socket && !socket.handle) }

def connectToEndpoint (socket : Socket) (establishment : Establishment) (inlines : Bool) :
    Outcome :=
  match establishment with
  | .failsToOpen error created =>
    .continues (socket.openFailed created) [.privateFailConnect (some error) false false]
  | .fails error => .continues socket.opened [.privateFailConnect (some error) false false]
  | .connects =>
    socket.opened.behind (socket.session && inlines) (.attachSocket socket.connectAttempts)

def attachSocket (socket : Socket) (connectAttempts : Nat) (attachment : Attachment) : Outcome :=
  if socket.detachMode = .initiated ∨ ¬ socket.connectInProgress ∨
      connectAttempts ≠ socket.connectAttempts then
    .continues socket []
  else if ¬ socket.handle then
    .continues socket [.privateFailConnect (some .invalid) false false]
  else
    match attachment with
    | .fails error registered =>
      .continues { socket with attached := socket.attached || registered }
        [.privateFailConnect (some error) false false]
    | .attaches => .continues { socket with attached := true } []

def privateSocketWritableConnection (socket : Socket) (connection : Option Error)
    (inlines : Bool) : Outcome :=
  if ¬ socket.connectInProgress then .continues socket []
  else
    match connection with
    | some error => .continues socket [.privateFailConnect (some error) false false]
    | none =>
      behind
        { socket with
          retryCount := 0
          connectInProgress := false
          connectEndpoints := 0
          openState := .connected
          connectCallback := false
          connectError := none }
        (socket.session && inlines) (.dispatchConnectComplete socket.connectCallback)

def dispatchConnectComplete (socket : Socket) (connectCallback : Bool) : Outcome :=
  if socket.openState = .connected ∧ connectCallback then
    .continues { socket with connectEvents := socket.connectEvents ++ [.complete] } []
  else .continues socket []

def privateFail (socket : Socket) (error : Error) (inlines : Bool) : Outcome :=
  if socket.connectInProgress then
    .continues socket [.privateFailConnect (some error) false false]
  else if socket.upgradeInProgress then .continues socket [.privateFailUpgrade]
  else socket.behind (socket.session && inlines) (.closeAfterFail error)

def closeAfterFail (socket : Socket) (error : Error) (detaches inlines : Bool) : Outcome :=
  if error = .connectionDead ∨ error = .connectionReset then
    .continues ((socket.privateShutdownReceive detaches).privateShutdownSend detaches) []
  else socket.behind (socket.session && inlines) .shutdownAfterFail

def shutdownAfterFail (socket : Socket) (detaches : Bool) : Outcome :=
  .continues (socket.privateShutdown .both .immediate false detaches) []

def privateFailUpgrade (socket : Socket) (inlines : Bool) : Outcome :=
  if ¬ socket.upgradeInProgress then .continues socket []
  else
    behind { socket with upgradeInProgress := false } (socket.session && inlines)
      .dispatchUpgradeFailure

def readable (socket : Socket) (transfer : Transfer) (detaches : Bool) : Outcome :=
  match transfer with
  | .done => .continues socket []
  | .invokes => .releases socket [.readable]
  | .upgrades => .releases { socket with upgradeInProgress := false } [.readable]
  | .upgradeFails => .continues socket [.privateFailUpgrade, .readable]
  | .ends => .continues (socket.privateShutdownReceive detaches) [.privateFail .eof]
  | .fails error => .continues socket [.privateFail error]

def writable (socket : Socket) (transfer : Transfer) (detaches : Bool) : Outcome :=
  match transfer with
  | .invokes => .releases socket [.writable]
  | .ends =>
    if 0 < socket.shutdownEntries then
      .continues
        ({ socket with shutdownEntries := socket.shutdownEntries - 1 }.privateShutdownSend
          detaches) [.writable]
    else .continues socket []
  | .fails error => .continues socket [.privateFail error]
  | _ => .continues socket []

/-- `privateClose`. -/
def privateClose (socket : Socket) (callback : Option Nat) (detaches : Bool) :
    Socket × List Frame :=
  if socket.detachMode = .initiated then
    ({ socket with deferredCalls := socket.deferredCalls ++ [.close callback] }, [])
  else if socket.closeCallback.isSome then (socket.fail .closeCallback, [])
  else
    let registered := { socket with closeCallback := callback }
    if registered.connectInProgress then
      (registered, [.privateFailConnect (some .cancelled) true true])
    else (registered.privateShutdown .both .immediate false detaches, [])

def accept (socket : Socket) (callback : Bool) : Socket × Option Nat :=
  if callback then ({ socket with accepted := socket.accepted + 1 }, some socket.accepted)
  else (socket, none)

def close (socket : Socket) (callback detaches : Bool) : Socket × List Frame :=
  let accepted := socket.accept callback
  accepted.1.privateClose accepted.2 detaches

def release (socket : Socket) (callback detaches : Bool) : Socket × List Frame :=
  if ¬ (socket.socket ∧ socket.descriptor) then (socket, [])
  else close { socket with detachGoal := .toExport, session := false } callback detaches

def shutdown (socket : Socket) (direction : ShutdownType) (mode : ShutdownMode)
    (hasEntry detaches : Bool) : Socket × List Frame :=
  if socket.detachMode = .initiated then
    ({ socket with deferredCalls := socket.deferredCalls ++ [.shutdown direction mode] }, [])
  else if socket.connectInProgress then
    (socket,
      if direction = .receive then [] else [.privateFailConnect (some .cancelled) true true])
  else (socket.privateShutdown direction mode hasEntry detaches, [])

def processConnectDeadlineTimer (socket : Socket) : Socket × List Frame :=
  if socket.detachMode = .initiated then
    ({ socket with
        retryConnect := false
        deferredCalls := socket.deferredCalls ++ [.processConnectDeadlineTimer] }, [])
  else if socket.connectInProgress then
    (socket, [.privateFailConnect (some .connectionTimeout) false true])
  else (socket, [])

def processConnectRetryTimer (socket : Socket) : Socket × List Frame :=
  if ¬ socket.connectInProgress then (socket, [])
  else if 0 < socket.connectAttempts then
    ({ socket with retryConnect := true },
      if socket.detachMode = .initiated then []
      else [.privateFailConnect (some .connectionTimeout) false false])
  else (socket, [.privateRetryConnect])

/-- The largest value of `bsl::size_t`. -/
def sizeMax : Nat := 2 ^ 64 - 1

/-- The count that `connect` sets, which includes the first attempt. -/
def initialRetryCount (named : Bool) (retryCount : Option Nat) : Nat :=
  match retryCount with
  | none => 1
  | some count =>
    if count < sizeMax then count + 1 else if named then 0 else sizeMax

/-- `connect` to a name or to an endpoint. -/
def connect (socket : Socket) (named : Bool) (retryCount : Option Nat)
    (strategy : ConnectStrategy) (callback : Bool) : Socket :=
  if socket.openState ≠ .default ∨ socket.connectInProgress ∨ (named ∧ ¬ socket.resolver) then
    socket
  else
    { socket with
      openState := .waiting
      connectInProgress := true
      connectName := named
      connectEndpoints := if named then socket.connectEndpoints else socket.connectEndpoints + 1
      connectStrategy := strategy
      connectCallback := callback
      retryCount := initialRetryCount named retryCount
      requested := retryCount.getD 0 }

/-- `processRemoteEndpointResolution`, up to `privateOpen`, for the endpoints that were found
or the error. -/
def processRemoteEndpointResolution (socket : Socket) (connectAttempts endpoints : Nat)
    (error : Option Error) : Socket × List Frame :=
  if socket.detachMode = .initiated ∨ ¬ socket.connectInProgress ∨
      connectAttempts ≠ socket.connectAttempts then
    (socket, [])
  else
    let resolved := { socket with connectEndpoints := endpoints }
    match error with
    | some error => (resolved, [.privateFailConnect (some error) false false])
    | none => (resolved, [.connectToEndpoint])

def processSocketReadable (socket : Socket) : List Frame :=
  if socket.detachMode = .initiated ∨ socket.shutdownState.shutdownReceive then []
  else [.readable]

def processSocketWritable (socket : Socket) : List Frame :=
  if socket.detachMode = .initiated then []
  else if socket.connectInProgress then [.privateSocketWritableConnection]
  else if socket.shutdownState.shutdownSend then []
  else [.writable]

def processSocketError (socket : Socket) (error : Error) : List Frame :=
  if socket.detachMode = .initiated then []
  else if socket.connectInProgress then [.privateFailConnect (some error) false false]
  else if socket.upgradeInProgress then [.privateFailUpgrade]
  else [.privateFail error]

def upgrade (socket : Socket) (fails detaches : Bool) : Socket :=
  if socket.openState ≠ .connected ∨ socket.upgradeInProgress then socket
  else if fails then socket.privateShutdown .both .immediate false detaches
  else { socket with upgradeInProgress := true }

def processSocketDetached (socket : Socket) (callback : DetachCallback) : Socket × List Frame :=
  match callback with
  | .shutdownSequenceComplete context =>
    (socket.privateShutdownSequenceComplete context true, [])
  | .failConnectPart2 failure =>
    if socket.detachMode = .initiated then
      ({ socket with detachMode := .idle }, [.privateFailConnectPart2 failure])
    else (socket.fail .failConnectPart2, [])

def execute (socket : Socket) (functor : DeferredCall) (hasEntry detaches : Bool) :
    Socket × List Frame :=
  match functor with
  | .processConnectDeadlineTimer => socket.processConnectDeadlineTimer
  | .shutdown direction mode => socket.shutdown direction mode hasEntry detaches
  | .close callback => socket.privateClose callback detaches

end Socket

inductive Call where
  | connect (named : Bool) (retryCount : Option Nat) (strategy : ConnectStrategy)
    (callback : Bool)
  | cancelConnect
  | upgrade (fails detaches : Bool)
  | cancelUpgrade
  | shutdown (direction : ShutdownType) (mode : ShutdownMode) (hasEntry detaches : Bool)
  | release (callback detaches : Bool)
  | close (callback detaches : Bool)
  | registerSession
  | deregisterSession
  /-- The resolver is deregistered, or destroyed. -/
  | resolverGone
  | processConnectDeadlineTimer
  | processConnectRetryTimer
  | processUpgradeTimer
  | processSocketReadable
  | processSocketWritable
  | processSocketError (error : Error)
  | processRemoteEndpointResolution (index endpoints : Nat) (error : Option Error)
  | processSocketDetached (index : Nat)
  | execute (index : Nat) (hasEntry detaches : Bool)

open Socket in
def enter (socket : Socket) (call : Call) : Option (Socket × List Frame) :=
  if socket.failed.isSome then none
  else
    match call with
    | .connect named retryCount strategy callback =>
      some (socket.connect named retryCount strategy callback, [])
    | .cancelConnect => some
        (socket,
          if socket.connectInProgress then
            [.privateFailConnect (some .cancelled) false true]
          else [])
    | .upgrade fails detaches => some (socket.upgrade fails detaches, [])
    | .cancelUpgrade =>
      if socket.upgradeInProgress then
        some ({ socket with upgradeInProgress := false }, [.privateFail .cancelled])
      else some (socket, [])
    | .shutdown direction mode hasEntry detaches =>
      some (socket.shutdown direction mode hasEntry detaches)
    | .release callback detaches => some (socket.release callback detaches)
    | .close callback detaches => some (socket.close callback detaches)
    | .registerSession => some ({ socket with session := true }, [])
    | .deregisterSession => some ({ socket with session := false }, [])
    | .resolverGone => some ({ socket with resolver := false }, [])
    | .processConnectDeadlineTimer => some socket.processConnectDeadlineTimer
    | .processConnectRetryTimer => some socket.processConnectRetryTimer
    | .processUpgradeTimer =>
      some (socket, if socket.upgradeInProgress then [.privateFailUpgrade] else [])
    | .processSocketReadable =>
      if socket.attached ∧ socket.openState = .connected then
        some (socket, socket.processSocketReadable)
      else none
    | .processSocketWritable =>
      if socket.attached then some (socket, socket.processSocketWritable) else none
    | .processSocketError error =>
      if socket.attached then some (socket, socket.processSocketError error) else none
    | .processRemoteEndpointResolution index endpoints error =>
      socket.resolutions[index]?.map fun connectAttempts =>
        { socket with
          resolutions := socket.resolutions.eraseIdx index }.processRemoteEndpointResolution
            connectAttempts endpoints error
    | .processSocketDetached index =>
      socket.detachments[index]?.map fun callback =>
        { socket with
          detachments := socket.detachments.eraseIdx index }.processSocketDetached callback
    | .execute index hasEntry detaches =>
      socket.functors[index]?.map fun functor =>
        { socket with functors := socket.functors.eraseIdx index }.execute functor
          hasEntry detaches

def advance (socket : Socket) (frame : Frame) (input : Input) : Option Outcome :=
  if socket.failed.isSome then none
  else some <|
    match frame with
    | .privateFailConnect error defer close =>
      socket.privateFailConnect error defer close input.detaches
    | .privateFailConnectPart2 failure => socket.privateFailConnectPart2 failure input.inlines
    | .dispatchConnectFailure failure => socket.dispatchConnectFailure failure input.inlines
    | .finishConnectFailure => socket.finishConnectFailure
    | .executeDeferredCalls => .continues socket.moveAndExecute []
    | .privateRetryConnect => socket.privateRetryConnect input.resolves
    | .connectToEndpoint => socket.connectToEndpoint input.establishment input.inlines
    | .attachSocket connectAttempts => socket.attachSocket connectAttempts input.attachment
    | .privateSocketWritableConnection =>
      socket.privateSocketWritableConnection input.connection input.inlines
    | .dispatchConnectComplete connectCallback => socket.dispatchConnectComplete connectCallback
    | .privateFail error => socket.privateFail error input.inlines
    | .closeAfterFail error => socket.closeAfterFail error input.detaches input.inlines
    | .shutdownAfterFail => socket.shutdownAfterFail input.detaches
    | .privateFailUpgrade => socket.privateFailUpgrade input.inlines
    | .dispatchUpgradeFailure => socket.behind input.inlines .shutdownAfterFail
    | .readable => socket.readable input.transfer input.detaches
    | .writable => socket.writable input.transfer input.detaches

abbrev System := Monitor Socket Frame

abbrev Action := Monitor.Action Call Input

def step : System -> Action -> Option System :=
  Monitor.step enter advance

structure Configuration where
  keepHalfOpen : Bool := false
  session : Bool := false
  resolver : Bool := true
  /-- The socket is opened, but not connected. -/
  opened : Bool := false
  /-- The socket is opened for a descriptor that is connected. -/
  accepted : Bool := false

def initial (configuration : Configuration) : System where
  shared :=
    { openState := if configuration.accepted then .connected else .default
      keepHalfOpen := configuration.keepHalfOpen
      session := configuration.session
      resolver := configuration.resolver
      socket := configuration.opened || configuration.accepted
      descriptor := configuration.opened || configuration.accepted
      handle := configuration.opened || configuration.accepted
      attached := configuration.accepted }

end NtfCore.Ntcr.StreamSocket.Lifecycle
