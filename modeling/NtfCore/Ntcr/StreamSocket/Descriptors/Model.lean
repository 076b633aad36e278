import NtfCore.Foundation.Ownership
import NtfCore.Ntcr.StreamSocket.Lifecycle.Model

/-!
Contract: the descriptors, the handle reservations and the reactor of a stream socket
(`ntcr::StreamSocket`).

Owns: the state of its connection together with what has become of each descriptor that the
socket opened or was given; the calls that open it; what its operations do with the descriptor,
with the reservations of the reactor and with the reactor itself; and its destructor.

Does not own: what its operations do besides, which is as in the lifecycle; why an operation
of the operating system, or a reservation, fails, which is an input.

The reactor and the pool of reactors are there as long as the socket is. A socket object that
the user gives is another one than before, and no one else refers to a socket object.
-/

namespace NtfCore.Ntcr.StreamSocket.Descriptors

open NtfCore.Foundation
open Lifecycle (Socket Frame Input Establishment DetachCallback ShutdownContext ShutdownType
  ShutdownMode Error Failure Transfer Assertion DeferredCall)

structure Holder where
  core : Socket
  descriptors : Ownership := {}
  /-- What successful calls of `release` have returned. -/
  handed : List Nat := []
  reservationsAcquired : Nat := 0
  reservationsReleased : Nat := 0
  /-- The calls of `releaseReactor`. -/
  reactorReleases : Nat := 0

abbrev Outcome := Monitor.Outcome Holder Frame

/-- How far `privateOpen` comes without a recorded handle, for a descriptor of its own. -/
inductive Opening where
  /-- With or without having created a descriptor. -/
  | fails (created : Bool)
  | opens

/-- How far `privateOpen` comes without a recorded handle, for a descriptor that is given. -/
inductive Acquisition where
  | fails
  | acquires
  /-- The descriptor is connected; the reactor attaches the socket or fails to. -/
  | acquiresConnected (attaches : Bool)
deriving DecidableEq

namespace Holder

def fail (holder : Holder) (assertion : Assertion) : Holder :=
  { holder with core := holder.core.fail assertion }

def lift (holder : Holder) (outcome : Lifecycle.Outcome) : Outcome :=
  outcome.map fun core => { holder with core := core }

def acquireHandleReservation (holder : Holder) : Holder :=
  { holder with reservationsAcquired := holder.reservationsAcquired + 1 }

def releaseHandleReservation (holder : Holder) : Holder :=
  { holder with reservationsReleased := holder.reservationsReleased + 1 }

def releaseReactor (holder : Holder) : Holder :=
  { holder with reactorReleases := holder.reactorReleases + 1 }

def giveUp (holder : Holder) : Holder :=
  { holder with
    descriptors :=
      match holder.core.detachGoal with
      | .toClose => holder.descriptors.close
      | .toExport => holder.descriptors.release }

/-! ## Opening -/

/-- `privateOpen` succeeds, for a descriptor of its own or one that was left to the socket
object. With a recorded handle there is nothing to do. -/
def opened (holder : Holder) : Holder :=
  if holder.core.handle then { holder with core := holder.core.opened }
  else
    acquireHandleReservation { holder with
      core := holder.core.opened
      descriptors := holder.descriptors.acquire }

/-- `privateOpen` fails. A descriptor that it has created stays with a socket object that was
there before, and is closed with one that was not. -/
def openFailed (holder : Holder) (created : Bool) : Holder :=
  { holder with
    core := holder.core.openFailed created
    descriptors :=
      if created ∧ ¬ holder.core.handle then
        if holder.core.socket then holder.descriptors.acquire else holder.descriptors.discard
      else holder.descriptors }

/-- `privateOpen` for a transport, as by `open` or `bind`. -/
def privateOpen (holder : Holder) (opening : Opening) : Holder :=
  match opening with
  | .fails created => holder.openFailed created
  | .opens => holder.opened

/-- `privateOpen` succeeds for a descriptor that is given. -/
def recorded (holder : Holder) (acquisition : Acquisition) : Holder :=
  match acquisition with
  | .fails => holder
  | .acquires => holder.opened
  | .acquiresConnected attaches =>
    let opened := holder.opened
    { opened with
      core := { opened.core with
        openState := .connected
        attached := opened.core.attached || attaches } }

/-- `privateOpen` for a descriptor. If it fails, the descriptor stays with the caller. -/
def privateOpenHandle (holder : Holder) (acquisition : Acquisition) : Holder :=
  if holder.core.handle ∨ (holder.core.socket ∧ holder.core.descriptor) then holder
  else holder.recorded acquisition

def destroyObject (holder : Holder) : Holder :=
  { holder with
    core := { holder.core with descriptor := false }
    descriptors := holder.descriptors.close }

/-- `privateOpen` for a socket object, with a descriptor or without. If it fails, the object
stays with the caller; if not, the one that was there before is destroyed. -/
def privateOpenSocket (holder : Holder) (acquisition : Acquisition) : Holder :=
  if holder.core.handle ∨ acquisition = .fails then holder
  else holder.destroyObject.recorded acquisition

def detachSocket (holder : Holder) (detaches : Bool) (callback : DetachCallback) : Holder :=
  { holder with core := holder.core.detachSocket detaches callback }

/-- What `privateShutdownSequenceComplete` does with the socket, behind its assertions. -/
def shutdownSequenceEnd (holder : Holder) (context : ShutdownContext) : Holder :=
  let released :=
    if context.shutdownCompleted then
      if holder.core.socket then holder.releaseReactor.releaseHandleReservation.giveUp
      else holder.releaseReactor
    else holder
  { released with core := holder.core.shutdownSequenceEnd context }

def privateShutdownSequenceComplete (holder : Holder) (context : ShutdownContext) (lock : Bool) :
    Holder :=
  if lock = decide (holder.core.detachMode = .initiated) then
    shutdownSequenceEnd { holder with core := { holder.core with detachMode := .idle } } context
  else holder.fail .shutdownSequenceComplete

def privateShutdownSequence (holder : Holder) (context : ShutdownContext) (detaches : Bool) :
    Holder :=
  if context.shutdownCompleted ∧ holder.core.handle then
    if holder.core.detachMode = .initiated then holder.fail .closeFlowControl
    else
      let detached := holder.detachSocket detaches (.shutdownSequenceComplete context)
      if detached.core.detachMode = .initiated then detached
      else detached.privateShutdownSequenceComplete context false
  else holder.privateShutdownSequenceComplete context false

def privateShutdownSend (holder : Holder) (detaches : Bool) : Holder :=
  match holder.core.shutdownState.tryShutdownSend holder.core.keepHalfOpen with
  | none => holder
  | some (context, shutdownState) =>
    privateShutdownSequence
      { holder with core := { holder.core with shutdownState := shutdownState } } context detaches

def privateShutdownReceive (holder : Holder) (detaches : Bool) : Holder :=
  match holder.core.shutdownState.tryShutdownReceive holder.core.keepHalfOpen with
  | none => holder
  | some (context, shutdownState) =>
    privateShutdownSequence
      { holder with core := { holder.core with shutdownState := shutdownState } } context detaches

def privateShutdown (holder : Holder) (direction : ShutdownType) (mode : ShutdownMode)
    (hasEntry detaches : Bool) : Holder :=
  let closeAnnouncementRequired :=
    holder.core.closeCallback.isSome && holder.core.shutdownState.shutdownCompleted
  let receiveClosed :=
    if direction ≠ .send ∧ ¬ holder.core.shutdownState.shutdownReceive then
      holder.privateShutdownReceive detaches
    else holder
  let sendClosed :=
    if direction ≠ .receive ∧ ¬ receiveClosed.core.shutdownState.shutdownSend then
      if mode = .graceful ∧ hasEntry then
        { receiveClosed with
          core := { receiveClosed.core with
          shutdownEntries := receiveClosed.core.shutdownEntries + 1 } }
      else receiveClosed.privateShutdownSend detaches
    else receiveClosed
  if closeAnnouncementRequired then { sendClosed with core := sendClosed.core.dispatchClose }
  else sendClosed

/-- `privateFailConnect` of a connection in progress that is not being detached. -/
def failAttempt (holder : Holder) (error : Option Error) (defer detaches : Bool) : Outcome :=
  let failure := holder.core.connectFailure error defer
  let detached := detachSocket { holder with core := holder.core.markFailed error } detaches
    (.failConnectPart2 failure)
  let released := if holder.core.retryCount = 0 then detached.releaseReactor else detached
  if released.core.detachMode = .initiated then .continues released []
  else .continues released [.privateFailConnectPart2 failure]

def privateFailConnect (holder : Holder) (error : Option Error) (defer close detaches : Bool) :
    Outcome :=
  if ¬ holder.core.connectInProgress then .continues holder []
  else if holder.core.detachMode = .initiated then .continues (holder.fail .failConnect) []
  else if close then
    failAttempt { holder with core := { holder.core with retryCount := 0 } } error defer detaches
  else if holder.core.connectError = none then holder.failAttempt error defer detaches
  else if holder.core.retryConnect then
    .continues { holder with core := { holder.core with retryConnect := false } }
      [.privateRetryConnect]
  else .continues holder []

def privateFailConnectPart2 (holder : Holder) (failure : Failure) (inlines : Bool) : Outcome :=
  let released :=
    if holder.core.handle ∧ holder.core.socket then holder.releaseHandleReservation.giveUp
    else holder
  released.lift (holder.core.privateFailConnectPart2 failure inlines)

/-- `privateRetryConnectToEndpoint`, or `processRemoteEndpointResolution` with an endpoint. -/
def connectToEndpoint (holder : Holder) (establishment : Establishment) (inlines : Bool) :
    Outcome :=
  let open_ :=
    match establishment with
    | .failsToOpen _ created => holder.openFailed created
    | .fails _ | .connects => holder.opened
  open_.lift (holder.core.connectToEndpoint establishment inlines)

def closeAfterFail (holder : Holder) (error : Error) (detaches inlines : Bool) : Outcome :=
  if error = .connectionDead ∨ error = .connectionReset then
    .continues ((holder.privateShutdownReceive detaches).privateShutdownSend detaches) []
  else holder.lift (holder.core.behind (holder.core.session && inlines) .shutdownAfterFail)

def shutdownAfterFail (holder : Holder) (detaches : Bool) : Outcome :=
  .continues (holder.privateShutdown .both .immediate false detaches) []

def readable (holder : Holder) (transfer : Transfer) (detaches : Bool) : Outcome :=
  match transfer with
  | .ends => .continues (holder.privateShutdownReceive detaches) [.privateFail .eof]
  | transfer => holder.lift (holder.core.readable transfer detaches)

def writable (holder : Holder) (transfer : Transfer) (detaches : Bool) : Outcome :=
  match transfer with
  | .ends =>
    if 0 < holder.core.shutdownEntries then
      .continues
        (privateShutdownSend { holder with
          core := { holder.core with
          shutdownEntries := holder.core.shutdownEntries - 1 } } detaches) [.writable]
    else .continues holder []
  | transfer => holder.lift (holder.core.writable transfer detaches)

def privateClose (holder : Holder) (callback : Option Nat) (detaches : Bool) :
    Holder × List Frame :=
  if holder.core.detachMode = .initiated then
    ({ holder with
        core := { holder.core with
        deferredCalls := holder.core.deferredCalls ++ [.close callback] } }, [])
  else if holder.core.closeCallback.isSome then (holder.fail .closeCallback, [])
  else
    let registered := { holder with core := { holder.core with closeCallback := callback } }
    if registered.core.connectInProgress then
      (registered, [.privateFailConnect (some .cancelled) true true])
    else (registered.privateShutdown .both .immediate false detaches, [])

def close (holder : Holder) (callback detaches : Bool) : Holder × List Frame :=
  let accepted := holder.core.accept callback
  { holder with core := accepted.1 }.privateClose accepted.2 detaches

/-- `release` returns the descriptor of the socket object. -/
def release (holder : Holder) (callback detaches : Bool) : Holder × List Frame :=
  if ¬ (holder.core.socket ∧ holder.core.descriptor) then (holder, [])
  else
    close { holder with
      core := { holder.core with detachGoal := .toExport, session := false }
      handed := holder.handed ++ holder.descriptors.held.toList } callback detaches

def shutdown (holder : Holder) (direction : ShutdownType) (mode : ShutdownMode)
    (hasEntry detaches : Bool) : Holder × List Frame :=
  if holder.core.detachMode = .initiated then
    ({ holder with
        core := { holder.core with
        deferredCalls := holder.core.deferredCalls ++ [.shutdown direction mode] } }, [])
  else if holder.core.connectInProgress then
    (holder,
      if direction = .receive then [] else [.privateFailConnect (some .cancelled) true true])
  else (holder.privateShutdown direction mode hasEntry detaches, [])

def upgrade (holder : Holder) (fails detaches : Bool) : Holder :=
  if holder.core.openState ≠ .connected ∨ holder.core.upgradeInProgress then holder
  else if fails then holder.privateShutdown .both .immediate false detaches
  else { holder with core := { holder.core with upgradeInProgress := true } }

def processSocketDetached (holder : Holder) (callback : DetachCallback) : Holder × List Frame :=
  match callback with
  | .shutdownSequenceComplete context =>
    (holder.privateShutdownSequenceComplete context true, [])
  | .failConnectPart2 failure =>
    if holder.core.detachMode = .initiated then
      ({ holder with core := { holder.core with detachMode := .idle } },
        [.privateFailConnectPart2 failure])
    else (holder.fail .failConnectPart2, [])

def execute (holder : Holder) (functor : DeferredCall) (hasEntry detaches : Bool) :
    Holder × List Frame :=
  match functor with
  | .processConnectDeadlineTimer =>
    let processed := holder.core.processConnectDeadlineTimer
    ({ holder with core := processed.1 }, processed.2)
  | .shutdown direction mode => holder.shutdown direction mode hasEntry detaches
  | .close callback => holder.privateClose callback detaches

end Holder

inductive Call where
  | open_ (opening : Opening)
  | openHandle (acquisition : Acquisition)
  | openSocket (acquisition : Acquisition)
  /-- A call, an event, a timer, a resolution or the completion of a detachment. -/
  | other (call : Lifecycle.Call)

open Holder in
def enterOther (holder : Holder) (call : Lifecycle.Call) : Option (Holder × List Frame) :=
  match call with
  | .upgrade fails detaches => some (holder.upgrade fails detaches, [])
  | .shutdown direction mode hasEntry detaches =>
    some (holder.shutdown direction mode hasEntry detaches)
  | .release callback detaches => some (holder.release callback detaches)
  | .close callback detaches => some (holder.close callback detaches)
  | .processSocketDetached index =>
    holder.core.detachments[index]?.map fun callback =>
      processSocketDetached { holder with
        core := { holder.core with
        detachments := holder.core.detachments.eraseIdx index } } callback
  | .execute index hasEntry detaches =>
    holder.core.functors[index]?.map fun functor =>
      execute { holder with
        core := { holder.core with
        functors := holder.core.functors.eraseIdx index } } functor hasEntry detaches
  | call =>
    (Lifecycle.enter holder.core call).map fun entered =>
      ({ holder with core := entered.1 }, entered.2)

def enter (holder : Holder) (call : Call) : Option (Holder × List Frame) :=
  if holder.core.failed.isSome then none
  else
    match call with
    | .open_ opening => some (holder.privateOpen opening, [])
    | .openHandle acquisition => some (holder.privateOpenHandle acquisition, [])
    | .openSocket acquisition => some (holder.privateOpenSocket acquisition, [])
    | .other call => enterOther holder call

def advance (holder : Holder) (frame : Frame) (input : Input) : Option Outcome :=
  if holder.core.failed.isSome then none
  else
    match frame with
    | .privateFailConnect error defer close =>
      some (holder.privateFailConnect error defer close input.detaches)
    | .privateFailConnectPart2 failure =>
      some (holder.privateFailConnectPart2 failure input.inlines)
    | .connectToEndpoint => some (holder.connectToEndpoint input.establishment input.inlines)
    | .closeAfterFail error => some (holder.closeAfterFail error input.detaches input.inlines)
    | .shutdownAfterFail => some (holder.shutdownAfterFail input.detaches)
    | .readable => some (holder.readable input.transfer input.detaches)
    | .writable => some (holder.writable input.transfer input.detaches)
    | frame => (Lifecycle.advance holder.core frame input).map holder.lift

abbrev System := Monitor Holder Frame

abbrev Action := Monitor.Action Call Input

def step : System -> Action -> Option System :=
  Monitor.step enter advance

def initial (keepHalfOpen session resolver : Bool) : System where
  shared := { core := (Lifecycle.initial
    { keepHalfOpen := keepHalfOpen, session := session, resolver := resolver }).shared }

end NtfCore.Ntcr.StreamSocket.Descriptors
