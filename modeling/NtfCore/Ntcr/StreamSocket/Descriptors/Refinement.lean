import NtfCore.Ntcr.StreamSocket.Descriptors.Model

/-!
Contract: a stream socket with its descriptors is the stream socket of the lifecycle.

Owns: each operation, seen without the descriptors, is that of the lifecycle.
-/

namespace NtfCore.Ntcr.StreamSocket.Descriptors

open NtfCore.Foundation Monitor.Outcome
open Lifecycle (Socket Frame Input Establishment DetachCallback ShutdownContext ShutdownType
  ShutdownMode Error Failure Transfer DeferredCall)

namespace Holder

variable (owner : Holder)

@[simp] theorem lift_core (outcome : Lifecycle.Outcome) :
    (owner.lift outcome).map core = outcome := by
  cases outcome <;> rfl

@[simp] theorem opened_core : owner.opened.core = owner.core.opened := by
  unfold opened
  split <;> rfl

section

variable (context : ShutdownContext)

@[simp] theorem privateShutdownSequenceComplete_core (lock : Bool) :
    (owner.privateShutdownSequenceComplete context lock).core =
      owner.core.privateShutdownSequenceComplete context lock := by
  unfold privateShutdownSequenceComplete Socket.privateShutdownSequenceComplete
  split <;> rfl

@[simp] theorem privateShutdownSequence_core (detaches : Bool) :
    (owner.privateShutdownSequence context detaches).core =
      owner.core.privateShutdownSequence context detaches := by
  have isDetached : (owner.detachSocket detaches (.shutdownSequenceComplete context)).core =
      owner.core.detachSocket detaches (.shutdownSequenceComplete context) := rfl
  unfold privateShutdownSequence Socket.privateShutdownSequence
  dsimp only
  rw [isDetached]
  split
  · split
    · rfl
    · split
      · exact isDetached
      · rw [privateShutdownSequenceComplete_core, isDetached]
  · exact privateShutdownSequenceComplete_core owner context false

end

@[simp] theorem privateShutdownSend_core (detaches : Bool) :
    (owner.privateShutdownSend detaches).core = owner.core.privateShutdownSend detaches := by
  unfold privateShutdownSend Socket.privateShutdownSend
  cases owner.core.shutdownState.tryShutdownSend owner.core.keepHalfOpen with
  | none => rfl
  | some contexts => exact privateShutdownSequence_core _ contexts.1 detaches

@[simp] theorem privateShutdownReceive_core (detaches : Bool) :
    (owner.privateShutdownReceive detaches).core = owner.core.privateShutdownReceive detaches := by
  unfold privateShutdownReceive Socket.privateShutdownReceive
  cases owner.core.shutdownState.tryShutdownReceive owner.core.keepHalfOpen with
  | none => rfl
  | some contexts => exact privateShutdownSequence_core _ contexts.1 detaches

@[simp] theorem privateShutdown_core (dir : ShutdownType) (mode : ShutdownMode)
    (hasEntry detaches : Bool) : (owner.privateShutdown dir mode hasEntry detaches).core =
      owner.core.privateShutdown dir mode hasEntry detaches := by
  unfold privateShutdown Socket.privateShutdown
  simp only [apply_ite core, privateShutdownSend_core, privateShutdownReceive_core]

theorem failAttempt_core (error : Option Error) (defer detaches : Bool) :
    (owner.failAttempt error defer detaches).map core =
      owner.core.failAttempt error defer detaches := by
  unfold failAttempt Socket.failAttempt
  simp only [apply_ite core, releaseReactor, detachSocket, ite_self]
  split <;> simp [map, apply_ite core]

theorem privateFailConnect_core (error : Option Error) (defer close detaches : Bool) :
    (owner.privateFailConnect error defer close detaches).map core =
      owner.core.privateFailConnect error defer close detaches := by
  unfold privateFailConnect Socket.privateFailConnect
  split
  · rfl
  · split
    · rfl
    · split
      · exact failAttempt_core _ error defer detaches
      · split
        · exact failAttempt_core owner error defer detaches
        · split <;> rfl

theorem closeAfterFail_core (error : Error) (detaches inlines : Bool) :
    (owner.closeAfterFail error detaches inlines).map core =
      owner.core.closeAfterFail error detaches inlines := by
  unfold closeAfterFail Socket.closeAfterFail
  split
  · simp [map]
  · exact lift_core owner _

section

variable (transfer : Transfer) (detaches : Bool)

theorem readable_core :
    (owner.readable transfer detaches).map core = owner.core.readable transfer detaches := by
  cases transfer with
  | ends => simp [readable, Socket.readable, map]
  | _ => exact lift_core owner _

theorem writable_core :
    (owner.writable transfer detaches).map core = owner.core.writable transfer detaches := by
  cases transfer with
  | ends =>
    unfold writable Socket.writable
    dsimp only
    split
    · simp [map]
    · rfl
  | _ => exact lift_core owner _

end

def entered (result : Holder × List Frame) : Socket × List Frame :=
  result.map core id

theorem privateClose_core (callback : Option Nat) (detaches : Bool) :
    entered (owner.privateClose callback detaches) = owner.core.privateClose callback detaches := by
  unfold privateClose Socket.privateClose
  split
  · rfl
  · split
    · rfl
    · dsimp only
      split
      · rfl
      · simp [entered]

theorem close_core (callback detaches : Bool) :
    entered (owner.close callback detaches) = owner.core.close callback detaches :=
  privateClose_core _ _ detaches

theorem release_core (callback detaches : Bool) :
    entered (owner.release callback detaches) = owner.core.release callback detaches := by
  unfold release Socket.release
  split
  · rfl
  · exact close_core _ callback detaches

theorem shutdown_core (dir : ShutdownType) (mode : ShutdownMode) (hasEntry detaches : Bool) :
    entered (owner.shutdown dir mode hasEntry detaches) =
      owner.core.shutdown dir mode hasEntry detaches := by
  unfold shutdown Socket.shutdown
  split
  · rfl
  · split
    · rfl
    · simp [entered]

theorem upgrade_core (fails detaches : Bool) :
    (owner.upgrade fails detaches).core = owner.core.upgrade fails detaches := by
  unfold upgrade Socket.upgrade
  split
  · rfl
  · split
    · exact privateShutdown_core owner _ _ _ _
    · rfl

theorem processSocketDetached_core (callback : DetachCallback) :
    entered (owner.processSocketDetached callback) = owner.core.processSocketDetached callback := by
  cases callback with
  | shutdownSequenceComplete =>
    simp [entered, processSocketDetached, Socket.processSocketDetached]
  | failConnectPart2 =>
    unfold processSocketDetached Socket.processSocketDetached
    dsimp only
    split <;> rfl

theorem execute_core (functor : DeferredCall) (hasEntry detaches : Bool) :
    entered (owner.execute functor hasEntry detaches) =
      owner.core.execute functor hasEntry detaches := by
  cases functor with
  | processConnectDeadlineTimer => rfl
  | shutdown dir mode => exact shutdown_core owner dir mode hasEntry detaches
  | close callback => exact privateClose_core owner callback detaches

end Holder

open Holder

section

variable (owner : Holder) (call : Lifecycle.Call)

theorem enterOther_core (running : owner.core.failed.isSome = false) :
    (enterOther owner call).map entered = Lifecycle.enter owner.core call := by
  have passes (other : Lifecycle.Call) : ((Lifecycle.enter owner.core other).map fun result =>
        ({ owner with core := result.1 }, result.2)).map entered =
        Lifecycle.enter owner.core other := by
    rw [Option.map_map]
    exact congrFun Option.map_id _
  cases call with
  | upgrade _ detaches => simp [enterOther, Lifecycle.enter, running, entered, upgrade_core]
  | shutdown _ _ hasEntry detaches => simp [enterOther, Lifecycle.enter, running, shutdown_core]
  | release callback detaches => simp [enterOther, Lifecycle.enter, running, release_core]
  | close _ detaches => simp [enterOther, Lifecycle.enter, running, close_core]
  | processSocketDetached index =>
    simp [enterOther, Lifecycle.enter, running, Function.comp_def, processSocketDetached_core]
  | execute => simp [enterOther, Lifecycle.enter, running, Function.comp_def, execute_core]
  | _ => exact passes _

theorem enter_core : (enter owner (.other call)).map entered = Lifecycle.enter owner.core call := by
  unfold enter
  cases failed : owner.core.failed.isSome with
  | true => simp [Lifecycle.enter, failed]
  | false => exact enterOther_core owner call failed

end

theorem advance_core (owner : Holder) (frame : Frame) (input : Input) :
    (advance owner frame input).map (Monitor.Outcome.map core) =
      Lifecycle.advance owner.core frame input := by
  unfold advance
  cases failed : owner.core.failed.isSome with
  | true => simp [Lifecycle.advance, failed]
  | false =>
    have passes (outcome : Option Lifecycle.Outcome) :
        (outcome.map owner.lift).map (map core) = outcome := by
      rw [Option.map_map]
      exact (congrArg (outcome.map ·) (funext owner.lift_core)).trans (congrFun Option.map_id _)
    cases frame with
    | privateFailConnect error => simp [Lifecycle.advance, failed, privateFailConnect_core]
    | privateFailConnectPart2 => simp [Lifecycle.advance, failed, privateFailConnectPart2]
    | connectToEndpoint => simp [Lifecycle.advance, failed, connectToEndpoint]
    | closeAfterFail => simp [Lifecycle.advance, failed, closeAfterFail_core]
    | shutdownAfterFail =>
      simp [Lifecycle.advance, failed, shutdownAfterFail, Socket.shutdownAfterFail, map]
    | readable => simp [Lifecycle.advance, failed, readable_core]
    | writable => simp [Lifecycle.advance, failed, writable_core]
    | _ => exact passes _

end NtfCore.Ntcr.StreamSocket.Descriptors
