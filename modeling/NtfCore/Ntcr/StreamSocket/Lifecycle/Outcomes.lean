import NtfCore.Ntcr.StreamSocket.Lifecycle.Model

/-!
Contract: what the operations that may begin a detachment come to.

Owns: the cases of `detachSocket`, of the shutdown sequence and of a failed attempt, for a
socket that is not being detached.
-/

namespace NtfCore.Ntcr.StreamSocket.Lifecycle

open ShutdownContext

/-! ## Shutdown state -/

structure ShutdownContext.Shuts (state context next : ShutdownContext) : Prop where
  wasOpen : state.shutdownSend = false ∨ state.shutdownReceive = false
  shut : context.shutdownCompleted = true -> next.shutdownSend = true ∧ next.shutdownReceive = true
  completed : next.shutdownCompleted = (state.shutdownCompleted || context.shutdownCompleted)
  completes : next.shutdownSend = true -> next.shutdownReceive = true ->
    next.shutdownCompleted = true

variable {state context next : ShutdownContext}

theorem ShutdownContext.Shuts.agrees (shuts : state.Shuts context next)
    (shut : state.shutdownCompleted = (state.shutdownSend && state.shutdownReceive)) :
    next.shutdownCompleted = context.shutdownCompleted ∧
      next.shutdownCompleted = (next.shutdownSend && next.shutdownReceive) := by
  obtain ⟨wasOpen, _, completed, _⟩ := shuts
  have wasIncomplete : state.shutdownCompleted = false := by
    obtain isOpen | isOpen := wasOpen <;> simp [shut, isOpen]
  rw [wasIncomplete, Bool.false_or] at completed
  refine ⟨completed, ?_⟩
  cases isCompleted : context.shutdownCompleted <;> simp_all

theorem ShutdownContext.tryShutdownSend_cases (state : ShutdownContext) (keepHalfOpen : Bool) :
    state.shutdownSend = true ∧ state.tryShutdownSend keepHalfOpen = none ∨
      ∃ context next, state.tryShutdownSend keepHalfOpen = some (context, next) ∧
        state.Shuts context next ∧ next.shutdownSend = true ∧
        next.shutdownReceive = (state.shutdownReceive || !keepHalfOpen) := by
  unfold tryShutdownSend
  cases wasShut : state.shutdownSend with
  | true => exact .inl ⟨rfl, rfl⟩
  | false =>
    refine .inr ⟨_, _, rfl, ?_, rfl, ?_⟩
    · constructor <;>
        cases state.shutdownReceive <;> cases state.shutdownCompleted <;> cases keepHalfOpen <;>
        simp_all
    · cases state.shutdownReceive <;> cases keepHalfOpen <;> rfl

theorem ShutdownContext.tryShutdownReceive_cases (state : ShutdownContext) (keepHalfOpen : Bool) :
    state.shutdownReceive = true ∧ state.tryShutdownReceive keepHalfOpen = none ∨
      ∃ context next, state.tryShutdownReceive keepHalfOpen = some (context, next) ∧
        state.Shuts context next ∧ next.shutdownReceive = true ∧
        next.shutdownSend = (state.shutdownSend || !keepHalfOpen) := by
  unfold tryShutdownReceive
  cases wasShut : state.shutdownReceive with
  | true => exact .inl ⟨rfl, rfl⟩
  | false =>
    refine .inr ⟨_, _, rfl, ?_, rfl, ?_⟩
    · constructor <;>
        cases state.shutdownSend <;> cases state.shutdownCompleted <;> cases keepHalfOpen <;>
        simp_all
    · cases state.shutdownSend <;> cases keepHalfOpen <;> rfl

namespace Socket

/-! ## Detachment and shutdown -/

variable {socket : Socket}

def detaching (socket : Socket) (callback : DetachCallback) : Socket :=
  { socket with
    attached := false
    detachMode := .initiated
    detachments := socket.detachments ++ [callback] }

def deregistered (socket : Socket) : Socket :=
  { socket with attached := socket.attached && !socket.handle }

theorem deregistered_of_noHandle (noHandle : socket.handle = false) :
    socket.deregistered = socket := by
  cases socket
  simp_all [deregistered]

theorem detachSocket_cases (socket : Socket) (detaches : Bool) (callback : DetachCallback) :
    socket.handle = true ∧ socket.attached = true ∧
        socket.detachSocket detaches callback = socket.detaching callback ∨
      socket.detachSocket detaches callback = socket.deregistered := by
  unfold detachSocket detaching deregistered
  cases isHandle : socket.handle <;> cases isAttached : socket.attached <;> cases detaches <;> simp

section

variable (idle : socket.detachMode = .idle) (context : ShutdownContext)
include idle

theorem privateShutdownSequenceComplete_idle :
    socket.privateShutdownSequenceComplete context false = socket.shutdownSequenceEnd context := by
  have isSame : { socket with detachMode := .idle } = socket := by rw [← idle]
  unfold privateShutdownSequenceComplete
  rw [if_pos (by rw [idle]; decide), isSame]

theorem privateShutdownSequence_cases (detaches : Bool) :
    context.shutdownCompleted = true ∧ socket.handle = true ∧ socket.attached = true ∧
        socket.privateShutdownSequence context detaches =
          socket.detaching (.shutdownSequenceComplete context) ∨
      context.shutdownCompleted = true ∧ socket.privateShutdownSequence context detaches =
          socket.deregistered.shutdownSequenceEnd context ∨ context.shutdownCompleted = false ∧
        socket.privateShutdownSequence context detaches = socket.shutdownSequenceEnd context := by
  unfold privateShutdownSequence
  cases completes : context.shutdownCompleted with
  | false =>
    rw [if_neg (by simp), privateShutdownSequenceComplete_idle idle]
    exact .inr (.inr ⟨rfl, rfl⟩)
  | true =>
    cases hasHandle : socket.handle with
    | false =>
      rw [if_neg (by simp), privateShutdownSequenceComplete_idle idle,
        deregistered_of_noHandle hasHandle]
      exact .inr (.inl ⟨rfl, rfl⟩)
    | true =>
      rw [if_pos ⟨rfl, rfl⟩, if_neg (by rw [idle]; decide)]
      obtain ⟨_, wasAttached, isDetached⟩ | isDetached :=
        detachSocket_cases socket detaches (.shutdownSequenceComplete context)
      · rw [isDetached, if_pos (by rfl)]
        exact .inl ⟨rfl, rfl, wasAttached, rfl⟩
      · have staysIdle : socket.deregistered.detachMode = .idle := idle
        rw [isDetached, if_neg (by rw [staysIdle]; decide),
          privateShutdownSequenceComplete_idle staysIdle]
        exact .inr (.inl ⟨rfl, rfl⟩)

end

theorem privateShutdownSend_cases (socket : Socket) (detaches : Bool) :
    socket.shutdownState.shutdownSend = true ∧ socket.privateShutdownSend detaches = socket ∨
      ∃ context next, Shuts socket.shutdownState context next ∧ next.shutdownSend = true ∧
        next.shutdownReceive = (socket.shutdownState.shutdownReceive || !socket.keepHalfOpen) ∧
        socket.privateShutdownSend detaches =
          { socket with shutdownState := next }.privateShutdownSequence context detaches := by
  unfold privateShutdownSend
  obtain ⟨isShut, isNone⟩ | ⟨context, next, isSome, shuts⟩ :=
    socket.shutdownState.tryShutdownSend_cases socket.keepHalfOpen
  · exact .inl ⟨isShut, by rw [isNone]⟩
  · exact .inr ⟨context, next, shuts.1, shuts.2.1, shuts.2.2, by rw [isSome]⟩

theorem privateShutdownReceive_cases (socket : Socket) (detaches : Bool) :
    socket.shutdownState.shutdownReceive = true ∧ socket.privateShutdownReceive detaches = socket ∨
      ∃ context next, Shuts socket.shutdownState context next ∧ next.shutdownReceive = true ∧
        next.shutdownSend = (socket.shutdownState.shutdownSend || !socket.keepHalfOpen) ∧
        socket.privateShutdownReceive detaches =
          { socket with shutdownState := next }.privateShutdownSequence context detaches := by
  unfold privateShutdownReceive
  obtain ⟨isShut, isNone⟩ | ⟨context, next, isSome, shuts⟩ :=
    socket.shutdownState.tryShutdownReceive_cases socket.keepHalfOpen
  · exact .inl ⟨isShut, by rw [isNone]⟩
  · exact .inr ⟨context, next, shuts.1, shuts.2.1, shuts.2.2, by rw [isSome]⟩

theorem privateShutdown_cases (socket : Socket) (dir : ShutdownType) (mode : ShutdownMode)
    (hasEntry detaches : Bool) : ∃ receiveClosed sendClosed : Socket,
      (receiveClosed = socket ∨ receiveClosed = socket.privateShutdownReceive detaches) ∧
      (sendClosed = receiveClosed ∨ sendClosed =
          { receiveClosed with shutdownEntries := receiveClosed.shutdownEntries + 1 } ∨
        sendClosed = receiveClosed.privateShutdownSend detaches) ∧
      socket.privateShutdown dir mode hasEntry detaches =
        if socket.closeCallback.isSome && socket.shutdownState.shutdownCompleted then
          sendClosed.dispatchClose
        else sendClosed := by
  refine ⟨if dir ≠ .send ∧ ¬ socket.shutdownState.shutdownReceive then
    socket.privateShutdownReceive detaches else socket, _, ?_, ?_, rfl⟩
  · split
    · exact .inr rfl
    · exact .inl rfl
  · generalize (if dir ≠ .send ∧ ¬ socket.shutdownState.shutdownReceive then
      socket.privateShutdownReceive detaches else socket) = receiveClosed
    split
    · split
      · exact .inr (.inl rfl)
      · exact .inr (.inr rfl)
    · exact .inl rfl

section

variable {P : Socket -> Prop} {detaches : Bool}
  (sequence : ∀ {socket : Socket} {context next : ShutdownContext}, P socket ->
    socket.shutdownState.Shuts context next ->
    P ({ socket with shutdownState := next }.privateShutdownSequence context detaches))
include sequence

theorem privateShutdownSend_of_sequence (kept : P socket) :
    P (socket.privateShutdownSend detaches) := by
  obtain ⟨_, isResult⟩ | ⟨_, _, shuts, _, _, isResult⟩ := socket.privateShutdownSend_cases detaches
  · rw [isResult]
    exact kept
  · rw [isResult]
    exact sequence kept shuts

theorem privateShutdownReceive_of_sequence (kept : P socket) :
    P (socket.privateShutdownReceive detaches) := by
  obtain ⟨_, isResult⟩ | ⟨_, _, shuts, _, _, isResult⟩ :=
    socket.privateShutdownReceive_cases detaches
  · rw [isResult]
    exact kept
  · rw [isResult]
    exact sequence kept shuts

theorem privateShutdown_of_sequence
    (entries : ∀ {socket : Socket} (shutdownEntries : Nat), P socket ->
      P { socket with shutdownEntries := shutdownEntries })
    (kept : P socket) (dir : ShutdownType) (mode : ShutdownMode) (hasEntry : Bool) :
    ∃ sendClosed : Socket, P sendClosed ∧ socket.privateShutdown dir mode hasEntry detaches =
      if socket.closeCallback.isSome && socket.shutdownState.shutdownCompleted then
        sendClosed.dispatchClose
      else sendClosed := by
  obtain ⟨receiveClosed, sendClosed, isReceiveClosed, isSendClosed, isResult⟩ :=
    socket.privateShutdown_cases dir mode hasEntry detaches
  have receives : P receiveClosed := by
    obtain rfl | rfl := isReceiveClosed
    · exact kept
    · exact privateShutdownReceive_of_sequence sequence kept
  refine ⟨sendClosed, ?_, isResult⟩
  obtain rfl | rfl | rfl := isSendClosed
  · exact receives
  · exact entries _ receives
  · exact privateShutdownSend_of_sequence sequence receives

end

theorem finishConnectFailure_cases (socket : Socket) : ∃ resolver session : Bool,
    socket.retryConnect = true ∧ socket.finishConnectFailure =
        .continues { socket.dispatchClose with
          resolver := resolver
          session := session
          retryConnect := false } [.privateRetryConnect, .executeDeferredCalls] ∨
      socket.finishConnectFailure =
        .continues { socket.dispatchClose with resolver := resolver, session := session }
          [.executeDeferredCalls] := by
  cases isRetry : socket.retryConnect <;> by_cases isLast : socket.retryCount = 0 <;>
    simp [finishConnectFailure, dispatchClose, isRetry, isLast]

/-! ## What a shutdown leaves alone -/

structure Connection where
  connectInProgress : Bool
  retryCount : Nat
  connectAttempts : Nat
  connectError : Option Error
  connectCallback : Bool
  retryConnect : Bool
  resolutions : List Nat
  connectEvents : List ConnectEvent
  requested : Nat
  overlapped : Bool

def connection (socket : Socket) : Connection where
  connectInProgress := socket.connectInProgress
  retryCount := socket.retryCount
  connectAttempts := socket.connectAttempts
  connectError := socket.connectError
  connectCallback := socket.connectCallback
  retryConnect := socket.retryConnect
  resolutions := socket.resolutions
  connectEvents := socket.connectEvents
  requested := socket.requested
  overlapped := socket.overlapped

section

variable (socket : Socket)

section

variable (context : ShutdownContext)

theorem shutdownSequenceEnd_connection :
    (socket.shutdownSequenceEnd context).connection = socket.connection := by
  unfold shutdownSequenceEnd
  cases context.shutdownSend <;> cases context.shutdownCompleted <;> rfl

theorem privateShutdownSequenceComplete_connection (lock : Bool) :
    (socket.privateShutdownSequenceComplete context lock).connection = socket.connection := by
  unfold privateShutdownSequenceComplete
  split
  · exact shutdownSequenceEnd_connection _ context
  · rfl

theorem privateShutdownSequence_connection (detaches : Bool) :
    (socket.privateShutdownSequence context detaches).connection = socket.connection := by
  unfold privateShutdownSequence
  split
  · split
    · rfl
    · dsimp only
      split
      · rfl
      · exact privateShutdownSequenceComplete_connection _ context false
  · exact privateShutdownSequenceComplete_connection socket context false

end

theorem privateShutdownReceive_connection (detaches : Bool) :
    (socket.privateShutdownReceive detaches).connection = socket.connection := by
  unfold privateShutdownReceive
  split
  · rfl
  · exact privateShutdownSequence_connection _ _ detaches

theorem shutdownSequenceEnd_shutdownState (context : ShutdownContext) :
    (socket.shutdownSequenceEnd context).shutdownState = socket.shutdownState := by
  unfold shutdownSequenceEnd
  cases context.shutdownSend <;> cases context.shutdownCompleted <;> rfl

end

theorem privateShutdownSequence_shutdownState (idle : socket.detachMode = .idle)
    (context : ShutdownContext) (detaches : Bool) :
    (socket.privateShutdownSequence context detaches).shutdownState = socket.shutdownState := by
  obtain ⟨_, _, _, isResult⟩ | ⟨_, isResult⟩ | ⟨_, isResult⟩ :=
    privateShutdownSequence_cases idle context detaches
  · rw [isResult]
    rfl
  · rw [isResult]
    exact shutdownSequenceEnd_shutdownState socket.deregistered context
  · rw [isResult]
    exact shutdownSequenceEnd_shutdownState socket context

/-! ## Failures -/

section

variable (socket : Socket)

section

variable (error : Option Error)

theorem markFailed_handle : (socket.markFailed error).handle = socket.handle := by
  unfold markFailed
  split <;> rfl

theorem markFailed_attached : (socket.markFailed error).attached = socket.attached := by
  unfold markFailed
  split <;> rfl

theorem markFailed_detachMode : (socket.markFailed error).detachMode = socket.detachMode := by
  unfold markFailed
  split <;> rfl

theorem markFailed_detachments : (socket.markFailed error).detachments = socket.detachments := by
  unfold markFailed
  split <;> rfl

theorem markFailed_closeCallback :
    (socket.markFailed error).closeCallback = socket.closeCallback := by
  unfold markFailed
  split <;> rfl

theorem markFailed_connectEvents :
    (socket.markFailed error).connectEvents = socket.connectEvents := by
  unfold markFailed
  split <;> rfl

end

end

theorem failAttempt_cases (idle : socket.detachMode = .idle) (error : Option Error)
    (defer detaches : Bool) : socket.handle = true ∧ socket.attached = true ∧
        socket.failAttempt error defer detaches = .continues ((socket.markFailed error).detaching
            (.failConnectPart2 (socket.connectFailure error defer))) [] ∨
      socket.failAttempt error defer detaches = .continues (socket.markFailed error).deregistered
        [.privateFailConnectPart2 (socket.connectFailure error defer)] := by
  unfold failAttempt
  dsimp only
  obtain ⟨hasHandle, wasAttached, isDetached⟩ | isDetached :=
    detachSocket_cases (socket.markFailed error) detaches
      (.failConnectPart2 (socket.connectFailure error defer))
  · rw [isDetached, if_pos (by rfl)]
    rw [markFailed_handle] at hasHandle
    rw [markFailed_attached] at wasAttached
    exact .inl ⟨hasHandle, wasAttached, rfl⟩
  · have staysIdle : (socket.markFailed error).deregistered.detachMode = .idle :=
      (markFailed_detachMode socket error).trans idle
    rw [isDetached, if_neg (by rw [staysIdle]; decide)]
    exact .inr rfl

end Socket

end NtfCore.Ntcr.StreamSocket.Lifecycle
