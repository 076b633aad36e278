import NtfCore.Ntcr.StreamSocket.Lifecycle.Consistency

/-!
Contract: where the close callbacks of a stream socket are, and what a shutdown does with
them.

Owns: the callbacks that were dispatched, the one that is registered and those of calls that
were put off; when the one that is registered waits for a detachment; and that a shutdown
dispatches it to a socket that is closed, or leaves it to the detachment.
-/

namespace NtfCore.Ntcr.StreamSocket.Lifecycle

open Socket ShutdownContext Consistency Bool

namespace Closing

def dispatched (socket : Socket) : List Nat :=
  socket.closeEvents.map CloseEvent.callback

def registers : DeferredCall -> Option Nat
  | .close callback => callback
  | .shutdown _ _ | .processConnectDeadlineTimer => none

def callbacks (socket : Socket) : List Nat :=
  dispatched socket ++ socket.closeCallback.toList ++
    (socket.functors ++ socket.deferredCalls).filterMap registers

/-- What holds even while the socket is being shut down. The callbacks in `pending` were
accepted, and are about to be registered. -/
structure Ledger (pending : List Nat) (socket : Socket) : Prop where
  held : socket.descriptor = true -> socket.handle = true ∧ socket.socket = true
  shut : socket.shutdownState.shutdownCompleted =
    (socket.shutdownState.shutdownSend && socket.shutdownState.shutdownReceive)
  closes : ∀ event ∈ socket.closeEvents, event.descriptor = false ∧ event.openState = .closed
  numbered : (pending ++ callbacks socket).Perm (List.range socket.accepted)
  asserted : socket.failed ≠ some .closeCallback

structure Sound (pending : List Nat) (socket : Socket) : Prop extends Ledger pending socket where
  established : socket.shutdownState.shutdownCompleted = true ->
    Consistency.Established socket.openState
  failures : ∀ failure, .failConnectPart2 failure ∈ socket.detachments ->
    socket.openState ≠ .connected
  sequences : ∀ context, .shutdownSequenceComplete context ∈ socket.detachments ->
    context.shutdownCompleted = true

def Closed (socket : Socket) : Prop :=
  socket.openState = .closed ∧ socket.descriptor = false

def Quiet (socket : Socket) : Prop :=
  socket.shutdownState.shutdownCompleted = true -> socket.detachMode = .idle -> Closed socket

def Waits (socket : Socket) : Prop :=
  socket.closeCallback.isSome = true ->
    socket.detachMode = .initiated ∧ socket.shutdownState.shutdownCompleted = true ∧
      ∀ failure, .failConnectPart2 failure ∈ socket.detachments -> failure.defer = true

structure Settled (socket : Socket) : Prop where
  quiet : Quiet socket
  waits : Waits socket

/-! ## Dispatch -/

variable {pending : List Nat} {socket : Socket}

theorem callbacks_dispatchClose (socket : Socket) :
    callbacks socket.dispatchClose = callbacks socket := by
  unfold callbacks dispatched dispatchClose
  cases socket.closeCallback <;> simp

theorem callbacks_moveAndExecute (socket : Socket) :
    callbacks socket.moveAndExecute = callbacks socket := by
  unfold callbacks dispatched moveAndExecute
  rw [List.append_nil]

/-- A call is put off, with the callback that it registers. -/
theorem callbacks_defer (socket : Socket) (call : DeferredCall) :
    callbacks { socket with deferredCalls := socket.deferredCalls ++ [call] } =
      callbacks socket ++ (registers call).toList := by
  unfold callbacks dispatched
  cases isRegistered : registers call <;> simp [isRegistered]

theorem moveAndExecute_ledger (ledger : Ledger pending socket) :
    Ledger pending socket.moveAndExecute :=
  { ledger with
    numbered := by
      rw [callbacks_moveAndExecute]
      exact ledger.numbered }

theorem dispatchClose_ledger (ledger : Ledger pending socket)
    (closed : socket.closeCallback.isSome = true -> Closed socket) :
    Ledger pending socket.dispatchClose :=
  { ledger with
    closes := by
      intro event mem
      obtain isOlder | isNew := List.mem_append.mp mem
      · exact ledger.closes event isOlder
      · obtain ⟨_, isRegistered, isEvent⟩ := List.mem_map.mp isNew
        have registered : socket.closeCallback.isSome = true :=
          Option.isSome_of_mem (Option.mem_toList.mp isRegistered)
        rw [← isEvent]
        exact (closed registered).symm
    numbered := by
      rw [callbacks_dispatchClose]
      exact ledger.numbered }

theorem dispatchClose_none (noCallback : socket.closeCallback = none) :
    socket.dispatchClose = socket := by
  cases socket
  simp_all [dispatchClose]

theorem settled_of_none (quiet : Quiet socket) (noCallback : socket.closeCallback = none) :
    Settled socket :=
  ⟨quiet, fun registered => absurd registered (by rw [noCallback]; decide)⟩

/-- A callback is registered only while the socket is being detached. -/
theorem Settled.noCallback (settled : Settled socket)
    (idle : socket.closeCallback.isSome = true -> socket.detachMode = .idle) :
    socket.closeCallback = none := by
  cases isCallback : socket.closeCallback with
  | none => rfl
  | some =>
    have registered : socket.closeCallback.isSome = true := by
      rw [isCallback]
      rfl
    have initiated := (settled.waits registered).1
    rw [idle registered] at initiated
    contradiction

/-- A socket that is not connecting, in the course of a shutdown. The callback, if it is there,
waits for the shutdown to be complete. -/
structure Shutting (callback : Option Nat) (socket : Socket) : Prop where
  consistent : Consistency.Sound False socket
  noProgress : socket.connectInProgress = false
  sound : Sound [] socket
  quiet : Quiet socket
  waits : socket.shutdownState.shutdownCompleted = true -> Waits socket
  registered : socket.shutdownState.shutdownCompleted = false -> socket.closeCallback = callback

theorem Settled.shutting (settled : Settled socket) (consistent : Consistency.Sound False socket)
    (sound : Sound [] socket) (noProgress : socket.connectInProgress = false) :
    Shutting none socket := { settled with
  consistent := consistent
  noProgress := noProgress
  sound := sound
  waits := fun _ => settled.waits
  registered := by
    intro incomplete
    cases isCallback : socket.closeCallback with
    | none => rfl
    | some =>
      have complete := (settled.waits (by rw [isCallback]; rfl)).2.1
      rw [incomplete] at complete
      contradiction }

variable {callback : Option Nat}

theorem Shutting.settled (shutting : Shutting callback socket)
    (complete : callback = none ∨ socket.shutdownState.shutdownCompleted = true) :
    Settled socket := by
  cases isComplete : socket.shutdownState.shutdownCompleted with
  | true => exact ⟨shutting.quiet, shutting.waits isComplete⟩
  | false =>
    rw [isComplete] at complete
    obtain noCallback | _ := complete
    · exact settled_of_none shutting.quiet ((shutting.registered isComplete).trans noCallback)
    · contradiction

variable {context : ShutdownContext}

theorem shutdownSequenceEnd_completed (ledger : Ledger [] socket)
    (hasNone : socket.detachments = []) (completes : context.shutdownCompleted = true) :
    Sound [] (socket.shutdownSequenceEnd context) ∧
      Settled (socket.shutdownSequenceEnd context) := by
  generalize isSendClosed : (if context.shutdownSend = true then
    { socket with upgradeInProgress := false, shutdownEntries := 0 } else socket) = sendClosed
  have isEnd : socket.shutdownSequenceEnd context = ({ dispatchClose
          { sendClosed with
            descriptor := sendClosed.descriptor && !sendClosed.socket
            handle := false
            openState := .closed } with
        resolver := false
        session := false } : Socket).moveAndExecute := by
    unfold shutdownSequenceEnd
    rw [isSendClosed]
    dsimp only
    rw [if_pos completes]
  have sendLedger : Ledger [] sendClosed := by
    rw [← isSendClosed]
    split
    · exact { ledger with }
    · exact ledger
  have isSame : sendClosed.detachments = socket.detachments := by
    rw [← isSendClosed]
    split <;> rfl
  have noDescriptor : (sendClosed.descriptor && !sendClosed.socket) = false := by
    cases isOpen : sendClosed.descriptor with
    | false => rfl
    | true => simp [(sendLedger.held isOpen).2]
  have closedLedger : Ledger []
      { sendClosed with
        descriptor := sendClosed.descriptor && !sendClosed.socket
        handle := false
        openState := .closed } :=
    { sendLedger with
      held := fun isOpen => absurd (noDescriptor.symm.trans isOpen) false_ne_true }
  have dispatchedLedger := dispatchClose_ledger closedLedger fun _ => ⟨rfl, noDescriptor⟩
  rw [isEnd]
  constructor
  · exact {
      toLedger := moveAndExecute_ledger { dispatchedLedger with }
      established := fun _ => .inr rfl
      failures := fun _ _ => nofun
      sequences := by
        intro _ mem
        rw [show detachments _ = sendClosed.detachments from rfl, isSame, hasNone] at mem
        contradiction }
  · exact settled_of_none (fun _ _ => ⟨rfl, noDescriptor⟩) rfl

/-- A direction is shut down, and the other is not. -/
theorem shutdownSequenceEnd_incomplete (sound : Sound [] socket)
    (incomplete : context.shutdownCompleted = false) :
    Sound [] (socket.shutdownSequenceEnd context) ∧
      (socket.shutdownSequenceEnd context).closeCallback = socket.closeCallback := by
  unfold shutdownSequenceEnd
  dsimp only
  rw [if_neg (by rw [incomplete]; decide)]
  cases context.shutdownSend with
  | true | false =>
    exact ⟨{ sound with toLedger := moveAndExecute_ledger { sound.toLedger with } }, rfl⟩

theorem deregistered_ledger (ledger : Ledger pending socket) : Ledger pending socket.deregistered :=
  { ledger with }

section

variable (shutting : Shutting callback socket)
include shutting

theorem shuts_shutting {context next : ShutdownContext}
    (shuts : socket.shutdownState.Shuts context next) (detaches : Bool) : Shutting callback
      ({ socket with shutdownState := next }.privateShutdownSequence context detaches) := by
  obtain ⟨isCompleted, isShut⟩ := shuts.agrees shutting.sound.shut
  have idle := idle_of_sound shutting.consistent shutting.noProgress shuts.wasOpen
  have hasNone : socket.detachments = [] := by simpa [idle] using shutting.consistent.pending
  have keeps := shuts_keeps shutting.consistent shutting.noProgress shuts detaches
  have isConnection := privateShutdownSequence_connection
    { socket with shutdownState := next } context detaches
  have staysNoProgress :=
    (congrArg Connection.connectInProgress isConnection).trans shutting.noProgress
  have idleNext : detachMode { socket with shutdownState := next } = .idle := idle
  have ledger : Ledger [] { socket with shutdownState := next } :=
    { shutting.sound.toLedger with shut := isShut }
  have isState := (congrArg shutdownCompleted
    (privateShutdownSequence_shutdownState idleNext context detaches)).trans isCompleted
  obtain ⟨completes, _, wasAttached, isResult⟩ | ⟨completes, isResult⟩ | ⟨completes, isResult⟩ :=
    privateShutdownSequence_cases idleNext context detaches
  · rw [isResult] at keeps staysNoProgress isState ⊢
    have complete := isState.trans completes
    have established := established_of_sound shutting.consistent (.inl wasAttached)
      shutting.noProgress
    exact {
      consistent := keeps.sound
      noProgress := staysNoProgress
      sound := {
        toLedger := { ledger with }
        established := fun _ => established
        failures := by
          intro failure mem
          simp [detaching, hasNone] at mem
        sequences := by
          intro _ mem
          simp [detaching, hasNone] at mem
          rw [mem]
          exact completes }
      quiet := fun _ isIdle => absurd isIdle nofun
      waits := by
        intro _ _
        refine ⟨rfl, complete, ?_⟩
        intro _ mem
        simp [detaching, hasNone] at mem
      registered := fun incomplete => absurd (incomplete.symm.trans complete) false_ne_true }
  · rw [isResult] at keeps staysNoProgress isState ⊢
    have complete := isState.trans completes
    obtain ⟨sound, settled⟩ :=
      shutdownSequenceEnd_completed (deregistered_ledger ledger) hasNone completes
    exact { settled with
      consistent := keeps.sound
      noProgress := staysNoProgress
      sound := sound
      waits := fun _ => settled.waits
      registered := fun incomplete => absurd (incomplete.symm.trans complete) false_ne_true }
  · rw [isResult] at keeps staysNoProgress isState ⊢
    have incomplete := isState.trans completes
    have soundNext : Sound [] { socket with shutdownState := next } :=
      { shutting.sound with
        toLedger := ledger
        established := fun complete =>
          absurd ((isCompleted.trans completes).symm.trans complete) false_ne_true }
    obtain ⟨sound, isCallback⟩ := shutdownSequenceEnd_incomplete soundNext completes
    have wasIncomplete : socket.shutdownState.shutdownCompleted = false := by
      obtain isOpen | isOpen := shuts.wasOpen <;> simp [shutting.sound.shut, isOpen]
    exact {
      consistent := keeps.sound
      noProgress := staysNoProgress
      sound := sound
      quiet := fun complete => absurd (incomplete.symm.trans complete) false_ne_true
      waits := fun complete => absurd (incomplete.symm.trans complete) false_ne_true
      registered := fun _ => isCallback.trans (shutting.registered wasIncomplete) }

theorem privateShutdownSend_shutting (detaches : Bool) :
    Shutting callback (socket.privateShutdownSend detaches) :=
  privateShutdownSend_of_sequence (shuts_shutting · · detaches) shutting

theorem privateShutdownReceive_shutting (detaches : Bool) :
    Shutting callback (socket.privateShutdownReceive detaches) :=
  privateShutdownReceive_of_sequence (shuts_shutting · · detaches) shutting

theorem entries_shutting (shutdownEntries : Nat) :
    Shutting callback { socket with shutdownEntries := shutdownEntries } :=
  { shutting with
    consistent := { shutting.consistent with }
    sound := { shutting.sound with toLedger := { shutting.sound.toLedger with } } }

end

theorem privateShutdown_shutting (shutting : Shutting none socket)
    (noCallback : socket.closeCallback = none) (dir : ShutdownType) (mode : ShutdownMode)
    (hasEntry detaches : Bool) :
    Shutting none (socket.privateShutdown dir mode hasEntry detaches) := by
  obtain ⟨_, sends, isResult⟩ := privateShutdown_of_sequence (shuts_shutting · · detaches)
    (fun entries kept => entries_shutting kept entries) shutting dir mode hasEntry
  rw [isResult, if_neg (by rw [noCallback]; simp)]
  exact sends

theorem privateShutdown_immediate (socket : Socket) (detaches : Bool) :
    socket.privateShutdown .both .immediate false detaches =
      if socket.closeCallback.isSome && socket.shutdownState.shutdownCompleted then
        ((socket.privateShutdownReceive detaches).privateShutdownSend detaches).dispatchClose
      else (socket.privateShutdownReceive detaches).privateShutdownSend detaches := by
  have receives : (if ShutdownType.both ≠ .send ∧ ¬ socket.shutdownState.shutdownReceive = true then
      socket.privateShutdownReceive detaches else socket) =
        socket.privateShutdownReceive detaches := by
    cases isShut : socket.shutdownState.shutdownReceive with
    | true => simp [privateShutdownReceive, tryShutdownReceive, isShut]
    | false => simp
  have sends (closed : Socket) :
      (if ShutdownType.both ≠ .receive ∧ ¬ closed.shutdownState.shutdownSend = true then
        if ShutdownMode.immediate = .graceful ∧ false = true then
          { closed with shutdownEntries := closed.shutdownEntries + 1 }
        else closed.privateShutdownSend detaches
      else closed) = closed.privateShutdownSend detaches := by
    cases isShut : closed.shutdownState.shutdownSend with
    | true => simp [privateShutdownSend, tryShutdownSend, isShut]
    | false => simp
  unfold privateShutdown
  dsimp only
  rw [receives, sends]

/-- Both directions are shut down, one after the other. -/
theorem bothShut {assured : Prop} (sound : Consistency.Sound assured socket)
    (noProgress : socket.connectInProgress = false) (detaches : Bool) :
    (((socket.privateShutdownReceive detaches).privateShutdownSend
        detaches).shutdownState.shutdownSend &&
      ((socket.privateShutdownReceive detaches).privateShutdownSend
        detaches).shutdownState.shutdownReceive) = true := by
  have receives := privateShutdownReceive_keeps sound noProgress detaches
  have staysNoProgress : (socket.privateShutdownReceive detaches).connectInProgress = false :=
    (congrArg Connection.connectInProgress
      (socket.privateShutdownReceive_connection detaches)).trans noProgress
  have receiveShut := privateShutdownReceive_shut sound noProgress detaches
  obtain ⟨sendShut, keepsShut⟩ := privateShutdownSend_shut receives.sound staysNoProgress detaches
  rw [sendShut, keepsShut receiveShut]
  rfl

theorem privateShutdown_completed (shutting : Shutting callback socket) (detaches : Bool) :
    ((socket.privateShutdownReceive detaches).privateShutdownSend
      detaches).shutdownState.shutdownCompleted = true := by
  have sends := privateShutdownSend_shutting
    (privateShutdownReceive_shutting shutting detaches) detaches
  rw [sends.sound.shut, bothShut shutting.consistent shutting.noProgress detaches]

theorem privateShutdown_closes (consistent : Consistency.Sound False socket)
    (noProgress : socket.connectInProgress = false) (sound : Sound [] socket)
    (quiet : Quiet socket) (idle : socket.detachMode = .idle) (detaches : Bool) :
    Sound [] (socket.privateShutdown .both .immediate false detaches) ∧
      Settled (socket.privateShutdown .both .immediate false detaches) := by
  rw [privateShutdown_immediate]
  cases isComplete : socket.shutdownState.shutdownCompleted with
  | false =>
    have shutting : Shutting socket.closeCallback socket := {
      consistent := consistent
      noProgress := noProgress
      sound := sound
      quiet := quiet
      waits := fun complete => absurd (isComplete.symm.trans complete) false_ne_true
      registered := fun _ => rfl }
    have shut := privateShutdownSend_shutting
      (privateShutdownReceive_shutting shutting detaches) detaches
    rw [if_neg (by simp)]
    exact ⟨shut.sound, shut.settled (.inr (privateShutdown_completed shutting detaches))⟩
  | true =>
    have isShut := sound.shut
    rw [isComplete] at isShut
    have bothShut := and_eq_true_iff.mp isShut.symm
    have receives : socket.privateShutdownReceive detaches = socket := by
      simp [privateShutdownReceive, tryShutdownReceive, bothShut.2]
    have sends : socket.privateShutdownSend detaches = socket := by
      simp [privateShutdownSend, tryShutdownSend, bothShut.1]
    have closed := quiet isComplete idle
    have dispatches := dispatchClose_ledger sound.toLedger fun _ => closed
    rw [receives, sends, Bool.and_true]
    split
    · exact ⟨{ sound with toLedger := dispatches }, settled_of_none (fun _ _ => closed) rfl⟩
    · rename_i noCallback
      exact ⟨sound, settled_of_none quiet (by simpa using noCallback)⟩

end Closing

end NtfCore.Ntcr.StreamSocket.Lifecycle
