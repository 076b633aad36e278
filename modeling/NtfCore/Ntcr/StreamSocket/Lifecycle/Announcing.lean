import NtfCore.Ntcr.StreamSocket.Lifecycle.Consistency

/-!
Contract: the events of a connection that were dispatched, and those that are to be.

Owns: the order of the events; the condition under which it is kept, and the invariant that
keeps it; and that a shutdown leaves the events of a connection alone.
-/

namespace NtfCore.Ntcr.StreamSocket.Lifecycle

open NtfCore.Foundation Consistency
open Socket

namespace Retrying

/-! ## Statement -/

def rank : ConnectEvent -> Nat
  | .error _ attemptsRemaining => attemptsRemaining
  | .complete => 0

def Follows : ConnectEvent -> ConnectEvent -> Prop
  | .error _ remaining, .error _ later => later < remaining
  | .error _ remaining, .complete => 0 < remaining
  | .complete, _ => False

def Sincere : ConnectEvent -> Prop
  | .error error _ => error.isSome = true
  | .complete => True

instance : DecidableRel Follows
  | .error _ remaining, .error _ later => inferInstanceAs (Decidable (later < remaining))
  | .error _ remaining, .complete => inferInstanceAs (Decidable (0 < remaining))
  | .complete, _ => inferInstanceAs (Decidable False)

instance : DecidablePred Sincere
  | .error error _ => inferInstanceAs (Decidable (error.isSome = true))
  | .complete => inferInstanceAs (Decidable True)

/-- The events are in order, the attempts are not too many, and none was started while the
descriptor of another was open and attached. -/
def Protocol (system : System) : Prop :=
  system.shared.connectEvents.Pairwise Follows ∧
    (∀ event ∈ system.shared.connectEvents, Sincere event) ∧
    system.shared.connectAttempts ≤ system.shared.requested + 1 ∧
    system.shared.overlapped = false

instance (system : System) : Decidable (Protocol system) :=
  inferInstanceAs (Decidable (_ ∧ _))

def Promised (socket : Socket) : Call -> Prop
  | .connect _ retryCount _ _ => ∀ count, retryCount = some count -> count < sizeMax
  | .cancelConnect => socket.connectInProgress = true -> socket.detachMode = .idle
  | _ => True

def MayEnter (socket : Socket) : Call -> Prop
  | .processRemoteEndpointResolution index _ _ =>
    socket.resolutions[index]? = some socket.connectAttempts -> socket.detachMode = .idle ->
      socket.connectInProgress = true -> socket.connectError = none
  | call => Promised socket call

def Current (socket : Socket) (event : ConnectEvent) : Prop :=
  0 < rank event -> socket.connectInProgress = true ∧
    (socket.retryCount = rank event ∨
      socket.retryCount + 1 = rank event ∧ socket.connectError = none)

/-- A retry behind the connect callback does not come upon a socket that is being detached; a
name is resolved while there is a resolver; and behind the announcement of a failure no later
attempt has failed or connected. -/
def MayAdvance (socket : Socket) : Frame -> Input -> Prop
  | .finishConnectFailure, _ => socket.retryConnect = true -> socket.connectInProgress = true ->
      socket.detachMode = .idle
  | .privateRetryConnect, _ => socket.openState = .waiting -> socket.retryCount ≠ 0 ->
      socket.remainingEndpoints = 0 -> socket.resolver = true
  | .dispatchConnectFailure failure, _ =>
    failure.connectCallback = true -> Current socket failure.connectEvent
  | _, _ => True

def announced (failure : Failure) : List ConnectEvent :=
  if failure.connectCallback then [failure.connectEvent] else []

def announces : Frame -> List ConnectEvent
  | .privateFailConnectPart2 failure | .dispatchConnectFailure failure => announced failure
  | .dispatchConnectComplete connectCallback => if connectCallback then [.complete] else []
  | _ => []

def detachment : DetachCallback -> List ConnectEvent
  | .failConnectPart2 failure => announced failure
  | .shutdownSequenceComplete _ => []

def events (socket : Socket) (frames : List Frame) : List ConnectEvent :=
  socket.connectEvents ++ socket.detachments.flatMap detachment ++ frames.flatMap announces

structure Sound (socket : Socket) : Prop where
  attempts : socket.connectInProgress = true ->
    socket.connectAttempts + socket.retryCount = socket.requested + 1
  bounded : socket.connectAttempts ≤ socket.requested + 1
  remembered : socket.connectInProgress = true -> socket.connectError.isSome = true ->
    0 < socket.retryCount
  waiting : socket.openState = .waiting ->
    socket.connectError.isSome = true ∨ socket.connectAttempts = 0
  connecting : socket.openState = .connecting -> socket.connectError = none
  fresh : socket.openState = .default -> socket.connectAttempts = 0
  handled : socket.attached = true -> socket.handle = true
  held : socket.handle = true -> socket.socket = true
  detached : socket.detachMode = .initiated -> socket.attached = false
  single : socket.overlapped = false

structure Announces (socket : Socket) (events : List ConnectEvent) : Prop where
  sincere : ∀ event ∈ events, Sincere event
  distinct : (events.map rank).Nodup
  ordered : socket.connectEvents.Pairwise Follows
  /-- The attempt in progress has not failed, or is the last that has. -/
  later : socket.connectInProgress = true -> ∀ event ∈ events,
    socket.retryCount < rank event ∨
      socket.retryCount = rank event ∧ socket.connectError.isSome = true
  fresh : socket.openState = .default -> events = []

def Released (socket : Socket) : Prop :=
  socket.openState = .waiting -> socket.detachMode = .idle -> 0 < socket.connectAttempts ->
    socket.attached = false ∧ socket.handle = false

def Ready (socket : Socket) : Frame -> Prop
  | .privateFailConnect error _ _ => error.isSome = true ∧ Released socket
  | .privateFailConnectPart2 _ => socket.attached = false
  | .connectToEndpoint => socket.openState = .connecting
  | _ => Released socket

def Stands (socket : Socket) : Option Frame -> Prop
  | none => Released socket
  | some frame => Ready socket frame

def Invariant (socket : Socket) (next : Option Frame) (others : List Frame) : Prop :=
  Consistency.Invariant True socket next others ∧ Sound socket ∧ Stands socket next ∧
    Announces socket (events socket (next.toList ++ others))

/-! ## Events -/

variable {socket after : Socket}

theorem follows_iff (earlier later : ConnectEvent) :
    Follows earlier later ↔ rank later < rank earlier := by
  cases earlier <;> cases later <;> simp [Follows, rank]

theorem Announces.perm {earlier later : List ConnectEvent} (announces : Announces socket earlier)
    (isPerm : earlier.Perm later) : Announces socket later := { announces with
  sincere event mem := announces.sincere event (isPerm.mem_iff.mpr mem)
  distinct := (isPerm.map rank).nodup_iff.mp announces.distinct
  later progress event mem := announces.later progress event (isPerm.mem_iff.mpr mem)
  fresh isDefault := by
    rw [announces.fresh isDefault] at isPerm
    exact isPerm.symm.eq_nil }

/-- While a connection is in progress nothing was, or is to be, dispatched for good. -/
theorem Announces.remains {all : List ConnectEvent} (announces : Announces socket all)
    (sound : Sound socket) (progress : socket.connectInProgress = true) :
    ∀ event ∈ all, 0 < rank event := by
  intro event mem
  obtain _ | ⟨_, failed⟩ := announces.later progress event mem
  · omega
  · have some := sound.remembered progress failed
    omega

structure Carries (socket : Socket) (before : List Frame) (after : Socket)
    (frames : List Frame) : Prop where
  sound : Sound after
  announces : ∀ others, Announces socket (events socket (before ++ others)) ->
    Announces after (events after (frames ++ others))

structure Leaves (socket after : Socket) : Prop where
  connectEvents : after.connectEvents = socket.connectEvents
  detachments : after.detachments.flatMap detachment = socket.detachments.flatMap detachment
  progress : after.connectInProgress = true -> socket.connectInProgress = true ∧
    after.retryCount = socket.retryCount ∧ after.connectError = socket.connectError
  fresh : after.openState = .default -> socket.openState = .default

variable {before frames : List Frame}

theorem Leaves.carries (leaves : Leaves socket after) (sound : Sound after)
    (isSame : frames.flatMap announces = before.flatMap announces) :
    Carries socket before after frames where
  sound := sound
  announces others announced := by
    have isEvents : events after (frames ++ others) = events socket (before ++ others) := by
      unfold events
      rw [leaves.connectEvents, leaves.detachments, List.flatMap_append, List.flatMap_append,
        isSame]
    rw [isEvents]
    exact { announced with
      ordered := leaves.connectEvents ▸ announced.ordered
      later := by
        intro progress
        obtain ⟨wasProgress, isCount, isError⟩ := leaves.progress progress
        rw [isCount, isError]
        exact announced.later wasProgress
      fresh := fun isDefault => announced.fresh (leaves.fresh isDefault) }

theorem Leaves.refl (socket : Socket) : Leaves socket socket :=
  ⟨rfl, rfl, fun progress => ⟨progress, rfl, rfl⟩, id⟩

theorem Leaves.trans {second third : Socket} (first : Leaves socket second)
    (next : Leaves second third) : Leaves socket third where
  connectEvents := next.connectEvents.trans first.connectEvents
  detachments := next.detachments.trans first.detachments
  progress isProgress := by
    obtain ⟨wasProgress, isCount, isError⟩ := next.progress isProgress
    obtain ⟨firstProgress, firstCount, firstError⟩ := first.progress wasProgress
    exact ⟨firstProgress, isCount.trans firstCount, isError.trans firstError⟩
  fresh isDefault := first.fresh (next.fresh isDefault)

structure Shut (socket after : Socket) : Prop where
  consistent : Consistency.Sound True after
  noProgress : after.connectInProgress = false
  sound : Sound after
  leaves : Leaves socket after

theorem released_of_noProgress (consistent : Consistency.Sound True socket)
    (noProgress : socket.connectInProgress = false) : Released socket := by
  intro isWaiting
  have progress := consistent.progress.mpr (.inl isWaiting)
  rw [noProgress] at progress
  contradiction

theorem Shut.released (shut : Shut socket after) : Released after :=
  released_of_noProgress shut.consistent shut.noProgress

theorem Shut.carries (shut : Shut socket after)
    (isSame : frames.flatMap announces = before.flatMap announces) :
    Carries socket before after frames :=
  shut.leaves.carries shut.sound isSame

theorem Sound.shut (sound : Sound socket) (isConnection : after.connection = socket.connection)
    (isState : after.openState = socket.openState ∨ after.openState = .closed)
    (handled : after.attached = true -> after.handle = true)
    (held : after.handle = true -> after.socket = true)
    (detached : after.detachMode = .initiated -> after.attached = false) : Sound after := by
  simp only [connection, Connection.mk.injEq] at isConnection
  obtain ⟨isProgress, isCount, isAttempts, isError, _, _, _, _, isRequested, isOverlapped⟩ :=
    isConnection
  have wasState (state : OpenState) (notClosed : state ≠ .closed)
      (isAfter : after.openState = state) : socket.openState = state := by
    obtain isSame | isClosed := isState
    · rw [← isSame, isAfter]
    · exact absurd (isAfter.symm.trans isClosed) notClosed
  constructor
  · rw [isProgress, isAttempts, isCount, isRequested]
    exact sound.attempts
  · rw [isAttempts, isRequested]
    exact sound.bounded
  · rw [isProgress, isError, isCount]
    exact sound.remembered
  · rw [isError, isAttempts]
    exact fun isWaiting => sound.waiting (wasState _ nofun isWaiting)
  · rw [isError]
    exact fun isConnecting => sound.connecting (wasState _ nofun isConnecting)
  · rw [isAttempts]
    exact fun isDefault => sound.fresh (wasState _ nofun isDefault)
  · exact handled
  · exact held
  · exact detached
  · rw [isOverlapped]
    exact sound.single

theorem leaves_of_connection (isConnection : after.connection = socket.connection)
    (isState : after.openState = socket.openState ∨ after.openState = .closed)
    (isDetachments : after.detachments.flatMap detachment =
      socket.detachments.flatMap detachment) : Leaves socket after := by
  simp only [connection, Connection.mk.injEq] at isConnection
  obtain ⟨isProgress, isCount, _, isError, _, _, _, isEvents, _, _⟩ := isConnection
  refine ⟨isEvents, isDetachments, fun progress => ⟨isProgress ▸ progress, isCount, isError⟩, ?_⟩
  intro isDefault
  obtain isSame | isClosed := isState
  · rw [← isSame, isDefault]
  · exact absurd (isDefault.symm.trans isClosed) nofun

variable {original : Socket}

section

variable (shut : Shut original socket)
include shut

theorem shutdownSequenceEnd_shut (idle : socket.detachMode = .idle) {context : ShutdownContext}
    (released : context.shutdownCompleted = true -> socket.attached = false) :
    Shut original (socket.shutdownSequenceEnd context) := by
  have keeps := shutdownSequenceEnd_keeps shut.consistent idle shut.noProgress context
  have isConnection := socket.shutdownSequenceEnd_connection context
  have sound := shut.sound
  have isState : (socket.shutdownSequenceEnd context).openState = socket.openState ∨
      (socket.shutdownSequenceEnd context).openState = .closed := by
    unfold shutdownSequenceEnd
    cases context.shutdownSend <;> cases context.shutdownCompleted <;>
      simp [moveAndExecute, dispatchClose]
  obtain ⟨isDetachments, isMode⟩ :
      (socket.shutdownSequenceEnd context).detachments = socket.detachments ∧
        (socket.shutdownSequenceEnd context).detachMode = socket.detachMode := by
    unfold shutdownSequenceEnd
    cases context.shutdownSend <;> cases context.shutdownCompleted <;> exact ⟨rfl, rfl⟩
  have wasHandled := sound.handled
  have wasHeld := sound.held
  obtain ⟨handled, held⟩ : ((socket.shutdownSequenceEnd context).attached = true ->
        (socket.shutdownSequenceEnd context).handle = true) ∧
      ((socket.shutdownSequenceEnd context).handle = true ->
        (socket.shutdownSequenceEnd context).socket = true) := by
    unfold shutdownSequenceEnd
    cases context.shutdownSend <;> cases isComplete : context.shutdownCompleted <;>
      simp_all [moveAndExecute, dispatchClose]
  exact {
    consistent := keeps.sound
    noProgress := (congrArg Connection.connectInProgress isConnection).trans shut.noProgress
    sound := sound.shut isConnection isState handled held (by
      rw [isMode, idle]
      intro impossible
      cases impossible)
    leaves := shut.leaves.trans
      (leaves_of_connection isConnection isState (by rw [isDetachments])) }

theorem shuts_shut {context next : ShutdownContext}
    (shuts : socket.shutdownState.Shuts context next) (detaches : Bool) : Shut original
      ({ socket with shutdownState := next }.privateShutdownSequence context detaches) := by
  have idle := idle_of_sound shut.consistent shut.noProgress shuts.wasOpen
  have idleNext : detachMode { socket with shutdownState := next } = .idle := idle
  have hasNone : socket.detachments = [] := by simpa [idle] using shut.consistent.pending
  have keeps := shuts_keeps shut.consistent shut.noProgress shuts detaches
  have shutNext : Shut original { socket with shutdownState := next } :=
    ⟨shutdownState_sound shut.consistent idle next, shut.noProgress,
      { shut.sound with }, { shut.leaves with }⟩
  obtain ⟨_, _, _, isResult⟩ | ⟨_, isResult⟩ | ⟨completes, isResult⟩ :=
    privateShutdownSequence_cases idleNext context detaches
  · rw [isResult] at keeps ⊢
    exact { shut with
      consistent := keeps.sound
      sound := { shut.sound with handled := nofun, detached := fun _ => rfl }
      leaves := { shut.leaves with
        detachments := by
          rw [← shut.leaves.detachments, hasNone]
          simp [detaching, detachment] } }
  · rw [isResult]
    have deregisters : (socket.attached && !socket.handle) = false := by
      cases isAttached : socket.attached with
      | false => rfl
      | true => simp [shut.sound.handled isAttached]
    have shutDeregistered : Shut original (deregistered { socket with shutdownState := next }) :=
      { shutNext with
        consistent := deregistered_sound shutNext.consistent
        sound := { shut.sound with
          handled := fun isAttached =>
            absurd (deregisters.symm.trans isAttached) Bool.false_ne_true
          detached := fun _ => deregisters }
        leaves := { shut.leaves with } }
    exact shutdownSequenceEnd_shut shutDeregistered idle fun _ => deregisters
  · rw [isResult]
    exact shutdownSequenceEnd_shut shutNext idle
      fun complete => absurd (completes.symm.trans complete) Bool.false_ne_true

theorem privateShutdownSend_shut (detaches : Bool) :
    Shut original (socket.privateShutdownSend detaches) :=
  privateShutdownSend_of_sequence (shuts_shut · · detaches) shut

theorem privateShutdownReceive_shut (detaches : Bool) :
    Shut original (socket.privateShutdownReceive detaches) :=
  privateShutdownReceive_of_sequence (shuts_shut · · detaches) shut

theorem entries_shut (shutdownEntries : Nat) :
    Shut original { socket with shutdownEntries := shutdownEntries } :=
  { shut with
    consistent := { shut.consistent with }
    sound := { shut.sound with }
    leaves := { shut.leaves with } }

theorem dispatchClose_shut : Shut original socket.dispatchClose :=
  { shut with
    consistent := { shut.consistent with }
    sound := { shut.sound with }
    leaves := { shut.leaves with } }

theorem privateShutdown_shut (dir : ShutdownType) (mode : ShutdownMode) (hasEntry detaches : Bool) :
    Shut original (socket.privateShutdown dir mode hasEntry detaches) := by
  obtain ⟨_, sends, isResult⟩ := privateShutdown_of_sequence (shuts_shut · · detaches)
    (fun entries kept => entries_shut kept entries) shut dir mode hasEntry
  rw [isResult]
  split
  · exact dispatchClose_shut sends
  · exact sends

end

end Retrying

end NtfCore.Ntcr.StreamSocket.Lifecycle
