import NtfCore.Ntcr.StreamSocket.Descriptors.Refinement
import NtfCore.Ntcr.StreamSocket.Lifecycle.Consistency

/-!
Contract: what becomes of the descriptors, the reservations and the reactor of a stream socket.

Owns: the account that the socket owes of them; when a call of `release` and a call that opens
the socket are safe; the invariant by which the account is right along a run; what it says in
each state; what calls that open the socket do to it.
-/

namespace NtfCore.Ntcr.StreamSocket.Descriptors

open NtfCore.Foundation Holder Ownership
open Lifecycle (Socket Frame DetachCallback ShutdownContext)
open Lifecycle.Consistency (Sound Keeps Established)

structure Accounted (system : System) : Prop where
  /-- No descriptor is closed twice. -/
  closedOnce : system.shared.descriptors.closed.Nodup
  /-- No descriptor is handed to two calls of `release`. -/
  handedOnce : system.shared.handed.Nodup
  /-- What was handed is not closed. -/
  apart : ∀ number ∈ system.shared.handed, number ∉ system.shared.descriptors.closed
  /-- Unless a thread holds the mutex or a detachment is pending, a socket that is destroyed
  leaves each descriptor closed once or handed once. -/
  ended : system.running = [] -> system.shared.core.detachMode = .idle ->
    system.shared.core.failed = none ->
    (system.shared.destroyObject.descriptors.closed ++ system.shared.handed).Perm
      (List.range system.shared.descriptors.obtained)
  /-- There is a reservation exactly while the handle is recorded. -/
  reserved : system.shared.reservationsAcquired =
    system.shared.reservationsReleased + system.shared.core.handle.toNat
  releasedOnce : system.shared.reactorReleases ≤ 1

/-- A descriptor that is released is recorded, no other call has released it, and the socket
is being detached if and only if it was shut down for good. -/
def Releasable (socket : Socket) : Prop :=
  socket.handle = true ∧ socket.detachGoal = .toClose ∧
    (socket.detachMode = .initiated ↔ socket.shutdownState.shutdownCompleted = true)

/-- A call of `release` that returns a descriptor releases one that can be, and no descriptor
that is connected is given while the socket is being connected. -/
def MayEnter (holder : Holder) : Call -> Prop
  | .openHandle (.acquiresConnected _) | .openSocket (.acquiresConnected _) =>
    holder.core.connectInProgress = false
  | .other (.release _ _) =>
    holder.core.socket = true -> holder.core.descriptor = true -> Releasable holder.core
  | _ => True

structure Tidy (socket : Socket) : Prop where
  object : socket.handle = true -> socket.socket = true
  described : socket.handle = true -> socket.descriptor = true
  contained : socket.descriptor = true -> socket.socket = true
  registered : socket.attached = true -> socket.handle = true
  pending : socket.detachMode = .initiated -> socket.handle = true ∧ socket.attached = false
  completes : socket.shutdownState.shutdownCompleted =
    (socket.shutdownState.shutdownSend && socket.shutdownState.shutdownReceive)
  past : socket.shutdownState.shutdownCompleted = true ->
    socket.openState ≠ .default ∧ socket.connectInProgress = false
  /-- A socket is detached by a shutdown only to be shut down for good. -/
  sequences : ∀ context, .shutdownSequenceComplete context ∈ socket.detachments ->
    context.shutdownCompleted = true ∧ socket.shutdownState.shutdownCompleted = true
  /-- A socket object has lost its handle. -/
  bare : socket.socket = true -> socket.handle = false ->
    socket.connectInProgress = true ∨ socket.shutdownState.shutdownCompleted = true

structure Steady (holder : Holder) : Prop where
  tidy : Tidy holder.core
  settled : holder.descriptors.Settled
  held : holder.descriptors.held.isSome = holder.core.descriptor
  reservations : holder.reservationsAcquired =
    holder.reservationsReleased + holder.core.handle.toNat
  reactor : holder.reactorReleases ≤ 1
  unreleased : holder.core.shutdownState.shutdownCompleted = false -> holder.reactorReleases = 0
  postponed : ∀ context, .shutdownSequenceComplete context ∈ holder.core.detachments ->
    holder.reactorReleases = 0

/-- The descriptor was handed to a call of `release`, and has not been let go. -/
structure Owed (holder : Holder) : Prop where
  handed : holder.handed = holder.descriptors.released ++ holder.descriptors.held.toList
  recorded : holder.core.handle = true
  goal : holder.core.detachGoal = .toExport

def Leaving (socket : Socket) (next : Option Frame) : Prop :=
  socket.shutdownState.shutdownCompleted = true ∧
      (socket.detachMode = .initiated ∨
        ∃ failure, next = some (.privateFailConnectPart2 failure)) ∨
    socket.connectInProgress = true ∧
      ∃ error defer, next = some (.privateFailConnect error defer true)

def Over (socket : Socket) (next : Option Frame) : Prop :=
  socket.shutdownState.shutdownCompleted = true ∧ socket.detachMode = .idle ∧
    ∀ failure, next ≠ some (.privateFailConnectPart2 failure)

inductive Promise (holder : Holder) (next : Option Frame) : Prop
  | kept (handed : holder.handed = holder.descriptors.released)
      (harmless : holder.core.detachGoal = .toClose ∨ holder.core.failed.isSome ∨
        Over holder.core next)
  | due (owed : Owed holder) (leaving : holder.core.failed.isSome ∨ Leaving holder.core next)

def Due (socket : Socket) : Frame -> Prop
  | .privateFailConnectPart2 _ => socket.detachMode = .idle ∧ socket.attached = false ∧
      (socket.connectInProgress = true ∨ socket.shutdownState.shutdownCompleted = true)
  | .privateSocketWritableConnection => socket.handle = true
  | _ => True

structure Balanced (holder : Holder) (next : Option Frame) : Prop extends Steady holder where
  promise : Promise holder next
  due : ∀ frame ∈ next, Due holder.core frame

def GivesUp : Frame -> Prop
  | .privateFailConnect _ _ true | .privateFailConnectPart2 _ => True
  | _ => False

variable {owner : Holder} {frame : Frame} {next : Option Frame}

theorem Balanced.toClose_or_owed (balanced : Balanced owner next)
    (running : owner.core.failed = none) (notOver : ¬ Over owner.core next) :
    owner.handed = owner.descriptors.released ∧ owner.core.detachGoal = .toClose ∨
      Owed owner ∧ Leaving owner.core next := by
  cases balanced.promise with
  | kept handed harmless =>
    obtain toClose | failed | past := harmless
    · exact .inl ⟨handed, toClose⟩
    · rw [running] at failed
      contradiction
    · contradiction
  | due owed leaving =>
    obtain failed | leaves := leaving
    · rw [running] at failed
      contradiction
    · exact .inr ⟨owed, leaves⟩

/-- What was handed is in the places that are left to the caller. -/
theorem Promise.handed_sublist (promise : Promise owner next) :
    owner.handed.Sublist (owner.descriptors.released ++ owner.descriptors.held.toList) := by
  cases promise with
  | kept handed =>
    rw [handed]
    exact List.sublist_append_left _ _
  | due owed => rw [owed.handed]

theorem Balanced.accounted {system : System} (balanced : Balanced system.shared next)
    (rests : system.running = [] -> next = none) : Accounted system where
  closedOnce := balanced.settled.closed_nodup
  handedOnce := by
    have apart := balanced.settled.nodup
    unfold places at apart
    rw [List.append_assoc] at apart
    exact apart.of_append_right.sublist balanced.promise.handed_sublist
  apart := by
    intro _ isHanded isClosed
    have apart := balanced.settled.nodup
    unfold places at apart
    rw [List.append_assoc] at apart
    exact List.disjoint_of_nodup_append apart isClosed
      (balanced.promise.handed_sublist.subset isHanded)
  ended := by
    intro atRest idle running
    have handed : system.shared.handed = system.shared.descriptors.released := by
      cases balanced.promise with
      | kept handed => exact handed
      | due _ leaving =>
        rw [rests atRest, running] at leaving
        simp [Leaving, idle] at leaving
    rw [handed]
    have settled := balanced.settled.close
    unfold Settled places at settled
    simpa [destroyObject, Ownership.close] using settled
  reserved := balanced.reservations
  releasedOnce := balanced.reactor

/-! ## The next frame -/

theorem Balanced.rest (balanced : Balanced owner (some frame)) (keeps : ¬ GivesUp frame) :
    Balanced owner none := { balanced with
  promise := by
    cases balanced.promise with
    | kept handed harmless =>
      refine .kept handed ?_
      obtain toClose | failed | past := harmless
      · exact .inl toClose
      · exact .inr (.inl failed)
      · exact .inr (.inr ⟨past.1, past.2.1, fun _ => nofun⟩)
    | due owed leaving =>
      refine .due owed (leaving.imp_right ?_)
      rintro (⟨completed, initiated | ⟨_, isFrame⟩⟩ | ⟨_, _, _, isFrame⟩)
      · exact .inl ⟨completed, .inl initiated⟩
      · cases isFrame
        exact absurd trivial keeps
      · cases isFrame
        exact absurd trivial keeps
  due := nofun }

/-- A frame other than the completion of a detachment may come next. -/
theorem Balanced.ahead (balanced : Balanced owner none) (due : Due owner.core frame)
    (other : ∀ failure, frame ≠ .privateFailConnectPart2 failure) :
    Balanced owner (some frame) := { balanced with
  promise := by
    cases balanced.promise with
    | kept handed harmless =>
      refine .kept handed ?_
      obtain toClose | failed | past := harmless
      · exact .inl toClose
      · exact .inr (.inl failed)
      · exact .inr (.inr ⟨past.1, past.2.1,
          fun failure isFrame => other failure (Option.some.inj isFrame)⟩)
    | due owed leaving =>
      refine .due owed (leaving.imp_right ?_)
      rintro (⟨completed, initiated | ⟨_, isFrame⟩⟩ | ⟨_, _, _, isFrame⟩)
      · exact .inl ⟨completed, .inl initiated⟩
      · contradiction
      · contradiction
  due := by
    intro _ isFrame
    cases isFrame
    exact due }

def Plain : Frame -> Prop
  | .privateFailConnectPart2 _ | .privateSocketWritableConnection => False
  | _ => True

theorem Balanced.plain (balanced : Balanced owner none) (plain : Plain frame) :
    Balanced owner (some frame) := by
  apply balanced.ahead
  · cases frame with
    | privateFailConnectPart2 | privateSocketWritableConnection => exact plain.elim
    | _ => trivial
  · rintro _ rfl
    exact plain

theorem Balanced.plains (balanced : Balanced owner none) {frames : List Frame}
    (plain : ∀ frame ∈ frames.head?, Plain frame) : Balanced owner frames.head? := by
  cases frames with
  | nil => exact balanced
  | cons frame => exact balanced.plain (plain frame rfl)

/-! ## What does not matter to the account -/

structure Stance where
  openState : Lifecycle.OpenState
  detachMode : Lifecycle.DetachMode
  detachGoal : Lifecycle.DetachGoal
  shutdownState : ShutdownContext
  connectInProgress : Bool
  socket : Bool
  descriptor : Bool
  handle : Bool
  attached : Bool
  detachments : List DetachCallback
  failed : Option Lifecycle.Assertion

def stance (socket : Socket) : Stance where
  openState := socket.openState
  detachMode := socket.detachMode
  detachGoal := socket.detachGoal
  shutdownState := socket.shutdownState
  connectInProgress := socket.connectInProgress
  socket := socket.socket
  descriptor := socket.descriptor
  handle := socket.handle
  attached := socket.attached
  detachments := socket.detachments
  failed := socket.failed

open Stance

theorem Tidy.of_stance {socket core : Socket} (tidy : Tidy socket)
    (same : stance core = stance socket) : Tidy core := by
  obtain ⟨openState, detachMode, _, shutdownState, connectInProgress, isSocket, descriptor,
    handle, attached, detachments, _⟩ := mk.inj same
  constructor
  · rw [handle, isSocket]
    exact tidy.object
  · rw [handle, descriptor]
    exact tidy.described
  · rw [descriptor, isSocket]
    exact tidy.contained
  · rw [attached, handle]
    exact tidy.registered
  · rw [detachMode, handle, attached]
    exact tidy.pending
  · rw [shutdownState]
    exact tidy.completes
  · rw [shutdownState, openState, connectInProgress]
    exact tidy.past
  · rw [detachments, shutdownState]
    exact tidy.sequences
  · rw [isSocket, handle, connectInProgress, shutdownState]
    exact tidy.bare

variable {core : Socket}

theorem Steady.of_stance (steady : Steady owner) (same : stance core = stance owner.core) : Steady
    { owner with core := core } := { steady with
  tidy := steady.tidy.of_stance same
  held := steady.held.trans (congrArg descriptor same).symm
  reservations := by
    have handle : core.handle = owner.core.handle := congrArg handle same
    rw [handle]
    exact steady.reservations
  unreleased := by
    have shutdownState : core.shutdownState = owner.core.shutdownState :=
      congrArg shutdownState same
    rw [shutdownState]
    exact steady.unreleased
  postponed := by
    have detachments : core.detachments = owner.core.detachments := congrArg detachments same
    rw [detachments]
    exact steady.postponed }

theorem Owed.of_stance (owed : Owed owner) (same : stance core = stance owner.core) : Owed
    { owner with core := core } := { owed with
  recorded := (congrArg handle same).trans owed.recorded
  goal := (congrArg detachGoal same).trans owed.goal }

theorem Promise.of_stance (promise : Promise owner next) (same : stance core = stance owner.core)
    : Promise { owner with core := core } next := by
  obtain ⟨_, detachMode, detachGoal, shutdownState, connectInProgress, _, _, _, _, _, failed⟩ :=
    mk.inj same
  cases promise with
  | kept handed harmless =>
    refine .kept handed ?_
    unfold Over at harmless ⊢
    rw [detachGoal, failed, shutdownState, detachMode]
    exact harmless
  | due owed leaving =>
    refine .due (owed.of_stance same) ?_
    unfold Leaving at leaving ⊢
    rw [failed, shutdownState, detachMode, connectInProgress]
    exact leaving

theorem Due.of_stance {socket core : Socket} (due : Due socket frame)
    (same : stance core = stance socket) : Due core frame := by
  obtain ⟨_, detachMode, _, shutdownState, connectInProgress, _, _, handle, attached, _, _⟩ :=
    mk.inj same
  cases frame with
  | privateFailConnectPart2 =>
    unfold Due
    rw [detachMode, attached, connectInProgress, shutdownState]
    exact due
  | privateSocketWritableConnection =>
    unfold Due
    rw [handle]
    exact due
  | _ => trivial

/-- The account depends on nothing else of the socket. -/
theorem Balanced.of_stance (balanced : Balanced owner next)
    (same : stance core = stance owner.core) : Balanced { owner with core := core } next where
  toSteady := balanced.toSteady.of_stance same
  promise := balanced.promise.of_stance same
  due := fun frame isNext => (balanced.due frame isNext).of_stance same

/-! ## Opening -/

/-- A socket without a recorded handle is not being detached, and nothing is owed. -/
theorem Balanced.unrecorded (balanced : Balanced owner none)
    (noHandle : owner.core.handle = false) :
    owner.core.detachMode = .idle ∧ owner.core.attached = false ∧
      owner.handed = owner.descriptors.released ∧
      (owner.core.detachGoal = .toClose ∨ owner.core.failed.isSome ∨ Over owner.core none) := by
  have tidy := balanced.tidy
  refine ⟨?_, ?_, ?_⟩
  · cases isMode : owner.core.detachMode with
    | idle => rfl
    | initiated => exact absurd ((tidy.pending isMode).1.symm.trans noHandle) nofun
  · cases isAttached : owner.core.attached with
    | false => rfl
    | true => exact absurd ((tidy.registered isAttached).symm.trans noHandle) nofun
  · cases balanced.promise with
    | kept handed harmless => exact ⟨handed, harmless⟩
    | due owed => exact absurd (owed.recorded.symm.trans noHandle) nofun

variable {ownership : Ownership}

/-- What calls may do to a socket without a recorded handle. -/
theorem Balanced.becomes (balanced : Balanced owner none) (noHandle : owner.core.handle = false)
    (openState : Lifecycle.OpenState) (object descriptor handle attached : Bool) {acquired : Nat}
    (tidy : Tidy { owner.core with
      openState := openState
      socket := object
      descriptor := descriptor
      handle := handle
      attached := attached })
    (settled : ownership.Settled) (held : ownership.held.isSome = descriptor)
    (released : ownership.released = owner.descriptors.released)
    (reserved : acquired = owner.reservationsAcquired + handle.toNat) :
    Balanced { owner with
      core := { owner.core with
        openState := openState
        socket := object
        descriptor := descriptor
        handle := handle
        attached := attached }
      descriptors := ownership
      reservationsAcquired := acquired } none := by
  obtain ⟨_, _, handed, harmless⟩ := balanced.unrecorded noHandle
  have reservations := balanced.reservations
  rw [noHandle] at reservations
  constructor
  case toSteady =>
      exact { balanced with
        tidy := tidy
        settled := settled
        held := held
        reservations := reserved.trans (congrArg (· + handle.toNat) reservations) }
  case promise => exact .kept (handed.trans released.symm) harmless
  case due => nofun

theorem acquire_held (ownership : Ownership) : ownership.acquire.held.isSome = true := by
  unfold acquire
  cases isHeld : ownership.held with
  | none => rfl
  | some => rw [isHeld]; rfl

theorem acquire_released (ownership : Ownership) :
    ownership.acquire.released = ownership.released := by
  unfold acquire
  split <;> rfl

section

variable (balanced : Balanced owner none)
include balanced

theorem recorded_balanced (noHandle : owner.core.handle = false) {openState : Lifecycle.OpenState}
    {attached : Bool} (past : owner.core.shutdownState.shutdownCompleted = true ->
      openState ≠ .default ∧ owner.core.connectInProgress = false) :
    Balanced { owner with
      core := { owner.core with
        openState := openState
        socket := true
        descriptor := true
        handle := true
        attached := attached }
      descriptors := owner.descriptors.acquire
      reservationsAcquired := owner.reservationsAcquired + 1 } none := by
  have idle := (balanced.unrecorded noHandle).1
  apply balanced.becomes noHandle openState true true true attached
  · exact { balanced.tidy with
      object := fun _ => rfl
      described := fun _ => rfl
      contained := fun _ => rfl
      registered := fun _ => rfl
      pending := fun initiated => absurd (idle.symm.trans initiated) nofun
      past := past
      bare := fun _ unrecorded => absurd unrecorded nofun }
  · exact balanced.settled.acquire
  · exact acquire_held owner.descriptors
  · exact acquire_released owner.descriptors
  · rfl

theorem opened_balanced : Balanced owner.opened none := by
  unfold opened
  cases hasHandle : owner.core.handle with
  | true =>
    have tidy := balanced.tidy
    apply balanced.of_stance
    unfold stance Socket.opened
    rw [tidy.object hasHandle, tidy.described hasHandle, hasHandle]
  | false =>
    rw [if_neg nofun]
    exact recorded_balanced balanced hasHandle balanced.tidy.past

/-- The socket object obtains a descriptor that is not recorded, or gives one up. -/
theorem contains_balanced (noHandle : owner.core.handle = false) (descriptor : Bool)
    (settled : ownership.Settled) (held : ownership.held.isSome = descriptor)
    (released : ownership.released = owner.descriptors.released)
    (contained : descriptor = true -> owner.core.socket = true) :
    Balanced { owner with
      core := { owner.core with descriptor := descriptor }
      descriptors := ownership } none := by
  have tidy := balanced.tidy
  apply balanced.becomes noHandle owner.core.openState owner.core.socket descriptor
    owner.core.handle owner.core.attached
  · exact { tidy with
      described := fun hasHandle => absurd (hasHandle.symm.trans noHandle) nofun
      contained := contained }
  · exact settled
  · exact held
  · exact released
  · rw [noHandle]
    rfl

theorem openFailed_balanced (created : Bool) : Balanced (owner.openFailed created) none := by
  unfold openFailed Socket.openFailed
  generalize isDescriptor : (owner.core.descriptor ||
    created && owner.core.socket && !owner.core.handle) = descriptor
  by_cases creates : created = true ∧ ¬ owner.core.handle = true
  · have noHandle := Bool.eq_false_iff.mpr creates.2
    rw [if_pos creates]
    by_cases hasObject : owner.core.socket = true
    · have isHeld : true = descriptor := by simpa [creates, hasObject] using isDescriptor
      rw [if_pos hasObject]
      exact contains_balanced balanced noHandle descriptor balanced.settled.acquire
        ((acquire_held owner.descriptors).trans isHeld)
        (acquire_released owner.descriptors) fun _ => hasObject
    · have isSame : owner.core.descriptor = descriptor := by simpa [hasObject] using isDescriptor
      rw [if_neg hasObject]
      exact contains_balanced balanced noHandle descriptor balanced.settled.discard
        (balanced.held.trans isSame) rfl
        fun contains => balanced.tidy.contained (isSame.trans contains)
  · have isSame : owner.core.descriptor = descriptor := by cases created <;> simp_all
    rw [if_neg creates, ← isSame]
    exact balanced

theorem destroyObject_balanced (noHandle : owner.core.handle = false) :
    Balanced owner.destroyObject none :=
  contains_balanced balanced noHandle false balanced.settled.close rfl rfl nofun

end

structure Opens (holder after : Holder) : Prop where
  balanced : Balanced after none
  keeps : Keeps False holder.core.openState after.core

section

variable (balanced : Balanced owner none)
include balanced

section

variable (sound : Sound False owner.core)
include sound

theorem opened_opens : Opens owner owner.opened := by
  refine ⟨opened_balanced balanced, ?_⟩
  rw [opened_core]
  exact ⟨{ sound with }, id⟩

theorem privateOpen_opens (opening : Opening) : Opens owner (owner.privateOpen opening) := by
  cases opening with
  | fails created => exact ⟨openFailed_balanced balanced created, ⟨{ sound with }, id⟩⟩
  | opens => exact opened_opens balanced sound

theorem connected_opens (noHandle : owner.core.handle = false)
    (noProgress : owner.core.connectInProgress = false) (attaches : Bool) :
    Opens owner (owner.recorded (.acquiresConnected attaches)) := by
  unfold recorded opened
  rw [noHandle, if_neg nofun]
  have connected : Established .connected := .inl rfl
  refine ⟨recorded_balanced balanced noHandle fun _ => ⟨nofun, noProgress⟩, ?_, fun _ => connected⟩
  exact { sound with
    progress := by simp [acquireHandleReservation, Socket.opened, noProgress]
    registered := fun _ => ⟨nofun, fun progress => absurd (progress.symm.trans noProgress) nofun⟩
    sequences := fun _ _ => connected
    upgrades := fun _ => connected }

theorem recorded_opens (noHandle : owner.core.handle = false) (acquisition : Acquisition)
    (may : ∀ attaches, acquisition = .acquiresConnected attaches ->
      owner.core.connectInProgress = false) : Opens owner (owner.recorded acquisition) := by
  cases acquisition with
  | fails => exact ⟨balanced, ⟨sound, id⟩⟩
  | acquires => exact opened_opens balanced sound
  | acquiresConnected attaches =>
    exact connected_opens balanced sound noHandle (may attaches rfl) attaches

theorem privateOpenHandle_opens (acquisition : Acquisition)
    (may : ∀ attaches, acquisition = .acquiresConnected attaches ->
      owner.core.connectInProgress = false) :
    Opens owner (owner.privateOpenHandle acquisition) := by
  unfold privateOpenHandle
  split
  · exact ⟨balanced, ⟨sound, id⟩⟩
  · rename_i bare
    exact recorded_opens balanced sound
      (Bool.eq_false_iff.mpr fun hasHandle => bare (.inl hasHandle)) acquisition may

theorem privateOpenSocket_opens (acquisition : Acquisition)
    (may : ∀ attaches, acquisition = .acquiresConnected attaches ->
      owner.core.connectInProgress = false) :
    Opens owner (owner.privateOpenSocket acquisition) := by
  unfold privateOpenSocket
  split
  · exact ⟨balanced, ⟨sound, id⟩⟩
  · rename_i opens
    have noHandle := Bool.eq_false_iff.mpr fun hasHandle => opens (.inl hasHandle)
    have isSound : Sound False owner.destroyObject.core := { sound with }
    obtain ⟨after, keeps⟩ := recorded_opens (destroyObject_balanced balanced noHandle) isSound
      noHandle acquisition may
    exact ⟨after, ⟨keeps.sound, keeps.established⟩⟩

end

end

end NtfCore.Ntcr.StreamSocket.Descriptors
