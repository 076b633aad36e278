import NtfCore.Ntcr.StreamSocket.Descriptors.Accounting
import NtfCore.Ntcr.StreamSocket.Lifecycle.Ledger

/-!
Contract: a stream socket that is shut down for good gives up its descriptor, its reservation
and the reactor, and accounts for them.

Owns: the end of the shutdown sequence; that the shutdown of a direction keeps the account, also
of a socket that is released.
-/

namespace NtfCore.Ntcr.StreamSocket.Descriptors

open NtfCore.Foundation Holder Stance Lifecycle.Closing
open Lifecycle (Socket DetachCallback ShutdownContext ShutdownType ShutdownMode)
open Lifecycle.Consistency (Sound Keeps Established)

variable {owner : Holder} {releases : Prop}

/-! ## The end of the shutdown sequence -/

def Pledged (holder : Holder) : Prop :=
  holder.handed = holder.descriptors.released ∧ holder.core.detachGoal = .toClose ∨ Owed holder

structure Ending (holder : Holder) : Prop where
  idle : holder.core.detachMode = .idle
  noProgress : holder.core.connectInProgress = false
  completed : holder.core.shutdownState.shutdownCompleted = true
  completes : holder.core.shutdownState.shutdownCompleted =
    (holder.core.shutdownState.shutdownSend && holder.core.shutdownState.shutdownReceive)
  noDetachments : holder.core.detachments = []
  unattached : holder.core.attached = false
  recorded : holder.core.handle = holder.core.socket
  contained : holder.core.descriptor = true -> holder.core.socket = true
  settled : holder.descriptors.Settled
  held : holder.descriptors.held.isSome = holder.core.descriptor
  reservations : holder.reservationsAcquired =
    holder.reservationsReleased + holder.core.handle.toNat
  unreleased : holder.reactorReleases = 0
  pledged : Pledged holder

def finished (socket : Socket) : Socket :=
  { socket with descriptor := false, handle := false, openState := .closed }

variable {context : ShutdownContext}

theorem shutdownSequenceEnd_stance (socket : Socket) (completes : context.shutdownCompleted = true)
    (contained : socket.descriptor = true -> socket.socket = true) :
    stance (socket.shutdownSequenceEnd context) = stance (finished socket) := by
  have noDescriptor : (socket.descriptor && !socket.socket) = false := by
    cases contains : socket.descriptor with
    | false => rfl
    | true => rw [contained contains]; rfl
  have same : stance (socket.shutdownSequenceEnd context) = stance { finished socket with
      descriptor := socket.descriptor && !socket.socket } := by
    unfold Socket.shutdownSequenceEnd
    rw [completes]
    cases context.shutdownSend <;> rfl
  rw [same, noDescriptor]
  rfl

theorem shutdownSequenceEnd_stance_incomplete (socket : Socket)
    (incomplete : context.shutdownCompleted = false) :
    stance (socket.shutdownSequenceEnd context) = stance socket := by
  unfold Socket.shutdownSequenceEnd
  rw [incomplete]
  cases context.shutdownSend <;> rfl

/-- The socket object closes what it has, or lets it go, to the one it was handed to. -/
theorem giveUp_kept (pledged : Pledged owner) :
    owner.giveUp.handed = owner.giveUp.descriptors.released := by
  unfold giveUp
  obtain ⟨handed, toClose⟩ | owed := pledged
  · rw [toClose]
    exact handed
  · rw [owed.goal]
    exact owed.handed

theorem giveUp_settled (settled : owner.descriptors.Settled) :
    owner.giveUp.descriptors.Settled := by
  unfold giveUp
  cases owner.core.detachGoal with
  | toClose => exact settled.close
  | toExport => exact settled.release

theorem giveUp_held (owner : Holder) : owner.giveUp.descriptors.held = none := by
  unfold giveUp
  cases owner.core.detachGoal with
  | toClose | toExport => rfl

theorem Ending.tidy (ending : Ending owner) : Tidy (finished owner.core) := { ending with
  object := nofun
  described := nofun
  contained := nofun
  registered attached := absurd (attached.symm.trans ending.unattached) nofun
  pending initiated := absurd (ending.idle.symm.trans initiated) nofun
  past _ := ⟨nofun, ending.noProgress⟩
  sequences context mem := by
    unfold finished at mem
    rw [ending.noDetachments] at mem
    contradiction
  bare _ _ := .inr ending.completed }

structure GivenUp (holder : Holder) : Prop where
  settled : holder.descriptors.Settled
  held : holder.descriptors.held = none
  reservations : holder.reservationsAcquired = holder.reservationsReleased
  reactor : holder.reactorReleases = 1
  handed : holder.handed = holder.descriptors.released

section

variable (ending : Ending owner) (completes : context.shutdownCompleted = true)
include ending completes

theorem Ending.givenUp : GivenUp (owner.shutdownSequenceEnd context) := by
  have reservations := ending.reservations
  have reactor := congrArg (· + 1) ending.unreleased
  rw [ending.recorded] at reservations
  unfold shutdownSequenceEnd
  rw [if_pos completes]
  by_cases hasObject : owner.core.socket = true
  · rw [if_pos hasObject]
    rw [hasObject] at reservations
    exact ⟨giveUp_settled ending.settled, giveUp_held _, reservations, reactor,
      giveUp_kept ending.pledged⟩
  · have noObject := Bool.eq_false_iff.mpr hasObject
    have noHandle := ending.recorded.trans noObject
    have noDescriptor : owner.core.descriptor = false :=
      Bool.eq_false_iff.mpr fun contains => hasObject (ending.contained contains)
    have noneHeld : owner.descriptors.held = none :=
      Option.not_isSome_iff_eq_none.mp (by rw [ending.held, noDescriptor]; nofun)
    rw [if_neg hasObject]
    rw [noObject] at reservations
    refine ⟨ending.settled, noneHeld, reservations, reactor, ?_⟩
    obtain ⟨handed, _⟩ | owed := ending.pledged
    · exact handed
    · exact absurd (owed.recorded.symm.trans noHandle) nofun

/-- The end of the sequence keeps the account. -/
theorem Ending.balanced : Balanced (owner.shutdownSequenceEnd context) none := by
  obtain ⟨settled, held, reservations, reactor, handed⟩ := ending.givenUp completes
  have balanced : Balanced
      { owner.shutdownSequenceEnd context with core := finished owner.core } none := by
    constructor
    case toSteady =>
        exact {
          tidy := ending.tidy
          settled := settled
          held := congrArg Option.isSome held
          reservations := reservations
          reactor := Nat.le_of_eq reactor
          unreleased := fun incomplete => absurd (ending.completed.symm.trans incomplete) nofun
          postponed := by
            intro _ mem
            unfold finished at mem
            rw [ending.noDetachments] at mem
            contradiction }
    case promise =>
        exact .kept handed (.inr (.inr ⟨ending.completed, ending.idle, fun _ => nofun⟩))
    case due => nofun
  exact balanced.of_stance (shutdownSequenceEnd_stance owner.core completes ending.contained)

end

section

variable (owner : Holder) (idle : owner.core.detachMode = .idle) (context : ShutdownContext)
include idle

theorem privateShutdownSequenceComplete_idle :
    owner.privateShutdownSequenceComplete context false = owner.shutdownSequenceEnd context := by
  have isSame : { owner.core with detachMode := .idle } = owner.core := by rw [← idle]
  unfold privateShutdownSequenceComplete
  rw [if_pos (by rw [idle]; decide), isSame]

theorem privateShutdownSequence_cases (detaches : Bool) :
    context.shutdownCompleted = true ∧ owner.core.handle = true ∧ owner.core.attached = true ∧
        owner.privateShutdownSequence context detaches =
          { owner with core := owner.core.detaching (.shutdownSequenceComplete context) } ∨
      context.shutdownCompleted = true ∧ owner.privateShutdownSequence context detaches =
          { owner with core := owner.core.deregistered }.shutdownSequenceEnd context ∨
      context.shutdownCompleted = false ∧
        owner.privateShutdownSequence context detaches = owner.shutdownSequenceEnd context := by
  unfold privateShutdownSequence detachSocket
  cases completes : context.shutdownCompleted with
  | false =>
    rw [if_neg (by simp), privateShutdownSequenceComplete_idle owner idle]
    exact .inr (.inr ⟨rfl, rfl⟩)
  | true =>
    by_cases hasHandle : owner.core.handle = true
    · rw [if_pos ⟨rfl, hasHandle⟩, if_neg (by rw [idle]; decide)]
      obtain ⟨_, wasAttached, isDetached⟩ | isDetached :=
        Socket.detachSocket_cases owner.core detaches (.shutdownSequenceComplete context)
      · rw [isDetached, if_pos (by rfl)]
        exact .inl ⟨rfl, hasHandle, wasAttached, rfl⟩
      · have staysIdle : owner.core.deregistered.detachMode = .idle := idle
        rw [isDetached, if_neg (by rw [staysIdle]; decide)]
        exact .inr (.inl ⟨rfl, privateShutdownSequenceComplete_idle
          { owner with core := owner.core.deregistered } staysIdle context⟩)
    · rw [if_neg (by simp [hasHandle]), privateShutdownSequenceComplete_idle owner idle,
        Socket.deregistered_of_noHandle (Bool.eq_false_iff.mpr hasHandle)]
      exact .inr (.inl ⟨rfl, rfl⟩)

end

structure Shutting (releases : Prop) (holder : Holder) : Prop extends Steady holder where
  sound : Sound False holder.core
  noProgress : holder.core.connectInProgress = false
  pledged : holder.core.shutdownState.shutdownCompleted = false -> Pledged holder
  promised : holder.core.shutdownState.shutdownCompleted = true -> Promise holder none
  goal : holder.core.shutdownState.shutdownCompleted = false ->
    releases ∨ holder.core.detachGoal = .toClose

theorem Balanced.shutting (balanced : Balanced owner none) (sound : Sound False owner.core)
    (noProgress : owner.core.connectInProgress = false) (running : owner.core.failed = none) :
    Shutting False owner := by
  have closes (incomplete : owner.core.shutdownState.shutdownCompleted = false) :
      owner.handed = owner.descriptors.released ∧ owner.core.detachGoal = .toClose := by
    have notOver : ¬ Over owner.core none := fun past => absurd (past.1.symm.trans incomplete) nofun
    obtain closes | ⟨_, leaves⟩ := balanced.toClose_or_owed running notOver
    · exact closes
    · simp [Leaving, incomplete] at leaves
  exact { balanced with
    sound := sound
    noProgress := noProgress
    pledged := fun incomplete => .inl (closes incomplete)
    promised := fun _ => balanced.promise
    goal := fun incomplete => .inr (closes incomplete).2 }

theorem Shutting.balanced (shutting : Shutting releases owner)
    (completed : releases -> owner.core.shutdownState.shutdownCompleted = true) :
    Balanced owner none := { shutting with
  promise := by
    cases isCompleted : owner.core.shutdownState.shutdownCompleted with
    | true => exact shutting.promised isCompleted
    | false =>
      obtain releasing | toClose := shutting.goal isCompleted
      · exact absurd ((completed releasing).symm.trans isCompleted) nofun
      · obtain ⟨handed, _⟩ | owed := shutting.pledged isCompleted
        · exact .kept handed (.inl toClose)
        · exact absurd (owed.goal.symm.trans toClose) nofun
  due := nofun }

section Shuts

variable {context next : ShutdownContext} (shutting : Shutting releases owner)
  (shuts : owner.core.shutdownState.Shuts context next)

include shutting shuts

theorem Shutting.incomplete : owner.core.shutdownState.shutdownCompleted = false := by
  rw [shutting.tidy.completes]
  obtain isOpen | isOpen := shuts.wasOpen
  · rw [isOpen, Bool.false_and]
  · rw [isOpen, Bool.and_false]

theorem Shutting.idle : owner.core.detachMode = .idle :=
  Lifecycle.Consistency.idle_of_sound shutting.sound shutting.noProgress shuts.wasOpen

theorem Shutting.noDetachments : owner.core.detachments = [] := by
  simpa [shutting.idle shuts] using shutting.sound.pending

theorem Shutting.recorded : owner.core.handle = owner.core.socket := by
  have incomplete := shutting.incomplete shuts
  cases hasObject : owner.core.socket with
  | false =>
    apply Bool.eq_false_iff.mpr
    intro hasHandle
    exact absurd ((shutting.tidy.object hasHandle).symm.trans hasObject) nofun
  | true =>
    cases hasHandle : owner.core.handle with
    | true => rfl
    | false =>
      obtain progress | completed := shutting.tidy.bare hasObject hasHandle
      · exact absurd (progress.symm.trans shutting.noProgress) nofun
      · exact absurd (completed.symm.trans incomplete) nofun

/-- The socket goes on to be shut down when it is detached. -/
theorem Shutting.detaches (completes : context.shutdownCompleted = true)
    (hasHandle : owner.core.handle = true) (wasAttached : owner.core.attached = true) :
    Balanced { owner with
      core := { owner.core with shutdownState := next }.detaching
        (.shutdownSequenceComplete context) } none := by
  have tidy := shutting.tidy
  have established := Lifecycle.Consistency.established_of_sound shutting.sound (.inl wasAttached)
    shutting.noProgress
  obtain ⟨agrees, bothShut⟩ := shuts.agrees tidy.completes
  have completed := agrees.trans completes
  constructor
  case toSteady =>
      exact { shutting with
        tidy := {
          object := tidy.object
          described := tidy.described
          contained := tidy.contained
          registered := fun impossible => by cases impossible
          pending := fun _ => ⟨hasHandle, rfl⟩
          completes := bothShut
          past := by
            refine fun _ => ⟨?_, shutting.noProgress⟩
            intro isDefault
            exact absurd (isDefault ▸ established) (by simp [Established])
          sequences := by
            intro _ mem
            unfold Socket.detaching at mem
            rw [shutting.noDetachments shuts, List.nil_append,
              List.mem_singleton, DetachCallback.shutdownSequenceComplete.injEq] at mem
            exact ⟨mem ▸ completes, completed⟩
          bare := fun _ noHandle => Bool.noConfusion (hasHandle.symm.trans noHandle) }
        unreleased := fun _ => shutting.unreleased (shutting.incomplete shuts)
        postponed := fun _ _ => shutting.unreleased (shutting.incomplete shuts) }
  case promise =>
      obtain ⟨handed, toClose⟩ | owed := shutting.pledged (shutting.incomplete shuts)
      · exact .kept handed (.inl toClose)
      · exact .due ⟨owed.handed, owed.recorded, owed.goal⟩ (.inr (.inl ⟨completed, .inl rfl⟩))
  case due =>
    intro _ impossible
    cases impossible

theorem Shutting.ending (completes : context.shutdownCompleted = true) :
    Ending { owner with core := { owner.core with shutdownState := next }.deregistered } := by
  have tidy := shutting.tidy
  obtain ⟨agrees, bothShut⟩ := shuts.agrees tidy.completes
  exact { shutting with
    idle := shutting.idle shuts
    completed := agrees.trans completes
    completes := bothShut
    noDetachments := shutting.noDetachments shuts
    unattached := by
      unfold Socket.deregistered
      cases isAttached : owner.core.attached with
      | false => rfl
      | true => rw [tidy.registered isAttached]; rfl
    recorded := shutting.recorded shuts
    contained := tidy.contained
    unreleased := shutting.unreleased (shutting.incomplete shuts)
    pledged := (shutting.pledged (shutting.incomplete shuts)).imp_right
      fun owed => ⟨owed.handed, owed.recorded, owed.goal⟩ }

/-- The other direction is still open. -/
theorem Shutting.halves (notYet : context.shutdownCompleted = false) :
    Steady { owner with core := { owner.core with shutdownState := next } } := by
  have tidy := shutting.tidy
  obtain ⟨agrees, bothShut⟩ := shuts.agrees tidy.completes
  have incomplete := agrees.trans notYet
  exact { shutting with
    tidy := { tidy with
      completes := bothShut
      past := fun completed => absurd (completed.symm.trans incomplete) nofun
      sequences := by
        intro _ mem
        rw [shutting.noDetachments shuts] at mem
        contradiction
      bare := fun hasObject noHandle => absurd
        (noHandle.symm.trans ((shutting.recorded shuts).trans hasObject)) nofun }
    unreleased := fun _ => shutting.unreleased (shutting.incomplete shuts)
    postponed := fun _ _ => shutting.unreleased (shutting.incomplete shuts) }

theorem Shutting.shut (detaches : Bool) : Shutting releases (privateShutdownSequence
      { owner with core := { owner.core with shutdownState := next } } context detaches) := by
  have idle : Socket.detachMode { owner.core with shutdownState := next } = .idle :=
    shutting.idle shuts
  have agrees := (shuts.agrees shutting.tidy.completes).1
  generalize isResult : privateShutdownSequence
    { owner with core := { owner.core with shutdownState := next } } context detaches = result
  have isCore : result.core =
      { owner.core with shutdownState := next }.privateShutdownSequence context detaches := by
    rw [← isResult]
    exact privateShutdownSequence_core _ context detaches
  have sound : Sound False result.core := by
    rw [isCore]
    exact (Lifecycle.Consistency.shuts_keeps shutting.sound shutting.noProgress shuts
      detaches).sound
  have noProgress : result.core.connectInProgress = false := by
    rw [isCore, ← shutting.noProgress]
    exact congrArg Socket.Connection.connectInProgress
      (Socket.privateShutdownSequence_connection _ context detaches)
  have completed : result.core.shutdownState.shutdownCompleted = context.shutdownCompleted := by
    rw [isCore, Socket.privateShutdownSequence_shutdownState idle]
    exact agrees
  have shutForGood (balanced : Balanced result none) (completes : context.shutdownCompleted = true) :
      Shutting releases result :=
    { balanced with
      sound := sound
      noProgress := noProgress
      pledged := fun incomplete =>
        absurd (incomplete.symm.trans (completed.trans completes)) nofun
      promised := fun _ => balanced.promise
      goal := fun incomplete =>
        absurd (incomplete.symm.trans (completed.trans completes)) nofun }
  obtain ⟨completes, hasHandle, wasAttached, isNext⟩ | ⟨completes, isNext⟩ | ⟨notYet, isNext⟩ :=
    privateShutdownSequence_cases
      { owner with core := { owner.core with shutdownState := next } } idle context detaches
  · rw [isResult] at isNext
    apply shutForGood _ completes
    rw [isNext]
    exact shutting.detaches shuts completes hasHandle wasAttached
  · rw [isResult] at isNext
    apply shutForGood _ completes
    rw [isNext]
    exact (shutting.ending shuts completes).balanced completes
  · rw [isResult] at isNext
    have same := shutdownSequenceEnd_stance_incomplete
      { owner.core with shutdownState := next } notYet
    have pledged := shutting.pledged (shutting.incomplete shuts)
    have isEnd : result = { owner with core :=
        { owner.core with shutdownState := next }.shutdownSequenceEnd context } := by
      rw [isNext]
      unfold shutdownSequenceEnd
      rw [if_neg (by rw [notYet]; nofun)]
    have staysPledged : Pledged result := by
      rw [isEnd]
      refine pledged.imp (And.imp_right ?_) fun owed => ?_
      · exact (congrArg detachGoal same).trans
      · exact ⟨owed.handed, (congrArg handle same).trans owed.recorded,
          (congrArg detachGoal same).trans owed.goal⟩
    have steady : Steady result := by
      rw [isEnd]
      exact (shutting.halves shuts notYet).of_stance same
    exact {
      toSteady := steady
      sound := sound
      noProgress := noProgress
      pledged := fun _ => staysPledged
      promised := fun completes =>
        absurd (completes.symm.trans (completed.trans notYet)) nofun
      goal := fun _ => (shutting.goal (shutting.incomplete shuts)).imp_right fun toClose => by
        rw [isEnd]
        exact (congrArg detachGoal same).trans toClose }

end Shuts

section

variable (shutting : Shutting releases owner)
include shutting

theorem Shutting.privateShutdownSend (detaches : Bool) :
    Shutting releases (owner.privateShutdownSend detaches) := by
  unfold Holder.privateShutdownSend
  obtain ⟨_, isNone⟩ | ⟨_, _, isSome, shuts, _⟩ :=
    owner.core.shutdownState.tryShutdownSend_cases owner.core.keepHalfOpen
  · rw [isNone]
    exact shutting
  · rw [isSome]
    exact shutting.shut shuts detaches

theorem Shutting.privateShutdownReceive (detaches : Bool) :
    Shutting releases (owner.privateShutdownReceive detaches) := by
  unfold Holder.privateShutdownReceive
  obtain ⟨_, isNone⟩ | ⟨_, _, isSome, shuts, _⟩ :=
    owner.core.shutdownState.tryShutdownReceive_cases owner.core.keepHalfOpen
  · rw [isNone]
    exact shutting
  · rw [isSome]
    exact shutting.shut shuts detaches

/-- What the account does not depend on may change. -/
theorem Shutting.of_stance {core : Socket} (sound : Sound False core)
    (same : stance core = stance owner.core) : Shutting releases { owner with core := core } where
  toSteady := shutting.toSteady.of_stance same
  sound := sound
  noProgress := (congrArg connectInProgress same).trans shutting.noProgress
  pledged incomplete := by
    have completed := congrArg ShutdownContext.shutdownCompleted (congrArg shutdownState same)
    obtain ⟨handed, toClose⟩ | owed := shutting.pledged (completed.symm.trans incomplete)
    · exact .inl ⟨handed, (congrArg detachGoal same).trans toClose⟩
    · exact .inr (owed.of_stance same)
  promised isCompleted := by
    have completed := congrArg ShutdownContext.shutdownCompleted (congrArg shutdownState same)
    exact (shutting.promised (completed.symm.trans isCompleted)).of_stance same
  goal incomplete := by
    have completed := congrArg ShutdownContext.shutdownCompleted (congrArg shutdownState same)
    exact (shutting.goal (completed.symm.trans incomplete)).imp_right
      (congrArg detachGoal same).trans

theorem Shutting.privateShutdown (dir : ShutdownType) (mode : ShutdownMode)
    (hasEntry detaches : Bool) :
    Shutting releases (owner.privateShutdown dir mode hasEntry detaches) := by
  unfold Holder.privateShutdown
  dsimp only
  have receives : Shutting releases (if dir ≠ .send ∧ ¬ owner.core.shutdownState.shutdownReceive then
      owner.privateShutdownReceive detaches else owner) := by
    split
    · exact shutting.privateShutdownReceive detaches
    · exact shutting
  generalize (if dir ≠ .send ∧ ¬ owner.core.shutdownState.shutdownReceive then
    owner.privateShutdownReceive detaches else owner) = receiveClosed at receives ⊢
  have sends : Shutting releases (if dir ≠ .receive ∧
      ¬ receiveClosed.core.shutdownState.shutdownSend then
        if mode = .graceful ∧ hasEntry then
          { receiveClosed with core := { receiveClosed.core with
            shutdownEntries := receiveClosed.core.shutdownEntries + 1 } }
        else receiveClosed.privateShutdownSend detaches
      else receiveClosed) := by
    split
    · split
      · exact receives.of_stance { receives.sound with } rfl
      · exact receives.privateShutdownSend detaches
    · exact receives
  split
  · exact sends.of_stance { sends.sound with } rfl
  · exact sends

end

theorem Balanced.privateShutdown (balanced : Balanced owner none)
    (sound : Sound False owner.core) (noProgress : owner.core.connectInProgress = false)
    (running : owner.core.failed = none) (dir : ShutdownType) (mode : ShutdownMode)
    (hasEntry detaches : Bool) : Balanced (owner.privateShutdown dir mode hasEntry detaches) none :=
  ((balanced.shutting sound noProgress running).privateShutdown dir mode hasEntry
    detaches).balanced False.elim

/-- A socket that is released is shut down for good. -/
theorem Shutting.closes (shutting : Shutting True owner) (detaches : Bool) :
    Balanced (owner.privateShutdown .both .immediate false detaches) none := by
  have closed := shutting.privateShutdown .both .immediate false detaches
  apply closed.balanced
  intro _
  rw [closed.tidy.completes, privateShutdown_core, privateShutdown_immediate]
  split
  · exact bothShut shutting.sound shutting.noProgress detaches
  · exact bothShut shutting.sound shutting.noProgress detaches

end NtfCore.Ntcr.StreamSocket.Descriptors
