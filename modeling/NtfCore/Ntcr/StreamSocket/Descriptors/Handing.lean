import NtfCore.Ntcr.StreamSocket.Descriptors.Balance

/-!
Contract: each descriptor of a stream socket is closed once, or handed once to a call of
`release`.

Owns: that each call keeps the account of the descriptors, the reservations and the reactor, if
it is safe; that the account is right in every state of every run of safe calls; and a run in
which a descriptor is handed twice.
-/

namespace NtfCore.Ntcr.StreamSocket.Descriptors

open NtfCore.Foundation Holder Option
open Lifecycle (Socket Frame Input DetachCallback DeferredCall ShutdownContext ShutdownType
  ShutdownMode Error)
open Lifecycle.Consistency (Sound Established)

variable {owner : Holder} {socket : Socket}

def Enters (entered : Holder × List Frame) : Prop :=
  Balanced entered.1 entered.2.head?

/-! ## Calls that have to do with no descriptor -/

section

variable (socket : Socket)

theorem processConnectDeadlineTimer_calm :
    Calm socket (.continues socket.processConnectDeadlineTimer.1
      socket.processConnectDeadlineTimer.2) := by
  unfold Socket.processConnectDeadlineTimer
  split
  · exact ⟨rfl, nofun⟩
  · split
    · exact calm_single rfl trivial
    · exact ⟨rfl, nofun⟩

theorem processConnectRetryTimer_calm : Calm socket (.continues socket.processConnectRetryTimer.1
      socket.processConnectRetryTimer.2) := by
  unfold Socket.processConnectRetryTimer
  split
  · exact ⟨rfl, nofun⟩
  · split
    · dsimp only
      split
      · exact ⟨rfl, nofun⟩
      · exact calm_single rfl trivial
    · exact calm_single rfl trivial

theorem processSocketError_calm (error : Error) :
    Calm socket (.continues socket (socket.processSocketError error)) := by
  unfold Socket.processSocketError
  split
  · exact ⟨rfl, nofun⟩
  · split
    · exact calm_single rfl trivial
    · split
      · exact calm_single rfl trivial
      · exact calm_single rfl trivial

theorem processRemoteEndpointResolution_calm (connectAttempts endpoints : Nat)
    (error : Option Error) : Calm socket (.continues
      (socket.processRemoteEndpointResolution connectAttempts endpoints error).1
      (socket.processRemoteEndpointResolution connectAttempts endpoints error).2) := by
  unfold Socket.processRemoteEndpointResolution
  split
  · exact ⟨rfl, nofun⟩
  · cases error with
    | some error | none => exact calm_single rfl trivial

end

section

variable (balanced : Balanced owner none)
include balanced

theorem connect_balanced (named : Bool)
    (retryCount : Option Nat) (strategy : Lifecycle.ConnectStrategy) (callback : Bool) :
    Balanced { owner with core := owner.core.connect named retryCount strategy callback }
      none := by
  unfold Socket.connect
  by_cases refused : owner.core.openState ≠ .default ∨ owner.core.connectInProgress = true ∨
      (named = true ∧ ¬ owner.core.resolver = true)
  · rw [if_pos refused]
    exact balanced
  · have isDefault : owner.core.openState = .default :=
      not_not.mp fun isOther => refused (.inl isOther)
    have incomplete : owner.core.shutdownState.shutdownCompleted = false :=
      Bool.eq_false_iff.mpr fun completed => (balanced.tidy.past completed).1 isDefault
    rw [if_neg refused]
    exact {
      toSteady := { balanced.toSteady with
        tidy := { balanced.tidy with
          past := fun completed => absurd (completed.symm.trans incomplete) nofun
          bare := fun _ _ => .inl rfl } }
      promise := balanced.promise.goesOn incomplete rfl rfl rfl
      due := nofun }

theorem processSocketWritable_enters (attached : owner.core.attached = true) :
    Enters (owner, owner.core.processSocketWritable) := by
  unfold Socket.processSocketWritable
  split
  · exact balanced
  · split
    · exact balanced.ahead (balanced.tidy.registered attached) fun _ => nofun
    · split
      · exact balanced
      · exact balanced.plain trivial

/-! ## Shutting down -/

variable (sound : Sound False owner.core) (running : owner.core.failed = none)
include sound running

theorem shutdown_enters (dir : ShutdownType) (mode : ShutdownMode)
    (hasEntry detaches : Bool) : Enters (owner.shutdown dir mode hasEntry detaches) := by
  unfold shutdown
  split
  · exact balanced.of_stance rfl
  · split
    · split
      · exact balanced
      · exact balanced.plain trivial
    · rename_i noProgress
      exact balanced.privateShutdown sound (Bool.eq_false_iff.mpr noProgress) running dir
        mode hasEntry detaches

theorem privateClose_enters (callback : Option Nat) (detaches : Bool) :
    Enters (owner.privateClose callback detaches) := by
  have registered : Balanced { owner with core := { owner.core with
      closeCallback := callback } } none := balanced.of_stance rfl
  unfold privateClose
  split
  · exact balanced.of_stance rfl
  · split
    · exact fail_balanced balanced _
    · dsimp only
      split
      · exact registered.plain trivial
      · rename_i noProgress
        exact registered.privateShutdown { sound with } (Bool.eq_false_iff.mpr noProgress) running
          _ _ _ detaches

end

theorem accept_stance (socket : Socket) (callback : Bool) :
    stance (socket.accept callback).1 = stance socket := by
  cases callback with
  | true | false => rfl

theorem accept_sound (sound : Sound False socket) (callback : Bool) :
    Sound False (socket.accept callback).1 := by
  cases callback with
  | true => exact { sound with }
  | false => exact sound

theorem close_enters (balanced : Balanced owner none) (sound : Sound False owner.core)
    (running : owner.core.failed = none) (callback detaches : Bool) :
    Enters (owner.close callback detaches) :=
  privateClose_enters (balanced.of_stance (accept_stance owner.core callback))
    (accept_sound sound callback)
    ((congrArg Stance.failed (accept_stance owner.core callback)).trans running) _ detaches

/-- The descriptor that is owed is about to be given up. -/
theorem privateClose_owed (steady : Steady owner) (sound : Sound False owner.core)
    (owed : Owed owner) (agrees : owner.core.detachMode = .initiated ↔
      owner.core.shutdownState.shutdownCompleted = true)
    (callback : Option Nat) (detaches : Bool) : Enters (owner.privateClose callback detaches) := by
  unfold privateClose
  by_cases initiated : owner.core.detachMode = .initiated
  · rw [if_pos initiated]
    exact {
      toSteady := steady.of_stance rfl
      promise := .due (owed.of_stance rfl) (.inr (.inl ⟨agrees.mp initiated, .inl initiated⟩))
      due := nofun }
  · have incomplete : owner.core.shutdownState.shutdownCompleted = false :=
      Bool.eq_false_iff.mpr fun completed => initiated (agrees.mpr completed)
    have registered : Steady { owner with core := { owner.core with
        closeCallback := callback } } := steady.of_stance rfl
    have stillOwed : Owed { owner with core := { owner.core with
        closeCallback := callback } } := owed.of_stance rfl
    rw [if_neg initiated]
    split
    · exact {
        toSteady := { steady with tidy := { steady.tidy with } }
        promise := .due ⟨owed.handed, owed.recorded, owed.goal⟩ (.inl rfl)
        due := nofun }
    · dsimp only
      by_cases progress : owner.core.connectInProgress = true
      · rw [if_pos progress]
        exact {
          toSteady := registered
          promise := .due stillOwed (.inr (.inr ⟨progress, _, _, rfl⟩))
          due := by
            intro frame isFrame
            cases isFrame
            trivial }
      · have shutting : Shutting True { owner with core := { owner.core with
            closeCallback := callback } } :=
          { toSteady := registered
            sound := { sound with }
            noProgress := Bool.eq_false_iff.mpr progress
            pledged := fun _ => .inr stillOwed
            promised := fun completed => absurd (completed.symm.trans incomplete) nofun
            goal := fun _ => .inl trivial }
        rw [if_neg progress]
        exact shutting.closes detaches

section

variable (balanced : Balanced owner none)
include balanced

section

variable (sound : Sound False owner.core)
include sound

theorem release_enters
    (may : owner.core.socket = true -> owner.core.descriptor = true -> Releasable owner.core)
    (callback detaches : Bool) : Enters (owner.release callback detaches) := by
  unfold release
  split
  · exact balanced
  · rename_i obtained
    obtain ⟨hasObject, contains⟩ := not_not.mp obtained
    obtain ⟨hasHandle, toClose, agrees⟩ := may hasObject contains
    have handed : owner.handed = owner.descriptors.released := by
      cases balanced.promise with
      | kept handed => exact handed
      | due owed => exact absurd (owed.goal.symm.trans toClose) nofun
    have released : Steady { owner with
        core := { owner.core with detachGoal := .toExport, session := false }
        handed := owner.handed ++ owner.descriptors.held.toList } :=
      { balanced.toSteady with tidy := { balanced.tidy with } }
    have owed : Owed { owner with
        core := { owner.core with detachGoal := .toExport, session := false }
        handed := owner.handed ++ owner.descriptors.held.toList } :=
      ⟨congrArg (· ++ owner.descriptors.held.toList) handed, hasHandle, rfl⟩
    have exported : Sound False { owner.core with detachGoal := .toExport, session := false } :=
      { sound with }
    have same := accept_stance
      { owner.core with detachGoal := .toExport, session := false } callback
    apply privateClose_owed (released.of_stance same) (accept_sound exported callback)
      (owed.of_stance same)
    cases callback with
    | true | false => exact agrees

section

variable (running : owner.core.failed = none)
include running

theorem upgrade_balanced (fails detaches : Bool) :
    Balanced (owner.upgrade fails detaches) none := by
  unfold upgrade
  split
  · exact balanced
  · rename_i connected
    simp only [not_or, Classical.not_not] at connected
    split
    · exact balanced.privateShutdown sound
        (Lifecycle.Consistency.noProgress_of_established sound (.inl connected.1)) running _ _ _ _
    · exact balanced.of_stance rfl

theorem execute_enters (functor : DeferredCall) (hasEntry detaches : Bool) :
    Enters (owner.execute functor hasEntry detaches) := by
  cases functor with
  | processConnectDeadlineTimer =>
    exact balanced.calm (processConnectDeadlineTimer_calm owner.core)
  | shutdown dir mode =>
    exact shutdown_enters balanced sound running dir mode hasEntry detaches
  | close callback => exact privateClose_enters balanced sound running callback detaches

theorem processSocketDetached_enters {callback : DetachCallback} {index : Nat}
    (found : owner.core.detachments[index]? = some callback) : Enters (Holder.processSocketDetached
      { owner with core := { owner.core with
        detachments := owner.core.detachments.eraseIdx index } } callback) := by
  have tidy := balanced.tidy
  obtain ⟨initiated, noDetachments⟩ := Lifecycle.Consistency.detached_of_sound sound found
  obtain ⟨hasHandle, unattached⟩ := tidy.pending initiated
  have notOver : ¬ Over owner.core none := fun past => absurd (past.2.1.symm.trans initiated) nofun
  have owes := balanced.toClose_or_owed running notOver
  rw [noDetachments]
  cases callback with
  | shutdownSequenceComplete context =>
    obtain ⟨completes, completed⟩ := tidy.sequences context (List.mem_of_getElem? found)
    have ending : Ending { owner with core := { owner.core with
        detachments := [], detachMode := .idle } } := { balanced with
      idle := rfl
      noProgress := (tidy.past completed).2
      completed := completed
      completes := tidy.completes
      noDetachments := rfl
      unattached := unattached
      recorded := hasHandle.trans (tidy.object hasHandle).symm
      contained := tidy.contained
      unreleased := balanced.postponed context (List.mem_of_getElem? found)
      pledged := owes.imp_right fun owed =>
        ⟨owed.1.handed, owed.1.recorded, owed.1.goal⟩ }
    unfold processSocketDetached privateShutdownSequenceComplete
    dsimp only
    rw [if_pos (by rw [initiated]; rfl)]
    exact ending.balanced completes
  | failConnectPart2 failure =>
    unfold processSocketDetached
    dsimp only
    rw [if_pos initiated]
    constructor
    case toSteady =>
        exact { balanced.toSteady with
          tidy := { tidy with
            pending := nofun
            sequences := by simp }
          postponed := by simp }
    case promise =>
        obtain ⟨handed, toClose⟩ | ⟨owed, leaves⟩ := owes
        · exact .kept handed (.inl toClose)
        · refine .due ⟨owed.handed, owed.recorded, owed.goal⟩ (.inr ?_)
          obtain ⟨completed, _⟩ | ⟨_, _, _, isFrame⟩ := leaves
          · exact .inl ⟨completed, .inr ⟨failure, rfl⟩⟩
          · contradiction
    case due =>
        intro frame isFrame
        cases isFrame
        refine ⟨rfl, unattached, (sound.shut initiated).imp_right ?_⟩
        rintro ⟨sendShut, receiveShut⟩
        rw [tidy.completes, sendShut, receiveShut]
        rfl

end

end

end

def Unrelated : Lifecycle.Call -> Prop
  | .cancelConnect | .cancelUpgrade | .registerSession | .deregisterSession | .resolverGone
  | .processConnectDeadlineTimer | .processConnectRetryTimer | .processUpgradeTimer
  | .processSocketReadable | .processSocketError _ | .processRemoteEndpointResolution _ _ _ => True
  | _ => False

variable {call : Lifecycle.Call}

theorem enter_calm (unrelated : Unrelated call)
    {entered : Socket × List Frame} (isEntered : Lifecycle.enter socket call = some entered) :
    Calm socket (.continues entered.1 entered.2) := by
  have calm_if {condition : Prop} [Decidable condition] {frame : Frame} (plain : Plain frame) :
      Calm socket (.continues socket (if condition then [frame] else [])) := by
    split
    · exact calm_single rfl plain
    · exact ⟨rfl, nofun⟩
  unfold Lifecycle.enter at isEntered
  split at isEntered
  · contradiction
  · cases call with
    | cancelConnect | processUpgradeTimer =>
      cases isEntered
      exact calm_if trivial
    | cancelUpgrade =>
      dsimp only at isEntered
      split at isEntered
      · cases isEntered
        exact calm_single rfl trivial
      · cases isEntered
        exact ⟨rfl, nofun⟩
    | registerSession | deregisterSession | resolverGone =>
      cases isEntered
      exact ⟨rfl, nofun⟩
    | processConnectDeadlineTimer =>
      cases isEntered
      exact processConnectDeadlineTimer_calm socket
    | processConnectRetryTimer =>
      cases isEntered
      exact processConnectRetryTimer_calm socket
    | processSocketReadable =>
      obtain ⟨_, rfl⟩ := Run.guarded isEntered
      unfold Socket.processSocketReadable
      split
      · exact ⟨rfl, nofun⟩
      · exact calm_single rfl trivial
    | processSocketError error =>
      obtain ⟨_, rfl⟩ := Run.guarded isEntered
      exact processSocketError_calm socket error
    | processRemoteEndpointResolution index endpoints error =>
      obtain ⟨connectAttempts, _, isResult⟩ := map_eq_some_iff.mp isEntered
      rw [← isResult]
      exact processRemoteEndpointResolution_calm
        { socket with resolutions := socket.resolutions.eraseIdx index } connectAttempts
        endpoints error
    | connect | upgrade | shutdown | release | close | processSocketWritable
    | processSocketDetached | execute => exact unrelated.elim

variable {entered : Holder × List Frame}

theorem enterOther_enters (balanced : Balanced owner none) (sound : Sound False owner.core)
    (running : owner.core.failed = none) (may : MayEnter owner (.other call))
    (isEntered : enterOther owner call = some entered) : Enters entered := by
  have runs : owner.core.failed.isSome = false := by rw [running]; rfl
  have passes {other : Lifecycle.Call}
      (isPassed : (Lifecycle.enter owner.core other).map (fun after =>
        ({ owner with core := after.1 }, after.2)) = some entered)
      (unrelated : Unrelated other) : Enters entered := by
    obtain ⟨after, isAfter, isResult⟩ := map_eq_some_iff.mp isPassed
    rw [← isResult]
    exact balanced.calm (enter_calm unrelated isAfter)
  cases call with
  | upgrade fails detaches =>
    cases isEntered
    exact upgrade_balanced balanced sound running fails detaches
  | shutdown dir mode hasEntry detaches =>
    cases isEntered
    exact shutdown_enters balanced sound running dir mode hasEntry detaches
  | release callback detaches =>
    cases isEntered
    exact release_enters balanced sound may callback detaches
  | close callback detaches =>
    cases isEntered
    exact close_enters balanced sound running callback detaches
  | processSocketDetached index =>
    obtain ⟨callback, found, isResult⟩ := map_eq_some_iff.mp isEntered
    rw [← isResult]
    exact processSocketDetached_enters balanced sound running found
  | execute index hasEntry detaches =>
    obtain ⟨functor, _, isResult⟩ := map_eq_some_iff.mp isEntered
    have taken : Balanced { owner with core := { owner.core with
        functors := owner.core.functors.eraseIdx index } } none := balanced.of_stance rfl
    rw [← isResult]
    exact execute_enters taken { sound with } running functor hasEntry detaches
  | connect named retryCount strategy callback =>
    simp only [enterOther, Lifecycle.enter, runs] at isEntered
    cases isEntered
    exact connect_balanced balanced named retryCount strategy callback
  | processSocketWritable =>
    simp only [enterOther, Lifecycle.enter, runs] at isEntered
    obtain ⟨_, isAfter, isResult⟩ := map_eq_some_iff.mp isEntered
    rw [← isResult]
    by_cases attached : owner.core.attached = true
    · rw [if_neg Bool.false_ne_true, if_pos attached] at isAfter
      cases isAfter
      exact processSocketWritable_enters balanced attached
    · rw [if_neg Bool.false_ne_true, if_neg attached] at isAfter
      contradiction
  | cancelConnect | cancelUpgrade | registerSession | deregisterSession | resolverGone
  | processConnectDeadlineTimer | processConnectRetryTimer | processUpgradeTimer
  | processSocketReadable | processSocketError | processRemoteEndpointResolution =>
    exact passes isEntered trivial

def Invariant (holder : Holder) (next : Option Frame) (others : List Frame) : Prop :=
  Lifecycle.Consistency.Invariant False holder.core next others ∧ Balanced holder next

variable {call : Call}

section

variable (balanced : Balanced owner none) (sound : Sound False owner.core)
  (may : MayEnter owner call)
include balanced sound may

theorem enter_opens (opens : ∀ other, call ≠ .other other)
    (isEntered : enter owner call = some entered) : Opens owner entered.1 ∧ entered.2 = [] := by
  unfold enter at isEntered
  split at isEntered
  · contradiction
  · cases call with
    | open_ opening =>
      cases isEntered
      exact ⟨privateOpen_opens balanced sound opening, rfl⟩
    | openHandle acquisition =>
      cases isEntered
      refine ⟨privateOpenHandle_opens balanced sound acquisition ?_, rfl⟩
      rintro attaches rfl
      exact may
    | openSocket acquisition =>
      cases isEntered
      refine ⟨privateOpenSocket_opens balanced sound acquisition ?_, rfl⟩
      rintro _ rfl
      exact may
    | other call => exact absurd rfl (opens call)

theorem enter_enters (isEntered : enter owner call = some entered) : Enters entered := by
  cases call with
  | other =>
    unfold enter at isEntered
    split at isEntered
    · contradiction
    · rename_i notFailed
      exact enterOther_enters balanced sound (by simpa using notFailed) may isEntered
  | _ =>
    obtain ⟨opens, isDone⟩ := enter_opens balanced sound may (fun _ => nofun) isEntered
    unfold Enters
    rw [isDone]
    exact opens.balanced

end

theorem enter_keeps (sound : Sound False owner.core) (balanced : Balanced owner none)
    (may : MayEnter owner call) (isEntered : enter owner call = some entered) :
    Lifecycle.Consistency.Enters False owner.core (entered.1.core, entered.2) := by
  cases call with
  | other call =>
    have isCore := enter_core owner call
    rw [isEntered] at isCore
    have isMayEnter : Lifecycle.Consistency.MayEnter False owner.core call := by
      cases call with
      | cancelConnect => exact False.elim
      | _ => trivial
    exact Lifecycle.Consistency.enter_enters sound isMayEnter isCore.symm
  | _ =>
    obtain ⟨opens, isDone⟩ := enter_opens balanced sound may (fun _ => nofun) isEntered
    rw [isDone]
    exact Lifecycle.Consistency.proceeds_nil opens.keeps

/-- What a frame comes to, seen without the descriptors. -/
theorem advance_keeps (sound : Sound False owner.core) {frame : Frame}
    (ready : Lifecycle.Consistency.Ready False owner.core frame) {input : Input}
    {outcome : Outcome} (isOutcome : advance owner frame input = some outcome) :
    Lifecycle.Consistency.Proceeds False owner.core.openState (outcome.map Holder.core) := by
  have isCore := advance_core owner frame input
  rw [isOutcome] at isCore
  have mayAdvance : Lifecycle.Consistency.MayAdvance False owner.core frame input := by
    cases frame with
    | finishConnectFailure => exact False.elim
    | _ => trivial
  exact Lifecycle.Consistency.advance_proceeds sound ready mayAdvance isCore.symm

theorem monitor_keeps : Monitor.Keeps enter advance MayEnter (fun _ _ _ => True) Invariant where
  perm isPerm holds := ⟨Lifecycle.Consistency.monitor_keeps.perm isPerm holds.1, holds.2⟩
  focus {owner frame others} holds := by
    have rests := (holds.1.2.2 frame List.mem_cons_self).1
    refine ⟨Lifecycle.Consistency.monitor_keeps.focus holds.1, holds.2.plain ?_⟩
    cases frame with
    | privateFailConnectPart2 | privateSocketWritableConnection => exact rests
    | _ => trivial
  enters holds may isEntered := by
    obtain ⟨keeps, ready, rest⟩ := enter_keeps holds.1.1 holds.2 may isEntered
    exact ⟨⟨keeps.sound, ready,
      Lifecycle.Consistency.others_ready holds.1.2.2 keeps.established rest⟩,
      enter_enters holds.2 holds.1.1 may isEntered⟩
  continues holds _ isOutcome := by
    obtain ⟨keeps, ready, rest⟩ := advance_keeps holds.1.1 (holds.1.2.1 _ rfl) isOutcome
    exact ⟨⟨keeps.sound, ready,
      Lifecycle.Consistency.others_ready holds.1.2.2 keeps.established rest⟩,
      advance_proceeds holds.2 holds.1.1 (holds.1.2.1 _ rfl) isOutcome⟩
  releases holds _ isOutcome := by
    obtain ⟨keeps, rest⟩ := advance_keeps holds.1.1 (holds.1.2.1 _ rfl) isOutcome
    exact ⟨⟨keeps.sound, fun _ isFrame => absurd isFrame nofun,
      Lifecycle.Consistency.others_ready holds.1.2.2 keeps.established rest⟩,
      advance_proceeds holds.2 holds.1.1 (holds.1.2.1 _ rfl) isOutcome⟩

theorem initial_holds (keepHalfOpen session resolver : Bool) :
    Monitor.Holds Invariant (initial keepHalfOpen session resolver) := by
  refine ⟨Lifecycle.Consistency.initial_holds
    { keepHalfOpen := keepHalfOpen, session := session, resolver := resolver }, ?_⟩
  constructor
  case toSteady =>
      exact {
        tidy := ⟨nofun, nofun, nofun, nofun, nofun, rfl, nofun,
          fun _ mem => absurd mem List.not_mem_nil, nofun⟩
        settled := Ownership.settled_empty
        held := rfl
        reservations := rfl
        reactor := Nat.zero_le _
        unreleased := fun _ => rfl
        postponed := fun _ _ => rfl }
  case promise => exact .kept rfl (.inl rfl)
  case due => nofun

theorem accounted_of_holds (system : System) (holds : Monitor.Holds Invariant system) :
    Accounted system := by
  unfold Monitor.Holds at holds
  split at holds
  · exact holds.2.accounted fun _ => rfl
  · rename_i _ _ running
    exact holds.2.accounted fun atRest => absurd (running.symm.trans atRest) nofun

/-- In every run of calls that are safe, each descriptor is closed once or handed once, there is
a reservation exactly while the handle is recorded, and the reactor is released at most once. -/
theorem always_accounted (keepHalfOpen session resolver : Bool) (actions : List Action)
    (safe : Run.Along step (Monitor.Meets MayEnter fun _ _ _ => True)
      (initial keepHalfOpen session resolver) actions) :
    Run.Always step Accounted (initial keepHalfOpen session resolver) actions :=
  monitor_keeps.always accounted_of_holds (initial_holds keepHalfOpen session resolver) safe

def releasedOnce : List Action :=
  [.call (.openHandle (.acquiresConnected true)), .call (.other (.release false true)),
    .call (.other (.processSocketDetached 0))]

theorem always_accounted_releasedOnce :
    Run.Along step (Monitor.Meets MayEnter fun _ _ _ => True) (initial false false true)
        releasedOnce ∧ Run.Always step Accounted (initial false false true) releasedOnce := by
  have safe : Run.Along step (Monitor.Meets MayEnter fun _ _ _ => True)
      (initial false false true) releasedOnce :=
    ⟨rfl, fun _ _ => ⟨rfl, rfl, by decide⟩, trivial, trivial⟩
  exact ⟨safe, always_accounted _ _ _ _ safe⟩

/-- The descriptor is released again while the socket is being detached, and is handed to both
calls. -/
theorem not_always_accounted_releasedTwice : ¬ ∀ keepHalfOpen session resolver actions,
      Run.Always step Accounted (initial keepHalfOpen session resolver) actions := by
  intro always
  obtain ⟨_, _, _, accounted⟩ := always false false true
    [.call (.openHandle (.acquiresConnected true)), .call (.other (.release false true)),
      .call (.other (.release false true))]
  exact absurd accounted.handedOnce (by decide)

end NtfCore.Ntcr.StreamSocket.Descriptors
