import NtfCore.Ntcr.StreamSocket.Lifecycle.Ledger

/-!
Contract: each callback of `close` and `release` is invoked once, for a socket that is closed.

Owns: the condition under which no close callback is dispatched twice, lost, or dispatched
before the descriptor is closed; and that the assertion that none is registered holds.
-/

namespace NtfCore.Ntcr.StreamSocket.Lifecycle

open NtfCore.Foundation List Consistency Classical Option
open Socket

namespace Closing

/-- A shutdown behind an announcement, or the end of a failed attempt, does not come upon a
socket that is being detached for a close callback. A descriptor that is created for an
attempt that fails at once has a socket object of its own. -/
def MayEnter (socket : Socket) : Call -> Prop
  | .upgrade true _ => socket.openState = .connected -> socket.upgradeInProgress = false ->
      socket.closeCallback.isSome = true -> socket.detachMode = .idle
  | _ => True

@[inherit_doc MayEnter]
def MayAdvance (socket : Socket) : Frame -> Input -> Prop
  | .shutdownAfterFail, _ | .finishConnectFailure, _ =>
    socket.closeCallback.isSome = true -> socket.detachMode = .idle
  | .connectToEndpoint, input =>
    ∀ error, input.establishment = .failsToOpen error true -> socket.socket = true ->
      socket.handle = true
  | _, _ => True

def Quiescent (system : System) : Prop :=
  system.running = [] ∧ system.shared.detachments = [] ∧ system.shared.deferredCalls = [] ∧
    system.shared.functors = []

instance (system : System) : Decidable (Quiescent system) :=
  inferInstanceAs (Decidable (_ ∧ _))

/-- Each close callback is dispatched at most once, to a socket that is closed; when nothing is
left to be done each was dispatched; and the assertion that none is registered has not
failed. -/
def Punctual (system : System) : Prop :=
  (dispatched system.shared).Nodup ∧
    (∀ callback ∈ dispatched system.shared, callback < system.shared.accepted) ∧
    (∀ event ∈ system.shared.closeEvents, event.descriptor = false ∧ event.openState = .closed) ∧
    (Quiescent system -> ∀ callback < system.shared.accepted,
      callback ∈ dispatched system.shared) ∧
    system.shared.failed ≠ some .closeCallback

instance (system : System) : Decidable (Punctual system) :=
  inferInstanceAs (Decidable (_ ∧ _))

/-- What a frame relies on when it is executed next. From `privateFailConnect` on, a thread
that closes the socket does not release the mutex until it has dispatched the callback. -/
def Ready (socket : Socket) : Frame -> Prop
  | .privateFailConnect _ defer close =>
    Settled socket ∨ socket.detachMode = .idle ∧ socket.connectInProgress = true ∧
      defer = true ∧ close = true
  | .privateFailConnectPart2 failure => socket.detachMode = .idle ∧
      (socket.shutdownState.shutdownCompleted = true -> socket.openState = .closed) ∧
      (socket.closeCallback.isSome = true -> socket.openState = .closed ∧ failure.defer = true)
  | .dispatchConnectFailure failure => Settled socket ∨ Closed socket ∧ failure.defer = true
  | .finishConnectFailure => Settled socket ∨ Closed socket
  | .connectToEndpoint => Settled socket ∧ socket.connectInProgress = true
  | _ => Settled socket

def Stands (socket : Socket) : Option Frame -> Prop
  | none => Settled socket
  | some frame => Ready socket frame

def Invariant (socket : Socket) (next : Option Frame) (others : List Frame) : Prop :=
  Consistency.Invariant False socket next others ∧ Sound [] socket ∧ Stands socket next

variable {pending : List Nat} {socket : Socket}

/-! ## Frames of a connection -/

def Proceeds : Outcome -> Prop
  | .continues after frames => Sound [] after ∧ Stands after frames.head?
  | .releases after _ => Sound [] after ∧ Settled after

variable {frame : Frame}

/-- A thread that goes on with a frame that may rest does not have a socket to close. -/
theorem Settled.ready (settled : Settled socket) (rests : Rests frame) : Ready socket frame := by
  cases frame with
  | privateFailConnectPart2 | connectToEndpoint => exact rests.elim
  | privateFailConnect | dispatchConnectFailure | finishConnectFailure => exact .inl settled
  | _ => exact settled

theorem proceeds_behind {after : Socket} (frame : Frame) (announced : Bool)
    (sound : Sound [] after) (settled : Settled after) (rests : Rests frame) :
    Proceeds (after.behind announced frame) := by
  unfold behind
  split
  · exact ⟨sound, settled⟩
  · exact ⟨sound, settled.ready rests⟩

theorem incomplete_of_progress (consistent : Consistency.Sound False socket)
    (sound : Sound pending socket) (progress : socket.connectInProgress = true) :
    socket.shutdownState.shutdownCompleted = false := by
  cases isComplete : socket.shutdownState.shutdownCompleted with
  | false => rfl
  | true =>
    rw [noProgress_of_established consistent (sound.established isComplete)] at progress
    contradiction

/-- While a connection is in progress no close callback waits. -/
theorem Settled.noCallback_of_progress (settled : Settled socket)
    (consistent : Consistency.Sound False socket) (sound : Sound pending socket)
    (progress : socket.connectInProgress = true) : socket.closeCallback = none := by
  cases isCallback : socket.closeCallback with
  | none => rfl
  | some =>
    have complete := (settled.waits (by rw [isCallback]; rfl)).2.1
    rw [incomplete_of_progress consistent sound progress] at complete
    contradiction

theorem markFailed_closed (incomplete : socket.shutdownState.shutdownCompleted = false)
    (error : Option Error) : ((socket.markFailed error).shutdownState.shutdownCompleted = true ->
      (socket.markFailed error).openState = .closed) ∧
      (socket.retryCount = 0 -> (socket.markFailed error).openState = .closed ∧
          (socket.markFailed error).shutdownState.shutdownCompleted = true) ∧
      (socket.markFailed error).openState ≠ .connected := by
  unfold markFailed failForGood
  split
  · exact ⟨fun _ => rfl, fun _ => ⟨rfl, rfl⟩, nofun⟩
  · rename_i retries
    exact ⟨fun complete => absurd (incomplete.symm.trans complete) Bool.false_ne_true,
      fun noRetry => absurd noRetry retries, nofun⟩

theorem markFailed_ledger (ledger : Ledger pending socket) (error : Option Error) :
    Ledger pending (socket.markFailed error) := by
  unfold markFailed failForGood
  split
  · exact { ledger with shut := rfl }
  · exact { ledger with }

section

variable (consistent : Consistency.Sound False socket) (sound : Sound [] socket)
include consistent sound

theorem failAttempt_proceeds (progress : socket.connectInProgress = true)
    (idle : socket.detachMode = .idle) (error : Option Error) {defer : Bool}
    (closing : socket.closeCallback.isSome = true -> socket.retryCount = 0 ∧ defer = true)
    (detaches : Bool) : Proceeds (socket.failAttempt error defer detaches) := by
  have incomplete := incomplete_of_progress consistent sound progress
  obtain ⟨isClosed, closesForGood, notConnected⟩ := markFailed_closed incomplete error
  have ledger := markFailed_ledger sound.toLedger error
  have isCallback := socket.markFailed_closeCallback error
  have isMode := (socket.markFailed_detachMode error).trans idle
  have hasNone : (socket.markFailed error).detachments = [] := by
    rw [markFailed_detachments]
    simpa [idle] using consistent.pending
  have isSound : Sound [] (socket.markFailed error) :=
    { ledger with
      established := fun complete => .inr (isClosed complete)
      failures := fun _ _ => notConnected
      sequences := by simp [hasNone] }
  obtain ⟨_, _, isResult⟩ | isResult := failAttempt_cases idle error defer detaches
  · rw [isResult]
    refine ⟨?_, fun _ isIdle => absurd isIdle nofun, ?_⟩
    · exact { isSound with
        toLedger := { ledger with }
        failures := fun _ _ => notConnected
        sequences := by simp [detaching, hasNone] }
    · intro registered
      obtain ⟨noRetry, defers⟩ := closing (isCallback ▸ registered)
      refine ⟨rfl, (closesForGood noRetry).2, ?_⟩
      intro _ mem
      simp only [detaching, hasNone, nil_append, mem_singleton] at mem
      rw [DetachCallback.failConnectPart2.inj mem]
      exact defers
  · rw [isResult]
    refine ⟨{ isSound with toLedger := deregistered_ledger ledger }, isMode, isClosed, ?_⟩
    intro registered
    obtain ⟨noRetry, defers⟩ := closing (isCallback ▸ registered)
    exact ⟨(closesForGood noRetry).1, defers⟩

theorem privateFailConnect_proceeds (error : Option Error) (defer close detaches : Bool)
    (ready : Ready socket (.privateFailConnect error defer close)) :
    Proceeds (socket.privateFailConnect error defer close detaches) := by
  unfold privateFailConnect
  by_cases progress : socket.connectInProgress = true
  · rw [if_neg (not_not_intro progress)]
    split
    · rename_i initiated
      have settled : Settled socket := by
        obtain settled | ⟨idle, _⟩ := ready
        · exact settled
        · rw [idle] at initiated
          contradiction
      refine ⟨{ sound with toLedger := { sound.toLedger with asserted := nofun } }, ?_⟩
      exact ⟨settled.quiet, settled.waits⟩
    · rename_i initiated
      have idle := idle_of_ne initiated
      have noCallback (settled : Settled socket) : ¬ socket.closeCallback.isSome = true := by
        rw [settled.noCallback_of_progress consistent sound progress]
        decide
      split
      · have isConsistent : Consistency.Sound False { socket with retryCount := 0 } :=
          { consistent with }
        have isSound : Sound [] { socket with retryCount := 0 } :=
          { sound with toLedger := { sound.toLedger with } }
        refine failAttempt_proceeds isConsistent isSound progress idle error ?_ detaches
        intro registered
        obtain settled | ⟨_, _, defers, _⟩ := ready
        · exact absurd registered (noCallback settled)
        · exact ⟨rfl, defers⟩
      · have settled : Settled socket := by
          obtain settled | ⟨_, _, _, isClose⟩ := ready
          · exact settled
          · contradiction
        split
        · exact failAttempt_proceeds consistent sound progress idle error
            (fun registered => absurd registered (noCallback settled)) detaches
        · split
          · exact ⟨{ sound with toLedger := { sound.toLedger with } }, settled.quiet, settled.waits⟩
          · exact ⟨sound, settled⟩
  · rw [if_pos progress]
    obtain settled | ⟨_, isProgress, _⟩ := ready
    · exact ⟨sound, settled⟩
    · contradiction

end

variable {failure : Failure}

/-- The descriptor is closed. A close callback keeps the mutex from being released. -/
theorem privateFailConnectPart2_proceeds (sound : Sound [] socket)
    (ready : Ready socket (.privateFailConnectPart2 failure)) (inlines : Bool) :
    Proceeds (socket.privateFailConnectPart2 failure inlines) := by
  obtain ⟨_, isClosed, closing⟩ := ready
  unfold privateFailConnectPart2
  generalize isClosing : (if socket.handle = true ∧ socket.socket = true then
    { socket with descriptor := false, handle := false } else socket) = closed
  have noDescriptor : closed.descriptor = false := by
    rw [← isClosing]
    split
    · rfl
    · rename_i notHeld
      exact Bool.eq_false_iff.mpr fun isOpen => notHeld (sound.held isOpen)
  have isSound : Sound [] closed := by
    rw [← isClosing]
    split
    · exact { sound with toLedger := { sound.toLedger with held := nofun } }
    · exact sound
  obtain ⟨isState, isShutdown, isCallback⟩ : closed.openState = socket.openState ∧
      closed.shutdownState = socket.shutdownState ∧
      closed.closeCallback = socket.closeCallback := by
    rw [← isClosing]
    split <;> exact ⟨rfl, rfl, rfl⟩
  have quiet : Quiet closed := by
    intro complete _
    rw [isShutdown] at complete
    exact ⟨isState.trans (isClosed complete), noDescriptor⟩
  cases registered : closed.closeCallback with
  | none => exact proceeds_behind _ _ isSound (settled_of_none quiet registered) trivial
  | some =>
    obtain ⟨staysClosed, defers⟩ := closing (by rw [← isCallback, registered]; rfl)
    unfold behind
    rw [if_neg (by simp [defers])]
    exact ⟨isSound, .inr ⟨⟨isState.trans staysClosed, noDescriptor⟩, defers⟩⟩

theorem dispatchConnectFailure_proceeds (sound : Sound [] socket)
    (ready : Ready socket (.dispatchConnectFailure failure)) (inlines : Bool) :
    Proceeds (socket.dispatchConnectFailure failure inlines) := by
  have finishes (after : Socket) (isSound : Sound [] after)
      (same : Settled socket -> Settled after) (closed : Closed socket -> Closed after) :
      Proceeds (after.behind (!failure.defer && inlines) .finishConnectFailure) := by
    obtain settled | ⟨isClosed, defers⟩ := ready
    · exact proceeds_behind _ _ isSound (same settled) trivial
    · unfold behind
      rw [if_neg (by simp [defers])]
      exact ⟨isSound, .inr (closed isClosed)⟩
  unfold dispatchConnectFailure
  split
  · have isSound : Sound []
        { socket with connectEvents := socket.connectEvents ++ [failure.connectEvent] } :=
      { sound with toLedger := { sound.toLedger with } }
    exact finishes _ isSound (fun settled => ⟨settled.quiet, settled.waits⟩) id
  · obtain settled | ⟨isClosed, _⟩ := ready
    · exact ⟨sound, .inl settled⟩
    · exact ⟨sound, .inr isClosed⟩

theorem finishConnectFailure_proceeds (sound : Sound [] socket)
    (ready : Ready socket .finishConnectFailure)
    (may : socket.closeCallback.isSome = true -> socket.detachMode = .idle) :
    Proceeds socket.finishConnectFailure := by
  have ledger : Ledger [] socket.dispatchClose := by
    obtain settled | isClosed := ready
    · rw [dispatchClose_none (settled.noCallback may)]
      exact sound.toLedger
    · exact dispatchClose_ledger sound.toLedger fun _ => isClosed
  have quiet : Quiet socket.dispatchClose := by
    obtain settled | isClosed := ready
    · exact settled.quiet
    · exact fun _ _ => isClosed
  have isSound : Sound [] socket.dispatchClose := { sound with toLedger := ledger }
  have settled : Settled socket.dispatchClose := settled_of_none quiet rfl
  obtain ⟨_, _, ⟨_, isResult⟩ | isResult⟩ := socket.finishConnectFailure_cases
  · rw [isResult]
    exact ⟨{ isSound with toLedger := { ledger with } }, settled.quiet, settled.waits⟩
  · rw [isResult]
    exact ⟨{ isSound with toLedger := { ledger with } }, settled.quiet, settled.waits⟩

theorem moveAndExecute_settled (settled : Settled socket) : Settled socket.moveAndExecute :=
  ⟨settled.quiet, settled.waits⟩

theorem startAttempt_sound (sound : Sound [] socket) : Sound [] socket.startAttempt :=
  { sound with
    toLedger := { sound.toLedger with shut := rfl }
    established := nofun
    failures := fun _ _ => nofun }

theorem startAttempt_settled (noCallback : socket.closeCallback = none) :
    Settled socket.startAttempt :=
  settled_of_none nofun noCallback

section

variable (consistent : Consistency.Sound False socket) (sound : Sound [] socket)
include consistent sound

theorem privateRetryConnect_proceeds (settled : Settled socket) (resolves : Option Error) :
    Proceeds (socket.privateRetryConnect resolves) := by
  unfold privateRetryConnect
  split
  · exact ⟨sound, settled⟩
  · rename_i starts
    simp only [not_or, not_not] at starts
    have progress := starts.2.1
    have isSound := startAttempt_sound sound
    have isSettled :=
      startAttempt_settled (settled.noCallback_of_progress consistent sound progress)
    dsimp only
    split
    · split
      · exact ⟨isSound, .inl isSettled⟩
      · cases resolves with
        | some => exact ⟨isSound, .inl isSettled⟩
        | none =>
          exact ⟨{ isSound with toLedger := { isSound.toLedger with } }, isSettled.quiet,
            isSettled.waits⟩
    · exact ⟨isSound, isSettled, progress⟩

theorem connectToEndpoint_proceeds (ready : Ready socket .connectToEndpoint) (input : Input)
    (may : MayAdvance socket .connectToEndpoint input) :
    Proceeds (socket.connectToEndpoint input.establishment input.inlines) := by
  obtain ⟨settled, progress⟩ := ready
  have incomplete := incomplete_of_progress consistent sound progress
  have noCallback := settled.noCallback_of_progress consistent sound progress
  have isOpened : Sound [] socket.opened :=
    { sound with toLedger := { sound.toLedger with held := fun _ => ⟨rfl, rfl⟩ } }
  have staysSettled : Settled socket.opened := settled_of_none
    (fun complete => absurd (incomplete.symm.trans complete) Bool.false_ne_true) noCallback
  unfold MayAdvance at may
  cases isEstablishment : input.establishment with
  | failsToOpen error created =>
    have isSame : (socket.descriptor || (created && socket.socket && !socket.handle)) =
        socket.descriptor := by
      cases created with
      | false => simp
      | true => cases isSocket : socket.socket <;> simp_all
    have isFailed : socket.openFailed created = socket := by
      unfold openFailed
      rw [isSame]
    refine ⟨?_, .inl ?_⟩
    · rw [isFailed]
      exact sound
    · rw [isFailed]
      exact settled
  | fails => exact ⟨isOpened, .inl staysSettled⟩
  | connects => exact proceeds_behind _ _ isOpened staysSettled trivial

end

theorem attachSocket_proceeds (sound : Sound [] socket) (settled : Settled socket)
    (connectAttempts : Nat) (attachment : Attachment) :
    Proceeds (socket.attachSocket connectAttempts attachment) := by
  have registers (attached : Bool) : Sound [] { socket with attached := attached } :=
    { sound with toLedger := { sound.toLedger with } }
  have staysSettled (attached : Bool) : Settled { socket with attached := attached } :=
    ⟨settled.quiet, settled.waits⟩
  unfold attachSocket
  split
  · exact ⟨sound, settled⟩
  · split
    · exact ⟨sound, .inl settled⟩
    · cases attachment with
      | fails _ registered =>
        exact ⟨registers (socket.attached || registered), .inl (staysSettled _)⟩
      | attaches => exact ⟨registers true, staysSettled true⟩

theorem privateSocketWritableConnection_proceeds (consistent : Consistency.Sound False socket)
    (idle : socket.connectInProgress = true -> socket.detachMode = .idle)
    (sound : Sound [] socket) (settled : Settled socket) (connection : Option Error)
    (inlines : Bool) : Proceeds (socket.privateSocketWritableConnection connection inlines) := by
  unfold privateSocketWritableConnection
  split
  · exact ⟨sound, settled⟩
  · rename_i notDone
    have progress : socket.connectInProgress = true := not_not.mp notDone
    have incomplete := incomplete_of_progress consistent sound progress
    have hasNone : socket.detachments = [] := by simpa [idle progress] using consistent.pending
    cases connection with
    | some => exact ⟨sound, .inl settled⟩
    | none =>
      refine proceeds_behind _ _ ?_ ?_ trivial
      · exact { sound with
          toLedger := { sound.toLedger with }
          established := fun _ => .inl rfl
          failures := by simp [hasNone] }
      · exact settled_of_none
          (fun complete => absurd (incomplete.symm.trans complete) Bool.false_ne_true)
          (settled.noCallback_of_progress consistent sound progress)

theorem dispatchConnectComplete_proceeds (sound : Sound [] socket) (settled : Settled socket)
    (connectCallback : Bool) : Proceeds (socket.dispatchConnectComplete connectCallback) := by
  unfold dispatchConnectComplete
  split
  · exact ⟨{ sound with toLedger := { sound.toLedger with } }, settled.quiet, settled.waits⟩
  · exact ⟨sound, settled⟩

section Established

variable (consistent : Consistency.Sound False socket) (sound : Sound [] socket)
  (settled : Settled socket)

include sound settled in
theorem privateFail_proceeds (error : Error) (inlines : Bool) :
    Proceeds (socket.privateFail error inlines) := by
  unfold privateFail
  split
  · exact ⟨sound, .inl settled⟩
  · split
    · exact ⟨sound, settled⟩
    · exact proceeds_behind _ _ sound settled trivial

include sound settled in
theorem privateFailUpgrade_proceeds (inlines : Bool) :
    Proceeds (socket.privateFailUpgrade inlines) := by
  unfold privateFailUpgrade
  split
  · exact ⟨sound, settled⟩
  · refine proceeds_behind _ _ ?_ ?_ trivial
    · exact { sound with toLedger := { sound.toLedger with } }
    · exact ⟨settled.quiet, settled.waits⟩

include consistent sound settled

section

variable (noProgress : socket.connectInProgress = false)
include noProgress

theorem closeAfterFail_proceeds (error : Error) (detaches inlines : Bool) :
    Proceeds (socket.closeAfterFail error detaches inlines) := by
  unfold closeAfterFail
  split
  · have shut := privateShutdownSend_shutting (privateShutdownReceive_shutting
      (settled.shutting consistent sound noProgress) detaches) detaches
    exact ⟨shut.sound, shut.settled (.inl rfl)⟩
  · exact proceeds_behind _ _ sound settled trivial

theorem privateShutdown_settled
    (idle : socket.closeCallback.isSome = true -> socket.detachMode = .idle)
    (dir : ShutdownType) (mode : ShutdownMode) (hasEntry detaches : Bool) :
    Sound [] (socket.privateShutdown dir mode hasEntry detaches) ∧
      Settled (socket.privateShutdown dir mode hasEntry detaches) := by
  have shut := privateShutdown_shutting (settled.shutting consistent sound noProgress)
    (settled.noCallback idle) dir mode hasEntry detaches
  exact ⟨shut.sound, shut.settled (.inl rfl)⟩

variable (transfer : Transfer) (detaches : Bool)

theorem readable_proceeds : Proceeds (socket.readable transfer detaches) := by
  cases transfer with
  | done | invokes | upgradeFails | fails => exact ⟨sound, settled⟩
  | upgrades =>
    exact ⟨{ sound with toLedger := { sound.toLedger with } }, settled.quiet, settled.waits⟩
  | ends =>
    have shut := privateShutdownReceive_shutting
      (settled.shutting consistent sound noProgress) detaches
    exact ⟨shut.sound, shut.settled (.inl rfl)⟩

theorem writable_proceeds : Proceeds (socket.writable transfer detaches) := by
  cases transfer with
  | done | invokes | upgrades | upgradeFails | fails => exact ⟨sound, settled⟩
  | ends =>
    unfold writable
    dsimp only
    split
    · have shut := privateShutdownSend_shutting (entries_shutting
        (settled.shutting consistent sound noProgress) (socket.shutdownEntries - 1)) detaches
      exact ⟨shut.sound, shut.settled (.inl rfl)⟩
    · exact ⟨sound, settled⟩

end

end Established

def Enters (entered : Socket × List Frame) : Prop :=
  Proceeds (.continues entered.1 entered.2)

section

theorem defer_sound (sound : Sound [] socket) {call : DeferredCall}
    (registersNone : registers call = none) :
    Sound [] { socket with deferredCalls := socket.deferredCalls ++ [call] } :=
  { sound with
    toLedger := { sound.toLedger with
      numbered := by
        rw [callbacks_defer, registersNone, toList_none, append_nil]
        exact sound.numbered } }

variable (consistent : Consistency.Sound False socket)
include consistent

/-- A close callback is registered, or the call that does so is put off. -/
theorem privateClose_enters (callback : Option Nat) (sound : Sound callback.toList socket)
    (settled : Settled socket) (detaches : Bool) :
    Enters (socket.privateClose callback detaches) := by
  unfold privateClose
  split
  · refine ⟨?_, settled.quiet, settled.waits⟩
    exact { sound with
      toLedger := { sound.toLedger with
        numbered := by
          rw [nil_append, callbacks_defer]
          exact perm_append_comm.trans sound.numbered } }
  · rename_i notInitiated
    have idle := idle_of_ne notInitiated
    have noCallback := settled.noCallback fun _ => idle
    rw [if_neg (by rw [noCallback]; decide)]
    have isConsistent : Consistency.Sound False { socket with closeCallback := callback } :=
      { consistent with }
    have isSound : Sound [] { socket with closeCallback := callback } :=
      { sound with
        toLedger := { sound.toLedger with
          numbered := by
            refine Perm.trans ?_ sound.numbered
            unfold callbacks dispatched
            rw [noCallback, toList_none, append_nil, nil_append, ← append_assoc]
            exact Perm.append_right _ perm_append_comm } }
    dsimp only
    split
    · rename_i progress
      exact ⟨isSound, .inr ⟨idle, progress, rfl, rfl⟩⟩
    · rename_i noProgress
      exact privateShutdown_closes isConsistent (Bool.eq_false_iff.mpr noProgress) isSound
        settled.quiet idle detaches

variable (sound : Sound [] socket) (settled : Settled socket)
include sound settled

theorem close_enters (callback detaches : Bool) : Enters (socket.close callback detaches) := by
  unfold close accept
  split
  · have isConsistent : Consistency.Sound False { socket with accepted := socket.accepted + 1 } :=
      { consistent with }
    have isSound : Sound [socket.accepted] { socket with accepted := socket.accepted + 1 } :=
      { sound with
        toLedger := { sound.toLedger with
          numbered := by
            rw [range_succ]
            exact perm_append_comm.trans (sound.numbered.append_right [socket.accepted]) } }
    exact privateClose_enters isConsistent (some socket.accepted) isSound
      ⟨settled.quiet, settled.waits⟩ detaches
  · exact privateClose_enters consistent none sound settled detaches

theorem release_enters (callback detaches : Bool) : Enters (socket.release callback detaches) := by
  unfold release
  split
  · exact ⟨sound, settled⟩
  · have isConsistent : Consistency.Sound False
        { socket with detachGoal := .toExport, session := false } := { consistent with }
    have isSound : Sound [] { socket with detachGoal := .toExport, session := false } :=
      { sound with toLedger := { sound.toLedger with } }
    exact close_enters isConsistent isSound ⟨settled.quiet, settled.waits⟩ callback detaches

theorem shutdown_enters (dir : ShutdownType) (mode : ShutdownMode) (hasEntry detaches : Bool) :
    Enters (socket.shutdown dir mode hasEntry detaches) := by
  unfold shutdown
  split
  · exact ⟨defer_sound sound rfl, settled.quiet, settled.waits⟩
  · rename_i notInitiated
    split
    · split
      · exact ⟨sound, settled⟩
      · exact ⟨sound, .inl settled⟩
    · rename_i noProgress
      exact privateShutdown_settled consistent sound settled (Bool.eq_false_iff.mpr noProgress)
        (fun _ => idle_of_ne notInitiated) dir mode hasEntry detaches

end

section

variable (sound : Sound [] socket) (settled : Settled socket)
include sound settled

theorem processConnectDeadlineTimer_enters : Enters socket.processConnectDeadlineTimer := by
  unfold processConnectDeadlineTimer
  split
  · have isSound : Sound [] { socket with retryConnect := false } :=
      { sound with toLedger := { sound.toLedger with } }
    exact ⟨defer_sound isSound rfl, settled.quiet, settled.waits⟩
  · split
    · exact ⟨sound, .inl settled⟩
    · exact ⟨sound, settled⟩

theorem processConnectRetryTimer_enters : Enters socket.processConnectRetryTimer := by
  unfold processConnectRetryTimer
  split
  · exact ⟨sound, settled⟩
  · split
    · have isSound : Sound [] { socket with retryConnect := true } :=
        { sound with toLedger := { sound.toLedger with } }
      have isSettled : Settled { socket with retryConnect := true } :=
        ⟨settled.quiet, settled.waits⟩
      split
      · exact ⟨isSound, isSettled⟩
      · exact ⟨isSound, .inl isSettled⟩
    · exact ⟨sound, settled⟩

/-- A socket that was never connected is not shut down. -/
theorem connect_enters (named : Bool)
    (retryCount : Option Nat) (strategy : ConnectStrategy) (callback : Bool) :
    Enters (socket.connect named retryCount strategy callback, []) := by
  unfold connect
  split
  · exact ⟨sound, settled⟩
  · rename_i connects
    simp only [not_or, not_not] at connects
    have isDefault : socket.openState = .default := connects.1
    have incomplete : ¬ socket.shutdownState.shutdownCompleted = true := by
      intro complete
      have established := sound.established complete
      rw [isDefault] at established
      simp [Established] at established
    refine ⟨?_, fun complete => absurd complete incomplete, ?_⟩
    · exact { sound with
        toLedger := { sound.toLedger with }
        established := fun complete => absurd complete incomplete
        failures := fun _ _ => by intro impossible; cases impossible }
    · exact fun registered => absurd (settled.waits registered).2.1 incomplete

end

theorem processSocketWritable_stands (settled : Settled socket) :
    Stands socket socket.processSocketWritable.head? := by
  unfold processSocketWritable
  split
  · exact settled
  · split
    · exact settled
    · split <;> exact settled

theorem processSocketError_stands (settled : Settled socket) (error : Error) :
    Stands socket (socket.processSocketError error).head? := by
  unfold processSocketError
  split
  · exact settled
  · split
    · exact .inl settled
    · split <;> exact settled

theorem processRemoteEndpointResolution_enters (sound : Sound [] socket)
    (settled : Settled socket) (connectAttempts endpoints : Nat) (error : Option Error) :
    Enters (socket.processRemoteEndpointResolution connectAttempts endpoints error) := by
  unfold processRemoteEndpointResolution
  split
  · exact ⟨sound, settled⟩
  · rename_i current
    simp only [not_or, not_not] at current
    have isSound : Sound [] { socket with connectEndpoints := endpoints } :=
      { sound with toLedger := { sound.toLedger with } }
    have isSettled : Settled { socket with connectEndpoints := endpoints } :=
      ⟨settled.quiet, settled.waits⟩
    cases error with
    | some => exact ⟨isSound, .inl isSettled⟩
    | none => exact ⟨isSound, isSettled, current.2.1⟩

section

variable (consistent : Consistency.Sound False socket)
include consistent

theorem upgrade_enters (sound : Sound [] socket) (settled : Settled socket) {fails detaches : Bool}
    (may : MayEnter socket (.upgrade fails detaches)) :
    Enters (socket.upgrade fails detaches, []) := by
  unfold upgrade
  split
  · exact ⟨sound, settled⟩
  · rename_i upgrades
    simp only [not_or, not_not] at upgrades
    split
    · rename_i isFailure
      rw [isFailure] at may
      exact privateShutdown_settled consistent sound settled
        (noProgress_of_established consistent (.inl upgrades.1))
        (may upgrades.1 (Bool.eq_false_iff.mpr upgrades.2)) _ _ _ _
    · exact ⟨{ sound with toLedger := { sound.toLedger with } }, settled.quiet, settled.waits⟩

theorem processSocketDetached_enters (sound : Sound [] socket) (settled : Settled socket)
    {callback : DetachCallback} {index : Nat} (found : socket.detachments[index]? = some callback) :
    Enters ({ socket with
      detachments := socket.detachments.eraseIdx index }.processSocketDetached callback) := by
  have mem := mem_of_getElem? found
  obtain ⟨initiated, hasNone⟩ := Consistency.detached_of_sound consistent found
  cases callback with
  | shutdownSequenceComplete context =>
    have completes := sound.sequences context mem
    have ledger : Ledger [] { socket with detachments := [], detachMode := .idle } :=
      { sound.toLedger with }
    unfold processSocketDetached privateShutdownSequenceComplete
    dsimp only
    rw [if_pos (by rw [initiated]; decide), hasNone]
    exact shutdownSequenceEnd_completed ledger rfl completes
  | failConnectPart2 failure =>
    have notConnected := sound.failures failure mem
    have isClosed (complete : socket.shutdownState.shutdownCompleted = true) :
        socket.openState = .closed :=
      (sound.established complete).resolve_left notConnected
    unfold processSocketDetached
    dsimp only
    rw [if_pos initiated, hasNone]
    refine ⟨?_, rfl, isClosed, ?_⟩
    · exact { sound with
        toLedger := { sound.toLedger with }
        failures := by simp
        sequences := by simp }
    · intro registered
      obtain ⟨_, complete, defers⟩ := settled.waits registered
      exact ⟨isClosed complete, defers failure mem⟩

theorem execute_enters (functor : DeferredCall) (sound : Sound (registers functor).toList socket)
    (settled : Settled socket) (hasEntry detaches : Bool) :
    Enters (socket.execute functor hasEntry detaches) := by
  cases functor with
  | processConnectDeadlineTimer => exact processConnectDeadlineTimer_enters sound settled
  | shutdown dir mode =>
    exact shutdown_enters consistent sound settled dir mode hasEntry detaches
  | close callback => exact privateClose_enters consistent callback sound settled detaches

end

theorem callbacks_execute {functor : DeferredCall} {index : Nat}
    (found : socket.functors[index]? = some functor) : ((registers functor).toList ++
      callbacks { socket with functors := socket.functors.eraseIdx index }).Perm
        (callbacks socket) := by
  obtain ⟨isIndex, isFunctor⟩ := List.getElem?_eq_some_iff.mp found
  have isPerm : socket.functors.Perm (functor :: socket.functors.eraseIdx index) := by
    rw [← isFunctor]
    exact (getElem_cons_eraseIdx_perm isIndex).symm
  have isTaken : (functor :: socket.functors.eraseIdx index).filterMap registers =
      (registers functor).toList ++ (socket.functors.eraseIdx index).filterMap registers := by
    cases isRegistered : registers functor <;> simp [isRegistered]
  unfold callbacks dispatched
  rw [filterMap_append, filterMap_append]
  generalize socket.closeEvents.map CloseEvent.callback ++ socket.closeCallback.toList = earlier
  refine Perm.trans ?_ (((isPerm.filterMap registers).symm.append_right _).append_left earlier)
  rw [isTaken, append_assoc (registers functor).toList, ← append_assoc _ earlier,
    ← append_assoc earlier]
  exact perm_append_comm.append_right _

section

variable (consistent : Consistency.Sound False socket) (sound : Sound [] socket)
include consistent sound

theorem enter_enters (settled : Settled socket) {call : Call} (may : MayEnter socket call)
    {entered : Socket × List Frame} (isEntered : enter socket call = some entered) :
    Enters entered := by
  have unchanged : Enters (socket, []) := ⟨sound, settled⟩
  unfold enter at isEntered
  split at isEntered
  · contradiction
  · cases call with
    | connect named retryCount strategy callback =>
      cases isEntered
      exact connect_enters sound settled named retryCount strategy callback
    | cancelConnect =>
      cases isEntered
      split
      · exact ⟨sound, .inl settled⟩
      · exact unchanged
    | upgrade _ detaches =>
      cases isEntered
      exact upgrade_enters consistent sound settled may
    | cancelUpgrade =>
      dsimp only at isEntered
      split at isEntered
      · cases isEntered
        exact ⟨{ sound with toLedger := { sound.toLedger with } }, settled.quiet, settled.waits⟩
      · cases isEntered
        exact unchanged
    | shutdown dir mode hasEntry detaches =>
      cases isEntered
      exact shutdown_enters consistent sound settled dir mode hasEntry detaches
    | release callback detaches =>
      cases isEntered
      exact release_enters consistent sound settled callback detaches
    | close callback detaches =>
      cases isEntered
      exact close_enters consistent sound settled callback detaches
    | registerSession | deregisterSession | resolverGone =>
      cases isEntered
      exact ⟨{ sound with toLedger := { sound.toLedger with } }, settled.quiet, settled.waits⟩
    | processConnectDeadlineTimer =>
      cases isEntered
      exact processConnectDeadlineTimer_enters sound settled
    | processConnectRetryTimer =>
      cases isEntered
      exact processConnectRetryTimer_enters sound settled
    | processUpgradeTimer =>
      cases isEntered
      split
      · exact ⟨sound, settled⟩
      · exact unchanged
    | processSocketReadable =>
      obtain ⟨_, rfl⟩ := Run.guarded isEntered
      unfold processSocketReadable
      split
      · exact unchanged
      · exact ⟨sound, settled⟩
    | processSocketWritable =>
      obtain ⟨_, rfl⟩ := Run.guarded isEntered
      exact ⟨sound, processSocketWritable_stands settled⟩
    | processSocketError error =>
      obtain ⟨_, rfl⟩ := Run.guarded isEntered
      exact ⟨sound, processSocketError_stands settled error⟩
    | processRemoteEndpointResolution index endpoints error =>
      obtain ⟨connectAttempts, _, isResult⟩ := map_eq_some_iff.mp isEntered
      rw [← isResult]
      have isSound : Sound [] { socket with resolutions := socket.resolutions.eraseIdx index } :=
        { sound with toLedger := { sound.toLedger with } }
      exact processRemoteEndpointResolution_enters isSound ⟨settled.quiet, settled.waits⟩
        connectAttempts endpoints error
    | processSocketDetached index =>
      obtain ⟨_, found, isResult⟩ := map_eq_some_iff.mp isEntered
      rw [← isResult]
      exact processSocketDetached_enters consistent sound settled found
    | execute index hasEntry detaches =>
      obtain ⟨functor, found, isResult⟩ := map_eq_some_iff.mp isEntered
      rw [← isResult]
      have isConsistent : Consistency.Sound False
          { socket with functors := socket.functors.eraseIdx index } := { consistent with }
      have isSound : Sound (registers functor).toList
          { socket with functors := socket.functors.eraseIdx index } :=
        { sound with
          toLedger := { sound.toLedger with
            numbered := (callbacks_execute found).trans sound.numbered } }
      exact execute_enters isConsistent functor isSound ⟨settled.quiet, settled.waits⟩
        hasEntry detaches

theorem advance_proceeds (rely : Consistency.Ready False socket frame) (ready : Ready socket frame)
    {input : Input} (may : MayAdvance socket frame input) {outcome : Outcome}
    (isOutcome : advance socket frame input = some outcome) : Proceeds outcome := by
  have noProgress := noProgress_of_established consistent
  unfold advance at isOutcome
  split at isOutcome
  · contradiction
  · cases isOutcome
    cases frame with
    | privateFailConnect error defer close =>
      exact privateFailConnect_proceeds consistent sound error defer close input.detaches ready
    | privateFailConnectPart2 failure =>
      exact privateFailConnectPart2_proceeds sound ready input.inlines
    | dispatchConnectFailure => exact dispatchConnectFailure_proceeds sound ready input.inlines
    | finishConnectFailure => exact finishConnectFailure_proceeds sound ready may
    | executeDeferredCalls =>
      exact ⟨{ sound with toLedger := moveAndExecute_ledger sound.toLedger },
        moveAndExecute_settled ready⟩
    | privateRetryConnect =>
      exact privateRetryConnect_proceeds consistent sound ready input.resolves
    | connectToEndpoint => exact connectToEndpoint_proceeds consistent sound ready input may
    | attachSocket connectAttempts =>
      exact attachSocket_proceeds sound ready connectAttempts input.attachment
    | privateSocketWritableConnection =>
      exact privateSocketWritableConnection_proceeds consistent rely sound ready
        input.connection input.inlines
    | dispatchConnectComplete connectCallback =>
      exact dispatchConnectComplete_proceeds sound ready connectCallback
    | privateFail error => exact privateFail_proceeds sound ready error input.inlines
    | closeAfterFail error =>
      exact closeAfterFail_proceeds consistent sound ready (noProgress rely) error
        input.detaches input.inlines
    | shutdownAfterFail =>
      exact privateShutdown_settled consistent sound ready (noProgress rely) may _ _ _ _
    | privateFailUpgrade => exact privateFailUpgrade_proceeds sound ready input.inlines
    | dispatchUpgradeFailure => exact proceeds_behind _ _ sound ready trivial
    | readable =>
      exact readable_proceeds consistent sound ready (noProgress rely) input.transfer input.detaches
    | writable =>
      exact writable_proceeds consistent sound ready (noProgress rely) input.transfer input.detaches

end

/-- The consistency of the socket is kept whatever is called. -/
theorem consistency_keeps :
    Monitor.Keeps enter advance MayEnter MayAdvance (Consistency.Invariant False) := by
  refine monitor_keeps.mono ?_ ?_
  · intro socket call _
    cases call with
    | cancelConnect => exact False.elim
    | _ => trivial
  · intro _ frame _ _
    cases frame with
    | finishConnectFailure => exact False.elim
    | _ => trivial

theorem monitor_keeps : Monitor.Keeps enter advance MayEnter MayAdvance Invariant where
  perm isPerm holds := ⟨consistency_keeps.perm isPerm holds.1, holds.2⟩
  focus {socket frame others} holds := by
    have rests := (holds.1.2.2 frame mem_cons_self).1
    exact ⟨consistency_keeps.focus holds.1, holds.2.1, holds.2.2.ready rests⟩
  enters holds may isEntered := ⟨consistency_keeps.enters holds.1 may isEntered,
      enter_enters holds.1.1 holds.2.1 holds.2.2 may isEntered⟩
  continues holds may isOutcome := ⟨consistency_keeps.continues holds.1 may isOutcome,
      advance_proceeds holds.1.1 holds.2.1 (holds.1.2.1 _ rfl) holds.2.2 may isOutcome⟩
  releases holds may isOutcome := ⟨consistency_keeps.releases holds.1 may isOutcome,
      advance_proceeds holds.1.1 holds.2.1 (holds.1.2.1 _ rfl) holds.2.2 may isOutcome⟩

theorem initial_holds (configuration : Configuration) :
    Monitor.Holds Invariant (initial configuration) := by
  refine ⟨Consistency.initial_holds configuration, ?_, settled_of_none nofun rfl⟩
  exact {
    held := fun isOpen => ⟨isOpen, isOpen⟩
    shut := rfl
    closes := forall_mem_nil _
    numbered := Perm.refl []
    asserted := nofun
    established := nofun
    failures := fun _ mem => absurd mem not_mem_nil
    sequences := fun _ mem => absurd mem not_mem_nil }

/-- A socket that nothing is left to be done to has dispatched every callback. -/
theorem callbacks_quiescent (consistent : Consistency.Sound False socket)
    (settled : Settled socket) (noDetachment : socket.detachments = [])
    (noDeferred : socket.deferredCalls = []) (noFunctor : socket.functors = []) :
    callbacks socket = dispatched socket := by
  have idle : socket.detachMode = .idle := by
    apply idle_of_ne
    intro initiated
    have pending := consistent.pending
    rw [if_pos initiated, noDetachment] at pending
    contradiction
  unfold callbacks
  rw [settled.noCallback fun _ => idle, noDeferred, noFunctor]
  simp

theorem punctual_of_holds (system : System) (holds : Monitor.Holds Invariant system) :
    Punctual system := by
  obtain ⟨socket, running, _⟩ := system
  have sound : Sound [] socket := by
    cases running with
    | nil | cons frame rest => exact holds.2.1
  have numbered : (callbacks socket).Perm (range socket.accepted) := sound.numbered
  have isPart : (dispatched socket).Sublist (callbacks socket) :=
    (sublist_append_left _ _).trans (sublist_append_left _ _)
  refine ⟨?_, ?_, sound.closes, ?_, sound.asserted⟩
  · exact (numbered.nodup_iff.mpr nodup_range).sublist isPart
  · intro callback mem
    exact mem_range.mp (numbered.mem_iff.mp (isPart.subset mem))
  · intro quiescent _ isAccepted
    obtain ⟨_, noDetachment, noDeferred, noFunctor⟩ := quiescent
    cases running with
    | cons => contradiction
    | nil =>
      have isAll := callbacks_quiescent holds.1.1 holds.2.2 noDetachment noDeferred noFunctor
      rw [isAll] at numbered
      exact numbered.mem_iff.mpr (mem_range.mpr isAccepted)

/-- In every run along which the conditions are met, each close callback is dispatched at most
once, to a socket that is closed, and has been when nothing is left to be done. -/
theorem always_punctual (configuration : Configuration) (actions : List Action)
    (meets : Run.Along step (Monitor.Meets MayEnter MayAdvance) (initial configuration) actions) :
    Run.Always step Punctual (initial configuration) actions :=
  monitor_keeps.always punctual_of_holds (initial_holds configuration) meets

def closedTwice : List Action :=
  [.call (.connect false (some 3) .resolveIntoSingle true), .call .processConnectRetryTimer,
    .advance {}, .advance {}, .advance {}, .call (.close true true), .advance {},
    .call (.close true true), .call (.processSocketDetached 0), .advance {}, .advance {},
    .advance {}, .advance {}, .call (.execute 0 false true)]

theorem always_punctual_closedTwice :
    Run.Along step (Monitor.Meets MayEnter MayAdvance) (initial {}) closedTwice ∧
      Run.Always step Punctual (initial {}) closedTwice := by
  have meets : Run.Along step (Monitor.Meets MayEnter MayAdvance) (initial {}) closedTwice :=
    ⟨trivial, trivial, trivial, fun _ isFailure => absurd isFailure nofun, trivial, trivial,
      trivial, trivial, trivial, trivial, trivial, fun _ => rfl, trivial, trivial, trivial⟩
  exact ⟨meets, always_punctual _ _ meets⟩

/-- A socket that fails is closed while the error is announced. The shutdown that follows the
announcement finds the callback of a detachment that is not complete. -/
theorem not_always_punctual_announcement :
    ¬ ∀ configuration actions, Run.Always step Punctual (initial configuration) actions :=
  fun always => absurd (always { accepted := true, session := true }
      [.call (.processSocketError (.other 1)), .advance {}, .advance { inlines := true },
        .call (.close true true), .resume 0, .advance {}])
    (by decide)

end Closing

end NtfCore.Ntcr.StreamSocket.Lifecycle
