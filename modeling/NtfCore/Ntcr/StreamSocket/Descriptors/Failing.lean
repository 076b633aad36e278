import NtfCore.Ntcr.StreamSocket.Descriptors.Releasing

/-!
Contract: a stream socket that fails to connect gives up its descriptor and its reservation, and
the reactor if it fails for good, and accounts for them.

Owns: that the failure of an attempt keeps the account, before and after the socket is
detached.
-/

namespace NtfCore.Ntcr.StreamSocket.Descriptors

open NtfCore.Foundation
open Lifecycle (Socket Frame DetachCallback ShutdownContext Error Failure)
open Lifecycle.Consistency (Sound)

variable {owner : Holder}

def Risked (holder : Holder) : Prop :=
  holder.handed = holder.descriptors.released ∧ holder.core.detachGoal = .toClose ∨
    Owed holder ∧ holder.core.retryCount = 0

def attemptFailed (holder : Holder) (core : Socket) : Holder :=
  { holder with
    core := core
    reactorReleases := holder.reactorReleases + if holder.core.retryCount = 0 then 1 else 0 }

theorem failAttempt_cases (owner : Holder) (idle : owner.core.detachMode = .idle)
    (error : Option Error) (defer detaches : Bool) :
    owner.core.handle = true ∧ owner.failAttempt error defer detaches = .continues
          (attemptFailed owner ((owner.core.markFailed error).detaching
            (.failConnectPart2 (owner.core.connectFailure error defer)))) [] ∨
      owner.failAttempt error defer detaches = .continues
        (attemptFailed owner (owner.core.markFailed error).deregistered)
        [.privateFailConnectPart2 (owner.core.connectFailure error defer)] := by
  have isReleased (core : Socket) :
      (if owner.core.retryCount = 0 then Holder.releaseReactor { owner with core := core }
        else { owner with core := core }) = attemptFailed owner core := by
    unfold attemptFailed
    split
    · rfl
    · rfl
  unfold Holder.failAttempt Holder.detachSocket
  dsimp only
  obtain ⟨hasHandle, _, isDetached⟩ | isDetached :=
    Socket.detachSocket_cases (owner.core.markFailed error) detaches
      (.failConnectPart2 (owner.core.connectFailure error defer))
  · rw [isDetached, isReleased, if_pos (by rfl)]
    rw [Socket.markFailed_handle] at hasHandle
    exact .inl ⟨hasHandle, rfl⟩
  · have staysIdle : (owner.core.markFailed error).deregistered.detachMode = .idle :=
      (Socket.markFailed_detachMode owner.core error).trans idle
    rw [isDetached, isReleased, if_neg (by unfold attemptFailed; rw [staysIdle]; decide)]
    exact .inr rfl

section Fails

variable {socket : Socket} (tidy : Tidy socket) (sound : Sound False socket)
  (progress : socket.connectInProgress = true) (idle : socket.detachMode = .idle)

include tidy progress in
theorem incomplete_of_progress : socket.shutdownState.shutdownCompleted = false := by
  apply Bool.eq_false_iff.mpr
  intro completed
  exact absurd ((tidy.past completed).2.symm.trans progress) nofun

include tidy sound progress idle in
/-- A socket that could not be connected is shut down, or waits for another attempt. -/
theorem markFailed_tidy (error : Option Error) : Tidy (socket.markFailed error) := by
  have noDetachments : socket.detachments = [] := by simpa [idle] using sound.pending
  have noSequences (context : ShutdownContext) :
      DetachCallback.shutdownSequenceComplete context ∉ socket.detachments := by
    rw [noDetachments]
    exact List.not_mem_nil
  unfold Socket.markFailed
  split
  · exact { tidy with
      completes := rfl
      past := fun _ => ⟨nofun, rfl⟩
      sequences := fun context mem => absurd mem (noSequences context)
      bare := fun _ _ => .inr rfl }
  · exact { tidy with
      past := fun completed => absurd
        ((incomplete_of_progress tidy progress).symm.trans completed) nofun }

include tidy progress in
theorem markFailed_completed (error : Option Error) :
    ((socket.markFailed error).shutdownState.shutdownCompleted = true ↔ socket.retryCount = 0) ∧
      ((socket.markFailed error).connectInProgress = true ∨
        (socket.markFailed error).shutdownState.shutdownCompleted = true) := by
  have incomplete := incomplete_of_progress tidy progress
  unfold Socket.markFailed
  split
  · rename_i forGood
    exact ⟨⟨fun _ => forGood, fun _ => rfl⟩, .inr rfl⟩
  · rename_i notYet
    exact ⟨⟨fun completed => absurd (incomplete.symm.trans completed) nofun,
      fun forGood => absurd forGood notYet⟩, .inl progress⟩

end Fails

variable {socket : Socket}

theorem Tidy.detaching (tidy : Tidy socket) (hasHandle : socket.handle = true)
    (failure : Failure) : Tidy (socket.detaching (.failConnectPart2 failure)) :=
  { tidy with
    registered := nofun
    pending := fun _ => ⟨hasHandle, rfl⟩
    sequences := by
      intro context mem
      obtain before | isFailure := List.mem_append.mp mem
      · exact tidy.sequences context before
      · exact absurd (List.mem_singleton.mp isFailure) nofun }

theorem Tidy.deregistered (tidy : Tidy socket) : Tidy socket.deregistered :=
  { tidy with
    registered := fun attached => tidy.registered (Bool.and_eq_true_iff.mp attached).1
    pending := by
      intro initiated
      obtain ⟨hasHandle, _⟩ := tidy.pending initiated
      unfold Socket.deregistered
      rw [hasHandle, Bool.not_true, Bool.and_false]
      exact ⟨rfl, rfl⟩ }

variable {core : Socket}

theorem attemptFailed_steady (steady : Steady owner)
    (progress : owner.core.connectInProgress = true) {error : Option Error}
    (tidy : Tidy core) (descriptor : core.descriptor = owner.core.descriptor)
    (handle : core.handle = owner.core.handle)
    (shutdownState : core.shutdownState = (owner.core.markFailed error).shutdownState)
    (noSequences : ∀ context, .shutdownSequenceComplete context ∉ core.detachments) :
    Steady (attemptFailed owner core) := by
  have unreleased := steady.unreleased (incomplete_of_progress steady.tidy progress)
  have completed := (markFailed_completed steady.tidy progress error).1
  rw [← shutdownState] at completed
  unfold attemptFailed
  exact { steady with
    tidy := tidy
    held := steady.held.trans descriptor.symm
    reservations := by
      rw [handle]
      exact steady.reservations
    reactor := by
      dsimp only
      split <;> omega
    unreleased := by
      intro incomplete
      have notYet : owner.core.retryCount ≠ 0 :=
        fun forGood => absurd ((completed.mpr forGood).symm.trans incomplete) nofun
      rw [if_neg notYet]
      exact unreleased
    postponed := fun context mem => absurd mem (noSequences context) }

def Proceeds : Outcome -> Prop
  | .continues after frames => Balanced after frames.head?
  | .releases after _ => Balanced after none

theorem markFailed_descriptor (socket : Socket) (error : Option Error) :
    (socket.markFailed error).descriptor = socket.descriptor ∧
      (socket.markFailed error).detachGoal = socket.detachGoal := by
  unfold Socket.markFailed
  split
  · exact ⟨rfl, rfl⟩
  · exact ⟨rfl, rfl⟩

theorem deregistered_unattached (tidy : Tidy socket) : socket.deregistered.attached = false := by
  unfold Socket.deregistered
  cases isAttached : socket.attached with
  | false => rfl
  | true => rw [tidy.registered isAttached]; rfl

theorem failAttempt_proceeds (steady : Steady owner) (sound : Sound False owner.core)
    (progress : owner.core.connectInProgress = true) (idle : owner.core.detachMode = .idle)
    (risked : Risked owner) (error : Option Error) (defer detaches : Bool) :
    Proceeds (owner.failAttempt error defer detaches) := by
  have marked := markFailed_tidy steady.tidy sound progress idle error
  have handle := owner.core.markFailed_handle error
  obtain ⟨descriptor, detachGoal⟩ := markFailed_descriptor owner.core error
  obtain ⟨completed, goesOn⟩ := markFailed_completed steady.tidy progress error
  have noDetachments : (owner.core.markFailed error).detachments = [] := by
    rw [Socket.markFailed_detachments]
    simpa [idle] using sound.pending
  obtain ⟨hasHandle, isResult⟩ | isResult := failAttempt_cases owner idle error defer detaches
  · rw [isResult]
    constructor
    case toSteady =>
        apply attemptFailed_steady steady progress (marked.detaching (handle.trans hasHandle) _)
          descriptor handle rfl
        intro context mem
        unfold Socket.detaching at mem
        rw [noDetachments, List.nil_append] at mem
        exact absurd (List.mem_singleton.mp mem) nofun
    case promise =>
        obtain ⟨handed, toClose⟩ | ⟨owed, forGood⟩ := risked
        · exact .kept handed (.inl (detachGoal.trans toClose))
        · exact .due ⟨owed.handed, handle.trans hasHandle, detachGoal.trans owed.goal⟩
            (.inr (.inl ⟨completed.mpr forGood, .inl rfl⟩))
    case due => nofun
  · rw [isResult]
    constructor
    case toSteady =>
        apply attemptFailed_steady steady progress marked.deregistered descriptor handle rfl
        intro _ mem
        unfold Socket.deregistered at mem
        rw [noDetachments] at mem
        contradiction
    case promise =>
        obtain ⟨handed, toClose⟩ | ⟨owed, forGood⟩ := risked
        · exact .kept handed (.inl (detachGoal.trans toClose))
        · exact .due ⟨owed.handed, handle.trans owed.recorded, detachGoal.trans owed.goal⟩
            (.inr (.inl ⟨completed.mpr forGood, .inr ⟨_, rfl⟩⟩))
    case due =>
        intro _ isFrame
        cases isFrame
        exact ⟨(Socket.markFailed_detachMode owner.core error).trans idle,
          deregistered_unattached marked, goesOn⟩

theorem proceeds_behind (frame : Frame)
    (balanced : Balanced { owner with core := core } none) (plain : Plain frame)
    (announced : Bool) : Proceeds (owner.lift (core.behind announced frame)) := by
  unfold Socket.behind
  split
  · exact balanced
  · exact balanced.plain plain

variable {failure : Failure}

variable (balanced : Balanced owner (some (.privateFailConnectPart2 failure)))
  (running : owner.core.failed = none)
include balanced running

theorem attempt_givenUp (hasHandle : owner.core.handle = true) :
    Balanced { owner.releaseHandleReservation.giveUp with
      core := { owner.core with descriptor := false, handle := false } } none := by
  have tidy := balanced.tidy
  have reservations := balanced.reservations
  rw [hasHandle] at reservations
  obtain ⟨idle, unattached, goesOn⟩ := balanced.due _ rfl
  have notOver : ¬ Over owner.core (some (.privateFailConnectPart2 failure)) :=
    fun past => past.2.2 failure rfl
  have risked := balanced.toClose_or_owed running notOver
  constructor
  case toSteady =>
      exact { balanced with
        tidy := { tidy with
          object := nofun
          described := nofun
          contained := nofun
          registered := fun attached => absurd (attached.symm.trans unattached) nofun
          pending := fun initiated => absurd (idle.symm.trans initiated) nofun
          bare := fun _ _ => goesOn }
        settled := giveUp_settled balanced.settled
        held := congrArg Option.isSome (giveUp_held owner.releaseHandleReservation)
        reservations := reservations }
  case promise =>
      have pledged : Pledged owner.releaseHandleReservation := risked.imp_right fun owes =>
        ⟨owes.1.handed, owes.1.recorded, owes.1.goal⟩
      refine .kept (giveUp_kept pledged) ?_
      obtain ⟨_, toClose⟩ | ⟨_, leaves⟩ := risked
      · exact .inl toClose
      · obtain ⟨completed, _⟩ | ⟨_, _, _, isFrame⟩ := leaves
        · exact .inr (.inr ⟨completed, idle, fun _ => nofun⟩)
        · cases isFrame
  case due => nofun

theorem privateFailConnectPart2_proceeds (inlines : Bool) :
    Proceeds (owner.privateFailConnectPart2 failure inlines) := by
  unfold Holder.privateFailConnectPart2 Socket.privateFailConnectPart2
  by_cases recorded : owner.core.handle = true ∧ owner.core.socket = true
  · rw [if_pos recorded, if_pos recorded]
    exact proceeds_behind (.dispatchConnectFailure failure)
      (attempt_givenUp balanced running recorded.1) trivial _
  · have noHandle : ¬ owner.core.handle = true :=
      fun hasHandle => recorded ⟨hasHandle, balanced.tidy.object hasHandle⟩
    have notOver : ¬ Over owner.core (some (.privateFailConnectPart2 failure)) :=
      fun past => past.2.2 failure rfl
    have unchanged : Balanced owner none := by
      refine ⟨balanced.toSteady, ?_, nofun⟩
      obtain ⟨handed, toClose⟩ | ⟨owed, _⟩ := balanced.toClose_or_owed running notOver
      · exact .kept handed (.inl toClose)
      · exact absurd owed.recorded noHandle
    rw [if_neg recorded, if_neg recorded]
    exact proceeds_behind (.dispatchConnectFailure failure) unchanged trivial _

end NtfCore.Ntcr.StreamSocket.Descriptors
