import NtfCore.Ntcr.StreamSocket.Descriptors.Failing

/-!
Contract: the frames of a stream socket keep the account of its descriptors.

Owns: that the account is right after each frame, and what the next one relies on.
-/

namespace NtfCore.Ntcr.StreamSocket.Descriptors

open NtfCore.Foundation Holder
open Lifecycle (Socket Frame Input Establishment Attachment DetachCallback Error Failure Transfer)
open Lifecycle.Consistency (Sound Established Ready)

variable {owner : Holder} {socket : Socket}

/-! ## Frames that have to do with no descriptor -/

def Calm (socket : Socket) : Lifecycle.Outcome -> Prop
  | .continues after frames =>
    stance after = stance socket ∧ ∀ frame ∈ frames.head?, Plain frame
  | .releases after _ => stance after = stance socket

theorem Balanced.calm (balanced : Balanced owner none) {outcome : Lifecycle.Outcome}
    (calm : Calm owner.core outcome) : Proceeds (owner.lift outcome) := by
  cases outcome with
  | continues after frames => exact (balanced.of_stance calm.1).plains calm.2
  | releases => exact balanced.of_stance calm

variable {after : Socket} {frame : Frame}

theorem calm_single (same : stance after = stance socket)
    (plain : Plain frame) : Calm socket (.continues after [frame]) := by
  refine ⟨same, ?_⟩
  intro next isNext
  cases isNext
  exact plain

theorem calm_behind (frame : Frame) (same : stance after = stance socket)
    (plain : Plain frame) (announced : Bool) : Calm socket (after.behind announced frame) := by
  unfold Socket.behind
  split
  · exact same
  · exact calm_single same plain

section

variable (socket : Socket)

theorem dispatchConnectFailure_calm (failure : Failure) (inlines : Bool) :
    Calm socket (socket.dispatchConnectFailure failure inlines) := by
  unfold Socket.dispatchConnectFailure
  split
  · exact calm_behind .finishConnectFailure rfl trivial _
  · exact calm_single rfl trivial

theorem finishConnectFailure_calm : Calm socket socket.finishConnectFailure := by
  unfold Socket.finishConnectFailure
  dsimp only
  generalize isReset : (if socket.dispatchClose.retryCount = 0 then
    { socket.dispatchClose with resolver := false, session := false }
    else socket.dispatchClose) = reset
  have same : stance reset = stance socket := by
    rw [← isReset]
    split <;> rfl
  split
  · refine ⟨same, ?_⟩
    intro next isNext
    cases isNext
    trivial
  · exact calm_single same trivial

theorem dispatchConnectComplete_calm (connectCallback : Bool) :
    Calm socket (socket.dispatchConnectComplete connectCallback) := by
  unfold Socket.dispatchConnectComplete
  split
  · exact ⟨rfl, nofun⟩
  · exact ⟨rfl, nofun⟩

theorem privateFail_calm (error : Error) (inlines : Bool) :
    Calm socket (socket.privateFail error inlines) := by
  unfold Socket.privateFail
  split
  · exact calm_single rfl trivial
  · split
    · exact calm_single rfl trivial
    · exact calm_behind (.closeAfterFail error) rfl trivial _

theorem privateFailUpgrade_calm (inlines : Bool) :
    Calm socket (socket.privateFailUpgrade inlines) := by
  unfold Socket.privateFailUpgrade
  split
  · exact ⟨rfl, nofun⟩
  · exact calm_behind .dispatchUpgradeFailure rfl trivial _

end

/-! ## Connection -/

theorem fail_balanced {next : Option Frame} (balanced : Balanced owner next)
    (assertion : Lifecycle.Assertion) : Balanced (owner.fail assertion) none where
  toSteady := { balanced.toSteady with tidy := { balanced.tidy with } }
  promise := by
    cases balanced.promise with
    | kept handed => exact .kept handed (.inr (.inl rfl))
    | due owed => exact .due ⟨owed.handed, owed.recorded, owed.goal⟩ (.inl rfl)
  due := nofun

variable {error : Option Error} {defer close : Bool}

section

variable (balanced : Balanced owner (some (.privateFailConnect error defer close)))
include balanced

/-- A failure of a connection that has ended leaves everything as it is. -/
theorem Balanced.restFailed
    (still : close = true -> owner.core.connectInProgress = false) : Balanced owner none := by
  cases close with
  | false => exact balanced.rest nofun
  | true =>
    refine ⟨balanced.toSteady, ?_, nofun⟩
    cases balanced.promise with
    | kept handed harmless =>
      refine .kept handed (harmless.imp_right (Or.imp_right ?_))
      exact fun past => ⟨past.1, past.2.1, fun _ => nofun⟩
    | due owed leaving =>
      refine .due owed (leaving.imp_right ?_)
      rintro (⟨completed, initiated | ⟨_, isFrame⟩⟩ | ⟨progress, _⟩)
      · exact .inl ⟨completed, .inl initiated⟩
      · cases isFrame
      · exact absurd (progress.symm.trans (still rfl)) nofun

theorem privateFailConnect_proceeds
    (sound : Sound False owner.core) (running : owner.core.failed = none) (detaches : Bool) :
    Proceeds (owner.privateFailConnect error defer close detaches) := by
  unfold privateFailConnect
  by_cases progress : owner.core.connectInProgress = true
  · rw [if_neg (not_not_intro progress)]
    have incomplete := incomplete_of_progress balanced.tidy progress
    have notOver : ¬ Over owner.core (some (.privateFailConnect error defer close)) :=
      fun past => absurd (past.1.symm.trans incomplete) nofun
    by_cases initiated : owner.core.detachMode = .initiated
    · rw [if_pos initiated]
      exact fail_balanced balanced _
    · have idle := Lifecycle.Consistency.idle_of_ne initiated
      rw [if_neg initiated]
      cases close with
      | true =>
        have steady : Steady { owner with core := { owner.core with retryCount := 0 } } :=
          balanced.toSteady.of_stance rfl
        apply failAttempt_proceeds steady { sound with } progress idle
        exact (balanced.toClose_or_owed running notOver).imp_right fun owes =>
          ⟨owes.1.of_stance rfl, rfl⟩
      | false =>
        have rests := balanced.rest nofun
        rw [if_neg nofun]
        split
        · apply failAttempt_proceeds balanced.toSteady sound progress idle
          apply (balanced.toClose_or_owed running notOver).imp_right
          rintro ⟨_, ⟨completed, _⟩ | ⟨_, _, _, isFrame⟩⟩
          · exact absurd (completed.symm.trans incomplete) nofun
          · cases isFrame
        · split
          · have retried : Balanced
                { owner with core := { owner.core with retryConnect := false } } none :=
              rests.of_stance rfl
            exact retried.plain trivial
          · exact rests
  · rw [if_pos progress]
    exact balanced.restFailed fun _ => Bool.eq_false_iff.mpr progress

end

/-- Before the socket is shut down for good, what is owed depends on the goal only. -/
theorem Promise.goesOn (promise : Promise owner none)
    (incomplete : owner.core.shutdownState.shutdownCompleted = false) {core : Socket}
    (failed : core.failed = owner.core.failed)
    (detachGoal : core.detachGoal = owner.core.detachGoal)
    (handle : core.handle = owner.core.handle) : Promise { owner with core := core } none := by
  cases promise with
  | kept handed harmless =>
    refine .kept handed ?_
    obtain toClose | hasFailed | past := harmless
    · exact .inl (detachGoal.trans toClose)
    · exact .inr (.inl (by rw [failed]; exact hasFailed))
    · exact absurd (past.1.symm.trans incomplete) nofun
  | due owed leaving =>
    refine .due ⟨owed.handed, handle.trans owed.recorded, detachGoal.trans owed.goal⟩ ?_
    obtain hasFailed | ⟨completed, _⟩ | ⟨_, _, _, _⟩ := leaving
    · exact .inl (by rw [failed]; exact hasFailed)
    · exact absurd (completed.symm.trans incomplete) nofun
    · contradiction

section

variable (balanced : Balanced owner none)
include balanced

theorem startAttempt_balanced (progress : owner.core.connectInProgress = true) :
    Balanced { owner with core := owner.core.startAttempt } none := by
  have tidy := balanced.tidy
  have incomplete := incomplete_of_progress tidy progress
  have noSequences (context : Lifecycle.ShutdownContext) :
      DetachCallback.shutdownSequenceComplete context ∉ owner.core.detachments :=
    fun mem => absurd ((tidy.sequences context mem).2.symm.trans incomplete) nofun
  constructor
  case toSteady =>
      exact { balanced with
        tidy := { tidy with
          completes := rfl
          past := nofun
          sequences := fun context mem => absurd mem (noSequences context)
          bare := fun _ _ => .inl progress }
        unreleased := fun _ => balanced.unreleased incomplete }
  case promise => exact balanced.promise.goesOn incomplete rfl rfl rfl
  case due => nofun

theorem privateRetryConnect_proceeds (resolves : Option Error) :
    Proceeds (owner.lift (owner.core.privateRetryConnect resolves)) := by
  unfold Socket.privateRetryConnect
  split
  · exact balanced
  · rename_i starts
    simp only [not_or, Classical.not_not] at starts
    have started := startAttempt_balanced balanced starts.2.1
    dsimp only
    split
    · split
      · exact started.plain trivial
      · cases resolves with
        | some => exact started.plain trivial
        | none => exact started.of_stance rfl
    · exact started.plain trivial

theorem connectToEndpoint_proceeds (establishment : Establishment) (inlines : Bool) :
    Proceeds (owner.connectToEndpoint establishment inlines) := by
  cases establishment with
  | failsToOpen error created => exact (openFailed_balanced balanced created).plain trivial
  | fails =>
    have opened := opened_balanced balanced
    have same : stance owner.core.opened = stance owner.opened.core := by rw [opened_core]
    exact (opened.of_stance same).plain trivial
  | connects =>
    have opened := opened_balanced balanced
    have same : stance owner.core.opened = stance owner.opened.core := by rw [opened_core]
    exact proceeds_behind (.attachSocket owner.core.connectAttempts) (opened.of_stance same)
      trivial _

theorem attachSocket_proceeds (connectAttempts : Nat) (attachment : Attachment) :
    Proceeds (owner.lift (owner.core.attachSocket connectAttempts attachment)) := by
  unfold Socket.attachSocket
  split
  · exact balanced
  · rename_i current
    simp only [not_or, Classical.not_not] at current
    have idle := Lifecycle.Consistency.idle_of_ne current.1
    by_cases noHandle : ¬ owner.core.handle = true
    · rw [if_pos noHandle]
      exact balanced.plain trivial
    · have registers (attached : Bool) :
          Balanced { owner with core := { owner.core with attached := attached } } none := {
        toSteady := { balanced.toSteady with
          tidy := { balanced.tidy with
            registered := fun _ => not_not.mp noHandle
            pending := fun initiated => absurd (idle.symm.trans initiated) nofun } }
        promise := balanced.promise.goesOn
          (incomplete_of_progress balanced.tidy current.2.1) rfl rfl rfl
        due := nofun }
      rw [if_neg noHandle]
      cases attachment with
      | fails _ registered => exact (registers (owner.core.attached || registered)).plain trivial
      | attaches => exact registers true

end

theorem privateSocketWritableConnection_proceeds
    (balanced : Balanced owner (some .privateSocketWritableConnection))
    (connection : Option Error) (inlines : Bool) :
    Proceeds (owner.lift (owner.core.privateSocketWritableConnection connection inlines)) := by
  have hasHandle : owner.core.handle = true := balanced.due _ rfl
  have rests := balanced.rest nofun
  unfold Socket.privateSocketWritableConnection
  split
  · exact rests
  · rename_i inProgress
    have incomplete := incomplete_of_progress balanced.tidy (Classical.not_not.mp inProgress)
    cases connection with
    | some => exact rests.plain trivial
    | none =>
      have connected : Balanced { owner with core := { owner.core with
          retryCount := 0
          connectInProgress := false
          connectEndpoints := 0
          openState := .connected
          connectCallback := false
          connectError := none } } none := {
        toSteady := { balanced.toSteady with
          tidy := { balanced.tidy with
            past := fun _ => ⟨nofun, rfl⟩
            bare := fun _ noHandle => absurd (hasHandle.symm.trans noHandle) nofun } }
        promise := rests.promise.goesOn incomplete rfl rfl rfl
        due := nofun }
      exact proceeds_behind (.dispatchConnectComplete owner.core.connectCallback) connected
        trivial _

section Established

variable (balanced : Balanced owner none) (sound : Sound False owner.core)
  (established : Established owner.core.openState) (running : owner.core.failed = none)

include balanced sound established running

theorem closeAfterFail_proceeds (error : Error) (detaches inlines : Bool) :
    Proceeds (owner.closeAfterFail error detaches inlines) := by
  have noProgress := Lifecycle.Consistency.noProgress_of_established sound established
  have shutting := balanced.shutting sound noProgress running
  unfold closeAfterFail
  split
  · exact ((shutting.privateShutdownReceive detaches).privateShutdownSend
      detaches).balanced False.elim
  · exact balanced.calm (calm_behind .shutdownAfterFail rfl trivial _)

theorem shutdownAfterFail_proceeds (detaches : Bool) :
    Proceeds (owner.shutdownAfterFail detaches) :=
  balanced.privateShutdown sound
    (Lifecycle.Consistency.noProgress_of_established sound established) running _ _ _ _

variable (transfer : Transfer) (detaches : Bool)

theorem readable_proceeds : Proceeds (owner.readable transfer detaches) := by
  have noProgress := Lifecycle.Consistency.noProgress_of_established sound established
  have shutting := balanced.shutting sound noProgress running
  cases transfer with
  | ends => exact ((shutting.privateShutdownReceive detaches).balanced False.elim).plain trivial
  | done | invokes => exact balanced
  | upgrades => exact balanced.of_stance rfl
  | upgradeFails | fails => exact balanced.plain trivial

theorem writable_proceeds : Proceeds (owner.writable transfer detaches) := by
  have noProgress := Lifecycle.Consistency.noProgress_of_established sound established
  cases transfer with
  | ends =>
    unfold writable
    dsimp only
    split
    · have entries : Balanced { owner with core := { owner.core with
          shutdownEntries := owner.core.shutdownEntries - 1 } } none := balanced.of_stance rfl
      have shutting := entries.shutting { sound with } noProgress running
      exact ((shutting.privateShutdownSend detaches).balanced False.elim).plain trivial
    · exact balanced
  | done | invokes | upgrades | upgradeFails => exact balanced
  | fails => exact balanced.plain trivial

end Established

theorem advance_proceeds (balanced : Balanced owner (some frame))
    (sound : Sound False owner.core) (ready : Ready False owner.core frame) {input : Input}
    {outcome : Outcome} (isOutcome : advance owner frame input = some outcome) :
    Proceeds outcome := by
  unfold advance at isOutcome
  split at isOutcome
  · contradiction
  · rename_i notFailed
    have running : owner.core.failed = none := by simpa using notFailed
    have runs : owner.core.failed.isSome = false := Bool.eq_false_iff.mpr notFailed
    simp only [Lifecycle.advance, runs] at isOutcome
    cases frame with
    | privateFailConnect error =>
      cases isOutcome
      exact privateFailConnect_proceeds balanced sound running input.detaches
    | privateFailConnectPart2 failure =>
      cases isOutcome
      exact privateFailConnectPart2_proceeds balanced running input.inlines
    | connectToEndpoint =>
      cases isOutcome
      exact connectToEndpoint_proceeds (balanced.rest id) input.establishment input.inlines
    | closeAfterFail error =>
      cases isOutcome
      exact closeAfterFail_proceeds (balanced.rest id) sound ready running error
        input.detaches input.inlines
    | shutdownAfterFail =>
      cases isOutcome
      exact shutdownAfterFail_proceeds (balanced.rest id) sound ready running input.detaches
    | readable =>
      cases isOutcome
      exact readable_proceeds (balanced.rest id) sound ready running input.transfer input.detaches
    | writable =>
      cases isOutcome
      exact writable_proceeds (balanced.rest id) sound ready running input.transfer input.detaches
    | dispatchConnectFailure failure =>
      cases isOutcome
      exact (balanced.rest id).calm (dispatchConnectFailure_calm _ failure input.inlines)
    | finishConnectFailure =>
      cases isOutcome
      exact (balanced.rest id).calm (finishConnectFailure_calm _)
    | executeDeferredCalls =>
      cases isOutcome
      exact (balanced.rest id).of_stance rfl
    | privateRetryConnect =>
      cases isOutcome
      exact privateRetryConnect_proceeds (balanced.rest id) input.resolves
    | attachSocket connectAttempts =>
      cases isOutcome
      exact attachSocket_proceeds (balanced.rest id) connectAttempts input.attachment
    | privateSocketWritableConnection =>
      cases isOutcome
      exact privateSocketWritableConnection_proceeds balanced input.connection input.inlines
    | dispatchConnectComplete connectCallback =>
      cases isOutcome
      exact (balanced.rest id).calm (dispatchConnectComplete_calm _ connectCallback)
    | privateFail error =>
      cases isOutcome
      exact (balanced.rest id).calm (privateFail_calm _ error input.inlines)
    | privateFailUpgrade =>
      cases isOutcome
      exact (balanced.rest id).calm (privateFailUpgrade_calm _ input.inlines)
    | dispatchUpgradeFailure =>
      cases isOutcome
      exact (balanced.rest id).calm (calm_behind .shutdownAfterFail rfl trivial _)

end NtfCore.Ntcr.StreamSocket.Descriptors
