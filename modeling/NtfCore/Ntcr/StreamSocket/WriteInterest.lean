import NtfCore.Ntcr.StreamSocket.WriteQueue

/-!
Contract: a stream socket is interested in writable events exactly when it has something
to write.

Owns: the exact condition on the steps of a run under which the interest in sending is
enabled if and only if the send queue has entries.

The sections of the source that move entries keep the interest in step with the queue.
Relaxing flow control on request, and removing the rate limiter, enable it without a look
at the queue.
-/

namespace NtfCore.Ntcr.Sender

open NtfCore.Foundation NtfCore.Ntcq NtfCore.Ntcs FlowControlState

variable {Token : Type}

structure Interested (state : FlowControlState) (finishing isEmpty : Bool) : Prop where
  opened : state.closed = false
  unlocked : state.lockSend = false
  pending : isEmpty = false -> state.enableSend = true
  settled : finishing = false -> isEmpty = true -> state.enableSend = false

namespace Interested

variable {state : FlowControlState} {finishing isEmpty : Bool}

/-- Enabling it where there are entries. -/
theorem relaxed (interested : Interested state finishing isEmpty) (unlock : Bool) :
    Interested (state.relax .send unlock) finishing false := by
  rw [relax_send interested.opened interested.unlocked]
  exact ⟨interested.opened, interested.unlocked, fun _ => rfl, nofun⟩

/-- Disabling it where there are none. -/
theorem applied (interested : Interested state finishing isEmpty) (later : Bool) :
    Interested (state.apply .send false) later true := by
  rw [apply_send interested.opened interested.unlocked]
  exact ⟨interested.opened, interested.unlocked, nofun, fun _ _ => rfl⟩

theorem finishes (interested : Interested state finishing false) (later : Bool) :
    Interested state later false :=
  ⟨interested.opened, interested.unlocked, interested.pending, nofun⟩

theorem begins (interested : Interested state false isEmpty) (later : Bool)
    (fewer : later = false -> isEmpty = false) : Interested state true later :=
  ⟨interested.opened, interested.unlocked, fun isLater => interested.pending (fewer isLater), nofun⟩

end Interested

def Tracked (sender : Sender Token) : Prop :=
  sender.socket.canSend = true ->
    Interested sender.flowControlState sender.finishing sender.isEmpty

def Exact (sender : Sender Token) : Prop :=
  sender.socket.canSend = true -> sender.finishing = false ->
    (sender.flowControlState.enableSend = true ↔ sender.socket.sendQueue.entryList ≠ [])

def Looks (sender : Sender Token) : Action Token -> Prop
  | .relaxFlowControl type =>
    type.includesSend = true -> sender.socket.canSend = true -> sender.finishing = false ->
      sender.socket.sendQueue.entryList ≠ []
  | .removeWriteRateLimiter =>
    sender.socket.canSend = true -> sender.finishing = false ->
      sender.socket.sendQueue.entryList ≠ []
  | _ => True

variable {sender : Sender Token}

theorem isEmpty_eq_false : sender.isEmpty = false ↔ sender.socket.sendQueue.entryList ≠ [] := by
  unfold isEmpty
  rw [List.isEmpty_eq_false_iff]

theorem Tracked.exact (tracked : sender.Tracked) : sender.Exact := by
  intro sends outside
  have interested := tracked sends
  rw [← isEmpty_eq_false]
  cases isEmpty : sender.isEmpty with
  | true => simp [interested.settled outside isEmpty]
  | false => simp [interested.pending isEmpty]

/-! ## Watermark events leave the interest alone -/

section

variable (sender : Sender Token)

theorem authorizeLowWatermarkEvent_same : sender.authorizeLowWatermarkEvent.socket = sender.socket ∧
      sender.authorizeLowWatermarkEvent.flowControlState = sender.flowControlState ∧
      sender.authorizeLowWatermarkEvent.finishing = sender.finishing := by
  unfold authorizeLowWatermarkEvent
  split
  · exact ⟨rfl, rfl, rfl⟩
  · exact ⟨rfl, rfl, rfl⟩

theorem authorizeHighWatermarkEvent_same (effectiveHighWatermark : Nat) :
    (sender.authorizeHighWatermarkEvent effectiveHighWatermark).socket = sender.socket ∧
      (sender.authorizeHighWatermarkEvent effectiveHighWatermark).flowControlState =
        sender.flowControlState ∧
      (sender.authorizeHighWatermarkEvent effectiveHighWatermark).finishing = sender.finishing := by
  unfold authorizeHighWatermarkEvent
  split
  · exact ⟨rfl, rfl, rfl⟩
  · exact ⟨rfl, rfl, rfl⟩

theorem pushed_socket (socket : StreamSocket Token) : (sender.pushed socket).socket = socket := by
  unfold pushed
  dsimp only
  split
  · rfl
  · rfl

theorem removed_socket (socket : StreamSocket Token) : (sender.removed socket).socket = socket := by
  unfold removed
  dsimp only
  split
  · rfl
  · rfl

theorem finishWritable_socket : sender.finishWritable.socket = sender.socket := by
  unfold finishWritable
  dsimp only
  split
  · exact sender.authorizeLowWatermarkEvent_same.1
  · exact sender.authorizeLowWatermarkEvent_same.1

end

theorem Tracked.congr {sender next : Sender Token} (tracked : sender.Tracked)
    (canSend : next.socket.canSend = sender.socket.canSend)
    (flowControlState : next.flowControlState = sender.flowControlState)
    (finishing : next.finishing = sender.finishing) (isEmpty : next.isEmpty = sender.isEmpty) :
    next.Tracked := by
  unfold Tracked
  rw [canSend, flowControlState, finishing, isEmpty]
  exact tracked

theorem authorizeLowWatermarkEvent_tracked (tracked : sender.Tracked) :
    sender.authorizeLowWatermarkEvent.Tracked := by
  obtain ⟨isSocket, isState, isFinishing⟩ := sender.authorizeLowWatermarkEvent_same
  refine tracked.congr ?_ isState isFinishing ?_
  · rw [isSocket]
  · unfold isEmpty
    rw [isSocket]

theorem authorizeHighWatermarkEvent_tracked (tracked : sender.Tracked)
    (effectiveHighWatermark : Nat) :
    (sender.authorizeHighWatermarkEvent effectiveHighWatermark).Tracked := by
  obtain ⟨isSocket, isState, isFinishing⟩ :=
    sender.authorizeHighWatermarkEvent_same effectiveHighWatermark
  refine tracked.congr ?_ isState isFinishing ?_
  · rw [isSocket]
  · unfold isEmpty
    rw [isSocket]

variable {next : StreamSocket Token}

theorem Keeps.isEmpty (keeps : Keeps sender.socket next) :
    ({ sender with socket := next } : Sender Token).isEmpty = sender.isEmpty := by
  unfold Sender.isEmpty
  rw [keeps.sendQueue]

theorem Keeps.tracked (keeps : Keeps sender.socket next) (tracked : sender.Tracked) :
    ({ sender with socket := next } : Sender Token).Tracked :=
  tracked.congr keeps.canSend rfl rfl keeps.isEmpty

/-- An entry that is put on an empty queue enables the interest. -/
theorem pushed_tracked (grows : Grows sender.socket next) (tracked : sender.Tracked) :
    (sender.pushed next).Tracked := by
  have sameCanSend := grows.canSend
  intro sends
  unfold pushed at sends ⊢
  dsimp only at sends ⊢
  have nextIsEmpty : ({ sender with socket := next } : Sender Token).isEmpty =
      next.sendQueue.entryList.isEmpty := rfl
  rw [nextIsEmpty] at sends ⊢
  cases isEmpty : sender.isEmpty with
  | true =>
    cases isNext : next.sendQueue.entryList.isEmpty with
    | true =>
      rw [isEmpty, isNext] at sends
      have interested := tracked (sameCanSend.symm.trans sends)
      rw [isEmpty] at interested
      change Interested sender.flowControlState sender.finishing next.sendQueue.entryList.isEmpty
      rw [isNext]
      exact interested
    | false =>
      rw [isEmpty, isNext] at sends
      have interested := tracked (sameCanSend.symm.trans sends)
      change Interested (sender.flowControlState.relax .send false) sender.finishing
        next.sendQueue.entryList.isEmpty
      rw [isNext]
      exact interested.relaxed false
  | false =>
    rw [isEmpty] at sends
    have interested := tracked (sameCanSend.symm.trans sends)
    rw [isEmpty] at interested
    have isNext : next.sendQueue.entryList.isEmpty = false := by
      rw [List.isEmpty_eq_false_iff]
      rcases grows.entryList with isSame | ne
      · rw [isSame]
        exact isEmpty_eq_false.mp isEmpty
      · exact ne
    change Interested sender.flowControlState sender.finishing next.sendQueue.entryList.isEmpty
    rw [isNext]
    exact interested

/-- The interest behind a section that disables it if the queue is empty. -/
theorem applied_tracked {finishing wasEmpty : Bool} (interested : sender.socket.canSend = true ->
      Interested sender.flowControlState finishing wasEmpty)
    (fewer : sender.isEmpty = false -> wasEmpty = false) :
    (if sender.isEmpty then sender.apply false else sender).Tracked := by
  cases isEmpty : sender.isEmpty with
  | true =>
    intro sends
    change Interested (sender.flowControlState.apply .send false) sender.finishing sender.isEmpty
    rw [isEmpty]
    exact (interested sends).applied sender.finishing
  | false =>
    rw [if_neg (by decide)]
    intro sends
    have before := interested sends
    rw [fewer isEmpty] at before
    rw [isEmpty]
    exact before.finishes sender.finishing

theorem finishWritable_tracked (tracked : sender.Tracked) : sender.finishWritable.Tracked := by
  have authorized := authorizeLowWatermarkEvent_tracked tracked
  exact applied_tracked authorized id

variable {action : Action Token}

theorem Removes.tracked [DecidableEq Token] {outcome : StreamSocket.Outcome Token}
    (removes : Removes sender.socket action outcome)
    (tracked : sender.Tracked) : (sender.removed outcome.socket).Tracked := by
  have isSame : outcome.socket.canSend = sender.socket.canSend ∧
      (outcome.socket.sendQueue.entryList ≠ [] -> sender.socket.sendQueue.entryList ≠ []) := by
    have fewer : ∀ removable index, StreamSocket.Removing sender.socket removable index outcome ->
        outcome.socket.canSend = sender.socket.canSend ∧ (outcome.socket.sendQueue.entryList ≠ [] ->
            sender.socket.sendQueue.entryList ≠ []) := by
      intro _ _ removing
      cases removing with
      | kept => exact ⟨rfl, id⟩
      | removed =>
        refine ⟨rfl, ?_⟩
        intro ne isNil
        rw [isNil] at ne
        exact ne rfl
    cases removes with
    | deadline removing | cancel removing => exact fewer _ _ removing
  have interested : outcome.socket.canSend = true ->
      Interested sender.flowControlState sender.finishing sender.isEmpty := by
    intro sends
    exact tracked (isSame.1.symm.trans sends)
  refine applied_tracked interested ?_
  rw [isEmpty_eq_false, isEmpty_eq_false]
  exact isSame.2

theorem setWatermarks_tracked (tracked : sender.Tracked) (low high : Nat) :
    (sender.setWatermarks low high).Tracked :=
  tracked.congr rfl rfl rfl rfl

/-- Relaxing on request where the queue has entries. -/
theorem relax_tracked (tracked : sender.Tracked) (type : FlowControlType)
    (looks : type.includesSend = true -> sender.socket.canSend = true -> sender.finishing = false ->
      sender.socket.sendQueue.entryList ≠ []) : (sender.relax type true).Tracked := by
  intro sends
  have interested := tracked sends
  obtain ⟨isEnabled, opened, unlocked⟩ :=
    relax_enableSend interested.opened interested.unlocked type true
  refine ⟨opened, unlocked, ?_, ?_⟩
  · intro hasEntries
    change (sender.flowControlState.relax type true).enableSend = true
    rw [isEnabled, interested.pending hasEntries, Bool.true_or]
  · intro outside isEmpty
    change (sender.flowControlState.relax type true).enableSend = false
    rw [isEnabled, interested.settled outside isEmpty, Bool.false_or]
    cases includes : type.includesSend with
    | false => rfl
    | true =>
      have hasEntries := isEmpty_eq_false.mpr (looks includes sends outside)
      change sender.isEmpty = true at isEmpty
      rw [hasEntries] at isEmpty
      contradiction

section

variable [DecidableEq Token] {sender next : Sender Token}

/-- Every section that meets the condition keeps the interest in step with the queue. -/
theorem Moves.tracked (moves : Moves sender action next) (isEnabled : sender.enabled action = true)
    (looks : sender.Looks action) (tracked : sender.Tracked) : next.Tracked := by
  cases moves with
  | refused =>
    refine authorizeHighWatermarkEvent_tracked ?_ _
    exact Keeps.tracked ⟨rfl, rfl, rfl⟩ tracked
  | sent grows | sentCipherData grows => exact pushed_tracked grows tracked
  | blocked keeps => exact keeps.tracked tracked
  | wrote sends had =>
    intro _
    have outside : sender.finishing = false := by simpa [enabled] using isEnabled
    have interested := tracked sends
    rw [outside] at interested
    refine interested.begins _ ?_
    intro hasEntries
    rcases had with keeps | ne
    · rw [← keeps.isEmpty]
      exact hasEntries
    · exact ne
  | ended shut =>
    intro sends
    rw [shut] at sends
    contradiction
  | finished => exact finishWritable_tracked tracked
  | removed removes => exact removes.tracked tracked
  | zeroCopyUpdated keeps | setThreshold keeps => exact keeps.tracked tracked
  | setLow low =>
    exact authorizeLowWatermarkEvent_tracked (setWatermarks_tracked tracked _ _)
  | setHigh high =>
    exact authorizeHighWatermarkEvent_tracked (setWatermarks_tracked tracked _ _) _
  | setBoth =>
    refine authorizeHighWatermarkEvent_tracked (authorizeLowWatermarkEvent_tracked ?_) _
    exact setWatermarks_tracked (setWatermarks_tracked tracked _ _) _ _
  | relaxed type => exact relax_tracked tracked type looks
  | unlimited => exact relax_tracked tracked .send fun _ => looks
  | @marked _ _ socket grows ne =>
    intro sends
    have interested := tracked (grows.canSend.symm.trans sends)
    change Interested (sender.flowControlState.relax .send true) sender.finishing
      socket.sendQueue.entryList.isEmpty
    rw [List.isEmpty_eq_false_iff.mpr ne]
    exact interested.relaxed true
  | shut shut =>
    intro sends
    rw [shut] at sends
    contradiction
  | closed keeps =>
    rcases keeps with keeps | shut
    · exact keeps.tracked tracked
    · intro sends
      rw [shut] at sends
      contradiction

/-- The size is exact, which the sections of the queue rest on. -/
theorem Moves.sized
    (moves : Moves sender action next) (sized : StreamSocket.Sized sender.socket.sendQueue) :
    StreamSocket.Sized next.socket.sendQueue := by
  cases moves with
  | refused =>
    rw [(authorizeHighWatermarkEvent_same _ _).1]
    exact sized
  | sent grows | sentCipherData grows =>
    rw [pushed_socket]
    exact grows.sized
  | blocked keeps => exact keeps.sendQueue ▸ sized
  | wrote _ _ _ isSized | ended _ isSized => exact isSized
  | finished =>
    rw [finishWritable_socket]
    exact sized
  | removed removes =>
    rw [removed_socket]
    exact removes.sized sized
  | zeroCopyUpdated keeps | setThreshold keeps => exact keeps.sendQueue ▸ sized
  | setLow low =>
    unfold setWriteQueueLowWatermark
    rw [(authorizeLowWatermarkEvent_same _).1]
    exact sized
  | setHigh high =>
    unfold setWriteQueueHighWatermark
    rw [(authorizeHighWatermarkEvent_same _ _).1]
    exact sized
  | setBoth =>
    unfold setWriteQueueWatermarks
    rw [(authorizeHighWatermarkEvent_same _ _).1, (authorizeLowWatermarkEvent_same _).1]
    exact sized
  | relaxed | unlimited => exact sized
  | marked grows => exact grows.sized
  | shut _ isSized | closed _ isSized => exact isSized

theorem step_moves
    (sized : StreamSocket.Sized sender.socket.sendQueue) (taken : sender.step action = some next) :
    sender.enabled action = true ∧ (Moves sender action next ∨ next = sender) := by
  unfold step at taken
  split at taken
  · contradiction
  · rename_i isEnabled
    exact ⟨Bool.not_eq_false _ ▸ isEnabled, perform_moves sized taken⟩

end

structure Tracking (sender : Sender Token) : Prop where
  sized : StreamSocket.Sized sender.socket.sendQueue
  tracked : sender.Tracked

section

variable [DecidableEq Token] (sender : Sender Token) (action : Action Token) (next : Sender Token)
  (tracking : Tracking sender)
include tracking

theorem step_tracking (looks : sender.Looks action)
    (taken : sender.step action = some next) : Tracking next := by
  obtain ⟨isEnabled, moves | isSame⟩ := step_moves tracking.sized taken
  · exact ⟨moves.sized tracking.sized, moves.tracked isEnabled looks tracking.tracked⟩
  · rw [isSame]
    exact tracking

/-- Interest that is enabled on an empty queue is found. -/
theorem step_looks (taken : sender.step action = some next)
    (after : next.Exact) : sender.Looks action := by
  unfold Looks
  split
  · rename_i type
    intro includes sends outside
    have isNext : next = sender.relax type true := (Option.some.inj taken).symm
    have interested := tracking.tracked sends
    have isEnabled := (relax_enableSend interested.opened interested.unlocked type true).1
    rw [includes, Bool.or_true] at isEnabled
    rw [isNext] at after
    exact (after sends outside).mp isEnabled
  · intro sends outside
    have isNext : next = sender.relax .send true := (Option.some.inj taken).symm
    have interested := tracking.tracked sends
    have isEnabled := (relax_enableSend interested.opened interested.unlocked .send true).1
    rw [FlowControlType.includesSend, Bool.or_true] at isEnabled
    rw [isNext] at after
    exact (after sends outside).mp isEnabled
  · trivial

end

/-- In every run the interest in sending is enabled exactly while the queue has entries,
in all states with the send direction open and outside of a writable event, if and only
if flow control is never relaxed on request, and the rate limiter never removed, while
the queue is empty there. -/
theorem exact_iff_looks [DecidableEq Token] (lowWatermark highWatermark : Nat)
    (actions : List (Action Token)) :
    Run.Always step Exact (start lowWatermark highWatermark) actions ↔
      Run.Along step Looks (start lowWatermark highWatermark) actions :=
  Run.always_iff_along (fun _ tracking => tracking.tracked.exact) step_tracking step_looks
    ⟨⟨rfl, fun _ mem => absurd mem List.not_mem_nil⟩, fun _ => ⟨rfl, rfl, nofun, fun _ _ => rfl⟩⟩

/-- Flow control is relaxed on a socket that has nothing to send. -/
theorem relaxed_while_empty :
    ¬ Run.Always step Exact (start 0 10 : Sender Nat) [.relaxFlowControl .send] ∧
      ∃ final, Run.run step (start 0 10 : Sender Nat) [.relaxFlowControl .send] = some final ∧
        final.flowControlState.enableSend = true ∧ final.socket.sendQueue.entryList = [] := by
  constructor
  · intro always
    have hasEntries := (always.2 rfl rfl).mp rfl
    exact hasEntries rfl
  · exact ⟨_, rfl, rfl, rfl⟩

end NtfCore.Ntcr.Sender
