import NtfCore.Ntcr.StreamSocket.Reading

/-!
Contract: when the callbacks of a stream socket wait for data that are there.

Owns: that outside of the loop over the callbacks the front one asks for more bytes than
the receive queue has; and the exact condition for that, on the removal of callbacks and
on the errors behind data that were queued.
-/

namespace NtfCore.Ntcr

open NtfCore.Foundation NtfCore.Ntcq NtfCore.Ntcs NtfCore.Ntcq.ReceiveQueue Option

variable {Token : Type}

namespace Receiver

def NextWaits (queue : ReceiveQueue Token) (selects : ReceiveCallbackQueueEntry Token -> Bool) :
    Prop :=
  ∀ front second rest, queue.callbackQueue = front :: second :: rest -> selects front = true ->
    queue.entryList ≠ [] -> queue.size < second.options.minSize

def Attends [DecidableEq Token] (receiver : Receiver Token) : Action Token -> Prop
  | .receiveDeadline callback =>
    receiver.phase ≠ .draining ->
      NextWaits receiver.receiveQueue
        fun entry => entry.id == callback && entry.options.deadline.isSome
  | .cancel token =>
    receiver.phase ≠ .draining ->
      NextWaits receiver.receiveQueue fun entry => entry.options.token == some token
  | .readable (.received received _) intake =>
    receiver.canReceive = true -> receiver.receiveQueue.isHighWatermarkViolated = false ->
      received ≠ [] -> (intake.fill received).2.1 = none ->
      (intake.fill received).2.2.isSome = true -> 0 < (intake.fill received).1.length ->
      ∀ front ∈ receiver.receiveQueue.callbackQueue.head?,
        receiver.receiveQueue.size + (intake.fill received).1.length < front.options.minSize
  | _ => True

section

variable (recv : Receiver Token)

@[simp]
theorem erred_phase (error : Error) : (recv.erred error).phase = recv.phase := by
  unfold erred
  split
  · rfl
  · rfl

@[simp]
theorem queued_phase (data : List UInt8) (hasHandle : Bool) :
    (recv.queued data hasHandle).phase = recv.phase := by
  unfold queued
  split
  · rfl
  · rfl

@[simp]
theorem finishReceive_phase (violatedBefore : Bool) :
    (recv.finishReceive violatedBefore).phase = recv.phase := by
  unfold finishReceive
  split
  · rfl
  · rfl

@[simp]
theorem resumeReceive_phase (index : Nat) : (recv.resumeReceive index).phase = recv.phase := by
  unfold resumeReceive
  split
  · rfl
  · rw [finishReceive_phase]

@[simp]
theorem setReadQueueLowWatermark_phase (low : Nat) :
    (recv.setReadQueueLowWatermark low).phase = recv.phase := by
  unfold setReadQueueLowWatermark
  dsimp only
  split
  · rfl
  · rfl

@[simp]
theorem setReadQueueHighWatermark_phase (high : Nat) :
    (recv.setReadQueueHighWatermark high).phase = recv.phase := by
  unfold setReadQueueHighWatermark
  dsimp only
  split
  · rfl
  · rfl

@[simp]
theorem setReadQueueWatermarks_phase (low high : Nat) :
    (recv.setReadQueueWatermarks low high).phase = recv.phase := by
  unfold setReadQueueWatermarks
  dsimp only
  split
  · split
    · rfl
    · rfl
  · split
    · rfl
    · rfl

end

/-! ## Settled queues -/

variable {queue next : ReceiveQueue Token}

theorem SameContent.settled (same : SameContent queue next)
    (settled : Settled queue) : Settled next := by
  unfold Settled
  rw [same.callbackQueue, same.entryList, same.size]
  exact settled

variable {options : ReceiveOptions Token}

/-- Fewer bytes satisfy no more callbacks. -/
theorem Delivers.settled (delivers : Delivers options queue next) (settled : Settled queue) :
    Settled next := by
  intro front isFront _
  rw [delivers.callbackQueue] at isFront
  have waits := settled front isFront delivers.nonempty
  have isSize := delivers.size
  omega

theorem settled_of_no_callbacks {queue : ReceiveQueue Token} (none : queue.callbackQueue = []) :
    Settled queue := by
  intro _ isFront
  rw [none] at isFront
  contradiction

variable {recv : Receiver Token} {selects : ReceiveCallbackQueueEntry Token -> Bool}

/-- A callback that is removed from behind the front one leaves the front one. -/
theorem removeCallback_settled (settled : Settled recv.receiveQueue)
    (next : NextWaits recv.receiveQueue selects) :
    Settled (recv.removeCallback selects).receiveQueue := by
  intro front isFront ne
  unfold removeCallback at isFront ne ⊢
  cases isQueue : recv.receiveQueue.callbackQueue with
  | nil =>
    rw [isQueue] at isFront
    contradiction
  | cons first others =>
    rw [isQueue] at isFront
    cases isSelected : selects first with
    | false =>
      rw [List.eraseP_cons_of_neg (by rw [isSelected]; decide)] at isFront
      refine settled front ?_ ne
      rw [isQueue]
      exact isFront
    | true =>
      rw [List.eraseP_cons_of_pos isSelected] at isFront
      cases others with
      | nil => contradiction
      | cons second rest =>
        rw [← mem_some.mp isFront]
        exact next first second rest isQueue isSelected ne

/-- A removal that leaves no callback behind meets the condition. -/
theorem nextWaits_of_settled (settled : Settled (recv.removeCallback selects).receiveQueue) :
    NextWaits recv.receiveQueue selects := by
  intro _ second _ isQueue isSelected ne
  refine settled second ?_ ne
  unfold removeCallback
  rw [isQueue, List.eraseP_cons_of_pos isSelected]
  exact mem_some.mpr rfl

theorem waiting_settled (settled : Settled recv.receiveQueue)
    (few : recv.receiveQueue.callbackQueue = [] -> recv.receiveQueue.size < options.minSize) :
    Settled (recv.waiting options).relax.receiveQueue := by
  intro front isFront ne
  unfold waiting relax at isFront ne ⊢
  cases isQueue : recv.receiveQueue.callbackQueue with
  | nil =>
    rw [isQueue] at isFront
    rw [← mem_some.mp isFront]
    exact few isQueue
  | cons =>
    refine settled front ?_ ne
    rw [isQueue] at isFront ⊢
    exact isFront

theorem queued_settled {data : List UInt8} (hasHandle : Bool) (settled : Settled recv.receiveQueue)
    (more : 0 < data.length -> ∀ front ∈ recv.receiveQueue.callbackQueue.head?,
      recv.receiveQueue.size + data.length < front.options.minSize) :
    Settled (recv.queued data hasHandle).receiveQueue := by
  unfold queued
  split
  · rename_i pos
    intro front isFront _
    exact more pos front isFront
  · exact settled

def Attended (receiver : Receiver Token) : Prop :=
  receiver.phase ≠ .draining -> Settled receiver.receiveQueue

variable {recv next : Receiver Token}

theorem Reading.attended {raw : RawReply} {intake : Intake}
    [DecidableEq Token] (reading : Reading recv raw intake next)
    (attends : recv.Attends (.readable raw intake)) (attended : recv.Attended) : next.Attended := by
  cases reading with
  | nothing | failed => exact attended
  | lost =>
    intro outside
    rw [erred_phase] at outside
    rw [erred_receiveQueue]
    exact attended outside
  | @late _ _ hasHandle _ _ reads below ne isFill =>
    intro outside
    rw [erred_phase, queued_phase] at outside
    rw [erred_receiveQueue]
    refine queued_settled hasHandle (attended outside) ?_
    have more := attends reads below ne
    rw [isFill] at more
    exact more rfl rfl
  | filled =>
    intro outside
    contradiction

/-- A critical section that meets the condition leaves no callback behind. -/
theorem Does.attended [DecidableEq Token] {action : Action Token}
    (does : Does recv action next) (isEnabled : recv.enabled action = true)
    (attends : recv.Attends action) (attended : recv.Attended) : next.Attended := by
  cases does with
  | readable reading => exact reading.attended attends attended
  | satisfied =>
    intro outside
    exact absurd (of_decide_eq_true isEnabled) outside
  | drained _ settled =>
    intro _
    exact settled
  | announced =>
    intro _
    have isAnnouncing : recv.phase = .announcing := of_decide_eq_true isEnabled
    obtain ⟨_, isQueue⟩ := recv.announceHighWatermark_receiveQueue
    rw [isQueue]
    exact attended (by rw [isAnnouncing]; decide)
  | refused => exact attended
  | received _ delivers =>
    intro outside
    rw [finishReceive_phase] at outside
    rw [finishReceive_receiveQueue]
    exact delivers.settled (attended outside)
  | blocked | refusedAsync => exact attended
  | receivedAsync noCallbacks _ delivers =>
    intro _
    rw [invoking_receiveQueue]
    exact settled_of_no_callbacks (delivers.callbackQueue.trans noCallbacks)
  | waits few =>
    intro outside
    exact waiting_settled (attended outside) few
  | resumed =>
    intro outside
    rw [resumeReceive_phase] at outside
    rw [resumeReceive_receiveQueue]
    exact attended outside
  | expired | cancelled =>
    intro outside
    exact removeCallback_settled (attended outside) (attends outside)
  | setLow low =>
    intro outside
    rw [setReadQueueLowWatermark_phase] at outside
    exact (setReadQueueLowWatermark_content recv low).settled (attended outside)
  | setHigh high =>
    intro outside
    rw [setReadQueueHighWatermark_phase] at outside
    exact (setReadQueueHighWatermark_content recv high).settled (attended outside)
  | setBoth low high =>
    intro outside
    rw [setReadQueueWatermarks_phase] at outside
    exact (setReadQueueWatermarks_content recv low high).settled (attended outside)
  | relaxed | shutDown => exact attended
  | completed =>
    intro _
    exact settled_of_no_callbacks rfl

end Receiver

namespace ReceiveHalf

open Receiver

def Attended (half : ReceiveHalf Token) : Prop :=
  half.receiver.Attended

def Attends [DecidableEq Token] (half : ReceiveHalf Token) (action : Receiver.Action Token) : Prop :=
  half.receiver.Attends action

structure Attending (half : ReceiveHalf Token) : Prop where
  holds : Holds half.receiver.receiveQueue.entryList half.receiver.receiveQueue
  attended : half.Attended

section

variable [DecidableEq Token]

theorem step_attending (half : ReceiveHalf Token)
    (action : Action Token) (next : ReceiveHalf Token) (attending : Attending half)
    (attends : half.Attends action) (taken : half.step action = some next) : Attending next := by
  obtain ⟨_, isEnabled, ⟨does, _, _⟩ | ⟨isNext, _⟩⟩ := step_cases attending.holds taken
  · exact ⟨does.holds attending.holds, does.attended isEnabled attends attending.attended⟩
  · rw [isNext]
    exact ⟨attending.holds, attending.attended⟩

/-- The receiver behind a section that fails no assertion. -/
theorem step_receiver {half next : ReceiveHalf Token}
    {action : Action Token} {recv : Receiver Token} {events : List HandleEvent}
    (taken : half.step action = some next)
    (isPerformed : half.receiver.perform action = some (recv, events)) :
    next.receiver = recv ∧ half.receiver.enabled action = true := by
  unfold step at taken
  split at taken
  · contradiction
  · rename_i goesOn
    rw [not_or, Bool.not_eq_false] at goesOn
    rw [isPerformed] at taken
    exact ⟨(congrArg ReceiveHalf.receiver (some.inj taken)).symm, goesOn.2⟩

/-- A callback that is left behind is found. -/
theorem step_attends (half : ReceiveHalf Token) (action : Action Token) (next : ReceiveHalf Token)
    (taken : half.step action = some next) (after : Attended next) : half.Attends action := by
  unfold Attended at after
  unfold Attends Receiver.Attends
  split
  · rename_i callback
    intro outside
    rw [(step_receiver taken rfl).1] at after
    exact nextWaits_of_settled (after outside)
  · rename_i token
    intro outside
    rw [(step_receiver taken rfl).1] at after
    exact nextWaits_of_settled (after outside)
  · rename_i received hasHandle intake
    intro reads below ne noError fails pos front isFront
    obtain ⟨error, isLater⟩ := isSome_iff_exists.mp fails
    have isFill : intake.fill received = ((intake.fill received).1, none, some error) :=
      Prod.ext rfl (Prod.ext noError isLater)
    obtain ⟨events, isPerformed⟩ := half.receiver.processSocketReadable_late hasHandle reads below
      ne isFill
    obtain ⟨isNext, isEnabled⟩ := step_receiver taken isPerformed
    have isIdle : half.receiver.phase = .idle := of_decide_eq_true isEnabled
    rw [isNext] at after
    unfold Receiver.Attended at after
    rw [erred_phase, queued_phase, erred_receiveQueue, isIdle] at after
    have waits := after (by decide)
    unfold queued at waits
    rw [if_pos pos] at waits
    exact waits front isFront (by simp)
  · trivial

/-- In every run no callback is left behind exactly when the removal of the front
callback always leaves one that has to wait, and an error behind data that were queued
comes only where the front callback has to wait for more. -/
theorem attended_iff (lowWatermark highWatermark : Nat) (isEdge : Bool)
    (actions : List (Receiver.Action Token)) :
    Run.Always step Attended (start lowWatermark highWatermark isEdge) actions ↔
      Run.Along step Attends (start lowWatermark highWatermark isEdge) actions :=
  Run.always_iff_along (fun _ attending => attending.attended) step_attending
    (fun half action next _ taken after => step_attends half action next taken after)
    ⟨start_holds lowWatermark highWatermark isEdge, fun _ => settled_of_no_callbacks rfl⟩

end

def cancelledFront : List (Receiver.Action Nat) :=
  [.receiveAsync { minSize := 100, token := some 1 }, .receiveAsync {},
    .readable (.received (List.replicate 10 7) false) .plain,
    .satisfyCallback, .announceHighWatermark, .cancel 1]

/-- The second callback is then left behind, outside of any readable event. -/
theorem cancelledFront_unattended : ¬ Run.Always step Attended (start 1 100 false) cancelledFront ∧
      ∃ final, Run.run step (start 1 100 false) cancelledFront = some final ∧
        final.receiver.phase = .idle ∧ ¬ Settled final.receiver.receiveQueue := by
  have stranded : ∃ final, Run.run step (start 1 100 false) cancelledFront = some final ∧
      final.receiver.phase = .idle ∧ ¬ Settled final.receiver.receiveQueue := by
    refine ⟨_, rfl, rfl, ?_⟩
    intro settled
    have waits := settled _ rfl nofun
    contradiction
  refine ⟨?_, stranded⟩
  intro always
  obtain ⟨final, isFinal, isIdle, unsettled⟩ := stranded
  have attended := (Run.always_iff _ _).mp always cancelledFront [] final (List.append_nil _) isFinal
  exact unsettled (attended (by rw [isIdle]; decide))

end ReceiveHalf

end NtfCore.Ntcr
