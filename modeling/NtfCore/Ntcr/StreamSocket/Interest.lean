import NtfCore.Ntcr.StreamSocket.Stranding

/-!
Contract: the interest of a stream socket in readable events, and when it is disabled.

Owns: how the critical sections of the receiving half switch the interest; and the
condition on the steps of a run under which it is disabled only where the high watermark
of the receive queue is violated.

The interest comes back only with a receive operation that sees the violation end, which
a high watermark that is raised hides from it.
-/

namespace NtfCore.Ntcr

open NtfCore.Foundation NtfCore.Ntcq NtfCore.Ntcs NtfCore.Ntcq.ReceiveQueue List

variable {Token : Type}

namespace Receiver

/-! ## Switching -/

structure Switchable (receiver : Receiver Token) : Prop where
  opened : receiver.flowControlState.closed = false
  unlocked : receiver.flowControlState.lockReceive = false

variable {recv : Receiver Token}

section

variable (switchable : Switchable recv)
include switchable

theorem relax_eq : recv.relax = { recv with flowControlState :=
      { recv.flowControlState with enableReceive := true } } := by
  unfold relax
  rw [FlowControlState.relax_receive switchable.opened switchable.unlocked]

theorem apply_eq : recv.apply = { recv with flowControlState :=
      { recv.flowControlState with enableReceive := false } } := by
  unfold apply
  rw [FlowControlState.apply_receive switchable.opened switchable.unlocked]

theorem relaxFlowControl_eq : recv.relaxFlowControl = recv.relax := by
  unfold relaxFlowControl
  rw [relax_eq switchable]
  have opened := switchable.opened
  have unlocked := switchable.unlocked
  simp [FlowControlState.relax, FlowControlType.includesSend, FlowControlType.includesReceive,
    opened, unlocked]

end

/-- Behind a receive operation the interest is switched on, or the watermark is as it
was. -/
theorem finishReceive_cases (recv : Receiver Token) (violatedBefore : Bool) :
    (recv.finishReceive violatedBefore = recv.relax ∧ violatedBefore = true ∧
      recv.receiveQueue.isHighWatermarkViolated = false) ∨
    (recv.finishReceive violatedBefore = recv ∧
      (violatedBefore = true -> recv.receiveQueue.isHighWatermarkViolated = true)) := by
  unfold finishReceive
  cases isBefore : violatedBefore with
  | false => exact .inr ⟨rfl, nofun⟩
  | true =>
    cases isAfter : recv.receiveQueue.isHighWatermarkViolated with
    | false => exact .inl ⟨rfl, rfl, rfl⟩
    | true => exact .inr ⟨rfl, fun _ => rfl⟩

def ended (receiver : Receiver Token) (highWanted : Bool) : Receiver Token :=
  { receiver with
    receiveQueue := { receiver.receiveQueue with watermarkHighWanted := highWanted }
    phase := .idle }

/-- The announcement of a violated watermark is made with the interest switched off, and
not made again on a queue with an edge trigger. -/
theorem announceHighWatermark_cases (recv : Receiver Token) :
    (recv.receiveQueue.isHighWatermarkViolated = true ∧ ∃ highWanted,
      recv.announceHighWatermark = (recv.ended highWanted).apply) ∨
    (recv.announceHighWatermark = recv.ended recv.receiveQueue.watermarkHighWanted ∧
      (recv.receiveQueue.isHighWatermarkViolated = true ->
        recv.receiveQueue.watermarkHighWanted = false)) := by
  unfold announceHighWatermark authorizeHighWatermarkEvent
  by_cases isViolated : recv.receiveQueue.isHighWatermarkViolated = true
  · rw [if_pos isViolated]
    by_cases isEdge : recv.receiveQueue.isEdge = true
    · rw [if_pos isEdge]
      by_cases isWanted : recv.receiveQueue.watermarkHighWanted = true
      · rw [if_pos isWanted]
        exact .inl ⟨isViolated, false, rfl⟩
      · rw [if_neg isWanted]
        exact .inr ⟨rfl, fun _ => Bool.eq_false_iff.mpr isWanted⟩
    · rw [if_neg isEdge]
      exact .inl ⟨isViolated, recv.receiveQueue.watermarkHighWanted, rfl⟩
  · rw [if_neg isViolated]
    exact .inr ⟨rfl, fun violated => absurd violated isViolated⟩

variable {queue next : ReceiveQueue Token} {options : ReceiveOptions Token}

theorem Delivers.size_le (delivers : Delivers options queue next) : next.size ≤ queue.size := by
  rw [delivers.size]
  exact Nat.sub_le _ _

theorem Delivers.violated (delivers : Delivers options queue next)
    (after : next.isHighWatermarkViolated = true) : queue.isHighWatermarkViolated = true := by
  have reaches : next.watermarkHigh ≤ next.size := of_decide_eq_true after
  rw [delivers.watermarkHigh] at reaches
  exact decide_eq_true (Nat.le_trans reaches delivers.size_le)

def lowered (receiver : Receiver Token) (lowWatermark : Nat) : Receiver Token :=
  { receiver with receiveQueue := receiver.receiveQueue.setLowWatermark lowWatermark }

def raised (receiver : Receiver Token) (highWatermark : Nat) : Receiver Token :=
  { receiver with receiveQueue := receiver.receiveQueue.setHighWatermark highWatermark }

section

variable (recv : Receiver Token)

theorem setReadQueueLowWatermark_cases (lowWatermark : Nat) :
    (recv.setReadQueueLowWatermark lowWatermark = (recv.lowered lowWatermark).relax ∧
      (recv.lowered lowWatermark).receiveQueue.isLowWatermarkSatisfied = false) ∨
    (recv.setReadQueueLowWatermark lowWatermark = recv.lowered lowWatermark ∧
      (recv.lowered lowWatermark).receiveQueue.isLowWatermarkSatisfied = true) := by
  unfold setReadQueueLowWatermark
  dsimp only
  split
  · rename_i isLow
    exact .inl ⟨rfl, Bool.not_eq_true' _ ▸ isLow⟩
  · rename_i notLow
    rw [Bool.not_eq_true', Bool.not_eq_false] at notLow
    exact .inr ⟨rfl, notLow⟩

theorem setReadQueueHighWatermark_cases (high : Nat) :
    (recv.setReadQueueHighWatermark high = (recv.raised high).apply ∧
      (recv.raised high).receiveQueue.isHighWatermarkViolated = true) ∨
    (recv.setReadQueueHighWatermark high = recv.raised high ∧
      (recv.raised high).receiveQueue.isHighWatermarkViolated = false) := by
  unfold setReadQueueHighWatermark
  dsimp only
  split
  · rename_i violated
    exact .inl ⟨rfl, violated⟩
  · rename_i below
    exact .inr ⟨rfl, Bool.eq_false_iff.mpr below⟩

/-- The watermarks are ordered, so that the interest is switched one way at most. -/
theorem setReadQueueWatermarks_cases (lowWatermark high : Nat) :
    (recv.setReadQueueWatermarks lowWatermark high =
        ((recv.lowered lowWatermark).raised high).relax ∧
      ((recv.lowered lowWatermark).raised high).receiveQueue.isHighWatermarkViolated = false) ∨
    (recv.setReadQueueWatermarks lowWatermark high =
        ((recv.lowered lowWatermark).raised high).apply ∧
      ((recv.lowered lowWatermark).raised high).receiveQueue.isHighWatermarkViolated = true) ∨
    (recv.setReadQueueWatermarks lowWatermark high = (recv.lowered lowWatermark).raised high ∧
      ((recv.lowered lowWatermark).raised high).receiveQueue.isLowWatermarkSatisfied = true ∧
      ((recv.lowered lowWatermark).raised high).receiveQueue.isHighWatermarkViolated = false) := by
  have isNext : recv.setReadQueueWatermarks lowWatermark high =
      let next := (recv.lowered lowWatermark).raised high
      let relaxed := if !next.receiveQueue.isLowWatermarkSatisfied then next.relax else next
      if relaxed.receiveQueue.isHighWatermarkViolated then relaxed.apply else relaxed := rfl
  have ordered : ((recv.lowered lowWatermark).raised high).receiveQueue.watermarkLow ≤
      ((recv.lowered lowWatermark).raised high).receiveQueue.watermarkHigh :=
    (sanitizeIncoming_spec _ _).1
  rw [isNext]
  generalize (recv.lowered lowWatermark).raised high = next at ordered ⊢
  dsimp only
  cases isSatisfied : next.receiveQueue.isLowWatermarkSatisfied with
  | false =>
    have isBelow : next.receiveQueue.isHighWatermarkViolated = false := by
      refine decide_eq_false ?_
      intro violated
      exact of_decide_eq_false isSatisfied (Nat.le_trans ordered violated)
    have isKept : next.relax.receiveQueue.isHighWatermarkViolated = false := isBelow
    refine .inl ⟨?_, isBelow⟩
    rw [Bool.not_false, if_pos rfl, isKept]
    rfl
  | true =>
    right
    cases isViolated : next.receiveQueue.isHighWatermarkViolated with
    | true => exact .inl ⟨by simp [isViolated], rfl⟩
    | false => exact .inr ⟨by simp [isViolated], rfl, rfl⟩

end

variable {lowWatermark : Nat}

theorem setLowWatermark_violated {queue : ReceiveQueue Token}
    (satisfied : (queue.setLowWatermark lowWatermark).isLowWatermarkSatisfied = true)
    (violated : queue.isHighWatermarkViolated = true) :
    (queue.setLowWatermark lowWatermark).isHighWatermarkViolated = true := by
  have above : (sanitizeIncomingQueueWatermarks lowWatermark queue.watermarkHigh).1 ≤ queue.size :=
    of_decide_eq_true satisfied
  have reaches : queue.watermarkHigh ≤ queue.size := of_decide_eq_true violated
  have stays : (sanitizeIncomingQueueWatermarks lowWatermark queue.watermarkHigh).2 ≤
      queue.size := by
    unfold sanitizeIncomingQueueWatermarks at above ⊢
    dsimp only at above ⊢
    generalize (if lowWatermark = 0 then 1 else lowWatermark) = low at above ⊢
    split
    · exact above
    · exact reaches
  exact decide_eq_true stays

/-! ## The receive direction -/

theorem finishReceive_canReceive (recv : Receiver Token) (violatedBefore : Bool) :
    (recv.finishReceive violatedBefore).canReceive = recv.canReceive := by
  rcases recv.finishReceive_cases violatedBefore with ⟨isNext, _, _⟩ | ⟨isNext, _⟩
  · rw [isNext]
    rfl
  · rw [isNext]

/-- No critical section puts the receive direction up again. -/
theorem Does.canReceive [DecidableEq Token] {recv next : Receiver Token} {action : Action Token}
    (does : Does recv action next) (reads : next.canReceive = true) : recv.canReceive = true := by
  cases does with
  | readable reading =>
    cases reading with
    | nothing => exact reads
    | failed => contradiction
    | lost _ isReading | late _ isReading | filled _ isReading => exact isReading
  | satisfied | drained | refused | blocked | refusedAsync | waits | expired | cancelled => exact reads
  | relaxed | completed => exact reads
  | shutDown => contradiction
  | announced =>
    rcases recv.announceHighWatermark_cases with ⟨_, _, isNext⟩ | ⟨isNext, _⟩ <;>
      rw [isNext] at reads <;> exact reads
  | received =>
    rw [finishReceive_canReceive] at reads
    exact reads
  | receivedAsync =>
    unfold invoking at reads
    split at reads
    · exact reads
    · rw [finishReceive_canReceive] at reads
      exact reads
  | resumed =>
    unfold resumeReceive at reads
    split at reads
    · exact reads
    · rw [finishReceive_canReceive] at reads
      exact reads
  | setLow lowWatermark =>
    rcases recv.setReadQueueLowWatermark_cases lowWatermark with ⟨isNext, _⟩ | ⟨isNext, _⟩ <;>
      rw [isNext] at reads <;> exact reads
  | setHigh high =>
    rcases recv.setReadQueueHighWatermark_cases high with ⟨isNext, _⟩ | ⟨isNext, _⟩ <;>
      rw [isNext] at reads <;> exact reads
  | setBoth lowWatermark high =>
    rcases recv.setReadQueueWatermarks_cases lowWatermark high with
      ⟨isNext, _⟩ | ⟨isNext, _⟩ | ⟨isNext, _⟩ <;>
      rw [isNext] at reads <;> exact reads

/-! ## No stalls -/

structure Unstalled (receiver : Receiver Token) : Prop extends Switchable receiver where
  disabled : receiver.flowControlState.enableReceive = false ->
    receiver.receiveQueue.isHighWatermarkViolated = true ∨ true ∈ receiver.inFlight
  draining : receiver.phase = .draining -> receiver.flowControlState.enableReceive = true

/-- The watermarks that `setReadQueueWatermarks` leaves. -/
def watermarksAfter (queue : ReceiveQueue Token) (lowWatermark highWatermark : Nat) : Nat × Nat :=
  sanitizeIncomingQueueWatermarks
    (sanitizeIncomingQueueWatermarks lowWatermark queue.watermarkHigh).1 highWatermark

/-- What a critical section has to respect for reading not to stall: a readable event
finds the interest enabled, and a high watermark is neither raised above the size while
the interest is disabled, nor put below it while callbacks are taken off their queue. -/
def Resumes (receiver : Receiver Token) : Action Token -> Prop
  | .readable _ _ =>
    receiver.receiveQueue.isHighWatermarkViolated = false ->
      receiver.flowControlState.enableReceive = true
  | .setReadQueueHighWatermark highWatermark =>
    let high := (sanitizeIncomingQueueWatermarks receiver.receiveQueue.watermarkLow
      highWatermark).2
    (receiver.flowControlState.enableReceive = false ->
      high ≤ receiver.receiveQueue.size ∨ true ∈ receiver.inFlight) ∧
    (receiver.phase = .draining -> receiver.receiveQueue.size < high)
  | .setReadQueueWatermarks lowWatermark highWatermark =>
    let (low, high) := watermarksAfter receiver.receiveQueue lowWatermark highWatermark
    (receiver.flowControlState.enableReceive = false ->
      receiver.receiveQueue.size < low ∨ high ≤ receiver.receiveQueue.size ∨
        true ∈ receiver.inFlight) ∧
    (receiver.phase = .draining -> receiver.receiveQueue.size < high)
  | _ => True

theorem relax_unstalled (switchable : Switchable recv) : Unstalled recv.relax := by
  rw [relax_eq switchable]
  exact ⟨⟨switchable.opened, switchable.unlocked⟩, nofun, fun _ => rfl⟩

theorem finishReceive_unstalled {violatedBefore : Bool} (switchable : Switchable recv)
    (disabled : recv.flowControlState.enableReceive = false ->
      recv.receiveQueue.isHighWatermarkViolated = true ∨ violatedBefore = true ∨
        true ∈ recv.inFlight)
    (draining : recv.phase = .draining -> recv.flowControlState.enableReceive = true) :
    Unstalled (recv.finishReceive violatedBefore) := by
  rcases recv.finishReceive_cases violatedBefore with ⟨isRelaxed, _, _⟩ | ⟨isSame, stays⟩
  · rw [isRelaxed]
    exact relax_unstalled switchable
  · rw [isSame]
    refine ⟨switchable, ?_, draining⟩
    intro isDisabled
    rcases disabled isDisabled with violated | isBefore | inFlight
    · exact .inl violated
    · exact .inl (stays isBefore)
    · exact .inr inFlight

theorem Unstalled.delivered (unstalled : Unstalled recv) (queue : ReceiveQueue Token) :
    Unstalled (({ recv with receiveQueue := queue }).finishReceive
      recv.receiveQueue.isHighWatermarkViolated) := by
  refine finishReceive_unstalled ⟨unstalled.opened, unstalled.unlocked⟩ ?_ unstalled.draining
  intro isDisabled
  exact .inr (unstalled.disabled isDisabled)

/-- A receive operation that saw the watermark violated switches the interest on when it
returns, unless it is violated again. -/
theorem Unstalled.resumed (unstalled : Unstalled recv)
    (index : Nat) : Unstalled (recv.resumeReceive index) := by
  unfold resumeReceive
  cases isFlight : recv.inFlight[index]? with
  | none => exact unstalled
  | some violatedBefore =>
    refine finishReceive_unstalled ⟨unstalled.opened, unstalled.unlocked⟩ ?_ unstalled.draining
    intro isDisabled
    rcases unstalled.disabled isDisabled with violated | inFlight
    · exact .inl violated
    · right
      cases violatedBefore with
      | true => exact .inl rfl
      | false =>
        right
        obtain ⟨other, bound, isTrue⟩ := getElem_of_mem inFlight
        refine mem_eraseIdx_iff_getElem?.mpr ⟨other, ?_, ?_⟩
        · intro isIndex
          rw [← isIndex, getElem?_eq_getElem bound, isTrue] at isFlight
          contradiction
        · rw [getElem?_eq_getElem bound, isTrue]

/-- A readable event that queues data raises the size. -/
theorem queued_violated (data : List UInt8) (hasHandle : Bool)
    (violated : recv.receiveQueue.isHighWatermarkViolated = true) :
    (recv.queued data hasHandle).receiveQueue.isHighWatermarkViolated = true := by
  unfold queued
  split
  · exact decide_eq_true (Nat.le_add_right_of_le (of_decide_eq_true violated))
  · exact violated

section

variable (recv : Receiver Token) (data : List UInt8) (hasHandle : Bool)

theorem queued_flowControlState :
    (recv.queued data hasHandle).flowControlState = recv.flowControlState := by
  unfold queued
  split
  · rfl
  · rfl

theorem queued_inFlight : (recv.queued data hasHandle).inFlight = recv.inFlight := by
  unfold queued
  split
  · rfl
  · rfl

end

theorem queued_unstalled (unstalled : Unstalled recv)
    (data : List UInt8) (hasHandle : Bool) : Unstalled (recv.queued data hasHandle) := by
  refine ⟨⟨?_, ?_⟩, ?_, ?_⟩
  · rw [queued_flowControlState]
    exact unstalled.opened
  · rw [queued_flowControlState]
    exact unstalled.unlocked
  · rw [queued_flowControlState, queued_inFlight]
    intro isDisabled
    exact (unstalled.disabled isDisabled).imp_left (queued_violated data hasHandle)
  · rw [queued_flowControlState, queued_phase]
    exact unstalled.draining

/-- An error leaves the interest as it is, or ends the receive direction. -/
theorem erred_cases (recv : Receiver Token) (error : Error) :
    recv.erred error = recv ∨ (recv.erred error).canReceive = false := by
  unfold erred
  split
  · exact .inl rfl
  · exact .inr rfl

variable {recv next : Receiver Token}

theorem Reading.unstalled {raw : RawReply} {intake : Intake}
    (reading : Reading recv raw intake next) (resumes : recv.Resumes (.readable raw intake))
    (unstalled : Unstalled recv) (reads : next.canReceive = true) : Unstalled next := by
  cases reading with
  | nothing => exact unstalled
  | failed => contradiction
  | @lost _ data _ _ error =>
    rcases (recv.appended data).erred_cases error with isSame | isDown
    · rw [isSame]
      exact ⟨⟨unstalled.opened, unstalled.unlocked⟩, unstalled.disabled, unstalled.draining⟩
    · rw [isDown] at reads
      contradiction
  | @late _ data hasHandle _ error =>
    rcases (recv.queued data hasHandle).erred_cases error with isSame | isDown
    · rw [isSame]
      exact queued_unstalled unstalled data hasHandle
    · rw [isDown] at reads
      contradiction
  | @filled _ data hasHandle _ _ below =>
    have before := queued_unstalled unstalled data hasHandle
    refine ⟨⟨before.opened, before.unlocked⟩, before.disabled, ?_⟩
    intro _
    rw [queued_flowControlState]
    exact resumes below

theorem setReadQueueLowWatermark_unstalled (unstalled : Unstalled recv) (lowWatermark : Nat) :
    Unstalled (recv.setReadQueueLowWatermark lowWatermark) := by
  have switchable : Switchable (recv.lowered lowWatermark) := ⟨unstalled.opened, unstalled.unlocked⟩
  rcases recv.setReadQueueLowWatermark_cases lowWatermark with
    ⟨isRelaxed, _⟩ | ⟨isSame, satisfied⟩
  · rw [isRelaxed]
    exact relax_unstalled switchable
  · rw [isSame]
    refine ⟨switchable, ?_, unstalled.draining⟩
    intro isDisabled
    exact (unstalled.disabled isDisabled).imp_left (setLowWatermark_violated satisfied)

variable {high : Nat}

theorem setReadQueueHighWatermark_unstalled (unstalled : Unstalled recv)
    (resumes : recv.Resumes (.setReadQueueHighWatermark high)) :
    Unstalled (recv.setReadQueueHighWatermark high) := by
  have switchable : Switchable (recv.raised high) := ⟨unstalled.opened, unstalled.unlocked⟩
  rcases recv.setReadQueueHighWatermark_cases high with
    ⟨isApplied, violated⟩ | ⟨isSame, _⟩
  · rw [isApplied, apply_eq switchable]
    refine ⟨⟨switchable.opened, switchable.unlocked⟩, fun _ => .inl violated, ?_⟩
    intro isDraining
    exact absurd (of_decide_eq_true violated) (Nat.not_le_of_lt (resumes.2 isDraining))
  · rw [isSame]
    refine ⟨switchable, ?_, unstalled.draining⟩
    intro isDisabled
    exact (resumes.1 isDisabled).imp_left fun reaches => decide_eq_true reaches

theorem setReadQueueWatermarks_unstalled (unstalled : Unstalled recv)
    (resumes : recv.Resumes (.setReadQueueWatermarks lowWatermark high)) :
    Unstalled (recv.setReadQueueWatermarks lowWatermark high) := by
  have switchable : Switchable ((recv.lowered lowWatermark).raised high) :=
    ⟨unstalled.opened, unstalled.unlocked⟩
  rcases recv.setReadQueueWatermarks_cases lowWatermark high with
    ⟨isRelaxed, _⟩ | ⟨isApplied, violated⟩ | ⟨isSame, satisfied, _⟩
  · rw [isRelaxed]
    exact relax_unstalled switchable
  · rw [isApplied, apply_eq switchable]
    refine ⟨⟨switchable.opened, switchable.unlocked⟩, fun _ => .inl violated, ?_⟩
    intro isDraining
    exact absurd (of_decide_eq_true violated) (Nat.not_le_of_lt (resumes.2 isDraining))
  · rw [isSame]
    refine ⟨switchable, ?_, unstalled.draining⟩
    intro isDisabled
    rcases resumes.1 isDisabled with below | reaches | inFlight
    · exact absurd (of_decide_eq_true satisfied) (Nat.not_le_of_lt below)
    · exact .inl (decide_eq_true reaches)
    · exact .inr inFlight

/-- A critical section that meets the condition does not stall. -/
theorem Does.unstalled [DecidableEq Token] {action : Action Token}
    (does : Does recv action next) (isEnabled : recv.enabled action = true)
    (resumes : recv.Resumes action)
    (unstalled : recv.canReceive = true -> Unstalled recv) (reads : next.canReceive = true) :
    Unstalled next := by
  have before := unstalled (does.canReceive reads)
  cases does with
  | readable reading => exact reading.unstalled resumes before reads
  | satisfied =>
    have isDraining : recv.phase = .draining := of_decide_eq_true isEnabled
    have isEnabled := before.draining isDraining
    refine ⟨⟨before.opened, before.unlocked⟩, ?_, before.draining⟩
    intro isDisabled
    rw [isEnabled] at isDisabled
    contradiction
  | drained =>
    exact ⟨⟨before.opened, before.unlocked⟩, before.disabled, nofun⟩
  | announced =>
    rcases recv.announceHighWatermark_cases with ⟨violated, highWanted, isNext⟩ | ⟨isNext, _⟩
    · rw [isNext]
      have switchable : Switchable (recv.ended highWanted) := ⟨before.opened, before.unlocked⟩
      rw [apply_eq switchable]
      exact ⟨⟨before.opened, before.unlocked⟩, fun _ => .inl violated, nofun⟩
    · rw [isNext]
      exact ⟨⟨before.opened, before.unlocked⟩, before.disabled, nofun⟩
  | refused => exact before
  | @received _ queue _ delivers =>
    exact before.delivered queue
  | blocked => exact relax_unstalled before.toSwitchable
  | refusedAsync => exact before
  | @receivedAsync _ queue =>
    unfold invoking
    split
    · refine ⟨⟨before.opened, before.unlocked⟩, ?_, before.draining⟩
      intro isDisabled
      right
      rcases before.disabled isDisabled with violated | inFlight
      · exact mem_append_right _ (mem_singleton.mpr violated.symm)
      · exact mem_append_left _ inFlight
    · exact before.delivered queue
  | waits =>
    exact relax_unstalled ⟨before.opened, before.unlocked⟩
  | resumed index =>
    exact before.resumed index
  | expired | cancelled =>
    exact ⟨⟨before.opened, before.unlocked⟩, before.disabled, before.draining⟩
  | setLow lowWatermark =>
    exact setReadQueueLowWatermark_unstalled before lowWatermark
  | setHigh high =>
    exact setReadQueueHighWatermark_unstalled before resumes
  | setBoth =>
    exact setReadQueueWatermarks_unstalled before resumes
  | relaxed =>
    rw [relaxFlowControl_eq before.toSwitchable]
    exact relax_unstalled before.toSwitchable
  | shutDown => contradiction
  | completed =>
    have isUp : recv.canReceive = true := reads
    unfold enabled at isEnabled
    rw [isUp] at isEnabled
    contradiction

end Receiver

namespace ReceiveHalf

open Receiver

def Unstalled (half : ReceiveHalf Token) : Prop :=
  half.receiver.phase = .idle -> half.receiver.inFlight = [] -> half.receiver.canReceive = true ->
    half.receiver.flowControlState.enableReceive = false ->
    half.receiver.receiveQueue.isHighWatermarkViolated = true

def Resumes (half : ReceiveHalf Token) (action : Receiver.Action Token) : Prop :=
  half.receiver.Resumes action

structure Resuming (half : ReceiveHalf Token) : Prop where
  holds : Holds half.receiver.receiveQueue.entryList half.receiver.receiveQueue
  unstalled : half.receiver.canReceive = true -> Receiver.Unstalled half.receiver

theorem step_resuming [DecidableEq Token] (half : ReceiveHalf Token)
    (action : Receiver.Action Token) (next : ReceiveHalf Token) (resuming : Resuming half)
    (resumes : half.Resumes action) (taken : half.step action = some next) : Resuming next := by
  obtain ⟨_, isEnabled, ⟨does, _, _⟩ | ⟨isNext, _⟩⟩ := step_cases resuming.holds taken
  · exact ⟨does.holds resuming.holds, does.unstalled isEnabled resumes resuming.unstalled⟩
  · rw [isNext]
    exact ⟨resuming.holds, resuming.unstalled⟩

theorem Resuming.visible {half : ReceiveHalf Token} (resuming : Resuming half) :
    half.Unstalled := by
  intro _ noFlight reads isDisabled
  rcases (resuming.unstalled reads).disabled isDisabled with violated | inFlight
  · exact violated
  · rw [noFlight] at inFlight
    contradiction

/-- In every run whose steps meet the condition, reading never stalls. -/
theorem unstalled_of_resumes [DecidableEq Token] (lowWatermark highWatermark : Nat)
    (isEdge : Bool) (actions : List (Receiver.Action Token))
    (resumes : Run.Along step Resumes (start lowWatermark highWatermark isEdge) actions) :
    Run.Always step Unstalled (start lowWatermark highWatermark isEdge) actions := by
  refine (Run.always_of_along step_resuming ?_ resumes).mono fun _ => Resuming.visible
  exact ⟨start_holds lowWatermark highWatermark isEdge, fun _ => ⟨⟨rfl, rfl⟩, nofun, nofun⟩⟩

/-- Ten bytes come, which is the high watermark. They are received, and five more come,
which is the high watermark that is set then; it is put back once three of them are
received. -/
def movedWatermark : List (Receiver.Action Nat) :=
  [.readable (.received (List.replicate 10 7) false) .plain, .satisfyCallback,
    .announceHighWatermark, .receive {},
    .readable (.received (List.replicate 5 7) false) .plain, .satisfyCallback,
    .announceHighWatermark, .setReadQueueHighWatermark 5, .receive { maxSize := 3 },
    .setReadQueueHighWatermark 10]

/-- Reading goes on behind each violation. -/
theorem movedWatermark_unstalled : Run.Always step Unstalled (start 1 10 false) movedWatermark ∧
      ∃ final, Run.run step (start 1 10 false) movedWatermark = some final ∧
        final.receiver.receiveQueue.size = 2 ∧
        final.receiver.flowControlState.enableReceive = true := by
  refine ⟨unstalled_of_resumes 1 10 false movedWatermark ?_, _, rfl, rfl, rfl⟩
  refine ⟨fun _ => rfl, trivial, trivial, trivial, fun _ => rfl, trivial, trivial, ⟨nofun, nofun⟩,
    trivial, ⟨nofun, nofun⟩, trivial⟩

def raisedWatermark : List (Receiver.Action Nat) :=
  [.readable (.received (List.replicate 10 7) false) .plain, .satisfyCallback,
    .announceHighWatermark, .setReadQueueHighWatermark 100]

/-- The interest is then disabled with ten bytes of a hundred. -/
theorem raisedWatermark_stalled : ¬ Run.Always step Unstalled (start 1 10 false) raisedWatermark ∧
      ∃ final, Run.run step (start 1 10 false) raisedWatermark = some final ∧
        final.receiver.receiveQueue.size = 10 ∧ final.receiver.receiveQueue.watermarkHigh = 100 ∧
        final.receiver.flowControlState.enableReceive = false := by
  constructor
  · intro always
    obtain ⟨_, _, _, _, unstalled⟩ := always
    have violated := unstalled rfl rfl rfl rfl
    contradiction
  · exact ⟨_, rfl, rfl, rfl, rfl⟩

end ReceiveHalf

end NtfCore.Ntcr
