import NtfCore.Ntcr.StreamSocket.Interest

/-!
Contract: how a stream socket holds reading back.

Owns: the condition on the steps of a run under which every readable event that is
processed to its end leaves the interest disabled where the high watermark of the receive
queue is violated.

The interest is disabled only with the announcement of the violation, which is made once
until the queue has been below the low watermark, while the end of the violation is
enough to enable it.
-/

namespace NtfCore.Ntcr

open NtfCore.Foundation NtfCore.Ntcq NtfCore.Ntcs NtfCore.Ntcq.ReceiveQueue

variable {Token : Type}

namespace Receiver

/-- The interest is disabled where the high watermark is violated, and its violation is
not announced again before the queue wants it. -/
structure Restrained (receiver : Receiver Token) : Prop extends Switchable receiver where
  edge : receiver.receiveQueue.isEdge = true
  announced : receiver.receiveQueue.watermarkHighWanted = false ->
    receiver.flowControlState.enableReceive = false ∧
      receiver.receiveQueue.isHighWatermarkViolated = true
  pending : receiver.phase ≠ .idle -> receiver.receiveQueue.watermarkHighWanted = true
  restrained : receiver.phase = .idle -> receiver.receiveQueue.isHighWatermarkViolated = true ->
    receiver.flowControlState.enableReceive = false

/-- The interest may be enabled: the announcement of a violated watermark is still wanted,
and outside of a readable event there is no violation. -/
def MayRelax (receiver : Receiver Token) : Prop :=
  receiver.receiveQueue.watermarkHighWanted = true ∧
    (receiver.phase = .idle -> receiver.receiveQueue.isHighWatermarkViolated = false)

def Empties (queue : ReceiveQueue Token) (options : ReceiveOptions Token) : Prop :=
  queue.watermarkHighWanted = false ->
    queue.size - min options.maxSize queue.size < queue.watermarkHigh ->
    queue.size - min options.maxSize queue.size < queue.watermarkLow

def Restrains (receiver : Receiver Token) : Action Token -> Prop
  | .readable (.received received _) intake =>
    receiver.receiveQueue.isHighWatermarkViolated = false -> (intake.fill received).2.1 = none ->
      (intake.fill received).2.2 = some .wouldBlock ->
      receiver.receiveQueue.size + (intake.fill received).1.length <
        receiver.receiveQueue.watermarkHigh
  | .receive options =>
    if options.minSize ≤ receiver.receiveQueue.size then Empties receiver.receiveQueue options
    else receiver.MayRelax
  | .receiveAsync options =>
    if receiver.receiveQueue.callbackQueue.isEmpty ∧
        options.minSize ≤ receiver.receiveQueue.size then
      Empties receiver.receiveQueue options
    else receiver.MayRelax
  | .setReadQueueLowWatermark lowWatermark =>
    receiver.receiveQueue.watermarkHighWanted = false ->
      (sanitizeIncomingQueueWatermarks lowWatermark receiver.receiveQueue.watermarkHigh).1 ≤
        receiver.receiveQueue.size
  | .relaxFlowControl => receiver.MayRelax
  | _ => True

variable {recv : Receiver Token}

theorem relax_restrained (switchable : Switchable recv)
    (edge : recv.receiveQueue.isEdge = true) (mayRelax : recv.MayRelax) :
    Restrained recv.relax := by
  rw [relax_eq switchable]
  refine ⟨⟨switchable.opened, switchable.unlocked⟩, edge, ?_, fun _ => mayRelax.1, ?_⟩
  · intro notWanted
    rw [mayRelax.1] at notWanted
    contradiction
  · intro isIdle violated
    rw [mayRelax.2 isIdle] at violated
    contradiction

section

variable (restrained : Restrained recv)
include restrained

/-- The queue behind a receive operation is held back as it was: a violation that was
announced is still there, or its end makes the announcement wanted. -/
theorem Restrained.delivered {options : ReceiveOptions Token} {queue : ReceiveQueue Token}
    (delivers : Delivers options recv.receiveQueue queue)
    (empties : Empties recv.receiveQueue options) :
    Restrained { recv with receiveQueue := queue } := by
  refine ⟨⟨restrained.opened, restrained.unlocked⟩, delivers.isEdge.trans restrained.edge, ?_, ?_, ?_⟩
  · intro notWanted
    have wasNotWanted : recv.receiveQueue.watermarkHighWanted = false := by
      cases isWanted : recv.receiveQueue.watermarkHighWanted with
      | false => rfl
      | true =>
        rw [delivers.wanted isWanted] at notWanted
        contradiction
    refine ⟨(restrained.announced wasNotWanted).1, ?_⟩
    cases isViolated : queue.isHighWatermarkViolated with
    | true => rfl
    | false =>
      have isBelow : ¬ queue.watermarkHigh ≤ queue.size := of_decide_eq_false isViolated
      rw [delivers.watermarkHigh] at isBelow
      have below := empties wasNotWanted (delivers.size ▸ Nat.lt_of_not_le isBelow)
      rw [← delivers.size] at below
      rw [delivers.rearmed restrained.edge below] at notWanted
      contradiction
  · intro busy
    exact delivers.wanted (restrained.pending busy)
  · intro isIdle violated
    exact restrained.restrained isIdle (delivers.violated violated)

theorem finishReceive_restrained
    (violatedBefore : Bool) : Restrained (recv.finishReceive violatedBefore) := by
  rcases recv.finishReceive_cases violatedBefore with ⟨isRelaxed, _, isBelow⟩ | ⟨isSame, _⟩
  · rw [isRelaxed]
    refine relax_restrained restrained.toSwitchable restrained.edge ⟨?_, fun _ => isBelow⟩
    cases isWanted : recv.receiveQueue.watermarkHighWanted with
    | true => rfl
    | false =>
      rw [(restrained.announced isWanted).2] at isBelow
      contradiction
  · rw [isSame]
    exact restrained

theorem Restrained.wanted (below : recv.receiveQueue.isHighWatermarkViolated = false) :
    recv.receiveQueue.watermarkHighWanted = true := by
  cases isWanted : recv.receiveQueue.watermarkHighWanted with
  | true => rfl
  | false =>
    rw [(restrained.announced isWanted).2] at below
    contradiction

end

section

variable (recv : Receiver Token) (data : List UInt8) (hasHandle : Bool)

theorem queued_isEdge :
    (recv.queued data hasHandle).receiveQueue.isEdge = recv.receiveQueue.isEdge := by
  unfold queued
  split
  · rfl
  · rfl

theorem queued_watermarkHighWanted : (recv.queued data hasHandle).receiveQueue.watermarkHighWanted =
      recv.receiveQueue.watermarkHighWanted := by
  unfold queued
  split
  · rfl
  · rfl

end

theorem queued_below {data : List UInt8} (hasHandle : Bool)
    (below : recv.receiveQueue.size + data.length < recv.receiveQueue.watermarkHigh) :
    (recv.queued data hasHandle).receiveQueue.isHighWatermarkViolated = false := by
  unfold queued
  split
  · exact decide_eq_false (Nat.not_le_of_lt below)
  · exact decide_eq_false (Nat.not_le_of_lt (Nat.lt_of_le_of_lt (Nat.le_add_right _ _) below))

variable {recv next : Receiver Token}

theorem Reading.restrained {raw : RawReply} {intake : Intake}
    (reading : Reading recv raw intake next) (restrains : recv.Restrains (.readable raw intake))
    (before : Restrained recv) (reads : next.canReceive = true) : Restrained next := by
  cases reading with
  | nothing => exact before
  | failed => contradiction
  | @lost _ data _ _ error _ isReading =>
    rcases (recv.appended data).erred_cases error with isSame | isDown
    · rw [isSame]
      exact ⟨⟨before.opened, before.unlocked⟩, before.edge, before.announced, before.pending,
        before.restrained⟩
    · rw [isDown] at reads
      contradiction
  | @late _ data hasHandle _ _ isReading below _ isFill =>
    unfold erred at reads ⊢
    split at reads
    · rename_i blocks
      rw [if_pos blocks]
      have isBelow := restrains below
      rw [isFill, blocks] at isBelow
      have stays := queued_below hasHandle (isBelow rfl rfl)
      have wanted := before.wanted below
      rw [← recv.queued_watermarkHighWanted data hasHandle] at wanted
      refine ⟨⟨?_, ?_⟩, ?_, ?_, fun _ => wanted, ?_⟩
      · rw [queued_flowControlState]
        exact before.opened
      · rw [queued_flowControlState]
        exact before.unlocked
      · rw [queued_isEdge]
        exact before.edge
      · intro notWanted
        rw [wanted] at notWanted
        contradiction
      · intro _ violated
        rw [stays] at violated
        contradiction
    · contradiction
  | @filled _ data hasHandle _ isReading below =>
    have wanted := before.wanted below
    rw [← recv.queued_watermarkHighWanted data hasHandle] at wanted
    refine ⟨⟨?_, ?_⟩, ?_, ?_, fun _ => wanted, nofun⟩
    · exact (congrArg FlowControlState.closed
        (recv.queued_flowControlState data hasHandle)).trans before.opened
    · exact (congrArg FlowControlState.lockReceive
        (recv.queued_flowControlState data hasHandle)).trans before.unlocked
    · exact (recv.queued_isEdge data hasHandle).trans before.edge
    · intro notWanted
      rw [wanted] at notWanted
      contradiction

/-- The end of a readable event disables the interest where the watermark is violated. -/
theorem announceHighWatermark_restrained (restrained : Restrained recv)
    (isAnnouncing : recv.phase = .announcing) : Restrained recv.announceHighWatermark := by
  have wanted := restrained.pending (by rw [isAnnouncing]; decide)
  rcases recv.announceHighWatermark_cases with ⟨violated, highWanted, isNext⟩ | ⟨isNext, refused⟩
  · have switchable : Switchable (recv.ended highWanted) := ⟨restrained.opened, restrained.unlocked⟩
    rw [isNext, apply_eq switchable]
    exact ⟨⟨restrained.opened, restrained.unlocked⟩, restrained.edge, fun _ => ⟨rfl, violated⟩,
      fun busy => absurd rfl busy, fun _ _ => rfl⟩
  · rw [isNext]
    refine ⟨⟨restrained.opened, restrained.unlocked⟩, restrained.edge, restrained.announced,
      fun busy => absurd rfl busy, ?_⟩
    intro _ violated
    have notWanted := refused violated
    rw [wanted] at notWanted
    contradiction

theorem setReadQueueLowWatermark_restrained (restrained : Restrained recv) {low : Nat}
    (restrains : recv.Restrains (.setReadQueueLowWatermark low)) :
    Restrained (recv.setReadQueueLowWatermark low) := by
  have switchable : Switchable (recv.lowered low) := ⟨restrained.opened, restrained.unlocked⟩
  rcases recv.setReadQueueLowWatermark_cases low with
    ⟨isRelaxed, isLow⟩ | ⟨isSame, satisfied⟩
  · have below := of_decide_eq_false isLow
    have wanted : recv.receiveQueue.watermarkHighWanted = true := by
      cases isWanted : recv.receiveQueue.watermarkHighWanted with
      | true => rfl
      | false => exact absurd (restrains isWanted) below
    rw [isRelaxed]
    refine relax_restrained switchable restrained.edge ⟨wanted, ?_⟩
    intro _
    refine decide_eq_false ?_
    intro violated
    exact below (Nat.le_trans (sanitizeIncoming_spec _ _).1 violated)
  · rw [isSame]
    refine ⟨switchable, restrained.edge, ?_, restrained.pending, ?_⟩
    · intro notWanted
      have before := restrained.announced notWanted
      exact ⟨before.1, setLowWatermark_violated satisfied before.2⟩
    · intro isIdle violated
      refine restrained.restrained isIdle (decide_eq_true ?_)
      have reaches := of_decide_eq_true violated
      have raises := (sanitizeIncoming_spec low recv.receiveQueue.watermarkHigh).2.1
      exact Nat.le_trans raises reaches

/-- A high watermark that is set makes its announcement wanted. -/
theorem raised_restrained {high : Nat} (switchable : Switchable (recv.raised high))
    (edge : recv.receiveQueue.isEdge = true) (isNext : next = (recv.raised high).apply ∨
      (recv.raised high).receiveQueue.isHighWatermarkViolated = false ∧
        (next = (recv.raised high).relax ∨ next = recv.raised high)) : Restrained next := by
  rcases isNext with isApplied | ⟨below, isRelaxed | isSame⟩
  · rw [isApplied, apply_eq switchable]
    exact ⟨⟨switchable.opened, switchable.unlocked⟩, edge, nofun, fun _ => rfl, fun _ _ => rfl⟩
  · rw [isRelaxed]
    exact relax_restrained switchable edge ⟨rfl, fun _ => below⟩
  · rw [isSame]
    refine ⟨switchable, edge, nofun, fun _ => rfl, ?_⟩
    intro _ violated
    rw [below] at violated
    contradiction

theorem setReadQueueHighWatermark_restrained (restrained : Restrained recv) (high : Nat) :
    Restrained (recv.setReadQueueHighWatermark high) := by
  have switchable : Switchable (recv.raised high) := ⟨restrained.opened, restrained.unlocked⟩
  refine raised_restrained switchable restrained.edge ?_
  rcases recv.setReadQueueHighWatermark_cases high with
    ⟨isApplied, _⟩ | ⟨isSame, below⟩
  · exact .inl isApplied
  · exact .inr ⟨below, .inr isSame⟩

theorem setReadQueueWatermarks_restrained (restrained : Restrained recv) (low high : Nat) :
    Restrained (recv.setReadQueueWatermarks low high) := by
  have switchable : Switchable ((recv.lowered low).raised high) :=
    ⟨restrained.opened, restrained.unlocked⟩
  have edge : (recv.lowered low).receiveQueue.isEdge = true := restrained.edge
  refine raised_restrained switchable edge ?_
  rcases recv.setReadQueueWatermarks_cases low high with
    ⟨isRelaxed, below⟩ | ⟨isApplied, _⟩ | ⟨isSame, _, below⟩
  · exact .inr ⟨below, .inl isRelaxed⟩
  · exact .inl isApplied
  · exact .inr ⟨below, .inr isSame⟩

/-- A critical section that meets the condition keeps reading held back. -/
theorem Does.restrained [DecidableEq Token] {action : Action Token} (does : Does recv action next)
    (isEnabled : recv.enabled action = true) (restrains : recv.Restrains action)
    (restrained : recv.canReceive = true -> Restrained recv)
    (reads : next.canReceive = true) : Restrained next := by
  have before := restrained (does.canReceive reads)
  cases does with
  | readable reading => exact reading.restrained restrains before reads
  | @satisfied _ _ _ _ enough delivers =>
    have isDraining : recv.phase = .draining := of_decide_eq_true isEnabled
    have wanted := delivers.wanted (before.pending (by rw [isDraining]; decide))
    refine ⟨⟨before.opened, before.unlocked⟩, delivers.isEdge.trans before.edge, ?_,
      fun _ => wanted, ?_⟩
    · intro notWanted
      rw [wanted] at notWanted
      contradiction
    · intro isIdle
      rw [isDraining] at isIdle
      contradiction
  | drained =>
    have isDraining : recv.phase = .draining := of_decide_eq_true isEnabled
    have wanted := before.pending (by rw [isDraining]; decide)
    exact ⟨⟨before.opened, before.unlocked⟩, before.edge, before.announced, fun _ => wanted, nofun⟩
  | announced =>
    exact announceHighWatermark_restrained before (of_decide_eq_true isEnabled)
  | refused => exact before
  | received enough delivers =>
    unfold Restrains at restrains
    dsimp only at restrains
    rw [if_pos enough] at restrains
    exact finishReceive_restrained (before.delivered delivers restrains) _
  | blocked few =>
    unfold Restrains at restrains
    dsimp only at restrains
    rw [if_neg (Nat.not_le_of_lt few)] at restrains
    exact relax_restrained before.toSwitchable before.edge restrains
  | refusedAsync => exact before
  | receivedAsync noCallbacks enough delivers =>
    unfold Restrains at restrains
    dsimp only at restrains
    rw [if_pos ⟨List.isEmpty_iff.mpr noCallbacks, enough⟩] at restrains
    have after := before.delivered delivers restrains
    unfold invoking
    split
    · exact ⟨⟨after.opened, after.unlocked⟩, after.edge, after.announced, after.pending,
        after.restrained⟩
    · exact finishReceive_restrained after _
  | waits few =>
    unfold Restrains at restrains
    dsimp only at restrains
    rw [if_neg (fun both => Nat.not_le_of_lt (few (List.isEmpty_iff.mp both.1)) both.2)]
      at restrains
    exact relax_restrained ⟨before.opened, before.unlocked⟩ before.edge restrains
  | resumed =>
    unfold resumeReceive
    split
    · exact before
    · refine finishReceive_restrained ?_ _
      exact ⟨⟨before.opened, before.unlocked⟩, before.edge, before.announced, before.pending,
        before.restrained⟩
  | expired | cancelled =>
    exact ⟨⟨before.opened, before.unlocked⟩, before.edge, before.announced, before.pending,
      before.restrained⟩
  | setLow low =>
    exact setReadQueueLowWatermark_restrained before restrains
  | setHigh high =>
    exact setReadQueueHighWatermark_restrained before high
  | setBoth low high =>
    exact setReadQueueWatermarks_restrained before low high
  | relaxed =>
    rw [relaxFlowControl_eq before.toSwitchable]
    exact relax_restrained before.toSwitchable before.edge restrains
  | shutDown => contradiction
  | completed =>
    have isUp : recv.canReceive = true := reads
    unfold enabled at isEnabled
    rw [isUp] at isEnabled
    contradiction

end Receiver

namespace ReceiveHalf

open Receiver

def Restrained (half : ReceiveHalf Token) : Prop :=
  half.completed = true -> half.receiver.canReceive = true ->
    half.receiver.receiveQueue.callbackQueue = [] ->
    half.receiver.receiveQueue.isHighWatermarkViolated = true ->
    half.receiver.flowControlState.enableReceive = false

def Restrains (half : ReceiveHalf Token) (action : Receiver.Action Token) : Prop :=
  half.receiver.Restrains action

structure Restraining (half : ReceiveHalf Token) : Prop where
  holds : Holds half.receiver.receiveQueue.entryList half.receiver.receiveQueue
  restrained : half.receiver.canReceive = true -> Receiver.Restrained half.receiver
  completed : half.completed = true -> half.receiver.phase = .idle

theorem step_restraining [DecidableEq Token] (half : ReceiveHalf Token)
    (action : Receiver.Action Token) (next : ReceiveHalf Token) (restraining : Restraining half)
    (restrains : half.Restrains action) (taken : half.step action = some next) :
    Restraining next := by
  obtain ⟨_, isEnabled, ⟨does, _, isCompleted⟩ | ⟨isNext, _⟩⟩ := step_cases restraining.holds taken
  · refine ⟨does.holds restraining.holds,
      does.restrained isEnabled restrains restraining.restrained, ?_⟩
    intro completed
    rw [isCompleted, Bool.and_eq_true] at completed
    exact of_decide_eq_true completed.2
  · rw [isNext]
    exact ⟨restraining.holds, restraining.restrained, restraining.completed⟩

/-- In every run whose steps meet the condition, reading is held back. -/
theorem restrained_of_restrains [DecidableEq Token] (lowWatermark highWatermark : Nat)
    (actions : List (Receiver.Action Token))
    (restrains : Run.Along step Restrains (start lowWatermark highWatermark true) actions) :
    Run.Always step Restrained (start lowWatermark highWatermark true) actions := by
  refine (Run.always_of_along step_restraining ?_ restrains).mono ?_
  · refine ⟨start_holds lowWatermark highWatermark true, fun _ => ?_, nofun⟩
    refine ⟨⟨rfl, rfl⟩, rfl, nofun, fun busy => absurd rfl busy, ?_⟩
    intro _ violated
    have reaches : (sanitizeIncomingQueueWatermarks _ highWatermark).2 ≤ 0 :=
      of_decide_eq_true violated
    exact absurd reaches (Nat.not_le_of_lt (sanitizeIncoming_spec _ _).2.2)
  · intro half restraining completed reads _ violated
    exact (restraining.restrained reads).restrained (restraining.completed completed) violated

def emptiedBetween : List (Receiver.Action Nat) :=
  [.readable (.received (List.replicate 10 7) false) .plain, .satisfyCallback,
    .announceHighWatermark, .receive {},
    .readable (.received (List.replicate 12 7) false) .plain, .satisfyCallback,
    .announceHighWatermark]

/-- Reading is held back twice. -/
theorem emptiedBetween_restrained : Run.Always step Restrained (start 1 10 true) emptiedBetween ∧
      ∃ final, Run.run step (start 1 10 true) emptiedBetween = some final ∧
        final.receiver.receiveQueue.size = 12 ∧
        final.receiver.flowControlState.enableReceive = false := by
  refine ⟨restrained_of_restrains 1 10 emptiedBetween ?_, _, rfl, rfl, rfl⟩
  refine ⟨nofun, trivial, trivial, fun _ _ => by decide, nofun, trivial, trivial, trivial⟩

def crossedTwice : List (Receiver.Action Nat) :=
  [.readable (.received (List.replicate 10 7) false) .plain, .satisfyCallback,
    .announceHighWatermark, .receive { maxSize := 1 },
    .readable (.received (List.replicate 5 7) false) .plain, .satisfyCallback,
    .announceHighWatermark]

/-- The queue is then above its high watermark, and the interest is enabled. -/
theorem crossedTwice_unrestrained : ¬ Run.Always step Restrained (start 1 10 true) crossedTwice ∧
      ∃ final, Run.run step (start 1 10 true) crossedTwice = some final ∧
        final.receiver.receiveQueue.size = 14 ∧ final.receiver.receiveQueue.watermarkHigh = 10 ∧
        final.receiver.flowControlState.enableReceive = true := by
  constructor
  · intro always
    obtain ⟨_, _, _, _, _, _, _, restrained⟩ := always
    have isDisabled := restrained rfl rfl rfl rfl
    contradiction
  · exact ⟨_, rfl, rfl, rfl, rfl⟩

end ReceiveHalf

end NtfCore.Ntcr
