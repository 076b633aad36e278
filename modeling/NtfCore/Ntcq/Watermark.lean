import NtfCore.Ntcq.Send

/-!
Contract: the watermarks of a send queue (`ntcq::SendQueue`, `ntcs::WatermarkUtil`).

Owns: the watermarks and how they are made valid, which of the two events is wanted, and
`authorizeLowWatermarkEvent` and `authorizeHighWatermarkEvent`; and the order of the events
along every run of calls of the queue.
-/

namespace NtfCore.Ntcq

open NtfCore.Foundation List

/-- The two watermarks, as `sanitizeOutgoingQueueWatermarks` leaves them. -/
structure Watermarks where
  low : Nat
  high : Nat
  ordered : low < high

namespace WatermarkUtil

/-- `WatermarkUtil::sanitizeOutgoingQueueWatermarks`. -/
def sanitizeOutgoingQueueWatermarks (low high : Nat) : Watermarks :=
  let validHigh := if high = 0 then 1 else high
  { low := if validHigh ≤ low then validHigh - 1 else low
    high := validHigh
    ordered := by
      have positive : 0 < validHigh := by
        simp only [validHigh]
        split <;> omega
      split <;> omega }

/-- `WatermarkUtil::isOutgoingQueueLowWatermarkSatisfied`. -/
def isOutgoingQueueLowWatermarkSatisfied (size low : Nat) : Bool :=
  size ≤ low

/-- `WatermarkUtil::isOutgoingQueueHighWatermarkViolated`. -/
def isOutgoingQueueHighWatermarkViolated (size high : Nat) : Bool :=
  high ≤ size

end WatermarkUtil

open WatermarkUtil

inductive WatermarkEvent where
  | low
  | high
deriving DecidableEq

structure Authorization where
  event : WatermarkEvent
  size : Nat
  watermark : Nat

variable {Token Context Callback : Type}

structure WatermarkedQueue (Token Context Callback : Type) where
  system : SendSystem Token Context Callback := {}
  watermarks : Watermarks := sanitizeOutgoingQueueWatermarks 0 67108864
  lowWanted : Bool := false
  highWanted : Bool := true
  authorized : List Authorization := []

namespace WatermarkedQueue

def size (queue : WatermarkedQueue Token Context Callback) : Nat :=
  queue.system.queue.size

/-- `SendQueue::setLowWatermark`. -/
def setLowWatermark (queue : WatermarkedQueue Token Context Callback) (low : Nat) :
    WatermarkedQueue Token Context Callback :=
  { queue with watermarks := sanitizeOutgoingQueueWatermarks low queue.watermarks.high }

/-- `SendQueue::setHighWatermark`. -/
def setHighWatermark (queue : WatermarkedQueue Token Context Callback) (high : Nat) :
    WatermarkedQueue Token Context Callback :=
  { queue with watermarks := sanitizeOutgoingQueueWatermarks queue.watermarks.low high }

/-- `SendQueue::authorizeLowWatermarkEvent`. -/
def authorizeLowWatermarkEvent (queue : WatermarkedQueue Token Context Callback) :
    Bool × WatermarkedQueue Token Context Callback :=
  if isOutgoingQueueLowWatermarkSatisfied queue.size queue.watermarks.low ∧ queue.lowWanted then
    (true, { queue with
      lowWanted := false
      highWanted := true
      authorized := queue.authorized ++ [⟨.low, queue.size, queue.watermarks.low⟩] })
  else (false, queue)

/-- `SendQueue::authorizeHighWatermarkEvent` with an effective high watermark. -/
def authorizeEffective (queue : WatermarkedQueue Token Context Callback) (effective : Nat) :
    Bool × WatermarkedQueue Token Context Callback :=
  if isOutgoingQueueHighWatermarkViolated queue.size effective ∧ queue.highWanted then
    (true, { queue with
      lowWanted := true
      highWanted := false
      authorized := queue.authorized ++ [⟨.high, queue.size, effective⟩] })
  else (false, queue)

/-- `SendQueue::authorizeHighWatermarkEvent`. -/
def authorizeHighWatermarkEvent (queue : WatermarkedQueue Token Context Callback) :
    Bool × WatermarkedQueue Token Context Callback :=
  queue.authorizeEffective queue.watermarks.high

inductive Action (Token Context Callback : Type) where
  /-- A call that pushes, pops or removes entries. -/
  | change (action : SendAction Token Context Callback)
  | setLowWatermark (low : Nat)
  | setHighWatermark (high : Nat)
  | authorizeLowWatermarkEvent
  | authorizeHighWatermarkEvent
  | authorizeEffective (effective : Nat)

def step [DecidableEq Token] (queue : WatermarkedQueue Token Context Callback) :
    Action Token Context Callback -> Option (WatermarkedQueue Token Context Callback)
  | .change action => (queue.system.step action).map fun system =>
      { queue with system := system }
  | .setLowWatermark low => some (queue.setLowWatermark low)
  | .setHighWatermark high => some (queue.setHighWatermark high)
  | .authorizeLowWatermarkEvent => some queue.authorizeLowWatermarkEvent.2
  | .authorizeHighWatermarkEvent => some queue.authorizeHighWatermarkEvent.2
  | .authorizeEffective effective => some (queue.authorizeEffective effective).2

end WatermarkedQueue

/-! ## Order of the events -/

def WatermarkEvent.alternating (index : Nat) : WatermarkEvent :=
  if index % 2 = 0 then .high else .low

namespace Authorization

def Exceeds (authorization : Authorization) : Prop :=
  match authorization.event with
  | .low => authorization.size ≤ authorization.watermark
  | .high => authorization.watermark < authorization.size

def Reaches (authorization : Authorization) : Prop :=
  match authorization.event with
  | .low => authorization.size ≤ authorization.watermark
  | .high => authorization.watermark ≤ authorization.size

instance : DecidablePred Exceeds
  | ⟨.low, size, watermark⟩ => inferInstanceAs (Decidable (size ≤ watermark))
  | ⟨.high, size, watermark⟩ => inferInstanceAs (Decidable (watermark < size))

end Authorization

namespace WatermarkedQueue

def Orderly (justified : Authorization -> Prop)
    (queue : WatermarkedQueue Token Context Callback) : Prop :=
  queue.authorized.map Authorization.event =
      (List.range queue.authorized.length).map WatermarkEvent.alternating ∧
    (∀ authorization ∈ queue.authorized, justified authorization) ∧
    queue.lowWanted = !queue.highWanted

instance (justified : Authorization -> Prop) [DecidablePred justified]
    (queue : WatermarkedQueue Token Context Callback) : Decidable (queue.Orderly justified) :=
  inferInstanceAs (Decidable (_ ∧ _))

structure Invariant (queue : WatermarkedQueue Token Context Callback) : Prop where
  orderly : queue.Orderly Authorization.Reaches
  next : queue.highWanted = decide (queue.authorized.length % 2 = 0)

variable {queue next : WatermarkedQueue Token Context Callback}

theorem Invariant.push (holds : queue.Invariant) {authorization : Authorization}
    (isNext : next.authorized = queue.authorized ++ [authorization])
    (isEvent : authorization.event = .alternating queue.authorized.length)
    (reaches : authorization.Reaches)
    (toggles : next.highWanted = !queue.highWanted ∧ next.lowWanted = queue.highWanted) :
    next.Invariant := by
  obtain ⟨alternates, justified, _⟩ := holds.orderly
  constructor
  · refine ⟨?_, ?_, ?_⟩
    · rw [isNext, map_append, length_append, length_singleton, range_succ,
        map_append, alternates, map_singleton, map_singleton, isEvent]
    · intro other mem
      rw [isNext] at mem
      obtain isOlder | isNew := mem_append.mp mem
      · exact justified other isOlder
      · rw [mem_singleton.mp isNew]
        exact reaches
    · rw [toggles.1, toggles.2, Bool.not_not]
  · rw [toggles.1, isNext, holds.next, length_append, length_singleton]
    by_cases isEven : queue.authorized.length % 2 = 0
    · have isOdd : ¬ (queue.authorized.length + 1) % 2 = 0 := by omega
      simp [isEven, isOdd]
    · have isEven' : (queue.authorized.length + 1) % 2 = 0 := by omega
      simp [isEven, isEven']

variable {queue : WatermarkedQueue Token Context Callback}

theorem authorizeLowWatermarkEvent_invariant
    (holds : queue.Invariant) : queue.authorizeLowWatermarkEvent.2.Invariant := by
  unfold authorizeLowWatermarkEvent
  split
  · rename_i authorizes
    have highUnwanted : queue.highWanted = false := by
      have wanted := holds.orderly.2.2
      rw [authorizes.2] at wanted
      simpa using wanted.symm
    have isOdd : ¬ queue.authorized.length % 2 = 0 := by
      have isNext := holds.next
      rw [highUnwanted] at isNext
      simpa using isNext.symm
    have satisfied : queue.size ≤ queue.watermarks.low := of_decide_eq_true authorizes.1
    refine holds.push rfl ?_ satisfied ?_
    · simp [WatermarkEvent.alternating, isOdd]
    · simp [highUnwanted]
  · exact holds

theorem authorizeEffective_invariant (holds : queue.Invariant) (effective : Nat) :
    (queue.authorizeEffective effective).2.Invariant := by
  unfold authorizeEffective
  split
  · rename_i authorizes
    have isEven : queue.authorized.length % 2 = 0 := by
      have isNext := holds.next
      rw [authorizes.2] at isNext
      simpa using isNext.symm
    have violated : effective ≤ queue.size := of_decide_eq_true authorizes.1
    refine holds.push rfl ?_ violated ?_
    · simp [WatermarkEvent.alternating, isEven]
    · simp [authorizes.2]
  · exact holds

theorem step_invariant [DecidableEq Token] {action : Action Token Context Callback}
    (holds : queue.Invariant) (taken : queue.step action = some next) : next.Invariant := by
  cases action with
  | change =>
    obtain ⟨_, _, isNext⟩ := Option.map_eq_some_iff.mp taken
    rw [← isNext]
    exact ⟨holds.orderly, holds.next⟩
  | setLowWatermark low | setHighWatermark _ =>
    cases taken
    exact ⟨holds.orderly, holds.next⟩
  | authorizeLowWatermarkEvent =>
    cases taken
    exact authorizeLowWatermarkEvent_invariant holds
  | authorizeHighWatermarkEvent =>
    cases taken
    exact authorizeEffective_invariant holds queue.watermarks.high
  | authorizeEffective effective =>
    cases taken
    exact authorizeEffective_invariant holds effective

/-- In every run the events alternate, starting with a high one, a high event is authorized
only when the size has reached the high watermark and a low event only when it is at most the
low watermark, and one of the two is wanted in every state. -/
theorem always_orderly [DecidableEq Token] (actions : List (Action Token Context Callback)) :
    Run.Always step (Orderly Authorization.Reaches)
      ({} : WatermarkedQueue Token Context Callback) actions := by
  have start : ({} : WatermarkedQueue Token Context Callback).Invariant :=
    ⟨⟨rfl, by simp, rfl⟩, rfl⟩
  have always : Run.Always step Invariant ({} : WatermarkedQueue Token Context Callback) actions :=
    Run.always_of_keeps (fun _ _ _ holds taken => step_invariant holds taken) start
  exact always.mono fun _ holds => holds.orderly

/-- A queue that is filled up to its high watermark, and not beyond. -/
theorem not_always_exceeds_filled : ¬ ∀ actions : List (Action Nat Nat Nat),
      Run.Always step (Orderly Authorization.Exceeds) ({} : WatermarkedQueue Nat Nat Nat) actions :=
  fun always => absurd
    (always [.setHighWatermark 1, .change (.pushEntry { data := some [7], length := 1 }),
      .authorizeHighWatermarkEvent])
    (by decide)

end WatermarkedQueue

end NtfCore.Ntcq
