/-!
Contract: the flow control state of a socket (`ntcs::FlowControlState`) and the
watermarks of its queues (`ntcs::WatermarkUtil`).

Owns: `apply`, `relax` and `close` of the interest in each direction, as
`ntcs_flowcontrolstate.cpp` computes them; and the sanitization of watermarks with
the comparisons of a size with them.
-/

namespace NtfCore.Ntcs

/-- `ntca::FlowControlType`. -/
inductive FlowControlType where
  | send
  | receive
  | both

namespace FlowControlType

def includesSend : FlowControlType -> Bool
  | .send | .both => true
  | .receive => false

def includesReceive : FlowControlType -> Bool
  | .receive | .both => true
  | .send => false

end FlowControlType

/-- `ntcs::FlowControlState`. -/
structure FlowControlState where
  enableSend : Bool := false
  enableReceive : Bool := false
  lockSend : Bool := false
  lockReceive : Bool := false
  closed : Bool := false

namespace FlowControlState

/-- The state behind `FlowControlState::apply`. Its result, whether an interest was
disabled, decides the call of the reactor and the announcement only. -/
def apply (state : FlowControlState) (type : FlowControlType) (lock : Bool) : FlowControlState :=
  if state.closed then state
  else
    let sending :=
      if type.includesSend then
        { state with
          enableSend := state.enableSend && state.lockSend
          lockSend := state.lockSend || lock }
      else state
    if type.includesReceive then
      { sending with
        enableReceive := state.enableReceive && state.lockReceive
        lockReceive := state.lockReceive || lock }
    else sending

/-- The state behind `FlowControlState::relax`. -/
def relax (state : FlowControlState) (type : FlowControlType) (unlock : Bool) : FlowControlState :=
  if state.closed then state
  else
    let sending :=
      if type.includesSend then
        { state with
          enableSend := state.enableSend || !(state.lockSend && !unlock)
          lockSend := state.lockSend && !unlock }
      else state
    if type.includesReceive then
      { sending with
        enableReceive := state.enableReceive || !(state.lockReceive && !unlock)
        lockReceive := state.lockReceive && !unlock }
    else sending

/-- `FlowControlState::close`. -/
def close : FlowControlState :=
  { closed := true }

variable {state : FlowControlState}

section

variable (opened : state.closed = false)
include opened

open FlowControlType

theorem apply_receive (unlocked : state.lockReceive = false) :
    state.apply .receive false = { state with enableReceive := false } := by
  cases state
  subst opened unlocked
  simp [apply, includesSend, includesReceive]

theorem relax_receive (unlocked : state.lockReceive = false) :
    state.relax .receive false = { state with enableReceive := true } := by
  cases state
  subst opened unlocked
  simp [relax, includesSend, includesReceive]

variable (unlocked : state.lockSend = false)
include unlocked

theorem apply_send : state.apply .send false = { state with enableSend := false } := by
  cases state
  subst opened unlocked
  simp [apply, includesSend, includesReceive]

theorem relax_send (unlock : Bool) :
    state.relax .send unlock = { state with enableSend := true } := by
  cases state
  subst opened unlocked
  simp [relax, includesSend, includesReceive]

/-- Interest in sending that is not locked, behind a relaxation of either direction. -/
theorem relax_enableSend (type : FlowControlType) (unlock : Bool) :
    (state.relax type unlock).enableSend = (state.enableSend || type.includesSend) ∧
      (state.relax type unlock).closed = false ∧ (state.relax type unlock).lockSend = false := by
  cases state
  subst opened unlocked
  cases type with
  | send | receive
  | both => simp [relax, includesSend, includesReceive]

end

end FlowControlState

/-- `WatermarkUtil::sanitizeIncomingQueueWatermarks`. -/
def sanitizeIncomingQueueWatermarks (low high : Nat) : Nat × Nat :=
  let low := if low = 0 then 1 else low
  (low, if high < low then low else high)

/-- `WatermarkUtil::sanitizeOutgoingQueueWatermarks`. -/
def sanitizeOutgoingQueueWatermarks (low high : Nat) : Nat × Nat :=
  let high := if high = 0 then 1 else high
  (if high ≤ low then high - 1 else low, high)

variable (low high : Nat)

theorem sanitizeIncoming_spec : (sanitizeIncomingQueueWatermarks low high).1 ≤
      (sanitizeIncomingQueueWatermarks low high).2 ∧
    high ≤ (sanitizeIncomingQueueWatermarks low high).2 ∧
    0 < (sanitizeIncomingQueueWatermarks low high).2 := by
  unfold sanitizeIncomingQueueWatermarks
  dsimp only
  split
  · split
    · omega
    · omega
  · split
    · omega
    · omega

theorem sanitizeOutgoing_spec : (sanitizeOutgoingQueueWatermarks low high).1 <
      (sanitizeOutgoingQueueWatermarks low high).2 ∧
    (sanitizeOutgoingQueueWatermarks low high).1 ≤ low := by
  unfold sanitizeOutgoingQueueWatermarks
  dsimp only
  split
  · split
    · omega
    · omega
  · split
    · omega
    · omega

end NtfCore.Ntcs
