import Mathlib.Data.List.Basic

/-!
Contract: the interest of a registry entry in events (`ntcs::Interest` and
`ntcs::RegistryEntry`).

Owns: the events that an entry wants, its trigger and its one-shot mode; the operations
that show and hide events, and the announcement of an event.

The interest in errors and in notifications is left out: no mask of events depends on it.
-/

namespace NtfCore.Ntcs

/-- `ntca::ReactorEventTrigger`. -/
inductive Trigger where
  | level
  | edge
deriving DecidableEq

/-- `ntca::ReactorEventOptions`. -/
structure EventOptions where
  trigger : Option Trigger := none
  oneShot : Option Bool := none

inductive Direction where
  | readable
  | writable
deriving DecidableEq

/-- `ntcs::Interest`. -/
structure Interest where
  readable : Bool := false
  writable : Bool := false
  trigger : Trigger := .level
  oneShot : Bool := false

namespace Interest

/-- `wantReadable` and `wantWritable`. -/
def wants (interest : Interest) : Direction -> Bool
  | .readable => interest.readable
  | .writable => interest.writable

def wantReadableOrWritable (interest : Interest) : Bool :=
  interest.readable || interest.writable

/-- `showReadable` and `showWritable` of the interest. -/
def withShown (interest : Interest) : Direction -> Interest
  | .readable => { interest with readable := true }
  | .writable => { interest with writable := true }

/-- `hideReadable` and `hideWritable` of the interest. -/
def withHidden (interest : Interest) : Direction -> Interest
  | .readable => { interest with readable := false }
  | .writable => { interest with writable := false }

def setOptions (interest : Interest) (options : EventOptions) : Interest :=
  { interest with
    trigger := options.trigger.getD interest.trigger
    oneShot := options.oneShot.getD interest.oneShot }

end Interest

namespace RegistryEntry

/-- `showReadable` and `showWritable`, with or without a callback. -/
def showEvent (interest : Interest) (direction : Direction) (options : EventOptions) : Interest :=
  (interest.withShown direction).setOptions options

/-- `hideReadable` and `hideWritable`, with or without a callback. -/
def hideEvent (interest : Interest) (direction : Direction) (options : EventOptions) : Interest :=
  (interest.withHidden direction).setOptions options

/-- `announceReadable` and `announceWritable`: the interest, and whether the event is
processed. -/
def announceEvent (interest : Interest) (direction : Direction) : Interest × Bool :=
  if interest.wants direction then
    if interest.oneShot then (interest.withHidden direction, true) else (interest, true)
  else (interest, false)

end RegistryEntry

@[simp]
theorem wants_withHidden (interest : Interest) (hidden dir : Direction) :
    (interest.withHidden hidden).wants dir = (interest.wants dir && decide (dir ≠ hidden)) := by
  cases hidden <;> cases dir <;> simp [Interest.withHidden, Interest.wants]

@[simp]
theorem oneShot_withHidden (interest : Interest) (hidden : Direction) :
    (interest.withHidden hidden).oneShot = interest.oneShot := by
  cases hidden <;> rfl

theorem announceEvent_fst (interest : Interest) (dir : Direction) :
    (RegistryEntry.announceEvent interest dir).1 =
      if interest.wants dir ∧ interest.oneShot then interest.withHidden dir else interest := by
  unfold RegistryEntry.announceEvent
  cases interest.wants dir <;> cases interest.oneShot <;> rfl

end NtfCore.Ntcs
