import NtfCore.Foundation.Run
import Mathlib.Data.List.Perm.Basic

/-!
Contract: data that a mutex guards, and threads that release the mutex in the middle of what
they do.

A thread is the list of the frames that it has still to execute. One thread at most holds the
mutex, and while it does no other thread takes a step. A frame may end with the mutex
released, as when it invokes a callback: the thread is then suspended, and goes on with its
other frames once it has taken the mutex again, whatever the threads in between have done.

Owns: the steps of such threads, and the rule by which an invariant of the data and of all
frames holds in every state of a run.
-/

namespace NtfCore.Foundation

open List

/-- The data, the frames of the thread that holds the mutex, if one does, and those of the
threads that have released it. -/
structure Monitor (Shared Frame : Type) where
  shared : Shared
  running : List Frame := []
  suspended : List (List Frame) := []

namespace Monitor

variable {Shared Frame Call Input : Type}

/-- What becomes of a frame: frames to execute in its place, at once or once the mutex is
taken again. -/
inductive Outcome (Shared Frame : Type) where
  | continues (shared : Shared) (frames : List Frame)
  | releases (shared : Shared) (frames : List Frame)

/-- What becomes of a frame, with a part of the data only, or with more data. -/
def Outcome.map {Shared' : Type} (f : Shared -> Shared') :
    Outcome Shared Frame -> Outcome Shared' Frame
  | .continues shared frames => .continues (f shared) frames
  | .releases shared frames => .releases (f shared) frames

inductive Action (Call Input : Type) where
  /-- A thread takes the mutex. -/
  | call (call : Call)
  /-- The thread that holds the mutex executes its next frame. -/
  | advance (input : Input)
  /-- A suspended thread takes the mutex again. -/
  | resume (index : Nat)

section Steps

variable (enter : Shared -> Call -> Option (Shared × List Frame))
  (advance : Shared -> Frame -> Input -> Option (Outcome Shared Frame))

def step (monitor : Monitor Shared Frame) : Action Call Input -> Option (Monitor Shared Frame)
  | .call call =>
    match monitor.running with
    | [] => (enter monitor.shared call).map fun entered =>
        { monitor with shared := entered.1, running := entered.2 }
    | _ :: _ => none
  | .advance input =>
    match monitor.running with
    | [] => none
    | frame :: rest => (advance monitor.shared frame input).map fun
        | .continues shared frames =>
          { monitor with shared := shared, running := frames ++ rest }
        | .releases shared frames =>
          { shared := shared, suspended := monitor.suspended ++ [frames ++ rest] }
  | .resume index =>
    match monitor.running with
    | [] => monitor.suspended[index]?.map fun frames =>
        { monitor with running := frames, suspended := monitor.suspended.eraseIdx index }
    | _ :: _ => none

/-- The conditions on calls and on frames, along the steps of threads. -/
def Meets (mayEnter : Shared -> Call -> Prop) (mayAdvance : Shared -> Frame -> Input -> Prop)
    (monitor : Monitor Shared Frame) : Action Call Input -> Prop
  | .call call => mayEnter monitor.shared call
  | .advance input =>
    match monitor.running with
    | [] => True
    | frame :: _ => mayAdvance monitor.shared frame input
  | .resume _ => True

end Steps

/-! ## Invariants -/

/-- A property of the data, of the frame that is executed next, if a thread holds the mutex,
and of the other frames. -/
def Holds (invariant : Shared -> Option Frame -> List Frame -> Prop)
    (monitor : Monitor Shared Frame) : Prop :=
  match monitor.running with
  | [] => invariant monitor.shared none monitor.suspended.flatten
  | frame :: rest =>
    invariant monitor.shared (some frame) (rest ++ monitor.suspended.flatten)

/-- What calls and frames have to do for a property to be an invariant. -/
structure Keeps (enter : Shared -> Call -> Option (Shared × List Frame))
    (advance : Shared -> Frame -> Input -> Option (Outcome Shared Frame))
    (mayEnter : Shared -> Call -> Prop) (mayAdvance : Shared -> Frame -> Input -> Prop)
    (invariant : Shared -> Option Frame -> List Frame -> Prop) : Prop where
  perm : ∀ {shared next others others'}, others.Perm others' ->
    invariant shared next others -> invariant shared next others'
  /-- The mutex is taken by a thread that was suspended, or is done with what it was called
  to do. -/
  focus : ∀ {shared frame others}, invariant shared none (frame :: others) ->
    invariant shared (some frame) others
  enters : ∀ {shared call others shared' frames}, invariant shared none others ->
    mayEnter shared call -> enter shared call = some (shared', frames) ->
    invariant shared' frames.head? (frames.tail ++ others)
  continues : ∀ {shared frame input others shared' frames},
    invariant shared (some frame) others -> mayAdvance shared frame input ->
    advance shared frame input = some (.continues shared' frames) ->
    invariant shared' frames.head? (frames.tail ++ others)
  releases : ∀ {shared frame input others shared' frames},
    invariant shared (some frame) others -> mayAdvance shared frame input ->
    advance shared frame input = some (.releases shared' frames) ->
    invariant shared' none (frames ++ others)

section Rule

variable {enter : Shared -> Call -> Option (Shared × List Frame)}
  {advance : Shared -> Frame -> Input -> Option (Outcome Shared Frame)}
  {mayEnter : Shared -> Call -> Prop} {mayAdvance : Shared -> Frame -> Input -> Prop}
  {invariant : Shared -> Option Frame -> List Frame -> Prop}

section

variable (keeps : Keeps enter advance mayEnter mayAdvance invariant)
include keeps

/-- An invariant under weaker conditions is one under stronger conditions. -/
theorem Keeps.mono {mayEnter' : Shared -> Call -> Prop} {mayAdvance' : Shared -> Frame -> Input -> Prop}
    (entersMore : ∀ shared call, mayEnter' shared call -> mayEnter shared call)
    (advancesMore : ∀ shared frame input,
      mayAdvance' shared frame input -> mayAdvance shared frame input) :
    Keeps enter advance mayEnter' mayAdvance' invariant := { keeps with
  enters holds may := keeps.enters holds (entersMore _ _ may)
  continues holds may := keeps.continues holds (advancesMore _ _ _ may)
  releases holds may := keeps.releases holds (advancesMore _ _ _ may) }

/-- The next frame of a thread that holds the mutex is the first of its frames. -/
theorem Keeps.holds_running {shared : Shared} {frames rest : List Frame}
    {suspended : List (List Frame)}
    (holds : invariant shared frames.head? (frames.tail ++ (rest ++ suspended.flatten))) :
    Holds invariant { shared := shared, running := frames ++ rest, suspended := suspended } := by
  cases frames with
  | cons frame more =>
    unfold Holds
    dsimp only [cons_append]
    rw [append_assoc]
    exact holds
  | nil =>
    cases rest with
    | nil => exact holds
    | cons => exact keeps.focus holds

theorem Keeps.step {monitor next : Monitor Shared Frame} {action : Action Call Input}
    (holds : Holds invariant monitor) (meets : Meets mayEnter mayAdvance monitor action)
    (taken : step enter advance monitor action = some next) : Holds invariant next := by
  obtain ⟨_, running, suspended⟩ := monitor
  cases action with
  | call =>
    cases running with
    | cons frame rest => contradiction
    | nil =>
      obtain ⟨_, isEntered, isNext⟩ := Option.map_eq_some_iff.mp taken
      rw [← isNext]
      have after := keeps.enters holds meets isEntered
      rw [← nil_append suspended.flatten] at after
      have holdsAfter := keeps.holds_running after
      rw [append_nil] at holdsAfter
      exact holdsAfter
  | advance =>
    cases running with
    | nil => contradiction
    | cons frame rest =>
      obtain ⟨outcome, isOutcome, isNext⟩ := Option.map_eq_some_iff.mp taken
      rw [← isNext]
      cases outcome with
      | continues shared' frames =>
        exact keeps.holds_running (keeps.continues holds meets isOutcome)
      | releases _ frames =>
        have after := keeps.releases holds meets isOutcome
        refine keeps.perm ?_ after
        rw [flatten_append, flatten_cons, flatten_nil, append_nil, ← append_assoc]
        exact perm_append_comm
  | resume index =>
    cases running with
    | cons frame rest => contradiction
    | nil =>
      obtain ⟨frames, isSuspended, isNext⟩ := Option.map_eq_some_iff.mp taken
      rw [← isNext]
      obtain ⟨isIndex, isThread⟩ := List.getElem?_eq_some_iff.mp isSuspended
      have isPerm : suspended.flatten.Perm (frames ++ (suspended.eraseIdx index).flatten) := by
        rw [← isThread, ← flatten_cons]
        exact (getElem_cons_eraseIdx_perm isIndex).symm.flatten
      have after := keeps.perm isPerm holds
      cases frames with
      | nil => exact after
      | cons => exact keeps.focus after

theorem Keeps.always {property : Monitor Shared Frame -> Prop}
    (visible : ∀ monitor, Holds invariant monitor -> property monitor)
    {monitor : Monitor Shared Frame} {actions : List (Action Call Input)}
    (start : Holds invariant monitor)
    (meets : Run.Along (Monitor.step enter advance) (Meets mayEnter mayAdvance) monitor actions) :
    Run.Always (Monitor.step enter advance) property monitor actions :=
  (Run.always_of_along (fun _ _ _ holds condition taken => keeps.step holds condition taken)
    start meets).mono visible

end

end Rule

end Monitor

end NtfCore.Foundation
