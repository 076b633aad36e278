import NtfCore.Foundation.StableMap
import Mathlib.Algebra.Order.Ring.Int

/-!
Contract: a chronology and its timers (`ntcs::Chronology`).

Every critical section of `schedule`, `cancel`, `close`, `announce`, `arrive` and
`clear` is one function, and any thread may take the next section of its call at
any time. Callbacks are calls like any other. The deadline map is the stable
sorted association list that the skip list refines; the addresses of its pairs
are handed out by the pool.

Owns: the timers, the deadline map with its cached minimum, the references the
chronology holds, the calls and announcements under way, and the sections.
-/

namespace NtfCore.Ntcs

open NtfCore.Foundation Function

/-! ## Time

A time interval is a number of nanoseconds, and a deadline in the map is a number
of microseconds. -/

/-- `Chronology::k_MAX_TIME_INTERVAL`. -/
def maxTimeInterval : Int :=
  (2 ^ 63 - 1) / 1000000 * 1000000000 + ((2 ^ 63 - 1) % 1000000 * 1000 + 999)

/-- `bsls::TimeInterval::totalMicroseconds`, which rounds toward zero. -/
def totalMicroseconds (interval : Int) : Int := interval.tdiv 1000

/-- `bsls::TimeInterval::totalMilliseconds`. -/
def totalMilliseconds (interval : Int) : Int := interval.tdiv 1000000

/-- `bsls::TimeInterval::setTotalMicroseconds`. -/
def ofMicroseconds (microseconds : Int) : Int := microseconds * 1000

def addMicroseconds (left right : Int) : Int := (left + right).bmod (2 ^ 64)

/-! ## Timers -/

/-- `Chronology::Timer::State`. -/
inductive TimerState where
  | waiting
  | scheduled
  | closed
deriving DecidableEq

structure TimerOptions where
  oneShot : Bool := false
  backoff : Bool := false
  wantDeadline : Bool := true

/-- `Chronology::Timer`. The callback stands for the callback or the session, and
the handle is `d_deadlineMapHandle`. -/
structure Timer where
  created : Bool := false
  options : TimerOptions := {}
  callback : Bool := false
  period : Int := 0
  state : TimerState := .waiting
  handle : Option Nat := none

/-- `Chronology::DueEntry`. The deadline is a number of microseconds. -/
structure DueEntry where
  timer : Nat
  deadline : Int
deriving DecidableEq

inductive TimerCall where
  | schedule (timer : Nat) (deadline : Int)
  | cancel (timer : Nat)
  | close (timer : Nat)

/-- An `announce` after its critical section: the timer whose callback runs, and
those that have yet to arrive. -/
structure Announcement where
  current : Option DueEntry := none
  due : List DueEntry

/-! ## The chronology -/

/-- `ntcs::Chronology` without a parent. `references` counts the references that
the chronology has acquired on a timer and not released, `releasing` holds the
timers that a `clear` has still to release, and `announced` the deadline events
that were dispatched. -/
structure Chronology where
  timers : Nat -> Timer := fun _ => {}
  deadlineMap : StableMap Nat Int Nat := {}
  deadlineMapEmpty : Bool := true
  deadlineMapEarliest : Int := 0
  functorQueue : List Nat := []
  functorQueueEmpty : Bool := true
  references : Nat -> Int := fun _ => 0
  calls : Nat -> Option TimerCall := fun _ => none
  announcing : List Announcement := []
  releasing : List Nat := []
  announced : List DueEntry := []

namespace Chronology

def setTimer (chronology : Chronology) (timer : Nat) (value : Timer) : Chronology :=
  { chronology with timers := Function.update chronology.timers timer value }

@[simp] theorem setTimer_self (chron : Chronology) (timer : Nat) (value : Timer) :
    (chron.setTimer timer value).timers timer = value :=
  update_self _ _ _

theorem setTimer_of_ne (chron : Chronology) {timer other : Nat} (value : Timer)
    (apart : other ≠ timer) : (chron.setTimer timer value).timers other = chron.timers other :=
  update_of_ne apart _ _

/-- `acquireRef` and `releaseRef` on behalf of the chronology. -/
def addReferences (chronology : Chronology) (timer : Nat) (amount : Int) : Chronology :=
  { chronology with
    references := Function.update chronology.references timer
      (chronology.references timer + amount) }

@[simp] theorem addReferences_self (chron : Chronology) (timer : Nat) (amount : Int) :
    (chron.addReferences timer amount).references timer = chron.references timer + amount :=
  update_self _ _ _

theorem addReferences_of_ne (chron : Chronology) {timer other : Nat} (amount : Int)
    (apart : other ≠ timer) :
    (chron.addReferences timer amount).references other = chron.references other :=
  update_of_ne apart _ _

/-- `Chronology::createTimer`. -/
def createTimer (chronology : Chronology) (timer : Nat) (options : TimerOptions)
    (callback : Bool) : Chronology :=
  chronology.setTimer timer { created := true, options := options, callback := callback }

/-- The deadline that `Timer::schedule` enters into the map. -/
def effectiveDeadline (deadline : Int) : Int := totalMicroseconds (min deadline maxTimeInterval)

/-- The first section of `Timer::schedule`. An error is `none`. -/
def beginSchedule (chronology : Chronology) (timer : Nat) (period : Int) : Option Chronology :=
  let value := chronology.timers timer
  match value.state with
  | .closed => none
  | _ => some (chronology.setTimer timer
      { value with period := min period maxTimeInterval, state := .scheduled })

/-- The second section of `Timer::schedule`. `updateR` of a handle that is not in
the map does nothing and writes no flag. Neither `addL` nor `addR` tells equal
keys apart from their order, so that both insert alike. -/
def finishSchedule (chronology : Chronology) (timer : Nat) (deadline : Int) (address : Nat) :
    Chronology :=
  let value := chronology.timers timer
  let map := match value.handle with
    | some handle => chronology.deadlineMap.update handle deadline
    | none => chronology.deadlineMap.insert address deadline timer
  let newFrontFlag := match value.handle with
    | some handle => decide (handle ∈ chronology.deadlineMap.handles) && map.first == some handle
    | none => map.first == some address
  let acquired := match value.handle with
    | some _ => chronology
    | none => (chronology.addReferences timer 1).setTimer timer { value with handle := some address }
  { acquired with
    deadlineMap := map
    deadlineMapEarliest := if newFrontFlag then deadline else chronology.deadlineMapEarliest
    deadlineMapEmpty :=
      if map.entries.length = 1 then false else chronology.deadlineMapEmpty }

/-- The first section of `Timer::cancel`. -/
def beginCancel (chronology : Chronology) (timer : Nat) : Option Chronology :=
  let value := chronology.timers timer
  match value.state, value.callback with
  | .scheduled, true =>
    some (chronology.setTimer timer { value with state := .waiting, period := 0 })
  | _, _ => none

/-- The first section of `Timer::close`. -/
def beginClose (chronology : Chronology) (timer : Nat) : Option Chronology :=
  let value := chronology.timers timer
  match value.state, value.callback with
  | .closed, _ => none
  | _, false => none
  | _, true =>
    some (chronology.setTimer timer
      { value with state := .closed, period := 0, callback := false })

/-- The second section of `Timer::cancel` and of `Timer::close`. -/
def detach (chronology : Chronology) (timer : Nat) : Chronology :=
  let value := chronology.timers timer
  match value.handle with
  | none => chronology
  | some handle =>
    let map := chronology.deadlineMap.erase handle
    let released :=
      (chronology.addReferences timer (-1)).setTimer timer { value with handle := none }
    match map.entries.head? with
    | some front => { released with deadlineMap := map, deadlineMapEarliest := front.key }
    | none => { released with
        deadlineMap := map, deadlineMapEmpty := true, deadlineMapEarliest := 0 }

/-! ## Announcing -/

/-- The variables of the loop of `announce`: the timers due, the handle of the first
timer that was put back at the current time, and how often a backoff was applied. -/
structure Collecting where
  chronology : Chronology
  due : List DueEntry := []
  firstReinserted : Option Nat := none
  backoffs : Nat := 0

/-- One round of the loop of `announce`, for the front of the map. The outcome of
a backoff depends on random numbers, and is given for each application. -/
def collectEntry (now : Int) (backoff : Nat -> Int -> Int) (collecting : Collecting)
    (current : StableEntry Nat Int Nat) : Collecting :=
  let chronology := collecting.chronology
  let timer := current.data
  let value := chronology.timers timer
  let due := collecting.due ++ [{ timer := timer, deadline := current.key }]
  if value.period ≠ 0 then
    let period := if value.options.backoff then backoff collecting.backoffs value.period
      else value.period
    let sum := addMicroseconds current.key (totalMicroseconds period)
    let next := if sum < now then now else sum
    let map := match value.handle with
      | some handle => chronology.deadlineMap.update handle next
      | none => chronology.deadlineMap
    { chronology := { (chronology.addReferences timer 1).setTimer timer
        { value with period := period } with deadlineMap := map }
      due := due
      firstReinserted :=
        if next = now ∧ collecting.firstReinserted = none then value.handle
        else collecting.firstReinserted
      backoffs := collecting.backoffs + 1 }
  else
    let map := match value.handle with
      | some handle => chronology.deadlineMap.erase handle
      | none => chronology.deadlineMap
    { collecting with
      chronology := { chronology.setTimer timer { value with
        handle := none } with
        deadlineMap := map }
      due := due }

/-- The loop of `announce`. -/
def collectLoop (now : Int) (backoff : Nat -> Int -> Int) : Nat -> Collecting -> Collecting
  | 0, collecting => collecting
  | fuel + 1, collecting =>
    match collecting.chronology.deadlineMap.entries.head? with
    | none => collecting
    | some current =>
      if now < current.key then collecting
      else if some current.handle = collecting.firstReinserted then collecting
      else collectLoop now backoff fuel (collectEntry now backoff collecting current)

/-- What each round of the loop preserves, for an entry of the map, the loop preserves. -/
theorem collectLoop_induct {P : Collecting -> Prop} {now : Int} {backoff : Nat -> Int -> Int}
    (each : ∀ round, ∀ current ∈ round.chronology.deadlineMap.entries, P round ->
      P (collectEntry now backoff round current)) (fuel : Nat) {round : Collecting}
    (start : P round) : P (collectLoop now backoff fuel round) := by
  induction fuel generalizing round with
  | zero => exact start
  | succ _ ih =>
    unfold collectLoop
    split
    · exact start
    · rename_i _ isFront
      split
      · exact start
      · split
        · exact start
        · exact ih (each round _ (List.mem_of_mem_head? isFront) start)

/-- What `announce` does with the cached minimum after its loop. -/
def refresh (chronology : Chronology) : Chronology :=
  match chronology.deadlineMap.entries.head? with
  | none => { chronology with deadlineMapEmpty := true, deadlineMapEarliest := 0 }
  | some front => { chronology with deadlineMapEarliest := front.key }

/-- What the critical section of `announce` does with the deferred functions: the
queue afterwards, and whether the timers are left for a later call. -/
def takeFunctors (chronology : Chronology) (single : Bool) : Chronology × Bool :=
  match chronology.functorQueue with
  | [] => (chronology, false)
  | _ :: rest =>
    if single then
      ({ chronology with
        functorQueue := rest
        functorQueueEmpty := if rest = [] then true else chronology.functorQueueEmpty }, true)
    else ({ chronology with functorQueue := [], functorQueueEmpty := true }, false)

/-- The critical section of `Chronology::announce`. The loop takes each pair of the
map at most once. -/
def collect (chronology : Chronology) (single : Bool) (now : Int)
    (backoff : Nat -> Int -> Int) : Chronology :=
  let (taken, done) := chronology.takeFunctors single
  if taken.deadlineMap.entries ≠ [] ∧ done = false then
    let collected := collectLoop (totalMicroseconds now) backoff
      (taken.deadlineMap.entries.length + 1) { chronology := taken }
    let refreshed := collected.chronology.refresh
    { refreshed with announcing := refreshed.announcing ++ [{ due := collected.due }] }
  else taken

/-- The critical section of `Timer::arrive`, with the deadline event. -/
def arrive (chronology : Chronology) (entry : DueEntry) : Chronology :=
  let value := chronology.timers entry.timer
  if value.state = .scheduled ∧ value.callback = true then
    let arrived :=
      if value.options.oneShot then { value with callback := false, state := TimerState.closed }
      else if value.period ≠ 0 then { value with state := TimerState.scheduled }
      else { value with state := TimerState.waiting }
    let dispatched := if value.options.wantDeadline then [entry] else []
    { chronology.setTimer entry.timer arrived with
      announced := chronology.announced ++ dispatched }
  else chronology

/-- The critical section of `Chronology::clearTimers`. -/
def clearTimers (chronology : Chronology) : Chronology :=
  match chronology.deadlineMap.entries with
  | [] => chronology
  | entries => { chronology with
      deadlineMap := chronology.deadlineMap.clear
      deadlineMapEmpty := true
      deadlineMapEarliest := 0
      releasing := chronology.releasing ++ entries.map StableEntry.data }

/-- The critical section of `Chronology::clear`. -/
def clear (chronology : Chronology) : Chronology :=
  { chronology with functorQueue := [], functorQueueEmpty := true }.clearTimers

/-- `Chronology::earliest`, without a parent. -/
def earliest (chronology : Chronology) : Option Int :=
  if chronology.functorQueueEmpty = false then some 0
  else if chronology.deadlineMapEmpty = false then
    some (ofMicroseconds chronology.deadlineMapEarliest)
  else none

/-- `Chronology::timeoutInterval` at the given time. -/
def timeoutInterval (chronology : Chronology) (now : Int) : Option Int :=
  chronology.earliest.map fun deadline => if deadline > now then deadline - now else 0

/-- `Chronology::timeoutInMilliseconds` at the given time. -/
def timeoutInMilliseconds (chronology : Chronology) (now : Int) : Int :=
  match chronology.timeoutInterval now with
  | none => -1
  | some duration =>
    if totalMilliseconds duration ≤ 2 ^ 31 - 1 then totalMilliseconds duration else 2 ^ 31 - 1

/-- A section that a thread may take next. `finish` is the second section of the
call of a thread, with the address the pool hands out; `collect` is the section
of an `announce`; `arrive` starts the callback of the next timer of an
announcement, and `depart` ends it; `execute` defers a function. -/
inductive Action where
  | createTimer (timer : Nat) (options : TimerOptions) (callback : Bool)
  | schedule (thread timer : Nat) (deadline period : Int)
  | cancel (thread timer : Nat)
  | close (thread timer : Nat)
  | finish (thread address : Nat)
  | execute (functor : Nat)
  | collect (single : Bool) (now : Int) (backoff : Nat -> Int -> Int)
  | arrive (index : Nat)
  | depart (index : Nat)

def finishCall (chronology : Chronology) (address : Nat) : TimerCall -> Chronology
  | .schedule timer deadline => chronology.finishSchedule timer deadline address
  | .cancel timer => chronology.detach timer
  | .close timer => chronology.detach timer

def beginCall (chronology : Chronology) (thread timer : Nat) (section? : Option Chronology)
    (call : TimerCall) : Option Chronology :=
  if (chronology.timers timer).created = true ∧ chronology.calls thread = none then
    match section? with
    | some entered => some { entered with calls := Function.update entered.calls thread (some call) }
    | none => some chronology
  else none

/-- Take a section. It is refused when the thread or the announcement is not at
such a section, the timer does not exist, or the address is in use. -/
def step (chronology : Chronology) : Action -> Option Chronology
  | .createTimer timer options callback =>
    if (chronology.timers timer).created = false then
      some (chronology.createTimer timer options callback)
    else none
  | .schedule thread timer deadline period =>
    chronology.beginCall thread timer (chronology.beginSchedule timer period)
      (.schedule timer (effectiveDeadline deadline))
  | .cancel thread timer =>
    chronology.beginCall thread timer (chronology.beginCancel timer) (.cancel timer)
  | .close thread timer =>
    chronology.beginCall thread timer (chronology.beginClose timer) (.close timer)
  | .finish thread address =>
    match chronology.calls thread with
    | none => none
    | some call =>
      if address ∉ chronology.deadlineMap.handles then
        some ({ chronology with
          calls := Function.update chronology.calls thread none }.finishCall address call)
      else none
  | .execute functor =>
    some { chronology with
      functorQueue := chronology.functorQueue ++ [functor], functorQueueEmpty := false }
  | .collect single now backoff => some (chronology.collect single now backoff)
  | .arrive index =>
    match chronology.announcing[index]? with
    | some { current := none, due := entry :: rest } =>
      some ({ chronology with
        announcing := chronology.announcing.set index { current := some entry, due := rest } }.arrive
          entry)
    | _ => none
  | .depart index =>
    match chronology.announcing[index]? with
    | some { current := some entry, due := rest } =>
      some ({ chronology with
        announcing := chronology.announcing.set index { due := rest } }.addReferences
          entry.timer (-1))
    | _ => none

/-- A section of any operation, the clearing ones included. `release` is one round
of the loop that releases what a `clear` has removed. -/
inductive Operation where
  | take (action : Action)
  | clear
  | clearTimers
  | release (timer : Nat)

def operate (chronology : Chronology) : Operation -> Option Chronology
  | .take action => chronology.step action
  | .clear => some chronology.clear
  | .clearTimers => some chronology.clearTimers
  | .release timer =>
    if timer ∈ chronology.releasing then
      some ({ chronology with releasing := chronology.releasing.erase timer }.addReferences
        timer (-1))
    else none

end Chronology

end NtfCore.Ntcs
