import NtfCore.Foundation.Lists
import NtfCore.Foundation.Run

/-!
Contract: detachment of a socket from its reactor (`ntco::Epoll`).

Owns: the part of a registry entry that takes part in its detachment; the atomic steps of
the waiters that process events of the entry (`Epoll::run`) and of the call that detaches
it (`RegistryEntryCatalog::removeAndGetReadyToDetach` with `Epoll::removeDetached`); and
the condition under which every interleaving of them announces the detachment once, when
no waiter processes the entry any more.

The callback and the flag that says a detachment is required are set and reset together
and are one flag. The number of threads is below the largest `unsigned int`.
-/

namespace NtfCore.Ntco.Epoll

open NtfCore.Foundation List Bool

namespace Detachment

inductive Waiter where
  /-- It has looked up the entry. -/
  | marked
  /-- It has announced the event. -/
  | announced
  /-- It has decremented the counter to zero, and is about to announce the detachment. -/
  | counted
  /-- It has announced the detachment, and is about to clear the entry. -/
  | clearing
  | done
deriving DecidableEq

/-- How far the call of `detachSocket` is. -/
inductive Caller where
  | idle
  | removed
  | required
  /-- It has found that no waiter processes the entry. -/
  | examined
  /-- It has announced the detachment, and is about to clear the entry. -/
  | clearing
  | done
deriving DecidableEq

structure Entry where
  registered : Bool := true
  processCounter : Nat := 0
  detachRequired : Bool := false
  waiters : List Waiter := []
  caller : Caller := .idle
  dispatched : Nat := 0
  failed : Bool := false

inductive Action where
  | lookupAndMarkProcessingOngoing
  | announce (index : Nat)
  | decrementProcessCounter (index : Nat)
  | announceDetached (index : Nat)
  | clear (index : Nat)
  | remove
  | setDetachmentRequired
  | isProcessing
  | callerAnnounceDetached
  | callerClear

def Entry.advance (entry : Entry) (index : Nat) (waiter : Waiter) : Entry :=
  { entry with waiters := entry.waiters.set index waiter }

/-- `RegistryEntry::announceDetached`, and how its caller goes on. -/
def Entry.announceDetached (entry : Entry) : Entry :=
  if entry.detachRequired then
    { entry with detachRequired := false, dispatched := entry.dispatched + 1 }
  else entry

def step (entry : Entry) : Action -> Option Entry
  | .lookupAndMarkProcessingOngoing =>
    if entry.registered then
      some { entry with
        processCounter := entry.processCounter + 1
        waiters := entry.waiters ++ [.marked] }
    else some entry
  | .announce index =>
    match entry.waiters[index]? with
    | some .marked => some (entry.advance index .announced)
    | _ => none
  | .decrementProcessCounter index =>
    match entry.waiters[index]? with
    | some .announced =>
      let processCounter := entry.processCounter - 1
      some { entry.advance index (if processCounter = 0 then .counted else .done) with
        processCounter := processCounter }
    | _ => none
  | .announceDetached index =>
    match entry.waiters[index]? with
    | some .counted =>
      some (entry.announceDetached.advance index
        (if entry.detachRequired then .clearing else .done))
    | _ => none
  | .clear index =>
    match entry.waiters[index]? with
    | some .clearing => some { entry.advance index .done with detachRequired := false }
    | _ => none
  | .remove =>
    if entry.caller = .idle ∧ entry.registered then
      some { entry with registered := false, caller := .removed }
    else none
  | .setDetachmentRequired =>
    if entry.caller = .removed then
      if entry.detachRequired then some { entry with failed := true }
      else some { entry with detachRequired := true, caller := .required }
    else none
  | .isProcessing =>
    if entry.caller = .required then
      some { entry with caller := if entry.processCounter ≠ 0 then .done else .examined }
    else none
  | .callerAnnounceDetached =>
    if entry.caller = .examined then
      some { entry.announceDetached with
        caller := if entry.detachRequired then .clearing else .done }
    else none
  | .callerClear =>
    if entry.caller = .clearing then
      some { entry with detachRequired := false, caller := .done }
    else none

def Waiter.processes (waiter : Waiter) : Bool :=
  waiter = .marked || waiter = .announced

/-- The detachment is dispatched at most once, at a time when no thread processes the
entry or can start to; and once all threads are done with a detachment, it was. -/
structure Sound (entry : Entry) : Prop where
  safe : entry.failed = false
  once : entry.dispatched ≤ 1
  exclusive : 0 < entry.dispatched ->
    entry.registered = false ∧ ∀ waiter ∈ entry.waiters, waiter.processes = false
  complete : entry.caller = .done -> (∀ waiter ∈ entry.waiters, waiter = .done) ->
    entry.dispatched = 1

/-- The detachment becomes required while no waiter processes the entry, or while none is
between its decrement of the counter to zero and its announcement of the detachment. -/
def Separate (entry : Entry) (action : Action) : Prop :=
  action = .setDetachmentRequired ->
    entry.processCounter = 0 ∨ Waiter.counted ∉ entry.waiters

/-- How often `setDetachmentRequired` was called. -/
def Caller.requires : Caller -> Nat
  | .idle => 0
  | .removed => 0
  | _ => 1

def Entry.numAt (entry : Entry) (place : Waiter) : Nat :=
  entry.waiters.countP (· = place)

structure Guarded (entry : Entry) : Prop where
  safe : entry.failed = false
  counter : entry.processCounter = entry.waiters.countP Waiter.processes
  removed : entry.registered = true ↔ entry.caller = .idle
  flagged : (if entry.detachRequired then 1 else 0) + entry.dispatched = entry.caller.requires
  clears : entry.caller = .clearing ∨ 0 < entry.numAt .clearing -> 0 < entry.dispatched
  separate : 0 < entry.caller.requires -> entry.processCounter = 0 ∨ entry.numAt .counted = 0
  examined : entry.caller = .examined -> entry.processCounter = 0
  exclusive : 0 < entry.dispatched -> entry.processCounter = 0
  progress : entry.caller = .done -> entry.detachRequired = true ->
    0 < entry.processCounter ∨ 0 < entry.numAt .counted

theorem guarded_attached : Guarded {} where
  safe := rfl
  counter := rfl
  removed := by decide
  flagged := rfl
  clears := by decide
  separate := by decide
  examined := nofun
  exclusive := nofun
  progress := nofun

open Entry

theorem Guarded.sound {entry : Entry} (guarded : Guarded entry) : Sound entry := by
  obtain ⟨safe, counter, removed, flagged, _, _, _, exclusive, progress⟩ := guarded
  have atMost : entry.caller.requires ≤ 1 := by cases entry.caller <;> decide
  constructor
  case safe => exact safe
  case once => omega
  case exclusive =>
    intro isDispatched
    refine ⟨?_, ?_⟩
    · rw [eq_false_iff]
      intro isRegistered
      have isIdle := removed.mp isRegistered
      rw [isIdle, Caller.requires] at flagged
      omega
    · have noneProcess := exclusive isDispatched
      rw [counter, countP_eq_zero] at noneProcess
      exact fun waiter mem => eq_false_iff.mpr (noneProcess waiter mem)
  case complete =>
    intro isDone allDone
    have noneCounted : entry.numAt .counted = 0 := by
      unfold numAt
      rw [countP_eq_zero]
      intro waiter mem
      rw [allDone waiter mem]
      decide
    have noneProcess : entry.processCounter = 0 := by
      rw [counter, countP_eq_zero]
      intro waiter mem
      rw [allDone waiter mem]
      decide
    have notRequired : entry.detachRequired = false := by
      rw [eq_false_iff]
      intro isRequired
      have left := progress isDone isRequired
      omega
    rw [notRequired, isDone] at flagged
    simpa [Caller.requires] using flagged

/-! ## Steps of the waiters -/

section Waiters

variable {entry : Entry} {index : Nat}

theorem numAt_advance {waiter : Waiter} (found : entry.waiters[index]? = some waiter)
    (place next : Waiter) :
    (entry.advance index next).numAt place + (if waiter = place then 1 else 0) =
      entry.numAt place + (if next = place then 1 else 0) := by
  have counts := Lists.countP_set_add (· = place) found next
  simpa [numAt, advance] using counts

open Waiter

theorem processes_advance {waiter : Waiter} (found : entry.waiters[index]? = some waiter)
    (next : Waiter) :
    (entry.advance index next).waiters.countP processes + (if waiter.processes then 1 else 0) =
      entry.waiters.countP processes + (if next.processes then 1 else 0) :=
  Lists.countP_set_add processes found next

section

variable (guarded : Guarded entry)
include guarded

theorem guarded_lookup (isRegistered : entry.registered = true) : Guarded { entry with
      processCounter := entry.processCounter + 1
      waiters := entry.waiters ++ [.marked] } := by
  have isIdle := guarded.removed.mp isRegistered
  have flagged := guarded.flagged
  have clears := guarded.clears
  rw [isIdle] at flagged clears
  have noneRequired : (if entry.detachRequired then 1 else 0) + entry.dispatched = 0 := flagged
  exact { guarded with
    counter := by
      rw [countP_append, guarded.counter]
      rfl
    clears := by
      show entry.caller = .clearing ∨ 0 < (entry.waiters ++ [marked]).countP _ -> _
      rw [countP_append, isIdle]
      exact clears
    separate := by
      rw [isIdle]
      nofun
    examined := by
      rw [isIdle]
      nofun
    exclusive := by
      show 0 < entry.dispatched -> _
      omega
    progress := by
      rw [isIdle]
      nofun }

theorem guarded_announce (found : entry.waiters[index]? = some .marked) :
    Guarded (entry.advance index .announced) := by
  have processing := processes_advance found .announced
  have counted := numAt_advance found .counted .announced
  have clearing := numAt_advance found .clearing .announced
  simp [processes] at processing counted clearing
  exact { guarded with
    counter := guarded.counter.trans processing.symm
    clears := by
      rw [clearing]
      exact guarded.clears
    separate := by
      rw [counted]
      exact guarded.separate
    progress := by
      rw [counted]
      exact guarded.progress }

/-- The last waiter that leaves the entry is about to announce the detachment. -/
theorem guarded_decrement (found : entry.waiters[index]? = some .announced) :
    Guarded { entry.advance index (if entry.processCounter - 1 = 0 then .counted else .done) with
      processCounter := entry.processCounter - 1 } := by
  split
  · rename_i isLast
    have processing := processes_advance found .counted
    have counted := numAt_advance found .counted .counted
    have clearing := numAt_advance found .clearing .counted
    simp [processes] at processing counted clearing
    exact { guarded with
      counter := by
        rw [guarded.counter, ← processing, Nat.add_sub_cancel]
      clears := by
        show entry.caller = .clearing ∨ 0 < (entry.advance index .counted).numAt .clearing -> _
        rw [clearing]
        exact guarded.clears
      separate := fun _ => .inl isLast
      examined := fun _ => isLast
      exclusive := fun _ => isLast
      progress := by
        intro _ _
        show _ ∨ 0 < (entry.advance index .counted).numAt .counted
        omega }
  · have processing := processes_advance found .done
    have counted := numAt_advance found .counted .done
    have clearing := numAt_advance found .clearing .done
    simp [processes] at processing counted clearing
    exact { guarded with
      counter := by
        rw [guarded.counter, ← processing, Nat.add_sub_cancel]
      clears := by
        show entry.caller = .clearing ∨ 0 < (entry.advance index .done).numAt .clearing -> _
        rw [clearing]
        exact guarded.clears
      separate := by
        intro isRequired
        show _ ∨ (entry.advance index .done).numAt .counted = 0
        have either := guarded.separate isRequired
        omega
      examined := by
        intro isExamined
        have noneProcess := guarded.examined isExamined
        omega
      exclusive := by
        intro isDispatched
        have noneProcess := guarded.exclusive isDispatched
        omega
      progress := by
        intro _ _
        show 0 < entry.processCounter - 1 ∨ _
        omega }

theorem guarded_announceDetached (found : entry.waiters[index]? = some .counted) :
    Guarded (entry.announceDetached.advance index
      (if entry.detachRequired then .clearing else .done)) := by
  have isCounted : 0 < entry.numAt .counted := by
    refine countP_pos_iff.mpr ⟨.counted, mem_of_getElem? found, ?_⟩
    decide
  cases isRequired : entry.detachRequired with
  | false =>
    have unchanged : entry.announceDetached = entry := by
      unfold announceDetached
      rw [isRequired, if_neg Bool.false_ne_true]
    rw [unchanged, if_neg Bool.false_ne_true]
    have processing := processes_advance found .done
    have clearing := numAt_advance found .clearing .done
    simp [processes] at processing clearing
    exact { guarded with
      counter := guarded.counter.trans processing.symm
      clears := by
        rw [clearing]
        exact guarded.clears
      separate := by
        intro isRequires
        have either := guarded.separate isRequires
        exact .inl (show entry.processCounter = 0 by omega)
      progress := fun _ required => absurd (isRequired.symm.trans required) false_ne_true }
  | true =>
    have dispatches : entry.announceDetached =
        { entry with detachRequired := false, dispatched := entry.dispatched + 1 } := by
      unfold announceDetached
      rw [isRequired, if_pos rfl]
    rw [dispatches, if_pos rfl]
    have flagged := guarded.flagged
    rw [isRequired, if_pos rfl] at flagged
    have either := guarded.separate (by omega)
    have noneProcess : entry.processCounter = 0 := by omega
    have processing := processes_advance found .clearing
    simp [processes] at processing
    exact { guarded with
      counter := guarded.counter.trans processing.symm
      flagged := by
        show 0 + (entry.dispatched + 1) = entry.caller.requires
        omega
      clears := fun _ => Nat.succ_pos entry.dispatched
      separate := fun _ => .inl noneProcess
      exclusive := fun _ => noneProcess
      progress := nofun }

theorem guarded_clear (found : entry.waiters[index]? = some .clearing) :
    Guarded { entry.advance index .done with detachRequired := false } := by
  have isClearing : 0 < entry.numAt .clearing := by
    refine countP_pos_iff.mpr ⟨.clearing, mem_of_getElem? found, ?_⟩
    decide
  have isDispatched := guarded.clears (.inr isClearing)
  have atMost : entry.caller.requires ≤ 1 := by cases entry.caller <;> decide
  have processing := processes_advance found .done
  simp [processes] at processing
  exact { guarded with
    counter := guarded.counter.trans processing.symm
    flagged := by
      have flagged := guarded.flagged
      show 0 + entry.dispatched = entry.caller.requires
      split at flagged <;> omega
    clears := fun _ => isDispatched
    separate := fun _ => .inl (guarded.exclusive isDispatched)
    progress := nofun }

end

end Waiters

/-! ## Steps of the caller -/

section Callers

variable {entry : Entry}

section

variable (guarded : Guarded entry)
include guarded

theorem guarded_remove (isIdle : entry.caller = .idle) :
    Guarded { entry with registered := false, caller := .removed } := by
  have flagged := guarded.flagged
  rw [isIdle] at flagged
  exact { guarded with
    removed := ⟨nofun, nofun⟩
    flagged := flagged
    clears := by
      rintro (isClearing | isClearing)
      · contradiction
      · exact guarded.clears (.inr isClearing)
    separate := nofun
    examined := nofun
    progress := nofun }

theorem guarded_require (isRemoved : entry.caller = .removed)
    (isSeparate : entry.processCounter = 0 ∨ Waiter.counted ∉ entry.waiters) :
    Guarded { entry with detachRequired := true, caller := .required } := by
  have flagged := guarded.flagged
  rw [isRemoved, Caller.requires] at flagged
  exact { guarded with
    removed := by
      refine ⟨fun isRegistered => ?_, nofun⟩
      have isIdle := guarded.removed.mp isRegistered
      rw [isRemoved] at isIdle
      contradiction
    flagged := by
      show 1 + entry.dispatched = 1
      omega
    clears := by
      rintro (isClearing | isClearing)
      · contradiction
      · exact guarded.clears (.inr isClearing)
    separate := by
      refine fun _ => isSeparate.imp_right fun noneCounted => ?_
      refine countP_eq_zero.mpr fun _ mem isCounted => noneCounted ?_
      rw [← of_decide_eq_true isCounted]
      exact mem
    examined := nofun
    progress := nofun }

/-- The caller goes on behind `setDetachmentRequired`. -/
theorem guarded_goesOn {next : Caller} (isRequired : entry.caller.requires = 1)
    (stillRequired : next.requires = 1) (clears : next = .clearing -> 0 < entry.dispatched)
    (examined : next = .examined -> entry.processCounter = 0)
    (progress : next = .done -> entry.detachRequired = true ->
      0 < entry.processCounter ∨ 0 < entry.numAt .counted) :
    Guarded { entry with caller := next } := by
  have notIdle : ∀ {caller : Caller}, caller.requires = 1 -> caller ≠ .idle := by
    rintro _ _ rfl
    contradiction
  exact { guarded with
    removed := by
      constructor
      · exact fun isRegistered => absurd (guarded.removed.mp isRegistered) (notIdle isRequired)
      · exact fun isIdle => absurd isIdle (notIdle stillRequired)
    flagged := guarded.flagged.trans (isRequired.trans stillRequired.symm)
    clears := by
      rintro (isClearing | isClearing)
      · exact clears isClearing
      · exact guarded.clears (.inr isClearing)
    separate := fun _ => guarded.separate (by omega)
    examined := examined
    progress := progress }

theorem guarded_isProcessing (isRequired : entry.caller = .required) :
    Guarded { entry with caller := if entry.processCounter ≠ 0 then .done else .examined } := by
  have requires : entry.caller.requires = 1 := by
    rw [isRequired]
    rfl
  by_cases isIdle : entry.processCounter = 0
  · rw [if_neg (fun differs => differs isIdle)]
    exact guarded_goesOn guarded requires rfl nofun (fun _ => isIdle) nofun
  · rw [if_pos isIdle]
    exact guarded_goesOn guarded requires rfl nofun nofun
      (fun _ _ => .inl (Nat.pos_of_ne_zero isIdle))

theorem guarded_callerAnnounceDetached (isExamined : entry.caller = .examined) :
    Guarded { entry.announceDetached with
      caller := if entry.detachRequired then .clearing else .done } := by
  have requires : entry.caller.requires = 1 := by
    rw [isExamined]
    rfl
  have noneProcess := guarded.examined isExamined
  unfold announceDetached
  cases isRequired : entry.detachRequired with
  | false =>
    refine guarded_goesOn guarded requires rfl nofun nofun (fun _ required => ?_)
    exact absurd (isRequired.symm.trans required) false_ne_true
  | true =>
    have flagged := guarded.flagged
    rw [isRequired, if_pos rfl, requires] at flagged
    constructor
    case safe => exact guarded.safe
    case counter => exact guarded.counter
    case removed =>
      refine ⟨fun isRegistered => ?_, nofun⟩
      have isIdle := guarded.removed.mp isRegistered
      rw [isExamined] at isIdle
      contradiction
    case flagged =>
      show 0 + (entry.dispatched + 1) = 1
      omega
    case clears => exact fun _ => Nat.succ_pos entry.dispatched
    case separate => exact fun _ => .inl noneProcess
    case examined => nofun
    case exclusive => exact fun _ => noneProcess
    case progress => nofun

theorem guarded_callerClear (isClearing : entry.caller = .clearing) :
    Guarded { entry with detachRequired := false, caller := .done } := by
  have requires : entry.caller.requires = 1 := by
    rw [isClearing]
    rfl
  have isDispatched := guarded.clears (.inl isClearing)
  have notRequired : entry.detachRequired = false := by
    rw [eq_false_iff]
    intro isRequired
    have flagged := guarded.flagged
    rw [isRequired, if_pos rfl, requires] at flagged
    omega
  rw [← notRequired]
  refine guarded_goesOn guarded requires rfl nofun nofun (fun _ required => ?_)
  exact absurd (notRequired.symm.trans required) false_ne_true

end

end Callers

theorem guarded_step {entry next : Entry} {action : Action} (guarded : Guarded entry)
    (isSeparate : Separate entry action) (taken : step entry action = some next) :
    Guarded next := by
  cases action with
  | lookupAndMarkProcessingOngoing =>
    unfold step at taken
    dsimp only at taken
    split at taken
    · rename_i isRegistered
      cases taken
      exact guarded_lookup guarded isRegistered
    · cases taken
      exact guarded
  | announce index =>
    unfold step at taken
    dsimp only at taken
    split at taken
    · rename_i found
      cases taken
      exact guarded_announce guarded found
    · contradiction
  | decrementProcessCounter index =>
    unfold step at taken
    dsimp only at taken
    split at taken
    · rename_i found
      cases taken
      exact guarded_decrement guarded found
    · contradiction
  | announceDetached index =>
    unfold step at taken
    dsimp only at taken
    split at taken
    · rename_i found
      cases taken
      exact guarded_announceDetached guarded found
    · contradiction
  | clear =>
    unfold step at taken
    dsimp only at taken
    split at taken
    · rename_i found
      cases taken
      exact guarded_clear guarded found
    · contradiction
  | remove =>
    obtain ⟨isIdle, rfl⟩ := Run.guarded taken
    exact guarded_remove guarded isIdle.1
  | setDetachmentRequired =>
    unfold step at taken
    dsimp only at taken
    split at taken
    · rename_i isRemoved
      have flagged := guarded.flagged
      rw [isRemoved, Caller.requires] at flagged
      split at taken
      · rename_i isRequired
        rw [isRequired, if_pos rfl] at flagged
        omega
      · cases taken
        exact guarded_require guarded isRemoved (isSeparate rfl)
    · contradiction
  | isProcessing =>
    obtain ⟨isRequired, rfl⟩ := Run.guarded taken
    exact guarded_isProcessing guarded isRequired
  | callerAnnounceDetached =>
    obtain ⟨isExamined, rfl⟩ := Run.guarded taken
    exact guarded_callerAnnounceDetached guarded isExamined
  | callerClear =>
    obtain ⟨isClearing, rfl⟩ := Run.guarded taken
    exact guarded_callerClear guarded isClearing

/-- In every run in which the detachment never becomes required between the last decrement
of a waiter and its announcement while another waiter processes the entry, the detachment
is announced once, when no thread processes the entry. -/
theorem announces_once (actions : List Action) (separate : Run.Along step Separate {} actions) :
    Run.Always step Sound {} actions :=
  Run.Always.mono (fun _ guarded => guarded.sound)
    (Run.always_of_along (fun _ _ _ guarded isSeparate taken =>
      guarded_step guarded isSeparate taken) guarded_attached separate)

def detachedMeanwhile : List Action :=
  [.lookupAndMarkProcessingOngoing, .announce 0, .remove, .setDetachmentRequired, .isProcessing,
    .decrementProcessCounter 0, .announceDetached 0, .clear 0]

theorem detachedMeanwhile_sound : Run.Always step Sound {} detachedMeanwhile ∧
      ∃ final, Run.run step {} detachedMeanwhile = some final ∧ final.dispatched = 1 := by
  refine ⟨announces_once detachedMeanwhile ?_, _, rfl, rfl⟩
  simp [detachedMeanwhile, Run.Along, step, Separate, advance, announceDetached]

/-- One waiter has decremented the counter to zero when another one looks up the entry.
Once the detachment is required, the first one announces it while the second one still
processes the entry. -/
def announcedEarly : List Action :=
  [.lookupAndMarkProcessingOngoing, .announce 0, .decrementProcessCounter 0,
    .lookupAndMarkProcessingOngoing, .remove, .setDetachmentRequired, .isProcessing,
    .announceDetached 0]

theorem announcedEarly_not_sound : ¬ Run.Always step Sound {} announcedEarly := by
  intro always
  have atEnd := (Run.always_iff _ _).mp always announcedEarly [] _ (append_nil _) rfl
  exact absurd ((atEnd.exclusive (by decide)).2 .marked (by decide)) (by decide)

end Detachment

end NtfCore.Ntco.Epoll
