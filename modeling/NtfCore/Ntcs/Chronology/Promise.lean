import NtfCore.Ntcs.Chronology.Handles

/-!
Contract: what the callers of a chronology may rely on.

Beside the chronology stands its history: the deadline a timer was last scheduled
for, as long as no other call on the timer has come after and the deadline has
not been announced.

Owns: this history; what it promises; the sections that break the promise; and
what the two sections of `schedule`, `cancel` and `close` do to it.
-/

namespace NtfCore.Ntcs

open NtfCore.Foundation Function StableMap

namespace Chronology

/-- A chronology with its history: the thread whose call on a timer was the last to
pass its first section, and the deadline that is promised. -/
structure Monitored where
  chronology : Chronology := {}
  latest : Nat -> Option Nat := fun _ => none
  promised : Nat -> Option Int := fun _ => none

def Monitored.begun (monitored : Monitored) (thread timer : Nat) (section? : Option Chronology)
    (next : Chronology) : Monitored :=
  if section?.isSome then {
    chronology := next
    latest := Function.update monitored.latest timer (some thread)
    promised := Function.update monitored.promised timer none }
  else { monitored with chronology := next }

def Monitored.finished (monitored : Monitored) (thread : Nat) (next : Chronology) :
    TimerCall -> Monitored
  | .schedule timer deadline => { monitored with
      chronology := next
      promised := Function.update monitored.promised timer
        (if monitored.latest timer = some thread then some deadline else none) }
  | .cancel timer => { monitored with
      chronology := next, promised := Function.update monitored.promised timer none }
  | .close timer => { monitored with
      chronology := next, promised := Function.update monitored.promised timer none }

def Monitored.arrived (monitored : Monitored) (entry : DueEntry) (next : Chronology) : Monitored :=
  { monitored with
    chronology := next
    promised := if monitored.promised entry.timer = some entry.deadline
      then Function.update monitored.promised entry.timer none else monitored.promised }

def nextArrival (chronology : Chronology) (index : Nat) : Option DueEntry :=
  match chronology.announcing[index]? with
  | some { current := none, due := entry :: _ } => some entry
  | _ => none

def Monitored.record (monitored : Monitored) (next : Chronology) : Action -> Monitored
  | .schedule thread timer _ period =>
    monitored.begun thread timer (monitored.chronology.beginSchedule timer period) next
  | .cancel thread timer =>
    monitored.begun thread timer (monitored.chronology.beginCancel timer) next
  | .close thread timer =>
    monitored.begun thread timer (monitored.chronology.beginClose timer) next
  | .finish thread _ =>
    match monitored.chronology.calls thread with
    | some call => monitored.finished thread next call
    | none => { monitored with chronology := next }
  | .arrive index =>
    match monitored.chronology.nextArrival index with
    | some entry => monitored.arrived entry next
    | none => { monitored with chronology := next }
  | .createTimer _ _ _ | .execute _ | .collect _ _ _ | .depart _ =>
    { monitored with chronology := next }

def Monitored.step (monitored : Monitored) (action : Action) : Option Monitored :=
  (monitored.chronology.step action).map fun next => monitored.record next action

/-! ## The promise -/

def Cancelling (chronology : Chronology) (timer : Nat) : Prop :=
  ∃ thread, chronology.calls thread = some (.cancel timer)

def Mapped (chronology : Chronology) (timer : Nat) : Prop :=
  ∃ entry ∈ chronology.deadlineMap.entries, entry.data = timer

def Waits (chronology : Chronology) (timer : Nat) (deadline : Int) : Prop :=
  (∃ entry ∈ chronology.deadlineMap.entries, entry.data = timer ∧ entry.key = deadline) ∨
    ∃ announcement ∈ chronology.announcing,
      { timer := timer, deadline := deadline : DueEntry } ∈ announcement.due

def Excused (excuse : Bool) (chronology : Chronology) (timer : Nat) : Prop :=
  excuse = true ∧ chronology.Cancelling timer

/-- Every timer in the map that is not closed is scheduled, unless it is excused;
and every timer whose deadline is promised is scheduled and waits for it. -/
structure Monitored.Sound (excuse : Bool) (monitored : Monitored) : Prop where
  scheduled : ∀ timer, monitored.chronology.Mapped timer ->
    (monitored.chronology.timers timer).state ≠ .closed ->
      (monitored.chronology.timers timer).state = .scheduled ∨
        monitored.chronology.Excused excuse timer
  waits : ∀ timer deadline, monitored.promised timer = some deadline ->
    (monitored.chronology.timers timer).state = .scheduled ∧
      monitored.chronology.Waits timer deadline

def Calls (chronology : Chronology) (timer : Nat) : Action -> Prop
  | .schedule _ called _ _ => called = timer
  | .cancel _ called => called = timer
  | .close _ called => called = timer
  | .finish thread _ => ∃ call, chronology.calls thread = some call ∧ call.timer = timer
  | _ => False

/-- A section does its part in announcing. That of `announce` collects every timer
whose promised deadline has been reached, unless it takes a deferred function
instead; and a promise ends only in another call on the timer, or when the
deadline is announced to the callback, if it wants to know. -/
structure Monitored.Announces (monitored : Monitored) (action : Action) : Prop where
  collects : ∀ single now backoff, action = .collect single now backoff ->
    (single = true -> monitored.chronology.functorQueue = []) ->
      ∀ timer deadline, monitored.promised timer = some deadline ->
        deadline ≤ totalMicroseconds now ->
          ∃ announcement ∈ (monitored.chronology.collect single now backoff).announcing,
            { timer := timer, deadline := deadline : DueEntry } ∈ announcement.due
  ends : ∀ next, monitored.step action = some next ->
    ∀ timer deadline, monitored.promised timer = some deadline ->
      next.promised timer ≠ some deadline -> monitored.chronology.Calls timer action ∨
        ((monitored.chronology.timers timer).callback = true ->
          (monitored.chronology.timers timer).options.wantDeadline = true ->
            next.chronology.announced = monitored.chronology.announced ++
              [{ timer := timer, deadline := deadline }])

/-- The sections that would break a promise are not taken. When a scheduled timer
arrives that is neither one-shot nor recurring, it is not in the map, unless it is
excused; when it was scheduled for another deadline since it was collected, it is
recurring and not one-shot. When the second section of `schedule` is taken, the
timer does not wait, unless it is excused, and it is still scheduled, unless
another call on it has come in between. -/
def Monitored.Undisturbed (excuse : Bool) (monitored : Monitored) : Action -> Prop
  | .cancel _ timer => excuse = false -> ∀ next,
      monitored.chronology.beginCancel timer = some next -> ¬ monitored.chronology.Mapped timer
  | .arrive index => ∀ entry, monitored.chronology.nextArrival index = some entry ->
      let value := monitored.chronology.timers entry.timer
      value.state = .scheduled -> value.callback = true ->
        (value.options.oneShot = false -> value.period = 0 ->
          monitored.chronology.Mapped entry.timer ->
            monitored.chronology.Excused excuse entry.timer) ∧
        ∀ deadline, monitored.promised entry.timer = some deadline ->
          deadline ≠ entry.deadline -> value.options.oneShot = false ∧ value.period ≠ 0
  | .finish thread _ => ∀ timer deadline,
      monitored.chronology.calls thread = some (.schedule timer deadline) ->
        ((monitored.chronology.timers timer).state = .waiting ->
          monitored.chronology.Excused excuse timer) ∧
        (monitored.latest timer = some thread ->
          (monitored.chronology.timers timer).state = .scheduled)
  | _ => True

variable {chron : Chronology}

/-- What the second section of `schedule` does to the map and to states. -/
structure Entered (before after : Chronology) (timer : Nat) (deadline : Int) : Prop where
  state : ∀ other, (after.timers other).state = (before.timers other).state
  created : ∀ other, (after.timers other).created = (before.timers other).created
  mapped : ∀ entry ∈ after.deadlineMap.entries,
    entry.data = timer ∨ entry ∈ before.deadlineMap.entries
  others : ∀ entry ∈ before.deadlineMap.entries, entry.data ≠ timer ->
    entry ∈ after.deadlineMap.entries
  own : ∃ entry ∈ after.deadlineMap.entries, entry.data = timer ∧ entry.key = deadline
  calls : after.calls = before.calls
  announcing : after.announcing = before.announcing

theorem Tied.entered (tied : chron.Tied) (timer : Nat) (deadline : Int) (address : Nat) :
    Entered chron (chron.finishSchedule timer deadline address) timer deadline := by
  unfold Chronology.finishSchedule
  dsimp only
  cases isHandle : (chron.timers timer).handle with
  | none =>
    constructor
    case state => exact setTimer_field (chron.addReferences timer 1) Timer.state rfl
    case created => exact setTimer_field (chron.addReferences timer 1) Timer.created rfl
    case mapped =>
      intro entry mem
      rcases mem_insert.mp mem with inMap | isNew
      · exact .inr inMap
      · exact .inl (isNew ▸ rfl)
    case others => exact fun entry inMap _ => mem_insert.mpr (.inl inMap)
    case own => exact ⟨_, mem_insert.mpr (.inr rfl), rfl, rfl⟩
    case calls => rfl
    case announcing => rfl
  | some handle =>
    obtain ⟨own, found, _, _, isTimer⟩ := tied.element isHandle
    have updateEq : chron.deadlineMap.update handle deadline =
        (chron.deadlineMap.erase handle).insert handle deadline own.data := by
      unfold StableMap.update
      rw [found]
    simp only [updateEq]
    constructor
    case state => exact fun _ => rfl
    case created => exact fun _ => rfl
    case mapped =>
      intro entry mem
      rcases mem_insert.mp mem with inErased | isNew
      · exact .inr ((tied.mem_others isHandle).mp inErased).1
      · exact .inl (isNew ▸ isTimer)
    case others =>
      intro _ inMap apart
      exact mem_insert.mpr (.inl ((tied.mem_others isHandle).mpr ⟨inMap, apart⟩))
    case own => exact ⟨_, mem_insert.mpr (.inr rfl), isTimer, rfl⟩
    case calls => rfl
    case announcing => rfl

/-- What the second section of `cancel` and of `close` does. -/
structure Left (before after : Chronology) (timer : Nat) : Prop where
  state : ∀ other, (after.timers other).state = (before.timers other).state
  created : ∀ other, (after.timers other).created = (before.timers other).created
  mapped : ∀ entry, entry ∈ after.deadlineMap.entries ↔
    entry ∈ before.deadlineMap.entries ∧ entry.data ≠ timer
  calls : after.calls = before.calls
  announcing : after.announcing = before.announcing

theorem Tied.left (tied : chron.Tied) (timer : Nat) : Left chron (chron.detach timer) timer := by
  cases isHandle : (chron.timers timer).handle with
  | none =>
    unfold Chronology.detach
    simp only [isHandle]
    refine ⟨fun _ => rfl, fun _ => rfl, ?_, rfl, rfl⟩
    intro entry
    constructor
    · intro mem
      refine ⟨mem, ?_⟩
      intro isTimer
      have mapped := (tied.handle_iff timer entry.handle).mpr ⟨entry, mem, rfl, isTimer⟩
      rw [isHandle] at mapped
      contradiction
    · exact fun both => both.1
  | some handle =>
    have timersEq : (chron.detach timer).timers = (chron.setTimer timer
        { chron.timers timer with handle := none }).timers := by
      unfold Chronology.detach
      simp only [isHandle]
      split
      · rfl
      · rfl
    have mapEq : (chron.detach timer).deadlineMap = chron.deadlineMap.erase handle := by
      unfold Chronology.detach
      simp only [isHandle]
      split
      · rfl
      · rfl
    have restEq : (chron.detach timer).calls = chron.calls ∧
        (chron.detach timer).announcing = chron.announcing := by
      unfold Chronology.detach
      simp only [isHandle]
      split
      · exact ⟨rfl, rfl⟩
      · exact ⟨rfl, rfl⟩
    constructor
    case state =>
      intro other
      rw [timersEq]
      apply setTimer_field chron Timer.state
      rfl
    case created =>
      intro _
      rw [timersEq]
      apply setTimer_field chron Timer.created
      rfl
    case mapped =>
      intro _
      rw [mapEq]
      exact tied.mem_others isHandle
    case calls => exact restEq.1
    case announcing => exact restEq.2

def Created (chronology : Chronology) : Prop :=
  ∀ timer, (chronology.timers timer).state = .scheduled ->
    (chronology.timers timer).created = true

structure Monitored.Invariant (excuse : Bool) (monitored : Monitored) : Prop where
  tied : monitored.chronology.Tied
  sound : monitored.Sound excuse
  created : monitored.chronology.Created

variable {excuse : Bool} {mon : Monitored}

theorem Monitored.start_invariant : ({} : Monitored).Invariant excuse where
  tied := start_tied
  sound := {
    scheduled := fun _ mapped _ => by
      obtain ⟨_, mem, _⟩ := mapped
      contradiction
    waits := fun _ _ impossible => absurd impossible (by simp) }
  created := fun _ impossible => absurd impossible (by simp)

/-- A section that keeps states, the map, cancellations, arrivals and promises. -/
theorem Monitored.Sound.transfer {other : Monitored} (sound : mon.Sound excuse)
    (sameState : ∀ timer, (other.chronology.timers timer).state =
      (mon.chronology.timers timer).state)
    (mapped : ∀ timer, other.chronology.Mapped timer -> mon.chronology.Mapped timer)
    (cancelling : ∀ timer, mon.chronology.Cancelling timer ->
      other.chronology.Mapped timer -> other.chronology.Cancelling timer)
    (promised : ∀ timer deadline, other.promised timer = some deadline ->
      mon.promised timer = some deadline)
    (waits : ∀ timer deadline, other.promised timer = some deadline ->
      mon.chronology.Waits timer deadline -> other.chronology.Waits timer deadline) :
    other.Sound excuse where
  scheduled := by
    intro timer isMapped notClosed
    rw [sameState] at notClosed ⊢
    rcases sound.scheduled timer (mapped timer isMapped) notClosed with isScheduled | ⟨excused, isCancelling⟩
    · exact .inl isScheduled
    · exact .inr ⟨excused, cancelling timer isCancelling isMapped⟩
  waits := by
    intro timer deadline isPromised
    obtain ⟨isScheduled, isWaiting⟩ := sound.waits timer deadline
      (promised timer deadline isPromised)
    rw [sameState]
    exact ⟨isScheduled, waits timer deadline isPromised isWaiting⟩

theorem Monitored.Invariant.createTimer (inv : mon.Invariant excuse) {timer : Nat}
    (options : TimerOptions) (callback : Bool)
    (fresh : (mon.chronology.timers timer).created = false) :
    ({ mon with chronology := mon.chronology.createTimer timer options callback } :
      Monitored).Sound excuse where
  scheduled := by
    intro other isMapped notClosed
    by_cases same : other = timer
    · obtain ⟨entry, mem, isTimer⟩ := isMapped
      have isHandle := (inv.tied.handle_iff timer entry.handle).mpr
        ⟨entry, mem, rfl, isTimer.trans same⟩
      rw [inv.tied.uncreated timer fresh] at isHandle
      contradiction
    · have sameTimer : (mon.chronology.createTimer timer options callback).timers other =
          mon.chronology.timers other := setTimer_of_ne _ _ same
      simp only [sameTimer] at notClosed ⊢
      exact inv.sound.scheduled other isMapped notClosed
  waits := by
    intro other deadline isPromised
    obtain ⟨isScheduled, isWaiting⟩ := inv.sound.waits other deadline isPromised
    by_cases same : other = timer
    · have wasCreated := inv.created other isScheduled
      rw [same, fresh] at wasCreated
      contradiction
    · have sameTimer : (mon.chronology.createTimer timer options callback).timers other =
          mon.chronology.timers other := setTimer_of_ne _ _ same
      simp only [sameTimer]
      exact ⟨isScheduled, isWaiting⟩

variable {thread timer : Nat} {call : TimerCall}

theorem Monitored.Sound.begun (sound : mon.Sound excuse) {value : Timer}
    (idle : mon.chronology.calls thread = none)
    (outcome : value.state = .scheduled ∨ value.state = .closed ∨
      call = .cancel timer ∧ (excuse = true ∨ ¬ mon.chronology.Mapped timer))
    (latest : Nat -> Option Nat) :
    ({ chronology := { mon.chronology.setTimer timer value with
        calls := update mon.chronology.calls thread (some call) }
       latest := latest
       promised := update mon.promised timer none } : Monitored).Sound excuse where
  scheduled := by
    intro other isMapped notClosed
    by_cases same : other = timer
    · simp only [same, setTimer_self] at notClosed ⊢
      rcases outcome with isScheduled | isClosed | ⟨isCancel, excused | unmapped⟩
      · exact .inl isScheduled
      · contradiction
      · exact .inr ⟨excused, thread, by rw [isCancel]; exact update_self _ _ _⟩
      · exact absurd (same ▸ isMapped) unmapped
    · simp only [setTimer_of_ne _ _ same] at notClosed ⊢
      rcases sound.scheduled other isMapped notClosed with
        isScheduled | ⟨excused, caller, isCancel⟩
      · exact .inl isScheduled
      · have apart : caller ≠ thread := by
          intro equal
          rw [equal, idle] at isCancel
          contradiction
        exact .inr ⟨excused, caller, (update_of_ne apart _ _).trans isCancel⟩
  waits := by
    intro other deadline isPromised
    by_cases same : other = timer
    · simp [same] at isPromised
    · obtain ⟨isScheduled, isWaiting⟩ := sound.waits other deadline
        ((update_of_ne same _ _).symm.trans isPromised)
      simp only [setTimer_of_ne _ _ same]
      exact ⟨isScheduled, isWaiting⟩

/-- The first section of a call, with its error return. -/
theorem Monitored.Invariant.beginCall (inv : mon.Invariant excuse)
    {section? : Option Chronology} {next : Chronology}
    (entered : ∀ after, section? = some after -> ∃ value,
      after = mon.chronology.setTimer timer value ∧
        (value.state = .scheduled ∨ value.state = .closed ∨
          call = .cancel timer ∧ (excuse = true ∨ ¬ mon.chronology.Mapped timer)))
    (taken : mon.chronology.beginCall thread timer section? call = some next) :
    (mon.begun thread timer section? next).Sound excuse := by
  unfold Chronology.beginCall at taken
  split at taken
  · rename_i allowed
    cases isSection : section? with
    | none =>
      rw [isSection] at taken
      cases taken
      exact inv.sound
    | some after =>
      rw [isSection] at taken
      cases taken
      obtain ⟨_, isAfter, outcome⟩ := entered after isSection
      subst isAfter
      exact inv.sound.begun allowed.2 outcome _
  · contradiction

theorem cancelling_of_return (isCall : chron.calls thread = some call)
    (notCancel : call ≠ .cancel timer) : ({ chron with calls := update chron.calls thread none } :
      Chronology).Cancelling timer ↔ chron.Cancelling timer := by
  constructor
  · rintro ⟨caller, isCancel⟩
    by_cases same : caller = thread
    · simp [same] at isCancel
    · exact ⟨caller, (update_of_ne same _ _).symm.trans isCancel⟩
  · rintro ⟨caller, isCancel⟩
    have apart : caller ≠ thread := by
      intro equal
      rw [equal, isCall] at isCancel
      exact notCancel (Option.some.inj isCancel)
    exact ⟨caller, (update_of_ne apart _ _).trans isCancel⟩

/-- The second section of `cancel` and of `close`. -/
theorem Monitored.Invariant.finishRemoval (inv : mon.Invariant excuse)
    (isCall : mon.chronology.calls thread = some call) (ofTimer : call.timer = timer) :
    ({ mon with
      chronology := { mon.chronology with
        calls := update mon.chronology.calls thread none }.detach timer
      promised := update mon.promised timer none } : Monitored).Sound excuse := by
  have left := (inv.tied.return thread).left timer
  apply inv.sound.transfer
  · exact left.state
  · rintro other ⟨entry, mem, isOther⟩
    exact ⟨entry, ((left.mapped entry).mp mem).1, isOther⟩
  · rintro other isCancelling ⟨entry, mem, isOther⟩
    have apart : other ≠ timer := isOther ▸ ((left.mapped entry).mp mem).2
    have notCancel : call ≠ .cancel other := by
      intro isCancel
      rw [isCancel] at ofTimer
      exact apart ofTimer
    obtain ⟨caller, isCancel⟩ := (cancelling_of_return isCall notCancel).mpr isCancelling
    exact ⟨caller, (congrFun left.calls caller).trans isCancel⟩
  · intro other deadline isPromised
    by_cases same : other = timer
    · simp [same] at isPromised
    · exact (update_of_ne same _ _).symm.trans isPromised
  · intro other _ isPromised isWaiting
    have apart : other ≠ timer := by
      intro same
      simp [same] at isPromised
    rcases isWaiting with ⟨entry, mem, isOther, isDeadline⟩ | ⟨announcement, mem, inDue⟩
    · exact .inl ⟨entry, (left.mapped entry).mpr ⟨mem, isOther ▸ apart⟩, isOther, isDeadline⟩
    · exact .inr ⟨announcement, left.announcing ▸ mem, inDue⟩

/-- The second section of `schedule` keeps the promises if and only if the timer has
not been disturbed. -/
theorem Monitored.Invariant.finishSchedule (inv : mon.Invariant excuse)
    {deadline : Int} (address : Nat)
    (isCall : mon.chronology.calls thread = some (.schedule timer deadline)) :
    ({ mon with
      chronology := { mon.chronology with
        calls := update mon.chronology.calls thread none }.finishSchedule timer deadline address
      promised := update mon.promised timer
        (if mon.latest timer = some thread then some deadline else none) } :
          Monitored).Sound excuse ↔
      ((mon.chronology.timers timer).state = .waiting -> mon.chronology.Excused excuse timer) ∧
      (mon.latest timer = some thread -> (mon.chronology.timers timer).state = .scheduled) := by
  have entered := (inv.tied.return thread).entered timer deadline address
  have excusedIff : ∀ other, Excused excuse ({ mon.chronology with
      calls := update mon.chronology.calls thread none }.finishSchedule timer
        deadline address) other ↔ mon.chronology.Excused excuse other := by
    intro other
    apply and_congr_right'
    unfold Cancelling
    rw [entered.calls]
    exact cancelling_of_return isCall (by simp)
  constructor
  · intro sound
    constructor
    · intro isWaiting
      obtain ⟨own, mem, isTimer, _⟩ := entered.own
      have outcome := sound.scheduled timer ⟨own, mem, isTimer⟩ (by
        rw [entered.state timer]
        simp [isWaiting])
      rw [entered.state timer] at outcome
      rcases outcome with isScheduled | isExcused
      · simp [isWaiting] at isScheduled
      · exact (excusedIff timer).mp isExcused
    · intro isLatest
      have isScheduled := (sound.waits timer deadline (by simp [isLatest])).1
      rw [entered.state timer] at isScheduled
      exact isScheduled
  · rintro ⟨notWaiting, stillScheduled⟩
    constructor
    case scheduled =>
      rintro other ⟨entry, mem, isOther⟩ notClosed
      rw [entered.state other] at notClosed ⊢
      rw [excusedIff]
      by_cases same : other = timer
      · rw [same] at notClosed ⊢
        cases isState : (mon.chronology.timers timer).state with
        | waiting => exact .inr (notWaiting isState)
        | scheduled => exact .inl rfl
        | closed => contradiction
      · rcases entered.mapped entry mem with isTimer | wasMapped
        · exact absurd (isOther.symm.trans isTimer) same
        · exact inv.sound.scheduled other ⟨entry, wasMapped, isOther⟩ notClosed
    case waits =>
      intro other promised isPromised
      rw [entered.state other]
      by_cases same : other = timer
      · rw [same] at isPromised ⊢
        have isNew : (if mon.latest timer = some thread then some deadline else none) =
            some promised := by simpa using isPromised
        obtain ⟨isLatest, rfl⟩ := Run.guarded isNew
        exact ⟨stillScheduled isLatest, .inl entered.own⟩
      · obtain ⟨isScheduled, isWaiting⟩ := inv.sound.waits other promised
          ((update_of_ne same _ _).symm.trans isPromised)
        refine ⟨isScheduled, ?_⟩
        rcases isWaiting with ⟨entry, mem, isOther, isDeadline⟩ | ⟨announcement, mem, inDue⟩
        · exact .inl ⟨entry, entered.others entry mem (isOther ▸ same), isOther, isDeadline⟩
        · exact .inr ⟨announcement, entered.announcing ▸ mem, inDue⟩

end Chronology

end NtfCore.Ntcs
