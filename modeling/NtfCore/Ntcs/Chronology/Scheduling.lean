import NtfCore.Ntcs.Chronology.Collection
import NtfCore.Ntcs.Chronology.Promise

/-!
Contract: a timer that is scheduled is announced.

Owns: what the sections of `announce` do to the deadlines that are promised; and
the theorem that the promises are kept in every state of a run if and only if no
section disturbs them, and that the deadlines promised are then announced.
-/

namespace NtfCore.Ntcs

open NtfCore.Foundation List Chronology Function

namespace Chronology

variable {chron : Chronology} {excuse : Bool} {mon : Monitored}

/-- What the section of `announce` does. -/
structure Collected (before after : Chronology) (now : Int) (done : Bool) : Prop where
  state : ∀ timer, (after.timers timer).state = (before.timers timer).state
  created : ∀ timer, (after.timers timer).created = (before.timers timer).created
  mapped : ∀ timer, after.Mapped timer -> before.Mapped timer
  calls : after.calls = before.calls
  waits : ∀ timer deadline, before.Waits timer deadline -> after.Waits timer deadline
  reached : done = false -> ∀ timer deadline, before.Waits timer deadline ->
    deadline ≤ totalMicroseconds now -> ∃ announcement ∈ after.announcing,
      { timer := timer, deadline := deadline : DueEntry } ∈ announcement.due

/-- The section for timers, once the deferred functions are taken. -/
theorem Tied.collected_loop (tied : chron.Tied) (now : Int) (backoff : Nat -> Int -> Int)
    (isEmpty : Bool) (earliest : Int) (done : Bool) :
    Collected chron { (Chronology.collectLoop (totalMicroseconds now) backoff
        (chron.deadlineMap.entries.length + 1) { chronology := chron }).published with
      deadlineMapEmpty := isEmpty, deadlineMapEarliest := earliest } now done := by
  have startTied : ({ chronology := chron } : Collecting).published.Tied := by
    apply Tied.frame tied
    · rfl
    · rfl
    · rfl
    · rfl
    · funext timer
      exact outstanding_published _ timer
  have kept := Kept.collectLoop backoff (totalMicroseconds now)
    (chron.deadlineMap.entries.length + 1) startTied
  have dueEq := (tied.linked.collectLoop_swept backoff (totalMicroseconds now) .refl).due
  obtain ⟨_, _, _, frameEq⟩ := collectLoop_frame (totalMicroseconds now) backoff
    (chron.deadlineMap.entries.length + 1) { chronology := chron }
  have announcingEq := congrArg announcing frameEq
  have callsEq := congrArg calls frameEq
  constructor
  case state => exact kept.state
  case created => exact kept.created
  case mapped =>
    rintro timer ⟨entry, mem, isTimer⟩
    obtain ⟨origin, inMap, sameTimer⟩ := kept.mapped entry mem
    exact ⟨origin, inMap, sameTimer.trans isTimer⟩
  case calls => exact callsEq
  case waits =>
    intro timer deadline isWaiting
    rcases isWaiting with inMap | ⟨announcement, mem, inDue⟩
    · rcases kept.located timer deadline (.inl inMap) with stillMapped | inDue
      · exact .inl stillMapped
      · exact .inr ⟨_, mem_append_right _ mem_cons_self, inDue⟩
    · exact .inr ⟨announcement, mem_append_left _ (announcingEq ▸ mem), inDue⟩
  case reached =>
    intro _ timer deadline isWaiting atMost
    rcases isWaiting with ⟨entry, mem, isTimer, isDeadline⟩ | ⟨announcement, mem, inDue⟩
    · refine ⟨_, mem_append_right _ mem_cons_self, ?_⟩
      rw [dueEq, nil_append]
      have isDue : entry ∈ chron.dueEntries (totalMicroseconds now) :=
        mem_filter.mpr ⟨mem, by simpa [isDeadline] using atMost⟩
      have isEntry : dueEntry entry = { timer := timer, deadline := deadline } := by
        unfold dueEntry
        rw [isTimer, isDeadline]
      rw [← isEntry]
      exact mem_map_of_mem isDue
    · exact ⟨announcement, mem_append_left _ (announcingEq ▸ mem), inDue⟩

theorem Tied.collected (tied : chron.Tied) (single : Bool) (now : Int) (backoff : Nat -> Int -> Int) :
    Collected chron (chron.collect single now backoff) now
      (single && !chron.functorQueue.isEmpty) := by
  have doneEq : (chron.takeFunctors single).2 = (single && !chron.functorQueue.isEmpty) := by
    unfold takeFunctors
    cases chron.functorQueue with
    | nil => simp
    | cons => cases single with
      | true | false => rfl
  obtain ⟨queue, isEmpty, done, takenEq⟩ := takeFunctors_eq chron single
  rw [← doneEq]
  have takenTied : ({ chron with functorQueue := queue, functorQueueEmpty := isEmpty } :
      Chronology).Tied := tied.frame rfl rfl rfl rfl rfl
  unfold Chronology.collect
  rw [takenEq]
  dsimp only
  split
  · obtain ⟨nowEmpty, earliest, refreshEq⟩ := refresh_eq (Chronology.collectLoop
      (totalMicroseconds now) backoff (chron.deadlineMap.entries.length + 1)
      { chronology := { chron with
        functorQueue := queue, functorQueueEmpty := isEmpty } }).chronology
    rw [refreshEq]
    have looped := takenTied.collected_loop now backoff nowEmpty earliest done
    exact ⟨looped.state, looped.created, looped.mapped, looped.calls, looped.waits, looped.reached⟩
  · rename_i skipped
    refine ⟨fun _ => rfl, fun _ => rfl, fun _ mapped => mapped, rfl, fun _ _ waits => waits, ?_⟩
    intro notDone _ _ isWaiting _
    rcases isWaiting with ⟨_, mem, _⟩ | inAnnouncing
    · have occupied : chron.deadlineMap.entries ≠ [] := ne_nil_of_mem mem
      exact absurd ⟨occupied, notDone⟩ skipped
    · exact inAnnouncing

theorem Monitored.Invariant.collect (inv : mon.Invariant excuse) (single : Bool) (now : Int)
    (backoff : Nat -> Int -> Int) :
    ({ mon with chronology := mon.chronology.collect single now backoff } :
      Monitored).Sound excuse := by
  have collected := inv.tied.collected single now backoff
  apply inv.sound.transfer
  · exact collected.state
  · exact collected.mapped
  · rintro timer ⟨thread, isCancel⟩ _
    exact ⟨thread, (congrFun collected.calls thread).trans isCancel⟩
  · exact fun _ _ isPromised => isPromised
  · exact fun timer deadline _ isWaiting => collected.waits timer deadline isWaiting

/-! ## Arriving and departing -/

variable {deadline : Int} {timer : Nat}

theorem Waits.set {index : Nat} {before after : Announcement}
    (isWaiting : chron.Waits timer deadline) (found : chron.announcing[index]? = some before)
    (kept : { timer := timer, deadline := deadline : DueEntry } ∈ before.due ->
      { timer := timer, deadline := deadline : DueEntry } ∈ after.due) :
    ({ chron with announcing := chron.announcing.set index after } :
      Chronology).Waits timer deadline := by
  rcases isWaiting with inMap | ⟨announcement, mem, inDue⟩
  · exact Or.inl inMap
  · apply Or.inr
    obtain ⟨_, _, announcingEq, setEq⟩ := Lists.set_split found after
    rw [setEq]
    rw [announcingEq] at mem
    rcases mem_append.mp mem with inFront | inRest
    · exact ⟨announcement, mem_append_left _ inFront, inDue⟩
    · rcases mem_cons.mp inRest with isBefore | inBack
      · refine ⟨after, mem_append_right _ mem_cons_self, ?_⟩
        exact kept (isBefore ▸ inDue)
      · exact ⟨announcement, mem_append_right _ (mem_cons_of_mem _ inBack), inDue⟩

theorem arrivedTimer_state (value : Timer) :
    ((arrivedTimer value).state = .waiting ↔ value.options.oneShot = false ∧ value.period = 0) ∧
      ((arrivedTimer value).state = .scheduled ↔
        value.options.oneShot = false ∧ value.period ≠ 0) := by
  unfold arrivedTimer
  cases oneShot : value.options.oneShot with
  | true => simp
  | false =>
    by_cases recurring : value.period = 0
    · simp [recurring]
    · simp [recurring]

variable {next : Chronology} {entry : DueEntry}

open Monitored

theorem Monitored.promised_arrived : (mon.arrived entry next).promised timer = some deadline ↔
      mon.promised timer = some deadline ∧
        { timer := timer, deadline := deadline : DueEntry } ≠ entry := by
  have split : { timer := timer, deadline := deadline : DueEntry } = entry ↔
      timer = entry.timer ∧ deadline = entry.deadline := by
    cases entry
    simp
  rw [ne_eq, split]
  unfold arrived
  dsimp only
  split
  · rename_i isDue
    by_cases same : timer = entry.timer
    · rw [same, update_self, isDue]
      simp [eq_comm]
    · rw [update_of_ne same]
      simp [same]
  · rename_i isDue
    constructor
    · intro isPromised
      refine ⟨isPromised, ?_⟩
      rintro ⟨sameTimer, sameDeadline⟩
      rw [sameTimer, sameDeadline] at isPromised
      exact isDue isPromised
    · exact fun both => both.1

variable {rest : List DueEntry} {index : Nat}

theorem nextArrival_of_found
    (found : chron.announcing[index]? = some { current := none, due := entry :: rest }) :
    chron.nextArrival index = some entry := by
  unfold nextArrival
  rw [found]

theorem Monitored.Sound.arriving (sound : mon.Sound excuse)
    (found : mon.chronology.announcing[index]? = some { current := none, due := entry :: rest }) :
    (mon.arrived entry { mon.chronology with
      announcing := mon.chronology.announcing.set index
        { current := some entry, due := rest } }).Sound excuse := by
  apply sound.transfer
  · exact fun _ => rfl
  · exact fun _ mapped => mapped
  · exact fun _ cancelling _ => cancelling
  · exact fun _ _ isPromised => (promised_arrived.mp isPromised).1
  · intro _ _ isPromised isWaiting
    apply isWaiting.set found
    intro inDue
    rcases mem_cons.mp inDue with isEntry | inRest
    · exact absurd isEntry (promised_arrived.mp isPromised).2
    · exact inRest

/-- Writing the state of a timer keeps the promises if and only if a timer in the map
is not disarmed, unless it is being cancelled, and a timer that is promised stays
scheduled. -/
theorem Monitored.Sound.write_iff (sound : mon.Sound excuse) (timer : Nat) (value : Timer)
    (log : List DueEntry) :
    ({ mon with chronology := { mon.chronology.setTimer timer value with
      announced := log } } : Monitored).Sound excuse ↔
      (value.state = .waiting -> mon.chronology.Mapped timer -> mon.chronology.Excused excuse timer) ∧
      ∀ deadline, mon.promised timer = some deadline -> value.state = .scheduled := by
  constructor
  · intro written
    constructor
    · intro isWaiting isMapped
      have outcome := written.scheduled timer isMapped (by simp [isWaiting])
      rcases outcome with isScheduled | isExcused
      · simp [isWaiting] at isScheduled
      · exact isExcused
    · intro deadline isPromised
      have isScheduled := (written.waits timer deadline isPromised).1
      simpa using isScheduled
  · rintro ⟨notDisarmed, staysScheduled⟩
    constructor
    case scheduled =>
      intro other isMapped notClosed
      by_cases same : other = timer
      · simp only [same, setTimer_self] at notClosed ⊢
        rw [same] at isMapped
        cases isState : value.state with
        | waiting => exact .inr (notDisarmed isState isMapped)
        | scheduled => exact .inl rfl
        | closed => contradiction
      · simp only [setTimer_of_ne _ _ same] at notClosed ⊢
        exact sound.scheduled other isMapped notClosed
    case waits =>
      intro other deadline isPromised
      obtain ⟨isScheduled, isWaiting⟩ := sound.waits other deadline isPromised
      by_cases same : other = timer
      · simp only [same, setTimer_self]
        rw [same] at isPromised isWaiting
        exact ⟨staysScheduled deadline isPromised, isWaiting⟩
      · simp only [setTimer_of_ne _ _ same]
        exact ⟨isScheduled, isWaiting⟩

/-- The arrival of a timer keeps the promises if and only if it does not disturb
them. -/
theorem Monitored.Invariant.arrive_iff (inv : mon.Invariant excuse)
    (found : mon.chronology.announcing[index]? = some { current := none, due := entry :: rest }) :
    (mon.arrived entry ({ mon.chronology with
      announcing := mon.chronology.announcing.set index
        { current := some entry, due := rest } }.arrive entry)).Sound excuse ↔
      mon.Undisturbed excuse (.arrive index) := by
  have isNext := nextArrival_of_found found
  have arriving := inv.sound.arriving found
  unfold arrive
  dsimp only
  split
  · rename_i runs
    have written := arriving.write_iff entry.timer
      (arrivedTimer (mon.chronology.timers entry.timer))
      (mon.chronology.announced ++
        if (mon.chronology.timers entry.timer).options.wantDeadline then [entry] else [])
    obtain ⟨waitingIff, scheduledIff⟩ := arrivedTimer_state (mon.chronology.timers entry.timer)
    rw [waitingIff, scheduledIff] at written
    apply written.trans
    constructor
    · rintro ⟨notDisarmed, staysScheduled⟩ other isOther
      cases isNext.symm.trans isOther
      refine fun _ _ => ⟨fun notOneShot single => notDisarmed ⟨notOneShot, single⟩, ?_⟩
      intro deadline isPromised another
      apply staysScheduled deadline
      apply promised_arrived.mpr
      exact ⟨isPromised, fun same => another (congrArg DueEntry.deadline same)⟩
    · intro undisturbed
      obtain ⟨notDisarmed, staysScheduled⟩ := undisturbed entry isNext runs.1 runs.2
      constructor
      · exact fun both => notDisarmed both.1 both.2
      · intro deadline isPromised
        obtain ⟨wasPromised, another⟩ := promised_arrived.mp isPromised
        apply staysScheduled deadline wasPromised
        intro same
        exact another (by rw [same])
  · rename_i idle
    constructor
    · intro _ _ isOther _ isScheduled hasCallback
      cases isNext.symm.trans isOther
      exact absurd ⟨isScheduled, hasCallback⟩ idle
    · exact fun _ => arriving

theorem Monitored.Sound.depart (sound : mon.Sound excuse)
    (found : mon.chronology.announcing[index]? = some { current := some entry, due := rest }) :
    ({ mon with
      chronology := addReferences { mon.chronology with
        announcing := mon.chronology.announcing.set index { due := rest } }
          entry.timer (-1) } : Monitored).Sound excuse := by
  apply sound.transfer
  · exact fun _ => rfl
  · exact fun _ mapped => mapped
  · exact fun _ cancelling _ => cancelling
  · exact fun _ _ isPromised => isPromised
  · intro _ _ _ isWaiting
    exact isWaiting.set found fun inDue => inDue

variable {thread timer : Nat}

/-- The first section of `cancel` leaves a timer in the map that waits. -/
theorem Monitored.Invariant.cancel_iff (inv : mon.Invariant excuse)
    (taken : mon.chronology.beginCall thread timer
      (mon.chronology.beginCancel timer) (.cancel timer) = some next) :
    (mon.begun thread timer (mon.chronology.beginCancel timer) next).Sound excuse ↔
      mon.Undisturbed excuse (.cancel thread timer) := by
  constructor
  · intro sound strict after entered isMapped
    rw [entered] at taken sound
    obtain ⟨_, isAfter⟩ := beginCancel_eq entered
    unfold Chronology.beginCall at taken
    obtain ⟨_, rfl⟩ := Run.guarded taken
    have sameMap : after.deadlineMap = mon.chronology.deadlineMap := by
      rw [isAfter]
      rfl
    have isWaiting : (after.timers timer).state = .waiting := by rw [isAfter, setTimer_self]
    have outcome := sound.scheduled timer (by
      unfold Mapped
      exact sameMap ▸ isMapped) (by
      show (after.timers timer).state ≠ _
      simp [isWaiting])
    rcases outcome with isScheduled | ⟨excused, _⟩
    · have impossible := isWaiting.symm.trans isScheduled
      contradiction
    · rw [strict] at excused
      contradiction
  · intro undisturbed
    refine inv.beginCall ?_ taken
    intro after entered
    refine ⟨_, (beginCancel_eq entered).2, .inr (.inr ⟨rfl, ?_⟩)⟩
    cases isExcuse : excuse with
    | true => exact .inl rfl
    | false => exact .inr (undisturbed isExcuse after entered)

variable {call : TimerCall}

theorem Monitored.Invariant.finish_iff (inv : mon.Invariant excuse) {thread address : Nat}
    (isCall : mon.chronology.calls thread = some call) :
    (mon.finished thread ({ mon.chronology with
      calls := update mon.chronology.calls thread none }.finishCall address call)
        call).Sound excuse ↔ mon.Undisturbed excuse (.finish thread address) := by
  cases call with
  | schedule timer deadline =>
    apply (inv.finishSchedule address isCall).trans
    constructor
    · intro undisturbed _ _ isOther
      cases isCall.symm.trans isOther
      exact undisturbed
    · exact fun undisturbed => undisturbed timer deadline isCall
  | cancel timer | close _ =>
    constructor
    · intro _ _ _ isOther
      cases isCall.symm.trans isOther
    · exact fun _ => inv.finishRemoval isCall rfl

variable {action : Action}

/-- A section keeps the promises if and only if it does not disturb them. -/
theorem Monitored.Invariant.step_iff (inv : mon.Invariant excuse)
    (taken : mon.chronology.step action = some next) :
    (mon.record next action).Sound excuse ↔ mon.Undisturbed excuse action := by
  cases action with
  | createTimer timer options callback =>
    obtain ⟨fresh, isNext⟩ := createTimer_taken taken
    rw [isNext]
    exact iff_of_true (inv.createTimer options callback fresh) trivial
  | schedule thread timer deadline period =>
    have called : mon.chronology.beginCall thread timer (mon.chronology.beginSchedule timer period)
      (.schedule timer (effectiveDeadline deadline)) = some next := taken
    refine iff_of_true (inv.beginCall ?_ called) trivial
    intro _ entered
    exact ⟨_, (beginSchedule_eq entered).2, .inl rfl⟩
  | cancel thread timer =>
    have called : mon.chronology.beginCall thread timer
      (mon.chronology.beginCancel timer) (.cancel timer) = some next := taken
    exact inv.cancel_iff called
  | close thread timer =>
    have called : mon.chronology.beginCall thread timer
      (mon.chronology.beginClose timer) (.close timer) = some next := taken
    refine iff_of_true (inv.beginCall ?_ called) trivial
    intro _ entered
    exact ⟨_, beginClose_eq entered, .inr (.inl rfl)⟩
  | finish =>
    obtain ⟨_, isCall, _, isNext⟩ := finish_taken taken
    simp only [record, isCall, isNext]
    exact inv.finish_iff isCall
  | execute =>
    cases taken
    exact iff_of_true (inv.sound.transfer (fun _ => rfl) (fun _ mapped => mapped)
      (fun _ cancelling _ => cancelling) (fun _ _ isPromised => isPromised)
      (fun _ _ _ isWaiting => isWaiting)) trivial
  | collect single now backoff =>
    cases taken
    exact iff_of_true (inv.collect single now backoff) trivial
  | arrive index =>
    obtain ⟨entry, rest, found, isNext⟩ := arrive_taken taken
    simp only [record, nextArrival_of_found found, isNext]
    exact inv.arrive_iff found
  | depart =>
    obtain ⟨_, _, found, isNext⟩ := depart_taken taken
    rw [isNext]
    exact iff_of_true (inv.sound.depart found) trivial

theorem Created.of_same {other : Chronology} (created : chron.Created)
    (sameState : ∀ timer, (other.timers timer).state = (chron.timers timer).state)
    (sameCreated : ∀ timer, (other.timers timer).created = (chron.timers timer).created) :
    other.Created := by
  intro timer isScheduled
  rw [sameState] at isScheduled
  rw [sameCreated]
  exact created timer isScheduled

theorem Created.setTimer (created : chron.Created) (timer : Nat) (value : Timer)
    (ofValue : value.state = .scheduled -> value.created = true) :
    (chron.setTimer timer value).Created := by
  intro other isScheduled
  by_cases same : other = timer
  · rw [same, setTimer_self] at isScheduled ⊢
    exact ofValue isScheduled
  · rw [setTimer_of_ne _ _ same] at isScheduled ⊢
    exact created other isScheduled

theorem Monitored.Invariant.step_created (inv : mon.Invariant excuse)
    (taken : mon.chronology.step action = some next) : next.Created := by
  cases action with
  | createTimer timer =>
    rw [(createTimer_taken taken).2]
    exact inv.created.setTimer _ _ fun _ => rfl
  | schedule | cancel | close =>
    obtain ⟨isCreated, rfl | ⟨_, _, rfl, _, _, sameCreated⟩⟩ := begin_taken rfl taken
    · exact inv.created
    · exact inv.created.setTimer _ _ fun _ => sameCreated.trans isCreated
  | finish thread address =>
    obtain ⟨call, _, _, isNext⟩ := finish_taken taken
    rw [isNext]
    have returned := inv.tied.return thread
    cases call with
    | schedule timer deadline =>
      have entered := returned.entered timer deadline address
      exact inv.created.of_same entered.state entered.created
    | cancel timer | close timer =>
      exact inv.created.of_same (returned.left timer).state (returned.left timer).created
  | execute =>
    cases taken
    exact inv.created
  | collect single now backoff =>
    cases taken
    have collected := inv.tied.collected single now backoff
    exact inv.created.of_same collected.state collected.created
  | arrive index =>
    obtain ⟨entry, _, _, isNext⟩ := arrive_taken taken
    rw [isNext]
    unfold arrive
    dsimp only
    split
    · rename_i runs
      have arrived := inv.created.setTimer entry.timer
        (arrivedTimer (mon.chronology.timers entry.timer)) fun _ =>
          (arrivedTimer_created _).trans (inv.created entry.timer runs.1)
      exact arrived
    · exact inv.created
  | depart =>
    obtain ⟨_, _, _, isNext⟩ := depart_taken taken
    rw [isNext]
    exact inv.created

/-! ## Promises that end -/

theorem Monitored.Invariant.arrive_announced (inv : mon.Invariant excuse)
    {announcing : List Announcement} (isPromised : mon.promised entry.timer = some entry.deadline)
    (hasCallback : (mon.chronology.timers entry.timer).callback = true)
    (wanted : (mon.chronology.timers entry.timer).options.wantDeadline = true) :
    (arrive { mon.chronology with announcing := announcing } entry).announced =
      mon.chronology.announced ++ [entry] := by
  have isScheduled := (inv.sound.waits entry.timer entry.deadline isPromised).1
  unfold arrive
  simp [isScheduled, hasCallback, wanted]

theorem Monitored.promised_begun {thread called : Nat} {section? : Option Chronology}
    (apart : timer ≠ called) :
    (mon.begun thread called section? next).promised timer = mon.promised timer := by
  unfold begun
  split
  · exact update_of_ne apart _ _
  · rfl

theorem Monitored.promised_finished (apart : timer ≠ call.timer) :
    (mon.finished thread next call).promised timer = mon.promised timer := by
  cases call with
  | schedule called deadline | cancel called | close _ => exact update_of_ne apart _ _

theorem Monitored.Invariant.promise_ends (inv : mon.Invariant excuse)
    (taken : mon.chronology.step action = some next)
    (isPromised : mon.promised timer = some deadline)
    (ended : (mon.record next action).promised timer ≠ some deadline) :
    mon.chronology.Calls timer action ∨ ((mon.chronology.timers timer).callback = true ->
        (mon.chronology.timers timer).options.wantDeadline = true ->
          next.announced = mon.chronology.announced ++
            [{ timer := timer, deadline := deadline }]) := by
  cases action with
  | createTimer created options callback | execute functor | collect single now backoff
  | depart index => contradiction
  | schedule thread called date period | cancel thread called | close thread _ =>
    apply Or.inl
    by_contra apart
    exact ended ((promised_begun fun same => apart same.symm).trans isPromised)
  | finish =>
    apply Or.inl
    simp only [record] at ended
    split at ended
    · rename_i call isCall
      refine ⟨call, isCall, ?_⟩
      by_contra apart
      exact ended ((promised_finished fun same => apart same.symm).trans isPromised)
    · contradiction
  | arrive =>
    apply Or.inr
    obtain ⟨entry, _, found, isNext⟩ := arrive_taken taken
    simp only [record, nextArrival_of_found found] at ended
    have isEntry : { timer := timer, deadline := deadline : DueEntry } = entry := by
      by_contra another
      exact ended (promised_arrived.mpr ⟨isPromised, another⟩)
    subst isEntry isNext
    exact fun hasCallback wanted => inv.arrive_announced isPromised hasCallback wanted

theorem Monitored.begun_chronology (mon : Monitored) (thread timer : Nat)
    (section? : Option Chronology) (next : Chronology) :
    (mon.begun thread timer section? next).chronology = next := by
  unfold begun
  split
  · rfl
  · rfl

/-- The history does not change what the chronology does. -/
theorem Monitored.record_chronology (mon : Monitored) (next : Chronology)
    (action : Action) : (mon.record next action).chronology = next := by
  cases action with
  | createTimer timer options callback | execute functor | collect single now backoff
  | depart index => rfl
  | schedule thread timer deadline period | cancel thread timer
  | close thread timer => exact begun_chronology _ _ _ _ _
  | finish =>
    simp only [record]
    split
    · rename_i call _
      cases call with
      | schedule timer deadline | cancel timer | close _ => rfl
    · rfl
  | arrive =>
    simp only [record]
    split
    · rfl
    · rfl

section

variable (inv : mon.Invariant excuse)
include inv

theorem Monitored.Invariant.announces (action : Action) : mon.Announces action where
  collects := by
    intro single now backoff _ idle timer deadline isPromised reached
    have collected := inv.tied.collected single now backoff
    have notDone : (single && !mon.chronology.functorQueue.isEmpty) = false := by
      cases isSingle : single with
      | false => rfl
      | true => simp [idle isSingle]
    exact collected.reached notDone timer deadline
      (inv.sound.waits timer deadline isPromised).2 reached
  ends := by
    intro _ taken _ _ isPromised ended
    obtain ⟨_, stepped, isNext⟩ := Option.map_eq_some_iff.mp taken
    subst isNext
    rw [record_chronology]
    exact inv.promise_ends stepped isPromised ended

variable {next : Monitored}

theorem Monitored.Invariant.step
    (undisturbed : mon.Undisturbed excuse action) (taken : mon.step action = some next) :
    next.Invariant excuse := by
  obtain ⟨_, stepped, isNext⟩ := Option.map_eq_some_iff.mp taken
  subst isNext
  constructor
  case tied =>
    rw [record_chronology]
    exact step_tied inv.tied stepped
  case sound => exact (inv.step_iff stepped).mpr undisturbed
  case created =>
    rw [record_chronology]
    exact inv.step_created stepped

theorem Monitored.Invariant.detects (taken : mon.step action = some next)
    (sound : next.Sound excuse) : mon.Undisturbed excuse action := by
  obtain ⟨_, stepped, isNext⟩ := Option.map_eq_some_iff.mp taken
  subst isNext
  exact (inv.step_iff stepped).mp sound

end

/-- In every run of a chronology, every timer in the map that is not closed is
scheduled in every state, and every section does its part in announcing the
deadlines that are promised, if and only if no section disturbs a timer that is
scheduled. This holds with the timers being cancelled excused, and without. -/
theorem scheduled_announced_iff (excuse : Bool) (actions : List Action) :
    (Run.Always Monitored.step (Monitored.Sound excuse) {} actions ∧
      Run.Along Monitored.step Monitored.Announces {} actions) ↔
        Run.Along Monitored.step (Monitored.Undisturbed excuse) {} actions := by
  have soundIff : Run.Always Monitored.step (Monitored.Sound excuse) {} actions ↔
      Run.Along Monitored.step (Monitored.Undisturbed excuse) {} actions :=
    Run.always_iff_along (fun _ inv => Monitored.Invariant.sound inv)
      (fun _ _ _ inv undisturbed taken => inv.step undisturbed taken)
      (fun _ _ _ inv taken sound => inv.detects taken sound)
      Monitored.start_invariant
  constructor
  · exact fun both => soundIff.mp both.1
  · intro undisturbed
    refine ⟨soundIff.mpr undisturbed, ?_⟩
    have always : Run.Always Monitored.step (Monitored.Invariant excuse) {} actions :=
      Run.always_of_along (fun _ _ _ inv meets taken => inv.step meets taken)
        start_invariant undisturbed
    exact Run.along_of_always (fun _ action inv => inv.announces action) always

/-- A timer is scheduled, collected by `announce`, and scheduled for another deadline
before it arrives: it then waits in the map, and its deadline is not announced. -/
theorem rescheduled_timer_disarmed :
    ¬ ∃ excuse, Run.Always Monitored.step (Monitored.Sound excuse) {}
      [.createTimer 0 {} true, .schedule 0 0 1000 0, .finish 0 7,
        .collect false 1000 (fun _ period => period), .schedule 0 0 5000000 0, .finish 0 8,
        .arrive 0] := by
  rintro ⟨_, always⟩
  have final := (Run.always_iff _ _).mp always _ [] _ (append_nil _) rfl
  have outcome := (final.waits 0 5000 rfl).1
  contradiction

end Chronology

end NtfCore.Ntcs
