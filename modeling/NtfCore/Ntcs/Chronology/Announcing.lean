import NtfCore.Ntcs.Chronology.Collection

/-!
Contract: what the loop of `announce` does to the map and to the timers.

Owns: the theorem that every element of the map is that of its timer, whatever
was cleared before; the theorem that the loop ends, takes the timers that are due
once and in order, puts the recurring ones back at their next deadlines and
leaves the rest alone; and when a next deadline is the sum that it should be.
-/

namespace NtfCore.Ntcs

open NtfCore.Foundation List StableMap Timer

namespace Chronology

variable {chron : Chronology}

/-! ## Elements and timers, whatever is cleared

A timer keeps its handle when the map is cleared, and the pool may hand the same
address out again. What remains is that an element is that of its timer. -/

structure Woven (chronology : Chronology) : Prop extends Linked chronology where
  created : ∀ entry ∈ chronology.deadlineMap.entries, (chronology.timers entry.data).created = true
  called : ∀ thread call, chronology.calls thread = some call ->
    (chronology.timers call.timer).created = true

theorem start_woven : ({} : Chronology).Woven where
  ordered := empty_ordered
  handled := by simp
  created := by simp
  called := fun _ _ impossible => absurd impossible (by simp)

/-- What a section may do that adds no element. -/
theorem Woven.transfer {other : Chronology} (woven : chron.Woven)
    (ordered : other.deadlineMap.Ordered)
    (origins : ∀ entry ∈ other.deadlineMap.entries, ∃ origin ∈ chron.deadlineMap.entries,
      origin.handle = entry.handle ∧ origin.data = entry.data ∧
        (other.timers entry.data).handle = (chron.timers entry.data).handle)
    (created : ∀ timer, (chron.timers timer).created = true -> (other.timers timer).created = true)
    (called : ∀ thread call, other.calls thread = some call ->
      chron.calls thread = some call ∨ (chron.timers call.timer).created = true) : other.Woven := by
  constructor
  case created =>
    intro entry mem
    obtain ⟨origin, inMap, _, sameData, _⟩ := origins entry mem
    rw [← sameData]
    exact created _ (woven.created origin inMap)
  case called =>
    intro thread call isCall
    rcases called thread call isCall with before | isCreated
    · exact created _ (woven.called thread call before)
    · exact created _ isCreated
  case toLinked =>
    refine ⟨ordered, ?_⟩
    intro entry mem
    obtain ⟨origin, inMap, sameHandle, sameData, kept⟩ := origins entry mem
    rw [kept, ← sameData, ← sameHandle]
    exact woven.handled origin inMap

/-- What a section may do that leaves the map and all handles as they are. -/
theorem Woven.frame {other : Chronology} (woven : chron.Woven)
    (sameMap : other.deadlineMap = chron.deadlineMap)
    (sameHandle : ∀ timer, (other.timers timer).handle = (chron.timers timer).handle)
    (created : ∀ timer, (chron.timers timer).created = true -> (other.timers timer).created = true)
    (called : ∀ thread call, other.calls thread = some call ->
      chron.calls thread = some call ∨ (chron.timers call.timer).created = true) : other.Woven := by
  apply woven.transfer
  case ordered =>
    rw [sameMap]
    exact woven.ordered
  case origins =>
    intro entry mem
    rw [sameMap] at mem
    exact ⟨entry, mem, rfl, rfl, sameHandle entry.data⟩
  case created => exact created
  case called => exact called

theorem Woven.createTimer (woven : chron.Woven) {timer : Nat}
    (fresh : (chron.timers timer).created = false) (options : TimerOptions)
    (callback : Bool) : (chron.createTimer timer options callback).Woven := by
  apply woven.transfer
  case ordered => exact woven.ordered
  case origins =>
    intro entry mem
    have apart : entry.data ≠ timer := by
      intro same
      have wasCreated := woven.created entry mem
      rw [same, fresh] at wasCreated
      contradiction
    exact ⟨entry, mem, rfl, rfl, congrArg handle (setTimer_of_ne chron _ apart)⟩
  case created => exact fun _ wasCreated => setTimer_created (fun _ => rfl) wasCreated
  case called => exact fun _ _ isCall => .inl isCall

variable {next : Chronology}

section

variable (woven : chron.Woven)
include woven

theorem Woven.begin {action : Action} {thread timer : Nat}
    (begins : action.begins = some (thread, timer)) (taken : chron.step action = some next) :
    next.Woven := by
  obtain ⟨isCreated, rfl | ⟨_, call, rfl, ofTimer, sameHandle, sameCreated⟩⟩ :=
    begin_taken begins taken
  · exact woven
  · apply woven.frame
    case sameMap => rfl
    case sameHandle => exact setTimer_field chron handle sameHandle
    case created =>
      intro other wasCreated
      exact setTimer_created (fun created => sameCreated.trans created) wasCreated
    case called =>
      intro other pending isPending
      by_cases same : other = thread
      · have isCall : call = pending := by simpa [same] using isPending
        rw [← isCall, ofTimer]
        exact .inr isCreated
      · exact .inl ((Function.update_of_ne same _ _).symm.trans isPending)

theorem Woven.return (thread : Nat) :
    ({ chron with calls := Function.update chron.calls thread none } : Chronology).Woven := by
  apply woven.frame
  case sameMap => rfl
  case sameHandle => exact fun _ => rfl
  case created => exact fun _ wasCreated => wasCreated
  case called =>
    intro other _ isCall
    by_cases same : other = thread
    · simp [same] at isCall
    · exact .inl ((Function.update_of_ne same _ _).symm.trans isCall)

/-- A handle that is stale removes the element of another timer. -/
theorem Woven.detach (timer : Nat) : (chron.detach timer).Woven := by
  unfold Chronology.detach
  dsimp only
  cases isHandle : (chron.timers timer).handle with
  | none => exact woven
  | some handle =>
    have origins : ∀ entry ∈ (chron.deadlineMap.erase handle).entries,
        ∃ origin ∈ chron.deadlineMap.entries,
          origin.handle = entry.handle ∧ origin.data = entry.data ∧
            (((chron.addReferences timer (-1)).setTimer timer
              { chron.timers timer with handle := none }).timers entry.data).handle =
                (chron.timers entry.data).handle := by
      intro entry mem
      obtain ⟨inMap, apart⟩ := mem_erase.mp mem
      have otherTimer : entry.data ≠ timer := by
        intro same
        have entryHandle := woven.handled entry inMap
        rw [same, isHandle] at entryHandle
        exact apart (Option.some.inj entryHandle).symm
      exact ⟨entry, inMap, rfl, rfl, congrArg Timer.handle
        (setTimer_of_ne (chron.addReferences timer (-1)) _ otherTimer)⟩
    dsimp only
    cases (chron.deadlineMap.erase handle).entries.head? with
    | none | some _ =>
      apply woven.transfer
      case ordered => exact woven.ordered.erase handle
      case origins => exact origins
      case created =>
        exact fun _ wasCreated => setTimer_created (fun created => created) wasCreated
      case called => exact fun _ _ isCall => .inl isCall

/-- A handle that is stale moves the element of another timer, or none. -/
theorem Woven.finishSchedule {timer address : Nat} (created : (chron.timers timer).created = true)
    (fresh : address ∉ chron.deadlineMap.handles) (deadline : Int) :
    (chron.finishSchedule timer deadline address).Woven := by
  unfold Chronology.finishSchedule
  dsimp only
  cases isHandle : (chron.timers timer).handle with
  | some handle =>
    apply woven.transfer
    case ordered => exact woven.ordered.update handle deadline
    case origins =>
      intro entry mem
      obtain ⟨origin, inMap, sameHandle, sameData⟩ :=
        (maps_update woven.ordered).mp ⟨entry, mem, rfl, rfl⟩
      exact ⟨origin, inMap, sameHandle, sameData, rfl⟩
    case created => exact fun _ wasCreated => wasCreated
    case called => exact fun _ _ isCall => .inl isCall
  | none =>
    have keptCreated : ∀ other, (chron.timers other).created = true ->
        (((chron.addReferences timer 1).setTimer timer
          { chron.timers timer with handle := some address }).timers other).created = true :=
      fun _ wasCreated => setTimer_created (fun created => created) wasCreated
    constructor
    case created =>
      intro entry mem
      rcases mem_insert.mp mem with inMap | isNew
      · exact keptCreated _ (woven.created entry inMap)
      · rw [isNew]
        exact keptCreated _ created
    case called => exact fun thread call isCall => keptCreated _ (woven.called thread call isCall)
    case toLinked =>
      refine ⟨woven.ordered.insert fresh deadline timer, ?_⟩
      intro entry mem
      rcases mem_insert.mp mem with inMap | isNew
      · have otherTimer : entry.data ≠ timer := by
          intro same
          have entryHandle := woven.handled entry inMap
          rw [same, isHandle] at entryHandle
          contradiction
        rw [← woven.handled entry inMap]
        exact congrArg handle (setTimer_of_ne (chron.addReferences timer 1) _ otherTimer)
      · rw [isNew]
        exact congrArg handle (setTimer_self (chron.addReferences timer 1) timer _)

end

variable {round : Collecting}

theorem Woven.collectEntry (woven : round.chronology.Woven)
    (now : Int) (backoff : Nat -> Int -> Int) {current : StableEntry Nat Int Nat}
    (mem : current ∈ round.chronology.deadlineMap.entries) :
    (collectEntry now backoff round current).chronology.Woven := by
  obtain ⟨_, timersEq, _, sameCreated⟩ := collectEntry_timers now backoff round current
  obtain ⟨_, _, _, frameEq⟩ := collectEntry_frame now backoff round current
  have callsEq : (Chronology.collectEntry now backoff round current).chronology.calls =
      round.chronology.calls := by rw [frameEq]
  have created : ∀ timer, (round.chronology.timers timer).created = true ->
      ((Chronology.collectEntry now backoff round current).chronology.timers timer).created =
        true := by
    intro _ wasCreated
    rw [timersEq]
    exact setTimer_created (fun created => sameCreated.trans created) wasCreated
  constructor
  case created =>
    intro entry inNext
    obtain ⟨origin, inMap, sameData⟩ :=
      (collectEntry_entries backoff now woven.toLinked mem).1 entry inNext
    rw [← sameData]
    exact created _ (woven.created origin inMap)
  case called =>
    intro thread call isCall
    rw [callsEq] at isCall
    exact created _ (woven.called thread call isCall)
  case toLinked => exact woven.toLinked.collectEntry now backoff mem

theorem Woven.collectLoop (now : Int) (backoff : Nat -> Int -> Int) (fuel : Nat)
    (woven : round.chronology.Woven) : (collectLoop now backoff fuel round).chronology.Woven :=
  collectLoop_induct (P := fun round => round.chronology.Woven)
    (fun _ _ mem woven => woven.collectEntry now backoff mem) fuel woven

section

variable (woven : chron.Woven)
include woven

theorem Woven.refresh : chron.refresh.Woven := by
  obtain ⟨_, _, refreshEq⟩ := refresh_eq chron
  rw [refreshEq]
  exact { woven with }

theorem Woven.collect (single : Bool) (now : Int) (backoff : Nat -> Int -> Int) :
    (chron.collect single now backoff).Woven := by
  obtain ⟨queue, isEmpty, _, takenEq⟩ := takeFunctors_eq chron single
  have takenWoven : ({ chron with functorQueue := queue, functorQueueEmpty := isEmpty } :
      Chronology).Woven := { woven with }
  unfold Chronology.collect
  rw [takenEq]
  dsimp only
  split
  · have startWoven : ({ chronology := { chron with
        functorQueue := queue, functorQueueEmpty := isEmpty } } :
          Collecting).chronology.Woven := takenWoven
    have loopWoven := startWoven.collectLoop (totalMicroseconds now) backoff
      (chron.deadlineMap.entries.length + 1)
    exact { loopWoven.refresh with }
  · exact takenWoven

theorem Woven.finishCall {address : Nat} {call : TimerCall}
    (created : (chron.timers call.timer).created = true)
    (fresh : address ∉ chron.deadlineMap.handles) : (chron.finishCall address call).Woven := by
  cases call with
  | schedule timer deadline => exact woven.finishSchedule created fresh deadline
  | cancel timer | close timer => exact woven.detach timer

theorem step_woven {action : Action} (taken : chron.step action = some next) : next.Woven := by
  cases action with
  | createTimer _ options callback =>
    obtain ⟨fresh, isNext⟩ := createTimer_taken taken
    rw [isNext]
    exact woven.createTimer fresh options callback
  | schedule | cancel | close => exact woven.begin rfl taken
  | finish thread =>
    obtain ⟨call, isCall, fresh, isNext⟩ := finish_taken taken
    rw [isNext]
    exact (woven.return thread).finishCall (woven.called thread call isCall) fresh
  | execute =>
    cases taken
    exact { woven with }
  | collect single now backoff =>
    cases taken
    exact woven.collect single now backoff
  | arrive index =>
    obtain ⟨entry, rest, found, isNext⟩ := arrive_taken taken
    obtain ⟨_, _, arriveEq, sameHandle, sameCreated⟩ := arrive_eq { chron with
      announcing := chron.announcing.set index { current := some entry, due := rest } } entry
    rw [isNext, arriveEq]
    apply woven.frame
    case sameMap => rfl
    case sameHandle => exact setTimer_field chron handle sameHandle
    case created =>
      exact fun _ wasCreated =>
        setTimer_created (fun created => sameCreated.trans created) wasCreated
    case called => exact fun _ _ isCall => .inl isCall
  | depart =>
    obtain ⟨_, _, _, isNext⟩ := depart_taken taken
    rw [isNext]
    exact { woven with }

theorem Woven.clearTimers : chron.clearTimers.Woven := by
  unfold Chronology.clearTimers
  split
  · exact woven
  · apply woven.transfer
    case ordered => exact clear_ordered _
    case origins => exact forall_mem_nil _
    case created => exact fun _ wasCreated => wasCreated
    case called => exact fun _ _ isCall => .inl isCall

theorem operate_woven {op : Operation} (taken : chron.operate op = some next) : next.Woven := by
  cases op with
  | take => exact step_woven woven taken
  | clear =>
    cases taken
    have emptied : ({ chron with functorQueue := [], functorQueueEmpty := true } :
        Chronology).Woven := { woven with }
    exact emptied.clearTimers
  | clearTimers =>
    cases taken
    exact woven.clearTimers
  | release =>
    obtain ⟨_, rfl⟩ := Run.guarded taken
    exact { woven with }

end

/-- In every state of a run every element of the map is that of its timer. -/
theorem run_woven {operations : List Operation}
    (reached : Run.run operate {} operations = some chron) : chron.Woven := by
  have always : Run.Always operate Woven {} operations :=
    Run.always_of_keeps (fun _ _ _ woven taken => operate_woven woven taken) start_woven
  exact (Run.always_iff {} operations).mp always operations [] chron (append_nil _) reached

/-! ## What the loop does -/

/-- The loop, from the state before it to that after it: it has reached a `break`;
the timers due are collected once each, in the order of their deadlines and then
in the order in which they were scheduled; those that do not recur are out of the
map, and those that do are in it at their next deadline; all other elements and
timers are as they were. -/
structure Collects (chronology : Chronology) (now : Int) (backoff : Nat -> Int -> Int)
    (after : Collecting) : Prop where
  stops : after.Stops now
  due : after.due = (chronology.dueEntries now).map dueEntry
  ordered : (chronology.dueEntries now).Pairwise fun earlier later =>
    earlier.key < later.key ∨ earlier.key = later.key ∧ earlier.stamp < later.stamp
  once : (after.due.map DueEntry.timer).Nodup
  finished : ∀ entry ∈ chronology.dueEntries now, (chronology.timers entry.data).period = 0 ->
    entry.data ∉ after.chronology.deadlineMap.entries.map StableEntry.data ∧
      after.chronology.timers entry.data =
        { chronology.timers entry.data with handle := none }
  recurring : (recurrences chronology.timers backoff 0 (chronology.dueEntries now)).map
      Recurrence.entry =
    (chronology.dueEntries now).filter fun entry => (chronology.timers entry.data).period ≠ 0
  recurred : ∀ recurrence ∈
      recurrences chronology.timers backoff 0 (chronology.dueEntries now),
    (∃ entry ∈ after.chronology.deadlineMap.entries, entry.data = recurrence.entry.data ∧
      entry.key = max now recurrence.sum) ∧
    after.chronology.timers recurrence.entry.data =
      { chronology.timers recurrence.entry.data with period := recurrence.period }
  single : (after.chronology.deadlineMap.entries.map StableEntry.data).Nodup
  others : ∀ entry, entry.data ∉ after.due.map DueEntry.timer ->
    (entry ∈ after.chronology.deadlineMap.entries ↔ entry ∈ chronology.deadlineMap.entries)
  untouched : ∀ timer, timer ∉ after.due.map DueEntry.timer ->
    after.chronology.timers timer = chronology.timers timer

theorem Linked.data_nodup (linked : chron.Linked) :
    (chron.deadlineMap.entries.map StableEntry.data).Nodup := by
  have nodup := linked.ordered.distinct
  unfold handles at nodup
  apply Nodup.map_on _ (Nodup.of_map _ nodup)
  intro entry mem other isOther same
  have isHandle := linked.handled entry mem
  rw [same, linked.handled other isOther] at isHandle
  exact inj_on_of_nodup_map nodup mem isOther (Option.some.inj isHandle).symm

theorem mem_dueEntries {now : Int} {entry : StableEntry Nat Int Nat} :
    entry ∈ chron.dueEntries now ↔ entry ∈ chron.deadlineMap.entries ∧ entry.key ≤ now := by
  simp [dueEntries]

theorem Woven.collects (woven : chron.Woven) (now : Int) (backoff : Nat -> Int -> Int)
    (fits : ∀ recurrence ∈
      recurrences chron.timers backoff 0 (chron.dueEntries now), recurrence.Fits)
    {fuel : Nat} (enough : chron.deadlineMap.entries.length < fuel) : Collects chron now backoff
      (Chronology.collectLoop now backoff fuel { chronology := chron }) := by
  have swept := woven.toLinked.collectLoop_swept backoff now enough
  have startWoven : ({ chronology := chron } : Collecting).chronology.Woven := woven
  have afterLinked := (startWoven.collectLoop now backoff fuel).toLinked
  have dueEq : (Chronology.collectLoop now backoff fuel { chronology := chron }).due =
      (chron.dueEntries now).map dueEntry := swept.due
  have timersEq : (Chronology.collectLoop now backoff fuel
      { chronology := chron }).due.map DueEntry.timer =
        (chron.dueEntries now).map StableEntry.data := by
    rw [dueEq, map_map]
    rfl
  have recursOf : ∀ recurrence ∈ recurrences chron.timers backoff 0 (chron.dueEntries now),
        recurrence.entry ∈ (chron.dueEntries now).filter fun entry =>
          (chron.timers entry.data).period ≠ 0 := by
    intro recurrence mem
    rw [← recurrences_entries chron.timers backoff 0]
    exact mem_map_of_mem mem
  constructor
  case stops => exact swept.stops
  case due => exact dueEq
  case ordered => exact woven.ordered.increasing.sublist filter_sublist
  case once =>
    rw [timersEq]
    exact woven.toLinked.data_nodup.sublist (filter_sublist.map StableEntry.data)
  case finished =>
    intro entry isDue isSingle
    refine ⟨?_, swept.finished entry isDue isSingle⟩
    intro inMap
    obtain ⟨other, inAfter, sameData⟩ := mem_map.mp inMap
    have isHandle := afterLinked.handled other inAfter
    rw [sameData, swept.finished entry isDue isSingle] at isHandle
    contradiction
  case recurring => exact recurrences_entries chron.timers backoff 0 _
  case recurred =>
    intro recurrence mem
    rw [← (fits recurrence mem).deadline_eq now]
    exact swept.recurred recurrence mem
  case single => exact afterLinked.data_nodup
  case others =>
    intro entry notDue
    rw [timersEq] at notDue
    have notEntry : entry ∉ chron.dueEntries now := fun isDue =>
      notDue (mem_map_of_mem isDue)
    constructor
    · intro inAfter
      rcases swept.origin entry inAfter with ⟨inMap, _⟩ | ⟨recurrence, mem, sameData⟩
      · exact inMap
      · have isDue := (mem_filter.mp (recursOf recurrence mem)).1
        rw [← sameData] at notDue
        exact absurd (mem_map_of_mem isDue) notDue
    · intro inMap
      exact swept.kept entry inMap notEntry
  case untouched =>
    intro timer notDue
    rw [timersEq] at notDue
    exact swept.untouched timer notDue

/-- In every state that a chronology reaches, at every time and whatever a backoff
returns: when no next deadline overflows, the loop of `announce` ends within one
round for each element of the map, and does what it should. -/
theorem announce_collects (operations : List Operation) (chronology : Chronology)
    (reached : Run.run operate {} operations = some chronology) (now : Int)
    (backoff : Nat -> Int -> Int) (fits : ∀ recurrence ∈
      recurrences chronology.timers backoff 0 (chronology.dueEntries now), recurrence.Fits)
    (fuel : Nat) (enough : chronology.deadlineMap.entries.length < fuel) :
    Collects chronology now backoff (collectLoop now backoff fuel { chronology := chronology }) :=
  (run_woven reached).collects now backoff fits enough

def twoTimers : List Operation :=
  [.take (.createTimer 0 {} true), .take (.createTimer 1 { oneShot := true } true),
    .take (.schedule 0 0 5000 3000), .take (.finish 0 0),
    .take (.schedule 0 1 5000 0), .take (.finish 0 1)]

theorem announce_collects_two :
    Collects ((Run.run operate {} twoTimers).getD {}) 10 (fun _ period => period)
      (collectLoop 10 (fun _ period => period) 3
        { chronology := (Run.run operate {} twoTimers).getD {} }) :=
  announce_collects twoTimers _ rfl 10 _ (by decide +kernel) 3 (by decide +kernel)

/-! ## Next deadlines -/

/-- An `announce` that takes timers puts each that recurs back at the current time
or at its deadline plus its period, whichever is later, and the sum does not wrap. -/
def Punctual (chronology : Chronology) : Operation -> Prop
  | .take (.collect single now backoff) =>
    single = false ∨ chronology.functorQueue = [] ->
      ∀ recurrence ∈ recurrences chronology.timers backoff 0
          (chronology.dueEntries (totalMicroseconds now)),
        addMicroseconds recurrence.entry.key (totalMicroseconds recurrence.period) =
            recurrence.sum ∧
          ∃ entry ∈ (chronology.collect single now backoff).deadlineMap.entries,
            entry.data = recurrence.entry.data ∧
              entry.key = max (totalMicroseconds now) recurrence.sum
  | _ => True

def Affordable (chronology : Chronology) : Operation -> Prop
  | .take (.collect single now backoff) =>
    single = false ∨ chronology.functorQueue = [] ->
      ∀ recurrence ∈ recurrences chronology.timers backoff 0
          (chronology.dueEntries (totalMicroseconds now)), recurrence.Fits
  | _ => True

/-- The map after an `announce` that takes timers. -/
theorem Woven.collect_recurred (woven : chron.Woven) {single : Bool} (now : Int)
    (backoff : Nat -> Int -> Int) (takes : single = false ∨ chron.functorQueue = [])
    {recurrence : Recurrence} (mem : recurrence ∈ recurrences chron.timers backoff 0
      (chron.dueEntries (totalMicroseconds now))) :
    ∃ entry ∈ (chron.collect single now backoff).deadlineMap.entries,
      entry.data = recurrence.entry.data ∧
        entry.key = recurrence.deadline (totalMicroseconds now) := by
  have notDone : (chron.takeFunctors single).2 = false := by
    unfold takeFunctors
    rcases takes with notSingle | isEmpty
    · rw [notSingle]
      split
      · rfl
      · rfl
    · rw [isEmpty]
  obtain ⟨queue, isEmpty, done, takenEq⟩ := takeFunctors_eq chron single
  have isDone : done = false := by simpa [takenEq] using notDone
  have takenLinked : ({ chron with functorQueue := queue, functorQueueEmpty := isEmpty } :
      Chronology).Linked := { woven.toLinked with }
  have notEmpty : chron.deadlineMap.entries ≠ [] := by
    intro nothing
    have noneDue : chron.dueEntries (totalMicroseconds now) = [] := by
      unfold dueEntries
      rw [nothing]
      rfl
    rw [noneDue] at mem
    contradiction
  have swept := takenLinked.collectLoop_swept backoff (totalMicroseconds now) .refl
  unfold Chronology.collect
  rw [takenEq]
  dsimp only
  rw [if_pos ⟨notEmpty, isDone⟩]
  obtain ⟨_, _, refreshEq⟩ := refresh_eq (Chronology.collectLoop
    (totalMicroseconds now) backoff (chron.deadlineMap.entries.length + 1)
    { chronology := { chron with
      functorQueue := queue, functorQueueEmpty := isEmpty } }).chronology
  rw [refreshEq]
  exact (swept.recurred recurrence mem).1

theorem Woven.punctual_iff (woven : chron.Woven) (op : Operation) :
    chron.Punctual op ↔ chron.Affordable op := by
  unfold Punctual Affordable
  split
  · rename_i _ now backoff
    constructor
    · intro punctual takes recurrence mem
      exact recurrence.addMicroseconds_iff.mp (punctual takes recurrence mem).1
    · intro affordable takes recurrence mem
      have fits := affordable takes recurrence mem
      refine ⟨recurrence.addMicroseconds_iff.mpr fits, ?_⟩
      rw [← fits.deadline_eq]
      exact woven.collect_recurred now backoff takes mem
  · exact Iff.rfl

/-- In every run every recurring timer is put back at its deadline plus its period,
or at the current time if that is later, and no sum wraps, if and only if whenever
such a timer is taken the sum is a 64-bit number. -/
theorem recurrences_punctual_iff (operations : List Operation) :
    Run.Along operate Punctual {} operations ↔ Run.Along operate Affordable {} operations :=
  Run.along_iff (fun _ operation _ woven _ => Woven.punctual_iff woven operation)
    (fun _ _ _ woven _ taken => operate_woven woven taken) start_woven

/-- A timer whose first deadline is the first microsecond and whose period is the
longest that `schedule` keeps: the sum wraps, and the timer is due again at once. -/
def longPeriod : List Operation :=
  [.take (.createTimer 0 {} true), .take (.schedule 0 0 1000 maxTimeInterval),
    .take (.finish 0 0), .take (.collect false 5000 fun _ period => period)]

theorem not_recurrences_punctual : ¬ ∀ operations, Run.Along operate Punctual {} operations := by
  intro all
  obtain ⟨_, _, _, punctual, _⟩ := all longPeriod
  have wraps := (punctual (.inl rfl) _ mem_cons_self).1
  exact absurd wraps (by decide +kernel)

end Chronology

end NtfCore.Ntcs
