import NtfCore.Foundation.Lists
import NtfCore.Foundation.Run
import NtfCore.Ntcs.Chronology.Model

/-!
Contract: the handles of timers and the references of a chronology.

Owns: what ties the handle of a timer and the references on it to the deadline
map; the theorem that every section keeps this, except one that clears a map
which is not empty; and that such a section breaks it at once.
-/

namespace NtfCore.Ntcs

open NtfCore.Foundation List Chronology StableMap Function StableEntry

def Announcement.entries (announcement : Announcement) : List DueEntry :=
  announcement.current.toList ++ announcement.due

def TimerCall.timer : TimerCall -> Nat
  | .schedule timer _ => timer
  | .cancel timer => timer
  | .close timer => timer

namespace Chronology

def outstanding (chronology : Chronology) (timer : Nat) : Nat :=
  chronology.releasing.count timer +
    ((chronology.announcing.flatMap Announcement.entries).map DueEntry.timer).count timer

/-- A handle is that of the element of the map that holds the timer, and the
chronology holds one reference for that element, besides those that operations
under way have still to release. -/
structure Consistent (chronology : Chronology) : Prop where
  handle_iff : ∀ timer handle, (chronology.timers timer).handle = some handle ↔
    chronology.deadlineMap.Maps handle timer
  references_eq : ∀ timer, chronology.references timer =
    (if timer ∈ chronology.deadlineMap.entries.map StableEntry.data then 1 else 0) +
      chronology.outstanding timer

structure Tied (chronology : Chronology) : Prop where
  ordered : chronology.deadlineMap.Ordered
  handle_iff : ∀ timer handle, (chronology.timers timer).handle = some handle ↔
    chronology.deadlineMap.Maps handle timer
  references_eq : ∀ timer, chronology.references timer =
    (if (chronology.timers timer).handle = none then 0 else 1) + chronology.outstanding timer
  uncreated : ∀ timer, (chronology.timers timer).created = false ->
    (chronology.timers timer).handle = none
  called : ∀ thread call, chronology.calls thread = some call ->
    (chronology.timers call.timer).created = true

variable {chron : Chronology}

theorem Tied.consistent (tied : chron.Tied) : chron.Consistent := { tied with
  references_eq := by
    intro timer
    rw [tied.references_eq timer]
    have mapped : timer ∈ chron.deadlineMap.entries.map data ↔
        (chron.timers timer).handle ≠ none := by
      rw [mem_map, Option.ne_none_iff_exists']
      constructor
      · rintro ⟨entry, mem, isTimer⟩
        exact ⟨entry.handle, (tied.handle_iff timer _).mpr ⟨entry, mem, rfl, isTimer⟩⟩
      · rintro ⟨handle, isHandle⟩
        obtain ⟨entry, mem, _, isTimer⟩ := (tied.handle_iff timer handle).mp isHandle
        exact ⟨entry, mem, isTimer⟩
    split
    · rename_i unhandled
      rw [if_neg (fun mem => mapped.mp mem unhandled)]
    · rename_i unhandled
      rw [if_pos (mapped.mpr unhandled)] }

theorem start_tied : ({} : Chronology).Tied where
  ordered := empty_ordered
  handle_iff := by
    intro _ _
    constructor
    · intro impossible
      contradiction
    · rintro ⟨_, mem, _⟩
      contradiction
  references_eq := fun _ => rfl
  uncreated := fun _ _ => rfl
  called := fun _ _ impossible => absurd impossible (by simp)

variable {other : Chronology}

section

variable (tied : chron.Tied)
include tied

/-- What a section may do that leaves all handles as they are. -/
theorem Tied.transfer (ordered : other.deadlineMap.Ordered)
    (balance : ∀ timer, other.references timer - other.outstanding timer =
      chron.references timer - chron.outstanding timer)
    (called : ∀ thread call, other.calls thread = some call -> chron.calls thread = some call ∨
      (chron.timers call.timer).created = true)
    (sameMaps : ∀ handle timer, other.deadlineMap.Maps handle timer ↔
      chron.deadlineMap.Maps handle timer)
    (sameHandle : ∀ timer, (other.timers timer).handle = (chron.timers timer).handle)
    (created : ∀ timer, (chron.timers timer).created = true ->
      (other.timers timer).created = true) : other.Tied := by
  constructor
  case ordered => exact ordered
  case handle_iff =>
    intro timer handle
    rw [sameHandle, sameMaps]
    exact tied.handle_iff timer handle
  case references_eq =>
    intro timer
    have before := tied.references_eq timer
    have kept := balance timer
    rw [sameHandle]
    omega
  case uncreated =>
    intro timer notCreated
    rw [sameHandle]
    apply tied.uncreated
    cases wasCreated : (chron.timers timer).created with
    | false => rfl
    | true =>
      rw [created timer wasCreated] at notCreated
      contradiction
  case called =>
    intro thread call isCall
    rcases called thread call isCall with before | isCreated
    · exact created _ (tied.called thread call before)
    · exact created _ isCreated

theorem Tied.frame (sameTimers : other.timers = chron.timers)
    (sameMap : other.deadlineMap = chron.deadlineMap) (sameCalls : other.calls = chron.calls)
    (sameReferences : other.references = chron.references)
    (sameOutstanding : other.outstanding = chron.outstanding) : other.Tied := by
  refine tied.transfer ?_ ?_ ?_ ?_ ?_ ?_
  · rw [sameMap]
    exact tied.ordered
  · exact fun _ => by rw [sameReferences, sameOutstanding]
  · exact fun _ _ isCall => .inl (sameCalls ▸ isCall)
  · exact fun _ _ => by rw [sameMap]
  · exact fun _ => by rw [sameTimers]
  · exact fun _ created => by rw [sameTimers, created]

variable {timer handle : Nat} (isHandle : (chron.timers timer).handle = some handle)
include isHandle

theorem Tied.element : ∃ entry, chron.deadlineMap.find handle = some entry ∧
      entry ∈ chron.deadlineMap.entries ∧ entry.handle = handle ∧ entry.data = timer := by
  have maps := (tied.handle_iff timer handle).mp isHandle
  obtain ⟨entry, found⟩ : ∃ entry, chron.deadlineMap.find handle = some entry := by
    rw [← Option.ne_none_iff_exists']
    exact fun isNone => find_eq_none.mp isNone maps.mem_handles
  obtain ⟨mem, entryHandle⟩ := find_handle found
  exact ⟨entry, found, mem, entryHandle, ((maps_find tied.ordered found timer).mp maps).symm⟩

/-- The elements of other timers are those with other handles. -/
theorem Tied.handle_ne_iff {entry : StableEntry Nat Int Nat}
    (mem : entry ∈ chron.deadlineMap.entries) : entry.handle ≠ handle ↔ entry.data ≠ timer := by
  have entryHandle := (tied.handle_iff entry.data entry.handle).mpr ⟨entry, mem, rfl, rfl⟩
  constructor
  · intro apart sameTimer
    rw [sameTimer, isHandle] at entryHandle
    exact apart (Option.some.inj entryHandle).symm
  · intro apart sameHandle
    obtain ⟨_, _, ownMember, ownHandle, isTimer⟩ := tied.element isHandle
    have same := inj_on_of_nodup_map tied.ordered.distinct mem ownMember
      (sameHandle.trans ownHandle.symm)
    exact apart ((congrArg data same).trans isTimer)

theorem Tied.mem_others {other : StableEntry Nat Int Nat} :
    other ∈ (chron.deadlineMap.erase handle).entries ↔
      other ∈ chron.deadlineMap.entries ∧ other.data ≠ timer := by
  rw [mem_erase]
  constructor
  · exact fun both => ⟨both.1, (tied.handle_ne_iff isHandle both.1).mp both.2⟩
  · exact fun both => ⟨both.1, (tied.handle_ne_iff isHandle both.1).mpr both.2⟩

end

/-! ## Sections that leave the map alone -/

variable {timer : Nat} {value : Timer}

theorem setTimer_field {α : Type} (chron : Chronology) (field : Timer -> α)
    (sameField : field value = field (chron.timers timer)) (other : Nat) :
    field ((chron.setTimer timer value).timers other) = field (chron.timers other) := by
  by_cases same : other = timer
  · rw [same, setTimer_self, sameField]
  · rw [setTimer_of_ne chron value same]

theorem setTimer_created {other : Nat}
    (created : (chron.timers timer).created = true -> value.created = true)
    (wasCreated : (chron.timers other).created = true) :
    ((chron.setTimer timer value).timers other).created = true := by
  by_cases same : other = timer
  · rw [same, setTimer_self]
    exact created (same ▸ wasCreated)
  · rw [setTimer_of_ne chron value same]
    exact wasCreated

theorem Tied.setTimer (tied : chron.Tied) (sameHandle : value.handle = (chron.timers timer).handle)
    (created : (chron.timers timer).created = true -> value.created = true) :
    (chron.setTimer timer value).Tied :=
  tied.transfer tied.ordered (fun _ => rfl) (fun _ _ isCall => .inl isCall)
    (fun _ _ => Iff.rfl) (setTimer_field chron Timer.handle sameHandle)
    fun _ wasCreated => setTimer_created created wasCreated

variable {next : Chronology} {after : Chronology}

theorem beginSchedule_eq {period : Int} (entered : chron.beginSchedule timer period = some after) :
    (chron.timers timer).state ≠ .closed ∧ after = chron.setTimer timer { chron.timers timer with
        period := min period maxTimeInterval, state := .scheduled } := by
  unfold beginSchedule at entered
  dsimp only at entered
  split at entered
  · contradiction
  · rename_i notClosed
    cases entered
    exact ⟨notClosed, rfl⟩

theorem beginCancel_eq (entered : chron.beginCancel timer = some after) :
    (chron.timers timer).state = .scheduled ∧ after = chron.setTimer timer
        { chron.timers timer with state := .waiting, period := 0 } := by
  unfold beginCancel at entered
  dsimp only at entered
  split at entered
  · rename_i isScheduled _
    cases entered
    exact ⟨isScheduled, rfl⟩
  · contradiction

theorem beginClose_eq (entered : chron.beginClose timer = some after) : after = chron.setTimer timer
      { chron.timers timer with state := .closed, period := 0, callback := false } := by
  unfold beginClose at entered
  dsimp only at entered
  split at entered
  · contradiction
  · contradiction
  · cases entered
    rfl

/-- The thread and the timer of the first section of a call. -/
def Action.begins : Action -> Option (Nat × Nat)
  | .schedule thread timer _ _ | .cancel thread timer | .close thread timer => some (thread, timer)
  | _ => none

/-- The first section of a call does nothing, or changes the timer and leaves the call. -/
def Begun (chron next : Chronology) (thread timer : Nat) : Prop :=
  (chron.timers timer).created = true ∧ (next = chron ∨ ∃ value call,
    next = { chron.setTimer timer value with calls := update chron.calls thread (some call) } ∧
    call.timer = timer ∧ value.handle = (chron.timers timer).handle ∧
    value.created = (chron.timers timer).created)

variable {thread timer : Nat} {call : TimerCall}

theorem beginCall_taken {section? : Option Chronology} (ofTimer : call.timer = timer)
    (entered : ∀ after, section? = some after -> ∃ value, after = chron.setTimer timer value ∧
        value.handle = (chron.timers timer).handle ∧ value.created = (chron.timers timer).created)
    (taken : chron.beginCall thread timer section? call = some next) :
    Begun chron next thread timer := by
  unfold beginCall at taken
  split at taken
  · rename_i allowed
    cases isSection : section? with
    | none =>
      rw [isSection] at taken
      cases taken
      exact ⟨allowed.1, .inl rfl⟩
    | some after =>
      rw [isSection] at taken
      cases taken
      obtain ⟨value, isAfter, same⟩ := entered after isSection
      subst isAfter
      exact ⟨allowed.1, .inr ⟨value, call, rfl, ofTimer, same⟩⟩
  · contradiction

variable {action : Action}

theorem begin_taken (begins : action.begins = some (thread, timer))
    (taken : chron.step action = some next) : Begun chron next thread timer := by
  cases action with
  | schedule thread timer =>
    cases begins
    exact beginCall_taken (by rfl)
      (fun after entered => ⟨_, (beginSchedule_eq entered).2, rfl, rfl⟩) taken
  | cancel thread timer =>
    cases begins
    exact beginCall_taken (by rfl)
      (fun after entered => ⟨_, (beginCancel_eq entered).2, rfl, rfl⟩) taken
  | close =>
    cases begins
    exact beginCall_taken (by rfl) (fun _ entered => ⟨_, beginClose_eq entered, rfl, rfl⟩) taken
  | createTimer | finish | execute | collect | arrive | depart => contradiction

theorem Tied.begin (tied : chron.Tied)
    (begins : action.begins = some (thread, timer)) (taken : chron.step action = some next) :
    next.Tied := by
  obtain ⟨isCreated, rfl | ⟨_, call, rfl, ofTimer, sameHandle, sameCreated⟩⟩ :=
    begin_taken begins taken
  · exact tied
  · refine tied.transfer tied.ordered (fun _ => rfl) ?_ (fun _ _ => Iff.rfl)
      (setTimer_field chron Timer.handle sameHandle) ?_
    · intro other pending isPending
      by_cases same : other = thread
      · have isCall : call = pending := by simpa [same] using isPending
        rw [← isCall, ofTimer]
        exact .inr isCreated
      · exact .inl ((update_of_ne same _ _).symm.trans isPending)
    · intro _ wasCreated
      exact setTimer_created (fun created => sameCreated.trans created) wasCreated

def arrivedTimer (value : Timer) : Timer :=
  if value.options.oneShot then { value with callback := false, state := .closed }
  else if value.period ≠ 0 then { value with state := .scheduled }
  else { value with state := .waiting }

theorem arrivedTimer_handle (value : Timer) : (arrivedTimer value).handle = value.handle := by
  unfold arrivedTimer
  split
  · rfl
  · split
    · rfl
    · rfl

theorem arrivedTimer_created (value : Timer) : (arrivedTimer value).created = value.created := by
  unfold arrivedTimer
  split
  · rfl
  · split
    · rfl
    · rfl

theorem arrive_eq (chron : Chronology) (entry : DueEntry) : ∃ value log, (chron.arrive entry) =
        { chron.setTimer entry.timer value with announced := log } ∧
      value.handle = (chron.timers entry.timer).handle ∧
      value.created = (chron.timers entry.timer).created := by
  unfold arrive
  dsimp only
  split
  · refine ⟨arrivedTimer (chron.timers entry.timer), _, rfl, arrivedTimer_handle _,
      arrivedTimer_created _⟩
  · refine ⟨chron.timers entry.timer, chron.announced, ?_, rfl, rfl⟩
    unfold setTimer
    rw [update_eq_self]

theorem createTimer_taken {options : TimerOptions} {callback : Bool}
    (taken : chron.step (.createTimer timer options callback) = some next) :
    (chron.timers timer).created = false ∧ next = chron.createTimer timer options callback := by
  obtain ⟨fresh, rfl⟩ := Run.guarded taken
  exact ⟨fresh, rfl⟩

theorem finish_taken {address : Nat} (taken : chron.step (.finish thread address) = some next) :
    ∃ call, chron.calls thread = some call ∧ address ∉ chron.deadlineMap.handles ∧
      next = { chron with calls := update chron.calls thread none }.finishCall address call := by
  simp only [step] at taken
  split at taken
  · contradiction
  · rename_i call isCall
    obtain ⟨fresh, rfl⟩ := Run.guarded taken
    exact ⟨call, isCall, fresh, rfl⟩

variable {index : Nat}

theorem arrive_taken (taken : chron.step (.arrive index) = some next) :
    ∃ entry rest, chron.announcing[index]? = some { current := none, due := entry :: rest } ∧
      next = { chron with
        announcing := chron.announcing.set index
          { current := some entry, due := rest } }.arrive entry := by
  simp only [step] at taken
  split at taken
  · rename_i entry rest found
    cases taken
    exact ⟨entry, rest, found, rfl⟩
  · contradiction

theorem depart_taken (taken : chron.step (.depart index) = some next) :
    ∃ entry rest, chron.announcing[index]? = some { current := some entry, due := rest } ∧
      next = { chron with
        announcing := chron.announcing.set index { due := rest } }.addReferences
          entry.timer (-1) := by
  simp only [step] at taken
  split at taken
  · rename_i entry rest found
    cases taken
    exact ⟨entry, rest, found, rfl⟩
  · contradiction

section

variable (tied : chron.Tied)
include tied

variable {timer address : Nat}

theorem Tied.attach (unhandled : (chron.timers timer).handle = none)
    (created : (chron.timers timer).created = true)
    (fresh : address ∉ chron.deadlineMap.handles) (deadline : Int) :
    ({ (chron.addReferences timer 1).setTimer timer
        { chron.timers timer with handle := some address } with
      deadlineMap := chron.deadlineMap.insert address deadline timer } : Chronology).Tied := by
  constructor
  case ordered => exact tied.ordered.insert fresh deadline timer
  case handle_iff =>
    intro other handle
    rw [maps_insert]
    have notMapped : ¬ chron.deadlineMap.Maps handle timer := by
      rw [← tied.handle_iff, unhandled]
      simp
    by_cases same : other = timer
    · simp only [same, setTimer_self, Option.some.injEq, notMapped, false_or, and_true]
      exact eq_comm
    · simp only [setTimer_of_ne _ _ same, same, and_false, or_false]
      exact tied.handle_iff other handle
  case references_eq =>
    intro other
    have before := tied.references_eq other
    by_cases same : other = timer
    · rw [same, unhandled] at before
      simp only [same, setTimer_self]
      show (chron.addReferences timer 1).references timer = 1 + chron.outstanding timer
      rw [addReferences_self, before]
      simp [Int.add_comm]
    · simp only [setTimer_of_ne _ _ same]
      show (chron.addReferences timer 1).references other = _
      rw [addReferences_of_ne _ _ same]
      exact before
  case uncreated =>
    intro other notCreated
    by_cases same : other = timer
    · simp [same, created] at notCreated
    · simp only [setTimer_of_ne _ _ same] at notCreated ⊢
      exact tied.uncreated other notCreated
  case called =>
    intro thread call isCall
    have wasCreated := tied.called thread call isCall
    exact setTimer_created (fun _ => created) wasCreated

theorem Tied.removed {handle : Nat} (isHandle : (chron.timers timer).handle = some handle)
    (timersEq : other.timers = (chron.setTimer timer value).timers)
    (unhandled : value.handle = none) (created : value.created = (chron.timers timer).created)
    (mapEq : other.deadlineMap = chron.deadlineMap.erase handle)
    (callsEq : other.calls = chron.calls)
    (balance : ∀ item, other.references item - other.outstanding item =
      chron.references item - chron.outstanding item -
      if item = timer then 1 else 0) : other.Tied := by
  have isMapped := (tied.handle_iff timer handle).mp isHandle
  constructor
  case ordered =>
    rw [mapEq]
    exact tied.ordered.erase handle
  case handle_iff =>
    intro item _
    rw [timersEq, mapEq, maps_erase]
    by_cases same : item = timer
    · rw [same, setTimer_self, unhandled]
      constructor
      · intro _
        contradiction
      · rintro ⟨maps, apart⟩
        rw [← tied.handle_iff, isHandle] at maps
        exact absurd (Option.some.inj maps).symm apart
    · rw [setTimer_of_ne _ _ same, tied.handle_iff]
      constructor
      · intro maps
        refine ⟨maps, ?_⟩
        intro sameHandle
        rw [sameHandle] at maps
        obtain ⟨_, mem, entryHandle, isItem⟩ := maps
        obtain ⟨_, mappedMember, mappedHandle, isTimer⟩ := isMapped
        have sameEntry := inj_on_of_nodup_map tied.ordered.distinct mem mappedMember
          (entryHandle.trans mappedHandle.symm)
        exact same (isItem.symm.trans ((congrArg data sameEntry).trans isTimer))
      · exact fun both => both.1
  case references_eq =>
    intro item
    have before := tied.references_eq item
    have after := balance item
    rw [timersEq]
    by_cases same : item = timer
    · rw [same, isHandle] at before
      rw [same] at after ⊢
      rw [setTimer_self, unhandled]
      simp only [reduceCtorEq, ↓reduceIte] at before after ⊢
      omega
    · rw [if_neg same] at after
      rw [setTimer_of_ne _ _ same]
      omega
  case uncreated =>
    intro item notCreated
    rw [timersEq] at notCreated ⊢
    by_cases same : item = timer
    · rw [same, setTimer_self]
      exact unhandled
    · rw [setTimer_of_ne _ _ same] at notCreated ⊢
      exact tied.uncreated item notCreated
  case called =>
    intro thread call isCall
    rw [timersEq]
    rw [callsEq] at isCall
    exact setTimer_created (fun wasCreated => created.trans wasCreated)
      (tied.called thread call isCall)

theorem Tied.detach (timer : Nat) : (chron.detach timer).Tied := by
  unfold Chronology.detach
  dsimp only
  cases isHandle : (chron.timers timer).handle with
  | none => exact tied
  | some =>
    have balance : ∀ item, (chron.addReferences timer (-1)).references item -
        chron.outstanding item = chron.references item -
          chron.outstanding item - if item = timer then 1 else 0 := by
      intro item
      by_cases same : item = timer
      · rw [same, addReferences_self, if_pos rfl]
        omega
      · rw [addReferences_of_ne _ _ same, if_neg same]
        omega
    dsimp only
    split
    · exact tied.removed isHandle rfl rfl rfl rfl rfl balance
    · exact tied.removed isHandle rfl rfl rfl rfl rfl balance

theorem Tied.finishSchedule (created : (chron.timers timer).created = true)
    (fresh : address ∉ chron.deadlineMap.handles) (deadline : Int) :
    (chron.finishSchedule timer deadline address).Tied := by
  unfold Chronology.finishSchedule
  dsimp only
  cases isHandle : (chron.timers timer).handle with
  | none =>
    exact (tied.attach isHandle created fresh deadline).transfer
      (tied.ordered.insert fresh deadline timer) (fun _ => rfl) (fun _ _ isCall => .inl isCall)
      (fun _ _ => Iff.rfl) (fun _ => rfl) (fun _ created => created)
  | some handle =>
    exact tied.transfer (tied.ordered.update handle deadline) (fun _ => rfl)
      (fun _ _ isCall => .inl isCall) (fun _ _ => maps_update tied.ordered) (fun _ => rfl)
      (fun _ created => created)

end

/-! ## Collecting -/

def Collecting.published (collecting : Collecting) : Chronology :=
  { collecting.chronology with
    announcing := collecting.chronology.announcing ++ [{ due := collecting.due }] }

theorem outstanding_published (round : Collecting) (timer : Nat) :
    round.published.outstanding timer = round.chronology.outstanding timer +
        (round.due.map DueEntry.timer).count timer := by
  unfold outstanding Collecting.published
  simp only [flatMap_append, flatMap_cons, flatMap_nil, append_nil,
    map_append, count_append, Announcement.entries, Option.toList_none, nil_append]
  omega

variable {round : Collecting}

/-- A round of the loop, for an element of the map. -/
theorem Tied.collectEntry (tied : round.published.Tied) (now : Int)
    (backoff : Nat -> Int -> Int) {current : StableEntry Nat Int Nat}
    (mem : current ∈ round.chronology.deadlineMap.entries) :
    (collectEntry now backoff round current).published.Tied := by
  have isHandle : (round.chronology.timers current.data).handle = some current.handle :=
    (tied.handle_iff current.data current.handle).mpr ⟨current, mem, rfl, rfl⟩
  have added : ∀ item, ((round.due ++
      [{ timer := current.data, deadline := current.key : DueEntry }]).map DueEntry.timer).count
        item = (round.due.map DueEntry.timer).count item +
          if item = current.data then 1 else 0 := by
    intro item
    rw [map_append, count_append, map_singleton, count_singleton]
    by_cases same : item = current.data
    · simp [same]
    · have different : current.data ≠ item := fun equal => same equal.symm
      simp [same, different]
  by_cases recurring : (round.chronology.timers current.data).period ≠ 0
  · simp only [Chronology.collectEntry, if_pos recurring, isHandle]
    refine tied.transfer (tied.ordered.update current.handle _) ?_ (fun _ _ isCall => .inl isCall)
      (fun _ _ => maps_update tied.ordered)
      (setTimer_field (round.chronology.addReferences current.data 1) Timer.handle isHandle.symm)
      (fun _ wasCreated => setTimer_created (fun created => created) wasCreated)
    intro item
    rw [outstanding_published, outstanding_published, added]
    show (round.chronology.addReferences current.data 1).references item -
      ((round.chronology.outstanding item + _ : Nat) : Int) = round.chronology.references item - _
    by_cases same : item = current.data
    · rw [same, addReferences_self, if_pos rfl]
      omega
    · rw [addReferences_of_ne _ _ same, if_neg same]
      omega
  · simp only [Chronology.collectEntry, if_neg recurring, isHandle]
    apply tied.removed isHandle
    · rfl
    · rfl
    · rfl
    · rfl
    · rfl
    · intro item
      rw [outstanding_published, outstanding_published, added]
      show round.chronology.references item -
        ((round.chronology.outstanding item + _ : Nat) : Int) =
          round.chronology.references item - _ - _
      by_cases same : item = current.data
      · rw [if_pos same, if_pos same]
        omega
      · rw [if_neg same, if_neg same]
        omega

theorem Tied.collectLoop (now : Int) (backoff : Nat -> Int -> Int) (fuel : Nat)
    (tied : round.published.Tied) : (collectLoop now backoff fuel round).published.Tied :=
  collectLoop_induct (P := fun round => round.published.Tied)
    (fun _ _ mem tied => tied.collectEntry now backoff mem) fuel tied

theorem takeFunctors_eq (chron : Chronology) (single : Bool) :
    ∃ queue isEmpty done, chron.takeFunctors single =
      ({ chron with functorQueue := queue, functorQueueEmpty := isEmpty }, done) := by
  unfold takeFunctors
  split
  · exact ⟨_, _, _, rfl⟩
  · split
    · exact ⟨_, _, _, rfl⟩
    · exact ⟨_, _, _, rfl⟩

theorem refresh_eq (chron : Chronology) : ∃ isEmpty earliest, chron.refresh =
      { chron with deadlineMapEmpty := isEmpty, deadlineMapEarliest := earliest } := by
  unfold refresh
  split
  · exact ⟨_, _, rfl⟩
  · exact ⟨_, _, rfl⟩

theorem Tied.collect (tied : chron.Tied) (single : Bool) (now : Int)
    (backoff : Nat -> Int -> Int) : (chron.collect single now backoff).Tied := by
  obtain ⟨queue, isEmpty, _, takenEq⟩ := takeFunctors_eq chron single
  have takenTied : ({ chron with functorQueue := queue, functorQueueEmpty := isEmpty } :
      Chronology).Tied := by exact tied.frame rfl rfl rfl rfl rfl
  unfold Chronology.collect
  rw [takenEq]
  dsimp only
  split
  · have startTied : ({ chronology := { chron with
        functorQueue := queue, functorQueueEmpty := isEmpty } } : Collecting).published.Tied := by
      refine takenTied.transfer takenTied.ordered ?_ (fun _ _ isCall => .inl isCall)
        (fun _ _ => Iff.rfl) (fun _ => rfl) (fun _ created => created)
      intro _
      rw [outstanding_published]
      rfl
    have loopTied := startTied.collectLoop (totalMicroseconds now) backoff
      (chron.deadlineMap.entries.length + 1)
    obtain ⟨_, _, refreshEq⟩ := refresh_eq (Chronology.collectLoop
      (totalMicroseconds now) backoff (chron.deadlineMap.entries.length + 1)
      { chronology := { chron with
        functorQueue := queue, functorQueueEmpty := isEmpty } }).chronology
    rw [refreshEq]
    exact loopTied.frame rfl rfl rfl rfl rfl
  · exact takenTied

theorem outstanding_set {before : Announcement}
    (found : chron.announcing[index]? = some before) (after : Announcement) (timer : Nat) :
    ({ chron with announcing := chron.announcing.set index after } :
        Chronology).outstanding timer + (before.entries.map DueEntry.timer).count timer =
      chron.outstanding timer + (after.entries.map DueEntry.timer).count timer := by
  obtain ⟨_, _, announcingEq, setEq⟩ := Lists.set_split found after
  unfold outstanding
  rw [setEq, announcingEq]
  simp only [flatMap_append, flatMap_cons, map_append, count_append]
  omega

variable {rest : List DueEntry} {entry : DueEntry}

section

variable (tied : chron.Tied)
include tied

theorem Tied.arriveNext (found : chron.announcing[index]? = some { current := none, due := entry :: rest }) :
    ({ chron with
      announcing := chron.announcing.set index { current := some entry, due := rest } }.arrive
        entry).Tied := by
  have started : ({ chron with
      announcing := chron.announcing.set index { current := some entry, due := rest } } :
        Chronology).Tied := by
    refine tied.transfer tied.ordered ?_ (fun _ _ isCall => .inl isCall)
      (fun _ _ => Iff.rfl) (fun _ => rfl) (fun _ created => created)
    intro timer
    have counted := outstanding_set found { current := some entry, due := rest } timer
    have sameEntries : (Announcement.mk (some entry) rest).entries =
        (Announcement.mk none (entry :: rest)).entries := rfl
    rw [sameEntries] at counted
    rw [Nat.add_right_cancel counted]
  obtain ⟨_, _, arrivedEq, sameHandle, sameCreated⟩ := arrive_eq { chron with
    announcing := chron.announcing.set index { current := some entry, due := rest } } entry
  rw [arrivedEq]
  have changed := started.setTimer sameHandle fun created => sameCreated.trans created
  exact changed.frame rfl rfl rfl rfl rfl

theorem Tied.depart (found : chron.announcing[index]? = some { current := some entry, due := rest }) :
    ({ chron with
      announcing := chron.announcing.set index { due := rest } }.addReferences entry.timer
        (-1)).Tied := by
  refine tied.transfer tied.ordered ?_ (fun _ _ isCall => .inl isCall)
    (fun _ _ => Iff.rfl) (fun _ => rfl) (fun _ created => created)
  intro timer
  have counted := outstanding_set found { due := rest } timer
  have entriesEq : (Announcement.mk (some entry) rest).entries =
      entry :: (Announcement.mk none rest).entries := rfl
  rw [entriesEq, map_cons] at counted
  show (addReferences _ entry.timer (-1)).references timer - ((outstanding
    { chron with announcing := chron.announcing.set index { due := rest } } timer : Nat) : Int) = _
  by_cases same : timer = entry.timer
  · rw [same, count_cons_self] at counted
    rw [same, addReferences_self]
    simp only
    omega
  · have different : entry.timer ≠ timer := fun equal => same equal.symm
    rw [count_cons_of_ne different] at counted
    rw [addReferences_of_ne _ _ same]
    simp only
    omega

/-- A call that takes its second section is not under way any more. -/
theorem Tied.return (thread : Nat) :
    ({ chron with calls := update chron.calls thread none } : Chronology).Tied := by
  refine tied.transfer tied.ordered (fun _ => rfl) ?_ (fun _ _ => Iff.rfl) (fun _ => rfl)
    (fun _ created => created)
  intro other _ isPending
  by_cases same : other = thread
  · simp [same] at isPending
  · exact .inl ((update_of_ne same _ _).symm.trans isPending)

theorem Tied.finishCall {address : Nat} (created : (chron.timers call.timer).created = true)
    (fresh : address ∉ chron.deadlineMap.handles) : (chron.finishCall address call).Tied := by
  cases call with
  | schedule timer deadline => exact tied.finishSchedule created fresh deadline
  | cancel timer | close timer => exact tied.detach timer

theorem step_tied (taken : chron.step action = some next) : next.Tied := by
  cases action with
  | createTimer timer =>
    obtain ⟨fresh, isNext⟩ := createTimer_taken taken
    rw [isNext]
    exact tied.setTimer (tied.uncreated timer fresh).symm fun _ => rfl
  | schedule | cancel | close => exact tied.begin rfl taken
  | finish thread =>
    obtain ⟨call, isCall, fresh, isNext⟩ := finish_taken taken
    rw [isNext]
    exact (tied.return thread).finishCall (tied.called thread call isCall) fresh
  | execute =>
    cases taken
    exact tied.frame rfl rfl rfl rfl rfl
  | collect single now backoff =>
    cases taken
    exact tied.collect single now backoff
  | arrive index =>
    obtain ⟨entry, rest, found, isNext⟩ := arrive_taken taken
    rw [isNext]
    exact tied.arriveNext found
  | depart =>
    obtain ⟨_, _, found, isNext⟩ := depart_taken taken
    rw [isNext]
    exact tied.depart found

end

def ClearsNothing (chronology : Chronology) : Operation -> Prop
  | .clear => chronology.deadlineMap.entries = []
  | .clearTimers => chronology.deadlineMap.entries = []
  | .take _ => True
  | .release _ => True

theorem clearTimers_of_nil (isEmpty : chron.deadlineMap.entries = []) :
    chron.clearTimers = chron := by
  unfold clearTimers
  rw [isEmpty]

variable {op : Operation}

theorem operate_tied (tied : chron.Tied) (clearsNothing : chron.ClearsNothing op)
    (taken : chron.operate op = some next) : next.Tied := by
  cases op with
  | take => exact step_tied tied taken
  | clear =>
    cases taken
    have emptied : ({ chron with functorQueue := [], functorQueueEmpty := true } :
        Chronology).Tied := by exact tied.frame rfl rfl rfl rfl rfl
    unfold clear
    rw [clearTimers_of_nil (by exact clearsNothing)]
    exact emptied
  | clearTimers =>
    cases taken
    rw [clearTimers_of_nil clearsNothing]
    exact tied
  | release timer =>
    obtain ⟨mem, rfl⟩ := Run.guarded taken
    refine tied.transfer tied.ordered ?_ (fun _ _ isCall => .inl isCall)
      (fun _ _ => Iff.rfl) (fun _ => rfl) (fun _ created => created)
    intro other
    show (chron.addReferences timer (-1)).references other -
      (((chron.releasing.erase timer).count other +
        ((chron.announcing.flatMap Announcement.entries).map DueEntry.timer).count
          other : Nat) : Int) =
        chron.references other - (chron.outstanding other : Int)
    unfold outstanding
    by_cases same : other = timer
    · have pos : 0 < chron.releasing.count timer := count_pos_iff.mpr mem
      rw [same, addReferences_self, count_erase_self]
      omega
    · rw [addReferences_of_ne _ _ same, count_erase_of_ne same]

/-- Clearing leaves the handles of the timers that were in the map behind. -/
theorem Tied.clearTimers_inconsistent {cleared : Chronology} (tied : chron.Tied)
    (timersEq : cleared.timers = chron.timers) (mapEq : cleared.deadlineMap.entries = [])
    (consistent : cleared.Consistent) : chron.deadlineMap.entries = [] := by
  cases isEntries : chron.deadlineMap.entries with
  | nil => rfl
  | cons entry =>
    have mem : entry ∈ chron.deadlineMap.entries := by
      rw [isEntries]
      exact mem_cons_self
    have isHandle : (cleared.timers entry.data).handle = some entry.handle := by
      rw [timersEq]
      exact (tied.handle_iff entry.data entry.handle).mpr ⟨entry, mem, rfl, rfl⟩
    obtain ⟨_, inMap, _⟩ := (consistent.handle_iff entry.data entry.handle).mp isHandle
    rw [mapEq] at inMap
    contradiction

theorem clearTimers_timers (chron : Chronology) : chron.clearTimers.timers = chron.timers := by
  unfold clearTimers
  split
  · rfl
  · rfl

theorem clearTimers_entries (chron : Chronology) : chron.clearTimers.deadlineMap.entries = [] := by
  unfold clearTimers
  split
  · assumption
  · rfl

theorem operate_detects (tied : chron.Tied)
    (taken : chron.operate op = some next) (consistent : next.Consistent) :
    chron.ClearsNothing op := by
  cases op with
  | take => trivial
  | clear =>
    cases taken
    have timersEq : chron.clear.timers = chron.timers := clearTimers_timers _
    exact tied.clearTimers_inconsistent timersEq (clearTimers_entries _) consistent
  | clearTimers =>
    cases taken
    exact tied.clearTimers_inconsistent (clearTimers_timers _) (clearTimers_entries _) consistent
  | release => trivial

/-- In every run of a chronology, the handles and the references agree with the
deadline map in every state if and only if the map is empty whenever it is
cleared. -/
theorem handles_consistent_iff (operations : List Operation) :
    Run.Always operate Consistent {} operations ↔ Run.Along operate ClearsNothing {} operations :=
  Run.always_iff_along (fun _ tied => Tied.consistent tied)
    (fun _ _ _ tied clearsNothing taken => operate_tied tied clearsNothing taken)
    (fun _ _ _ tied taken consistent => operate_detects tied taken consistent) start_tied

/-- A timer that is cleared out of the map and then cancelled is released twice. -/
theorem cleared_timer_released_twice : ¬ Run.Always operate Consistent {}
      [.take (.createTimer 0 {} true), .take (.schedule 0 0 1000 0), .take (.finish 0 7),
        .clearTimers, .release 0, .take (.cancel 0 0), .take (.finish 0 8)] := by
  intro always
  have final := (Run.always_iff _ _).mp always _ [] _ (append_nil _) rfl
  have released := final.references_eq 0
  contradiction

end Chronology

end NtfCore.Ntcs
