import NtfCore.Ntcs.Chronology.Announcing
import NtfCore.Ntcs.Chronology.Earliest
import NtfCore.Ntcs.Chronology.Promise

/-!
Contract: what a thread may rely on that sleeps until the earliest deadline of a
chronology.

A section that may make something due before the deadline that was read ends with
a call of `interruptAll`; no other section does. Unlike in the module on the
cached earliest deadline, nothing is assumed of the sections: the cache may be
early, but never late.

Owns: which sections interrupt; that the cache is never late; and that a section
that does not interrupt makes nothing due before a deadline that was read.
-/

namespace NtfCore.Ntcs

open NtfCore.Foundation List Chronology StableMap

namespace Chronology

variable {chron next : Chronology}

/-- `newFrontFlag` of the second section of `schedule`. -/
def newFrontFlag (chronology : Chronology) (timer : Nat) (deadline : Int) (address : Nat) : Bool :=
  match (chronology.timers timer).handle with
  | some handle => decide (handle ∈ chronology.deadlineMap.handles) &&
      (chronology.deadlineMap.update handle deadline).first == some handle
  | none => (chronology.deadlineMap.insert address deadline timer).first == some address

/-- The section is followed by a call of `interruptAll`. -/
def interrupts (chronology : Chronology) : Action -> Bool
  | .execute _ => true
  | .finish thread address =>
    match chronology.calls thread with
    | some (.schedule timer deadline) => chronology.newFrontFlag timer deadline address
    | _ => false
  | _ => false

/-- `Chronology::moveAndExecute` up to its call of `interruptAll`. -/
def moveAndExecute (chronology : Chronology) (functorSequence : List Nat)
    (functor : Option Nat) : Chronology :=
  let functorQueue := chronology.functorQueue ++ functorSequence ++ functor.toList
  { chronology with
    functorQueue := functorQueue
    functorQueueEmpty := functorQueue.isEmpty }

/-- `Chronology::hasAnyDeferred`, without a parent. -/
def hasAnyDeferred (chronology : Chronology) : Bool := !chronology.functorQueueEmpty

/-- `Chronology::hasAnyScheduledOrDeferred`, without a parent. -/
def hasAnyScheduledOrDeferred (chronology : Chronology) : Bool :=
  !chronology.deadlineMapEmpty || !chronology.functorQueueEmpty

def Early (chronology : Chronology) : Prop :=
  ∀ entry ∈ chronology.deadlineMap.entries,
    chronology.deadlineMapEmpty = false ∧ chronology.deadlineMapEarliest ≤ entry.key

structure Watched (chronology : Chronology) : Prop where
  tied : chronology.Tied
  flag : chronology.functorQueueEmpty = true ↔ chronology.functorQueue = []
  early : chronology.Early

def Reached (deadline : Option Int) (time : Int) : Prop := ∃ bound, deadline = some bound ∧ bound ≤ time

structure Idle (chronology : Chronology) (deadline : Option Int) : Prop where
  deferred : chronology.functorQueue = []
  scheduled : ∀ entry ∈ chronology.deadlineMap.entries, Reached deadline (ofMicroseconds entry.key)

def Quiet (chronology : Chronology) (deadline : Option Int) : Prop :=
  deadline = some 0 ∨ chronology.Idle deadline

theorem start_watched : ({} : Chronology).Watched where
  tied := start_tied
  flag := by simp
  early := forall_mem_nil _

theorem ofMicroseconds_le {left right : Int} (atMost : left ≤ right) :
    ofMicroseconds left ≤ ofMicroseconds right := by
  unfold ofMicroseconds
  omega

variable {deadline : Option Int}

theorem Reached.mono {time later : Int} (reached : Reached deadline time)
    (atMost : time ≤ later) : Reached deadline later := by
  obtain ⟨bound, isBound, atTime⟩ := reached
  exact ⟨bound, isBound, le_trans atTime atMost⟩

/-- What is read off the chronology is a deadline before which nothing is due. -/
theorem Watched.quiet_earliest (watched : chron.Watched) : chron.Quiet chron.earliest := by
  unfold earliest
  split
  · exact Or.inl rfl
  · rename_i deferred
    apply Or.inr
    exact {
      deferred := watched.flag.mp (Bool.eq_true_of_not_eq_false deferred)
      scheduled := by
        intro entry mem
        obtain ⟨occupied, atMost⟩ := watched.early entry mem
        rw [if_pos occupied]
        exact ⟨_, rfl, ofMicroseconds_le atMost⟩ }

/-! ## The second section of `schedule` -/

section

variable (chron : Chronology) (timer : Nat) (deadline : Int) (address : Nat)

theorem finishSchedule_handle :
    ((chron.finishSchedule timer deadline address).timers timer).handle =
      some ((chron.timers timer).handle.getD address) := by
  unfold finishSchedule
  dsimp only
  cases isHandle : (chron.timers timer).handle with
  | none => simp
  | some => simp [isHandle]

theorem finishSchedule_earliest :
    (chron.finishSchedule timer deadline address).deadlineMapEarliest =
      if chron.newFrontFlag timer deadline address then deadline
      else chron.deadlineMapEarliest := by
  unfold finishSchedule newFrontFlag
  dsimp only
  cases (chron.timers timer).handle with
  | none | some _ => rfl

end

variable {deadline : Int} {address : Nat} {timer : Nat}

theorem Tied.newFrontFlag_iff (tied : chron.Tied) {front : StableEntry Nat Int Nat}
    (after : (chron.finishSchedule timer deadline address).Tied)
    (isFront : (chron.finishSchedule timer deadline address).deadlineMap.entries.head? =
      some front) : chron.newFrontFlag timer deadline address = true ↔ front.data = timer := by
  have ofTimer := not_iff_not.mp (after.handle_ne_iff
    (finishSchedule_handle chron timer deadline address) (mem_of_mem_head? isFront))
  rw [← ofTimer]
  unfold Chronology.finishSchedule at isFront
  unfold newFrontFlag
  cases isHandle : (chron.timers timer).handle with
  | none =>
    simp only [isHandle] at isFront
    simp [first, handles, isFront]
  | some handle =>
    obtain ⟨_, _, mem, entryHandle, _⟩ := tied.element isHandle
    have live : handle ∈ chron.deadlineMap.handles := entryHandle ▸ mem_map_of_mem mem
    simp only [isHandle] at isFront
    simp [first, handles, isFront] at live ⊢
    simp [live]

section

variable (tied : chron.Tied) (after : (chron.finishSchedule timer deadline address).Tied)
include tied after

theorem Tied.scheduled_key {entry : StableEntry Nat Int Nat}
    (mem : entry ∈ (chron.finishSchedule timer deadline address).deadlineMap.entries)
    (isTimer : entry.data = timer) : entry.key = deadline := by
  obtain ⟨_, isOwn, ownTimer, ownKey⟩ := (tied.entered timer deadline address).own
  have same := inj_on_of_nodup_map after.linked.data_nodup mem isOwn (isTimer.trans ownTimer.symm)
  rw [same]
  exact ownKey

theorem Tied.scheduled_front : (chron.newFrontFlag timer deadline address = true ∧
      ∀ entry ∈ (chron.finishSchedule timer deadline address).deadlineMap.entries,
        deadline ≤ entry.key) ∨
    (chron.newFrontFlag timer deadline address = false ∧ ∃ front ∈ chron.deadlineMap.entries,
        ∀ entry ∈ (chron.finishSchedule timer deadline address).deadlineMap.entries,
          front.key ≤ entry.key) := by
  have entered := tied.entered timer deadline address
  obtain ⟨_, isOwn, _, _⟩ := entered.own
  cases isFront : (chron.finishSchedule timer deadline address).deadlineMap.entries.head? with
  | none =>
    rw [head?_eq_none_iff.mp isFront] at isOwn
    contradiction
  | some front =>
    have inMap := mem_of_mem_head? isFront
    have atMost : ∀ entry ∈ (chron.finishSchedule timer deadline address).deadlineMap.entries,
        front.key ≤ entry.key := fun entry mem => after.ordered.head_le isFront mem
    have flagIff := tied.newFrontFlag_iff after isFront
    by_cases isTimer : front.data = timer
    · apply Or.inl
      refine ⟨flagIff.mpr isTimer, ?_⟩
      intro entry mem
      have keyEq := tied.scheduled_key after inMap isTimer
      exact keyEq ▸ atMost entry mem
    · apply Or.inr
      refine ⟨Bool.eq_false_iff.mpr (mt flagIff.mp isTimer), front, ?_, atMost⟩
      exact (entered.mapped front inMap).resolve_left isTimer

end

theorem Watched.finishSchedule_early (watched : chron.Watched)
    (after : (chron.finishSchedule timer deadline address).Tied) :
    (chron.finishSchedule timer deadline address).Early := by
  have entered := watched.tied.entered timer deadline address
  intro entry mem
  constructor
  · -- Another element was in the map before, or the length is one.
    have emptyEq : (chron.finishSchedule timer deadline address).deadlineMapEmpty =
        if (chron.finishSchedule timer deadline address).deadlineMap.entries.length = 1
        then false else chron.deadlineMapEmpty := rfl
    rw [emptyEq]
    by_cases isOne : (chron.finishSchedule timer deadline address).deadlineMap.entries.length = 1
    · rw [if_pos isOne]
    · rw [if_neg isOne]
      rcases watched.tied.scheduled_front after with ⟨_, _⟩ | ⟨_, front, inMap, _⟩
      · by_contra isEmpty
        have noneBefore : ∀ other ∈ chron.deadlineMap.entries, False :=
          fun other inMap => isEmpty (watched.early other inMap).1
        have allOwn : ∀ other ∈ (chron.finishSchedule timer deadline address).deadlineMap.entries,
            other.data = timer := fun other inAfter =>
          (entered.mapped other inAfter).resolve_right (noneBefore other)
        apply isOne
        have nodup := after.linked.data_nodup
        cases isEntries : (chron.finishSchedule timer deadline address).deadlineMap.entries with
        | nil =>
          rw [isEntries] at mem
          contradiction
        | cons first rest =>
          cases rest with
          | nil => rfl
          | cons second =>
            rw [isEntries] at allOwn nodup
            have sameData : first.data = second.data :=
              (allOwn first (by simp)).trans (allOwn second (by simp)).symm
            simp [sameData] at nodup
      · exact (watched.early front inMap).1
  · rw [finishSchedule_earliest]
    rcases watched.tied.scheduled_front after with
      ⟨isNew, atMost⟩ | ⟨notNew, front, inMap, atMost⟩
    · rw [if_pos isNew]
      exact atMost entry mem
    · rw [notNew]
      exact le_trans (watched.early front inMap).2 (atMost entry mem)

/-! ## The other sections -/

theorem Watched.detach_early (watched : chron.Watched) (timer : Nat) :
    (chron.detach timer).Early := by
  unfold detach
  dsimp only
  cases (chron.timers timer).handle with
  | none => exact watched.early
  | some handle =>
    intro entry mem
    cases isFront : (chron.deadlineMap.erase handle).entries.head? with
    | none =>
      simp only [isFront] at mem
      rw [head?_eq_none_iff.mp isFront] at mem
      contradiction
    | some =>
      simp only [isFront] at mem ⊢
      have inMap := (mem_erase.mp mem).1
      exact ⟨(watched.early entry inMap).1, (watched.tied.ordered.erase handle).head_le isFront mem⟩

/-- A section of `announce`: functions are only taken, and the elements are elements
from before or are due at the current time or later, in which case an element was
due. -/
structure Sweeps (before after : Chronology) : Prop where
  deferred : before.functorQueue = [] -> after.functorQueue = []
  scheduled : ∀ entry ∈ after.deadlineMap.entries,
    ∃ origin ∈ before.deadlineMap.entries, origin.key ≤ entry.key

section

variable (tied : chron.Tied) (now : Int) (backoff : Nat -> Int -> Int)
include tied

theorem Tied.linked_loop (fuel : Nat) :
    (Chronology.collectLoop now backoff fuel { chronology := chron }).chronology.Linked := by
  have startTied : ({ chronology := chron } : Collecting).published.Tied := by
    apply tied.frame
    · rfl
    · rfl
    · rfl
    · rfl
    · funext timer
      exact outstanding_published _ timer
  exact { (startTied.collectLoop now backoff fuel).linked with }

theorem Tied.sweeps_loop (entry : StableEntry Nat Int Nat)
    (mem : entry ∈ (Chronology.collectLoop now backoff (chron.deadlineMap.entries.length + 1)
      { chronology := chron }).chronology.deadlineMap.entries) :
    ∃ origin ∈ chron.deadlineMap.entries, origin.key ≤ entry.key := by
  have swept := tied.linked.collectLoop_swept backoff now .refl
  rcases swept.origin entry mem with ⟨inMap, _⟩ | ⟨recurrence, recurs, sameData⟩
  · exact ⟨entry, inMap, le_refl _⟩
  · -- A timer that recurs was due, and is put back no earlier than now.
    obtain ⟨⟨own, isOwn, ownData, ownKey⟩, _⟩ := swept.recurred recurrence recurs
    have same : entry = own := inj_on_of_nodup_map
      (tied.linked_loop now backoff _).data_nodup mem isOwn (sameData.symm.trans ownData.symm)
    have isDue : recurrence.entry ∈ chron.dueEntries now := by
      have inMap : recurrence.entry ∈ (recurrences chron.timers backoff 0
          (chron.dueEntries now)).map Recurrence.entry := mem_map_of_mem recurs
      rw [recurrences_entries] at inMap
      exact (mem_filter.mp inMap).1
    obtain ⟨inMap, atMost⟩ := mem_dueEntries.mp isDue
    refine ⟨recurrence.entry, inMap, ?_⟩
    rw [same, ownKey]
    apply le_trans atMost
    unfold Recurrence.deadline
    dsimp only
    split
    · exact le_refl _
    · rename_i notLess
      exact not_lt.mp notLess

end

theorem refresh_early (ordered : chron.deadlineMap.Ordered)
    (notEmpty : chron.deadlineMapEmpty = false) : chron.refresh.Early := by
  unfold refresh
  cases isFront : chron.deadlineMap.entries.head? with
  | none =>
    intro _ mem
    rw [head?_eq_none_iff.mp isFront] at mem
    contradiction
  | some => exact fun _ mem => ⟨notEmpty, ordered.head_le isFront mem⟩

theorem takeFunctors_nil (isEmpty : chron.functorQueue = []) (single : Bool) :
    (chron.takeFunctors single).1.functorQueue = [] := by
  unfold takeFunctors
  rw [isEmpty]
  exact isEmpty

/-- The section of `announce`, for the map. -/
theorem Watched.collect (watched : chron.Watched) (single : Bool) (now : Int)
    (backoff : Nat -> Int -> Int) :
    (chron.collect single now backoff).Early ∧ Sweeps chron (chron.collect single now backoff) := by
  have nothing : chron.functorQueue = [] -> (chron.takeFunctors single).1.functorQueue = [] :=
    fun isEmpty => takeFunctors_nil isEmpty single
  obtain ⟨queue, isEmpty, done, takenEq⟩ := takeFunctors_eq chron single
  rw [takenEq] at nothing
  unfold Chronology.collect
  rw [takenEq]
  dsimp only at nothing ⊢
  split
  · rename_i occupied
    obtain ⟨first, isFirst⟩ := exists_mem_of_ne_nil _ occupied.1
    have takenTied : ({ chron with functorQueue := queue, functorQueueEmpty := isEmpty } :
        Chronology).Tied := watched.tied.frame rfl rfl rfl rfl rfl
    have linked := takenTied.linked_loop (totalMicroseconds now) backoff
      (chron.deadlineMap.entries.length + 1)
    have sweeps : ∀ (entry : StableEntry Nat Int Nat), _ -> _ :=
      takenTied.sweeps_loop (totalMicroseconds now) backoff
    obtain ⟨_, _, _, loopEq⟩ := collectLoop_frame (totalMicroseconds now) backoff
      (chron.deadlineMap.entries.length + 1) { chronology := { chron with
        functorQueue := queue, functorQueueEmpty := isEmpty } }
    have notEmpty := (congrArg deadlineMapEmpty loopEq).trans (watched.early first isFirst).1
    have sameQueue := congrArg functorQueue loopEq
    have early := refresh_early linked.ordered notEmpty
    obtain ⟨_, _, refreshEq⟩ := refresh_eq (collectLoop (totalMicroseconds now)
      backoff (chron.deadlineMap.entries.length + 1) { chronology := { chron with
        functorQueue := queue, functorQueueEmpty := isEmpty } }).chronology
    rw [refreshEq] at early ⊢
    exact ⟨early, fun noFunctors => sameQueue.trans (nothing noFunctors), sweeps⟩
  · exact ⟨watched.early, nothing, fun entry mem => ⟨entry, mem, le_refl _⟩⟩

variable {action : Action}

section

variable (watched : chron.Watched) (taken : chron.step action = some next)
include watched taken

theorem step_watched : next.Watched where
  tied := step_tied watched.tied taken
  flag := step_flag watched.flag taken
  early := by
    have after := step_tied watched.tied taken
    cases action with
    | finish thread =>
      obtain ⟨call, _, _, isNext⟩ := finish_taken taken
      have returned : ({ chron with
          calls := Function.update chron.calls thread none } : Chronology).Watched :=
        { watched with
          tied := watched.tied.return thread }
      rw [isNext] at after ⊢
      cases call with
      | schedule timer => exact returned.finishSchedule_early after
      | cancel timer | close timer => exact returned.detach_early timer
    | execute =>
      cases taken
      exact watched.early
    | collect single now backoff =>
      cases taken
      exact (watched.collect single now backoff).1
    | createTimer | schedule | cancel | close | arrive | depart =>
      obtain ⟨_, _, _, _, _, nextEq⟩ := step_frame rfl taken
      rw [nextEq]
      exact watched.early

/-- A section that is not followed by an interrupt sweeps. -/
theorem step_sweeps (silent : chron.interrupts action = false) : Sweeps chron next := by
  have after := step_tied watched.tied taken
  have same : ∀ entry ∈ chron.deadlineMap.entries,
      ∃ origin ∈ chron.deadlineMap.entries, origin.key ≤ entry.key :=
    fun entry mem => ⟨entry, mem, le_refl _⟩
  cases action with
  | finish thread address =>
    obtain ⟨call, isCall, _, isNext⟩ := finish_taken taken
    have queueEq := (finishCall_queue { chron with
      calls := Function.update chron.calls thread none } address call).1
    have returned := watched.tied.return thread
    rw [isNext] at after ⊢
    refine ⟨fun noFunctors => queueEq.trans noFunctors, ?_⟩
    cases call with
    | schedule timer deadline =>
      rcases returned.scheduled_front after with ⟨isNew, _⟩ | ⟨_, front, inMap, atMost⟩
      · simp only [interrupts, isCall] at silent
        have isNew' : chron.newFrontFlag timer deadline address = true := isNew
        rw [silent] at isNew'
        contradiction
      · exact fun entry mem => ⟨front, inMap, atMost entry mem⟩
    | cancel timer | close timer =>
      exact fun entry mem =>
        ⟨entry, ((returned.left timer).mapped entry).mp mem |>.1, le_refl _⟩
  | execute => simp [interrupts] at silent
  | collect single now backoff =>
    cases taken
    exact (watched.collect single now backoff).2
  | createTimer | schedule | cancel | close | arrive | depart =>
    obtain ⟨_, _, _, _, _, nextEq⟩ := step_frame rfl taken
    rw [nextEq]
    exact ⟨fun noFunctors => noFunctors, same⟩

end

theorem Quiet.sweeps {deadline : Option Int} (quiet : chron.Quiet deadline)
    (swept : Sweeps chron next) : next.Quiet deadline := by
  rcases quiet with isZero | idle
  · exact Or.inl isZero
  · apply Or.inr
    exact {
      deferred := swept.deferred idle.deferred
      scheduled := by
        intro entry mem
        obtain ⟨origin, inMap, atMost⟩ := swept.scheduled entry mem
        exact (idle.scheduled origin inMap).mono (ofMicroseconds_le atMost) }

theorem Watched.moveAndExecute (watched : chron.Watched) (functorSequence : List Nat)
    (functor : Option Nat) : (chron.moveAndExecute functorSequence functor).Watched where
  tied := watched.tied.frame rfl rfl rfl rfl rfl
  flag := isEmpty_iff
  early := watched.early

end Chronology

end NtfCore.Ntcs
