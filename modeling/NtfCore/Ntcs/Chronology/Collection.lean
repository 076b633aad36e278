import NtfCore.Ntcs.Chronology.Handles

/-!
Contract: what the loop of `announce` collects.

Owns: the theorem that the loop takes every timer that is due, once and in order,
although recurring timers are put back into the map while it runs; and what the
loop leaves alone.
-/

namespace NtfCore.Ntcs

open NtfCore.Foundation List Chronology
open StableMap

namespace Chronology

def dueEntry (entry : StableEntry Nat Int Nat) : DueEntry where
  timer := entry.data
  deadline := entry.key

/-! ## One round -/

def nextDeadline (now : Int) (backoff : Nat -> Int -> Int) (collecting : Collecting)
    (current : StableEntry Nat Int Nat) : Int :=
  let value := collecting.chronology.timers current.data
  let period := if value.options.backoff then backoff collecting.backoffs value.period
    else value.period
  let sum := addMicroseconds current.key (totalMicroseconds period)
  if sum < now then now else sum

theorem now_le_nextDeadline (now : Int) (backoff : Nat -> Int -> Int) (round : Collecting)
    (current : StableEntry Nat Int Nat) : now ≤ nextDeadline now backoff round current := by
  unfold nextDeadline
  extract_lets value period sum
  by_cases less : sum < now
  · rw [if_pos less]
  · rw [if_neg less]
    exact not_lt.mp less

section Round

variable (now : Int) (backoff : Nat -> Int -> Int) {round : Collecting}
  {current : StableEntry Nat Int Nat}

theorem collectEntry_due : (collectEntry now backoff round current).due =
    round.due ++ [dueEntry current] := by
  unfold collectEntry
  dsimp only
  split
  · rfl
  · rfl

section

variable (isHandle : (round.chronology.timers current.data).handle = some current.handle)
include isHandle

theorem collectEntry_recurring (recurring : (round.chronology.timers current.data).period ≠ 0) :
    (collectEntry now backoff round current).chronology.deadlineMap =
        round.chronology.deadlineMap.update current.handle
          (nextDeadline now backoff round current) ∧
      (collectEntry now backoff round current).firstReinserted =
        if nextDeadline now backoff round current = now ∧ round.firstReinserted = none
          then some current.handle else round.firstReinserted := by
  unfold collectEntry nextDeadline
  simp only [if_pos recurring, isHandle]
  exact ⟨trivial, trivial⟩

theorem collectEntry_single (single : (round.chronology.timers current.data).period = 0) :
    (collectEntry now backoff round current).chronology.deadlineMap =
        round.chronology.deadlineMap.erase current.handle ∧
      (collectEntry now backoff round current).firstReinserted = round.firstReinserted := by
  unfold collectEntry
  simp only [single, ne_eq, not_true_eq_false, ↓reduceIte, isHandle]
  exact ⟨trivial, trivial⟩

end

/-- Only the timer collected changes, and neither its state nor its options. -/
theorem collectEntry_timers (round : Collecting) (current : StableEntry Nat Int Nat) :
    ∃ value, (collectEntry now backoff round current).chronology.timers =
        (round.chronology.setTimer current.data value).timers ∧
      value.state = (round.chronology.timers current.data).state ∧
      value.created = (round.chronology.timers current.data).created := by
  unfold collectEntry
  dsimp only
  split
  · exact ⟨_, rfl, rfl, rfl⟩
  · exact ⟨_, rfl, rfl, rfl⟩

end Round

structure Linked (chronology : Chronology) : Prop where
  ordered : chronology.deadlineMap.Ordered
  handled : ∀ entry ∈ chronology.deadlineMap.entries,
    (chronology.timers entry.data).handle = some entry.handle

variable {chron : Chronology}

theorem Tied.linked (tied : chron.Tied) : chron.Linked := { tied with
  handled entry mem := (tied.handle_iff entry.data entry.handle).mpr ⟨entry, mem, rfl, rfl⟩ }

theorem Linked.data_ne (linked : chron.Linked)
    {entry other : StableEntry Nat Int Nat} (mem : entry ∈ chron.deadlineMap.entries)
    (isOther : other ∈ chron.deadlineMap.entries) (apart : other.handle ≠ entry.handle) :
    other.data ≠ entry.data := by
  intro same
  have isHandle := linked.handled other isOther
  rw [same, linked.handled entry mem] at isHandle
  exact apart (Option.some.inj isHandle).symm

variable {current : StableEntry Nat Int Nat}

theorem Linked.collectEntry {round : Collecting} (linked : round.chronology.Linked)
    (now : Int) (backoff : Nat -> Int -> Int) (mem : current ∈ round.chronology.deadlineMap.entries) :
    (collectEntry now backoff round current).chronology.Linked := by
  have isHandle := linked.handled current mem
  by_cases recurring : (round.chronology.timers current.data).period ≠ 0
  · simp only [Chronology.collectEntry, if_pos recurring, isHandle]
    refine ⟨linked.ordered.update current.handle _, ?_⟩
    intro entry inUpdated
    obtain ⟨origin, inMap, sameHandle, sameData⟩ :=
      (maps_update linked.ordered).mp ⟨entry, inUpdated, rfl, rfl⟩
    rw [← sameHandle, ← sameData, ← linked.handled origin inMap]
    exact setTimer_field (round.chronology.addReferences current.data 1) Timer.handle
      isHandle.symm origin.data
  · simp only [Chronology.collectEntry, if_neg recurring, isHandle]
    refine ⟨linked.ordered.erase current.handle, ?_⟩
    intro entry inErased
    obtain ⟨inMap, apart⟩ := mem_erase.mp inErased
    have otherTimer := linked.data_ne mem inMap apart
    rw [← linked.handled entry inMap]
    exact congrArg Timer.handle (setTimer_of_ne round.chronology _ otherTimer)

structure Frontier (now : Int) (collecting : Collecting)
    (remaining others : List (StableEntry Nat Int Nat)) : Prop where
  entries_eq : collecting.chronology.deadlineMap.entries = remaining ++ others
  due : ∀ entry ∈ remaining, entry.key ≤ now
  stop : match collecting.firstReinserted with
    | none => ∀ entry ∈ others, now < entry.key
    | some handle => ∃ entry, others.head? = some entry ∧ entry.handle = handle ∧ entry.key = now

variable {now : Int} (backoff : Nat -> Int -> Int) {round : Collecting}

variable {entry : StableEntry Nat Int Nat}

variable {remaining others : List (StableEntry Nat Int Nat)}

/-- The first timer that was put back stands among those that follow. -/
theorem Frontier.handle_ne (frontier : Frontier now round remaining others)
    (linked : round.chronology.Linked) (mem : entry ∈ remaining) :
    some entry.handle ≠ round.firstReinserted := by
  intro same
  have stop := frontier.stop
  rw [← same] at stop
  obtain ⟨first, isFirst, firstHandle, _⟩ := stop
  have distinct : (remaining ++ others).Pairwise fun a b => a.handle ≠ b.handle := by
    have nodup := linked.ordered.distinct
    rw [← frontier.entries_eq]
    exact pairwise_map.mp nodup
  have apart := (pairwise_append.mp distinct).2.2 entry mem first (mem_of_mem_head? isFirst)
  exact apart firstHandle.symm

theorem Frontier.current_mem (frontier : Frontier now round (current :: remaining) others) :
    current ∈ round.chronology.deadlineMap.entries := by
  rw [frontier.entries_eq]
  exact mem_cons_self

/-- A round takes the first of the timers to be collected. -/
theorem Frontier.collectEntry (frontier : Frontier now round (current :: remaining) others)
    (linked : round.chronology.Linked) :
    ∃ following, Frontier now (collectEntry now backoff round current) remaining following := by
  have mem := frontier.current_mem
  have isHandle : (round.chronology.timers current.data).handle = some current.handle :=
    linked.handled current mem
  have ordered : round.chronology.deadlineMap.Ordered := linked.ordered
  have restDue : ∀ entry ∈ remaining, entry.key ≤ now := fun entry inRest =>
    frontier.due entry (mem_cons_of_mem _ inRest)
  by_cases single : (round.chronology.timers current.data).period = 0
  · obtain ⟨mapEq, firstEq⟩ := collectEntry_single now backoff isHandle single
    refine ⟨others, ?_, restDue, ?_⟩
    · rw [mapEq]
      exact ordered.erase_head frontier.entries_eq
    · rw [firstEq]
      exact frontier.stop
  · obtain ⟨mapEq, firstEq⟩ := collectEntry_recurring now backoff isHandle single
    have nowLe := now_le_nextDeadline now backoff round current
    have entriesEq := ordered.update_head frontier.entries_eq
      (nextDeadline now backoff round current)
      (fun entry inRest => le_trans (restDue entry inRest) nowLe)
    rw [← mapEq] at entriesEq
    refine ⟨_, entriesEq, restDue, ?_⟩
    rw [firstEq]
    have stop := frontier.stop
    cases isFirst : round.firstReinserted with
    | some =>
      rw [isFirst] at stop
      obtain ⟨first, headEq, firstHandle, firstKey⟩ := stop
      obtain ⟨_, othersEq⟩ := head?_eq_some_iff.mp headEq
      have kept : first.key ≤ nextDeadline now backoff round current := by
        rw [firstKey]
        exact nowLe
      simp only [reduceCtorEq, and_false, ↓reduceIte]
      refine ⟨first, ?_, firstHandle, firstKey⟩
      rw [othersEq, filter_cons_of_pos (by simpa using kept)]
      rfl
    | none =>
      rw [isFirst] at stop
      by_cases atNow : nextDeadline now backoff round current = now
      · have nothing : (others.filter fun other =>
            decide (other.key ≤ nextDeadline now backoff round current)) = [] := by
          rw [filter_eq_nil_iff, atNow]
          intro entry inOthers
          simpa using stop entry inOthers
        simp only [atNow, and_self, ↓reduceIte]
        rw [atNow] at nothing
        rw [nothing]
        exact ⟨_, rfl, rfl, rfl⟩
      · simp only [atNow, false_and, ↓reduceIte]
        intro entry inFollowing
        rcases mem_append.mp inFollowing with inLower | inRest
        · exact stop entry (mem_filter.mp inLower).1
        · rcases mem_cons.mp inRest with isNew | inUpper
          · rw [isNew]
            exact lt_of_le_of_ne nowLe (Ne.symm atNow)
          · exact stop entry (mem_filter.mp inUpper).1

/-- The elements of the map that a round leaves where they are. -/
theorem collectEntry_entries (now : Int) (linked : round.chronology.Linked)
    (mem : current ∈ round.chronology.deadlineMap.entries) :
    (∀ entry ∈ (collectEntry now backoff round current).chronology.deadlineMap.entries,
      ∃ origin ∈ round.chronology.deadlineMap.entries, origin.data = entry.data) ∧
    ∀ entry ∈ round.chronology.deadlineMap.entries, entry.handle ≠ current.handle ->
      entry ∈ (collectEntry now backoff round current).chronology.deadlineMap.entries := by
  have ordered : round.chronology.deadlineMap.Ordered := linked.ordered
  have isHandle : (round.chronology.timers current.data).handle = some current.handle :=
    linked.handled current mem
  by_cases single : (round.chronology.timers current.data).period = 0
  · rw [(collectEntry_single now backoff isHandle single).1]
    constructor
    · intro entry inErased
      exact ⟨entry, (mem_erase.mp inErased).1, rfl⟩
    · intro entry inMap apart
      exact mem_erase.mpr ⟨inMap, apart⟩
  · rw [(collectEntry_recurring now backoff isHandle single).1]
    constructor
    · intro entry inUpdated
      have maps : (round.chronology.deadlineMap.update current.handle
          (nextDeadline now backoff round current)).Maps entry.handle entry.data :=
        ⟨entry, inUpdated, rfl, rfl⟩
      obtain ⟨origin, inMap, _, sameData⟩ := (maps_update ordered).mp maps
      exact ⟨origin, inMap, sameData⟩
    · intro _ inMap apart
      unfold update
      split
      · exact mem_insert.mpr (.inl (mem_erase.mpr ⟨inMap, apart⟩))
      · exact inMap

/-! ## Recurrences -/

structure Recurrence where
  entry : StableEntry Nat Int Nat
  period : Int

def Recurrence.sum (recurrence : Recurrence) : Int :=
  recurrence.entry.key + totalMicroseconds recurrence.period

def Recurrence.deadline (now : Int) (recurrence : Recurrence) : Int :=
  let sum := addMicroseconds recurrence.entry.key (totalMicroseconds recurrence.period)
  if sum < now then now else sum

def Recurrence.Fits (recurrence : Recurrence) : Prop :=
  -2 ^ 63 ≤ recurrence.sum ∧ recurrence.sum < 2 ^ 63

instance : DecidablePred Recurrence.Fits := fun recurrence =>
  inferInstanceAs (Decidable (-2 ^ 63 ≤ recurrence.sum ∧ recurrence.sum < 2 ^ 63))

/-- The recurring timers among those collected, after `count` others. -/
def recurrences (timers : Nat -> Timer) (backoff : Nat -> Int -> Int) :
    Nat -> List (StableEntry Nat Int Nat) -> List Recurrence
  | _, [] => []
  | count, entry :: rest =>
    let value := timers entry.data
    if value.period ≠ 0 then
      { entry := entry
        period := if value.options.backoff then backoff count value.period else value.period } ::
          recurrences timers backoff (count + 1) rest
    else recurrences timers backoff count rest

theorem recurrences_entries (timers : Nat -> Timer) (backoff : Nat -> Int -> Int) (count : Nat)
    (entries : List (StableEntry Nat Int Nat)) :
    (recurrences timers backoff count entries).map Recurrence.entry =
      entries.filter fun entry => (timers entry.data).period ≠ 0 := by
  induction entries generalizing count with
  | nil => rfl
  | cons entry _ ih =>
    by_cases recurring : (timers entry.data).period ≠ 0
    · simp [recurrences, recurring, ih]
    · simp [recurrences, recurring, ih]

theorem recurrences_congr {timers others : Nat -> Timer} (backoff : Nat -> Int -> Int) (count : Nat)
    {entries : List (StableEntry Nat Int Nat)}
    (same : ∀ entry ∈ entries, others entry.data = timers entry.data) :
    recurrences others backoff count entries = recurrences timers backoff count entries := by
  induction entries generalizing count with
  | nil => rfl
  | cons entry rest ih =>
    have restSame : ∀ other ∈ rest, others other.data = timers other.data := fun other mem =>
      same other (mem_cons_of_mem _ mem)
    simp only [recurrences, same entry mem_cons_self]
    rw [ih (count + 1) restSame, ih count restSame]

/-- The sum wraps exactly when it is not a 64-bit number. -/
theorem Recurrence.addMicroseconds_iff (recurrence : Recurrence) :
    addMicroseconds recurrence.entry.key (totalMicroseconds recurrence.period) = recurrence.sum ↔
      recurrence.Fits := by
  unfold addMicroseconds Recurrence.Fits
  rw [show recurrence.entry.key + totalMicroseconds recurrence.period = recurrence.sum from rfl]
  constructor
  · intro _
    have lower := Int.le_bmod (x := recurrence.sum) (m := 2 ^ 64) (by decide)
    have upper := Int.bmod_lt (x := recurrence.sum) (m := 2 ^ 64) (by decide)
    omega
  · rintro ⟨_, _⟩
    apply Int.bmod_eq_of_le
    · omega
    · omega

theorem Recurrence.Fits.deadline_eq {recurrence : Recurrence} (fits : recurrence.Fits)
    (now : Int) : recurrence.deadline now = max now recurrence.sum := by
  unfold Recurrence.deadline
  rw [recurrence.addMicroseconds_iff.mpr fits]
  by_cases earlier : recurrence.sum < now
  · rw [if_pos earlier, max_eq_left (le_of_lt earlier)]
  · rw [if_neg earlier, max_eq_right (not_lt.mp earlier)]

/-! ## The loop as a whole -/

def Collecting.Stops (now : Int) (collecting : Collecting) : Prop :=
  ∀ current, collecting.chronology.deadlineMap.entries.head? = some current ->
    now < current.key ∨ some current.handle = collecting.firstReinserted

structure Swept (now : Int) (backoff : Nat -> Int -> Int)
    (remaining : List (StableEntry Nat Int Nat)) (before after : Collecting) : Prop where
  stops : after.Stops now
  due : after.due = before.due ++ remaining.map dueEntry
  kept : ∀ entry ∈ before.chronology.deadlineMap.entries, entry ∉ remaining ->
    entry ∈ after.chronology.deadlineMap.entries
  origin : ∀ entry ∈ after.chronology.deadlineMap.entries,
    (entry ∈ before.chronology.deadlineMap.entries ∧ entry ∉ remaining) ∨
      ∃ recurrence ∈ recurrences before.chronology.timers backoff before.backoffs remaining,
        recurrence.entry.data = entry.data
  recurred : ∀ recurrence ∈
      recurrences before.chronology.timers backoff before.backoffs remaining,
    (∃ entry ∈ after.chronology.deadlineMap.entries, entry.data = recurrence.entry.data ∧
      entry.key = recurrence.deadline now) ∧
    after.chronology.timers recurrence.entry.data =
      { before.chronology.timers recurrence.entry.data with period := recurrence.period }
  finished : ∀ entry ∈ remaining, (before.chronology.timers entry.data).period = 0 ->
    after.chronology.timers entry.data =
      { before.chronology.timers entry.data with handle := none }
  untouched : ∀ timer, timer ∉ remaining.map StableEntry.data ->
    after.chronology.timers timer = before.chronology.timers timer

theorem Frontier.stops (frontier : Frontier now round [] others) : round.Stops now := by
  intro current isFront
  have entriesEq : round.chronology.deadlineMap.entries = others := frontier.entries_eq
  have stop := frontier.stop
  rw [entriesEq] at isFront
  cases isFirst : round.firstReinserted with
  | none =>
    rw [isFirst] at stop
    exact .inl (stop current (mem_of_mem_head? isFront))
  | some =>
    rw [isFirst] at stop
    obtain ⟨_, headEq, firstHandle, _⟩ := stop
    rw [isFront] at headEq
    rw [Option.some.inj headEq, firstHandle]
    exact .inr rfl

theorem collectLoop_of_stops (stops : round.Stops now) (fuel : Nat) :
    collectLoop now backoff fuel round = round := by
  cases fuel with
  | zero => rfl
  | succ =>
    unfold collectLoop
    cases isFront : round.chronology.deadlineMap.entries.head? with
    | none => rfl
    | some current =>
      dsimp only
      rcases stops current isFront with later | isFirst
      · rw [if_pos later]
      · rw [if_pos isFirst, ite_self]

theorem Swept.of_stops (stops : round.Stops now) : Swept now backoff [] round round where
  stops := stops
  due := by simp
  kept := fun _ mem _ => mem
  origin := fun _ mem => .inl ⟨mem, not_mem_nil⟩
  recurred := forall_mem_nil _
  finished := by simp
  untouched := fun _ _ => rfl

/-- The elements that the rounds to come collect are not of the timer of this one. -/
theorem Frontier.data_ne (frontier : Frontier now round (current :: remaining) others)
    (linked : round.chronology.Linked) (mem : entry ∈ remaining) :
    entry.handle ≠ current.handle ∧ entry.data ≠ current.data := by
  have nodup := linked.ordered.distinct
  unfold handles at nodup
  rw [frontier.entries_eq, cons_append, map_cons, nodup_cons] at nodup
  have apart : entry.handle ≠ current.handle := by
    intro same
    apply nodup.1
    rw [← same]
    exact mem_map_of_mem (mem_append_left _ mem)
  have currentIn := frontier.current_mem
  have entryIn : entry ∈ round.chronology.deadlineMap.entries := by
    rw [frontier.entries_eq]
    exact mem_cons_of_mem _ (mem_append_left _ mem)
  exact ⟨apart, linked.data_ne currentIn entryIn apart⟩

def nextRecurrence (backoff : Nat -> Int -> Int) (collecting : Collecting)
    (current : StableEntry Nat Int Nat) : Recurrence where
  entry := current
  period :=
    let value := collecting.chronology.timers current.data
    if value.options.backoff then backoff collecting.backoffs value.period else value.period

section Round

variable {current : StableEntry Nat Int Nat} {remaining others : List (StableEntry Nat Int Nat)}
  {after : Collecting}

theorem collectEntry_others {timer : Nat} (apart : timer ≠ current.data) :
    (collectEntry now backoff round current).chronology.timers timer =
      round.chronology.timers timer := by
  obtain ⟨value, timersEq, _⟩ := collectEntry_timers now backoff round current
  rw [timersEq]
  exact setTimer_of_ne round.chronology value apart

/-- The timers of the rounds to come are as they were. -/
theorem Frontier.collectEntry_timers (frontier : Frontier now round (current :: remaining) others)
    (linked : round.chronology.Linked) : ∀ entry ∈ remaining,
      (Chronology.collectEntry now backoff round current).chronology.timers entry.data =
        round.chronology.timers entry.data := by
  intro _ mem
  exact collectEntry_others backoff (frontier.data_ne linked mem).2

/-- What one round has done: `first` holds its timer when that was put back. -/
structure Rounded (now : Int) (current : StableEntry Nat Int Nat) (first : List Recurrence)
    (before after : Collecting) : Prop where
  kept : ∀ entry ∈ before.chronology.deadlineMap.entries, entry.handle ≠ current.handle ->
    entry ∈ after.chronology.deadlineMap.entries
  origin : ∀ entry ∈ after.chronology.deadlineMap.entries,
    (entry ∈ before.chronology.deadlineMap.entries ∧ entry.handle ≠ current.handle) ∨
      ∃ recurrence ∈ first, recurrence.entry.data = entry.data
  recurred : ∀ recurrence ∈ first, recurrence.entry = current ∧
    (∃ entry ∈ after.chronology.deadlineMap.entries, entry.handle = current.handle ∧
      entry.data = current.data ∧ entry.key = recurrence.deadline now) ∧
    after.chronology.timers current.data =
      { before.chronology.timers current.data with period := recurrence.period }
  finished : (before.chronology.timers current.data).period = 0 ->
    after.chronology.timers current.data =
      { before.chronology.timers current.data with handle := none }

section

variable (frontier : Frontier now round (current :: remaining) others)
include frontier

section

variable (linked : round.chronology.Linked)
include linked

theorem Swept.cons {first : List Recurrence}
    (rounded : Rounded now current first round (collectEntry now backoff round current))
    (recurrencesEq : recurrences round.chronology.timers backoff round.backoffs
      (current :: remaining) = first ++ recurrences round.chronology.timers backoff
      (collectEntry now backoff round current).backoffs remaining)
    (swept : Swept now backoff remaining (collectEntry now backoff round current) after) :
    Swept now backoff (current :: remaining) round after := by
  have sameTimers := frontier.collectEntry_timers backoff linked
  have restEq := recurrences_congr backoff
    (collectEntry now backoff round current).backoffs sameTimers
  have notRemaining : current.data ∉ remaining.map StableEntry.data := by
    intro inRemaining
    obtain ⟨entry, mem, same⟩ := mem_map.mp inRemaining
    exact (frontier.data_ne linked mem).2 same
  have currentIn := frontier.current_mem
  have finalTimer := swept.untouched current.data notRemaining
  rw [← restEq] at recurrencesEq
  constructor
  case stops => exact swept.stops
  case due =>
    rw [swept.due, collectEntry_due, append_assoc]
    rfl
  case kept =>
    intro entry mem notDue
    rw [mem_cons, not_or] at notDue
    refine swept.kept entry (rounded.kept entry mem ?_) notDue.2
    intro same
    exact notDue.1 (inj_on_of_nodup_map linked.ordered.distinct mem currentIn same)
  case origin =>
    intro entry mem
    rw [recurrencesEq]
    rcases swept.origin entry mem with ⟨inNext, notLater⟩ | ⟨recurrence, isLater, same⟩
    · rcases rounded.origin entry inNext with ⟨inMap, apart⟩ | ⟨recurrence, isFirst, same⟩
      · refine .inl ⟨inMap, ?_⟩
        rw [mem_cons, not_or]
        exact ⟨fun same => apart (congrArg StableEntry.handle same), notLater⟩
      · exact .inr ⟨recurrence, mem_append_left _ isFirst, same⟩
    · exact .inr ⟨recurrence, mem_append_right _ isLater, same⟩
  case recurred =>
    intro recurrence mem
    rw [recurrencesEq] at mem
    rcases mem_append.mp mem with isFirst | isLater
    · obtain ⟨isCurrent, ⟨entry, inNext, sameHandle, sameData, atDeadline⟩, timerEq⟩ :=
        rounded.recurred recurrence isFirst
      have notLater : entry ∉ remaining := by
        intro inRemaining
        exact (frontier.data_ne linked inRemaining).1 sameHandle
      rw [isCurrent]
      exact ⟨⟨entry, swept.kept entry inNext notLater, sameData, atDeadline⟩,
        finalTimer.trans timerEq⟩
    · obtain ⟨inMap, timerEq⟩ := swept.recurred recurrence isLater
      have isEntry : recurrence.entry ∈ remaining := by
        have inEntries := mem_map_of_mem (f := Recurrence.entry) isLater
        rw [recurrences_entries] at inEntries
        exact (mem_filter.mp inEntries).1
      rw [sameTimers recurrence.entry isEntry] at timerEq
      exact ⟨inMap, timerEq⟩
  case finished =>
    intro entry mem isSingle
    rcases mem_cons.mp mem with isCurrent | isLater
    · rw [isCurrent] at isSingle ⊢
      exact finalTimer.trans (rounded.finished isSingle)
    · have timerEq := sameTimers entry isLater
      rw [← timerEq] at isSingle ⊢
      exact swept.finished entry isLater isSingle
  case untouched =>
    intro timer notDue
    rw [map_cons, mem_cons, not_or] at notDue
    rw [swept.untouched timer notDue.2]
    exact collectEntry_others backoff notDue.1

theorem Rounded.recurring (recurring : (round.chronology.timers current.data).period ≠ 0) :
    Rounded now current [nextRecurrence backoff round current] round
      (collectEntry now backoff round current) := by
  have currentIn := frontier.current_mem
  have isHandle := linked.handled current currentIn
  have mapEq : (collectEntry now backoff round current).chronology.deadlineMap =
      (round.chronology.deadlineMap.erase current.handle).insert current.handle
        ((nextRecurrence backoff round current).deadline now) current.data := by
    rw [(collectEntry_recurring now backoff isHandle recurring).1]
    unfold update
    rw [find_head frontier.entries_eq]
    rfl
  constructor
  case kept => exact (collectEntry_entries backoff now linked currentIn).2
  case origin =>
    intro _ mem
    rw [mapEq] at mem
    rcases mem_insert.mp mem with inErased | isNew
    · exact .inl (mem_erase.mp inErased)
    · rw [isNew]
      exact .inr ⟨_, mem_singleton_self _, rfl⟩
  case recurred =>
    intro _ mem
    rw [mem_singleton.mp mem, mapEq]
    refine ⟨rfl, ⟨_, mem_insert.mpr (.inr rfl), rfl, rfl, rfl⟩, ?_⟩
    simp only [collectEntry, if_pos recurring]
    exact setTimer_self (round.chronology.addReferences current.data 1) current.data _
  case finished => exact fun isSingle => absurd isSingle recurring

theorem Rounded.single (single : (round.chronology.timers current.data).period = 0) :
    Rounded now current [] round (collectEntry now backoff round current) := by
  have currentIn := frontier.current_mem
  have isHandle := linked.handled current currentIn
  constructor
  case kept => exact (collectEntry_entries backoff now linked currentIn).2
  case origin =>
    intro _ mem
    rw [(collectEntry_single now backoff isHandle single).1] at mem
    exact .inl (mem_erase.mp mem)
  case recurred => exact by simp
  case finished =>
    intro _
    unfold collectEntry
    rw [if_neg (not_not.mpr single)]
    exact setTimer_self round.chronology current.data _

end

end

theorem Frontier.collectLoop_swept (frontier : Frontier now round remaining others)
    (linked : round.chronology.Linked) {fuel : Nat} (enough : remaining.length < fuel) :
    Swept now backoff remaining round (collectLoop now backoff fuel round) := by
  induction remaining generalizing round others fuel with
  | nil =>
    have stops := frontier.stops
    rw [collectLoop_of_stops backoff stops]
    exact Swept.of_stops backoff stops
  | cons current _ ih =>
    cases fuel with
    | zero => contradiction
    | succ =>
      have headEq : round.chronology.deadlineMap.entries.head? = some current := by
        rw [frontier.entries_eq]
        rfl
      have notLater := not_lt.mpr (frontier.due current mem_cons_self)
      have notFirst := frontier.handle_ne linked mem_cons_self
      obtain ⟨_, next⟩ := frontier.collectEntry backoff linked
      have nextLinked := linked.collectEntry now backoff (mem_of_mem_head? headEq)
      have swept := ih next nextLinked (Nat.lt_of_succ_lt_succ enough)
      unfold collectLoop
      simp only [headEq, notLater, notFirst, ↓reduceIte]
      by_cases recurring : (round.chronology.timers current.data).period ≠ 0
      · apply Swept.cons backoff frontier linked
          (Rounded.recurring backoff frontier linked recurring) ?_ swept
        simp only [recurrences, Chronology.collectEntry, if_pos recurring]
        rfl
      · apply Swept.cons backoff frontier linked
          (Rounded.single backoff frontier linked (not_not.mp recurring)) ?_ swept
        simp only [recurrences, Chronology.collectEntry, if_neg recurring]
        rfl

end Round

def dueEntries (chronology : Chronology) (now : Int) : List (StableEntry Nat Int Nat) :=
  chronology.deadlineMap.entries.filter fun entry => entry.key ≤ now

theorem Linked.collectLoop_swept (linked : chron.Linked) (now : Int)
    {fuel : Nat} (enough : chron.deadlineMap.entries.length < fuel) :
    Swept now backoff (chron.dueEntries now) { chronology := chron }
      (collectLoop now backoff fuel { chronology := chron }) := by
  have ordered : chron.deadlineMap.Ordered := linked.ordered
  have monotone : chron.deadlineMap.entries.Pairwise fun a b =>
      decide (now < a.key) = true -> decide (now < b.key) = true := by
    apply ordered.increasing.imp
    intro a b inOrder
    simp only [decide_eq_true_eq]
    intro later
    rcases inOrder with less | ⟨same, _⟩
    · exact lt_trans later less
    · rw [← same]
      exact later
  have parts := Lists.filter_append_filter monotone
  have lowerEq : (chron.deadlineMap.entries.filter fun entry => !decide (now < entry.key)) =
      chron.dueEntries now := by
    apply filter_congr
    intro entry _
    rw [← decide_not]
    simp only [not_lt]
  rw [lowerEq] at parts
  have frontier : Frontier now { chronology := chron } (chron.dueEntries now)
      (chron.deadlineMap.entries.filter fun entry => decide (now < entry.key)) := by
    refine ⟨parts.symm, ?_, ?_⟩
    · intro entry mem
      simpa using (mem_filter.mp mem).2
    · intro _ mem
      simpa using (mem_filter.mp mem).2
  exact frontier.collectLoop_swept backoff linked (Nat.lt_of_le_of_lt (length_filter_le _ _) enough)

/-! ## What the loop leaves alone -/

section

variable (now : Int) (backoff : Nat -> Int -> Int)

/-- A round of the loop of `announce` changes timers, the map and references only. -/
theorem collectEntry_frame (round : Collecting) (current : StableEntry Nat Int Nat) :
    ∃ timers map references, (collectEntry now backoff round current).chronology =
      { round.chronology with timers := timers, deadlineMap := map, references := references } := by
  unfold collectEntry
  dsimp only
  split
  · exact ⟨_, _, _, rfl⟩
  · exact ⟨_, _, _, rfl⟩

theorem collectLoop_frame (fuel : Nat) (round : Collecting) :
    ∃ timers map references, (collectLoop now backoff fuel round).chronology =
      { round.chronology with timers := timers, deadlineMap := map, references := references } := by
  refine collectLoop_induct (P := fun next => ∃ timers map references, next.chronology =
    { round.chronology with timers := timers, deadlineMap := map, references := references })
    ?_ fuel ⟨_, _, _, rfl⟩
  rintro next current _ ⟨_, _, _, isNext⟩
  obtain ⟨timers, map, references, entryEq⟩ := collectEntry_frame now backoff next current
  rw [isNext] at entryEq
  exact ⟨timers, map, references, entryEq⟩

end

def Collecting.Located (collecting : Collecting) (timer : Nat) (deadline : Int) : Prop :=
  (∃ entry ∈ collecting.chronology.deadlineMap.entries,
    entry.data = timer ∧ entry.key = deadline) ∨
    { timer := timer, deadline := deadline : DueEntry } ∈ collecting.due

structure Kept (before after : Collecting) : Prop where
  state : ∀ timer, (after.chronology.timers timer).state = (before.chronology.timers timer).state
  created : ∀ timer,
    (after.chronology.timers timer).created = (before.chronology.timers timer).created
  mapped : ∀ entry ∈ after.chronology.deadlineMap.entries,
    ∃ origin ∈ before.chronology.deadlineMap.entries, origin.data = entry.data
  located : ∀ timer deadline, before.Located timer deadline -> after.Located timer deadline

theorem Kept.refl (round : Collecting) : Kept round round where
  state := fun _ => rfl
  created := fun _ => rfl
  mapped := fun entry mem => ⟨entry, mem, rfl⟩
  located := fun _ _ located => located

theorem Kept.trans {first second third : Collecting} (left : Kept first second)
    (right : Kept second third) : Kept first third where
  state := fun timer => (right.state timer).trans (left.state timer)
  created := fun timer => (right.created timer).trans (left.created timer)
  mapped := by
    intro entry mem
    obtain ⟨middle, inMiddle, sameMiddle⟩ := right.mapped entry mem
    obtain ⟨origin, inOrigin, sameOrigin⟩ := left.mapped middle inMiddle
    exact ⟨origin, inOrigin, sameOrigin.trans sameMiddle⟩
  located := fun timer deadline located =>
    right.located timer deadline (left.located timer deadline located)

theorem Kept.collectEntry (tied : round.published.Tied)
    (mem : current ∈ round.chronology.deadlineMap.entries) :
    Kept round (collectEntry now backoff round current) := by
  obtain ⟨_, timersEq, sameState, sameCreated⟩ := collectEntry_timers now backoff round current
  have linked : round.chronology.Linked := ⟨tied.linked.ordered, tied.linked.handled⟩
  obtain ⟨origins, keptEntries⟩ := collectEntry_entries backoff now linked mem
  constructor
  case state =>
    intro timer
    rw [timersEq]
    exact setTimer_field round.chronology Timer.state sameState timer
  case created =>
    intro timer
    rw [timersEq]
    exact setTimer_field round.chronology Timer.created sameCreated timer
  case mapped => exact origins
  case located =>
    intro _ _ located
    unfold Collecting.Located
    rw [collectEntry_due]
    rcases located with ⟨entry, inMap, isTimer, isDeadline⟩ | inDue
    · by_cases same : entry.handle = current.handle
      · have isCurrent : entry = current := inj_on_of_nodup_map tied.ordered.distinct inMap mem same
        apply Or.inr
        apply mem_append_right
        rw [← isTimer, ← isDeadline, isCurrent]
        exact mem_cons_self
      · exact Or.inl ⟨entry, keptEntries entry inMap same, isTimer, isDeadline⟩
    · exact Or.inr (mem_append_left _ inDue)

theorem Kept.collectLoop (now : Int) (fuel : Nat) (tied : round.published.Tied) :
    Kept round (collectLoop now backoff fuel round) :=
  (collectLoop_induct (P := fun next => next.published.Tied ∧ Kept round next)
    (fun _ _ mem both => ⟨both.1.collectEntry now backoff mem,
      both.2.trans (Kept.collectEntry backoff both.1 mem)⟩) fuel ⟨tied, Kept.refl round⟩).2

end Chronology

end NtfCore.Ntcs
