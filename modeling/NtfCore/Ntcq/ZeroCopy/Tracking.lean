import NtfCore.Foundation.Lists
import NtfCore.Ntcq.ZeroCopy.Queue

/-!
Contract: what a zero-copy queue is for, and when it does it.

Owns: the ledger of transfers, which records for every `push` of data the
counters it was given, whether it is framed and what is to be notified; the
runs of a queue against a kernel that reports every issued counter at most
once, in any order; and the exact condition under which the wait list and the
done list agree with the ledger along a run.
-/

namespace NtfCore.Ntcq

open NtfCore.Foundation List ZeroCopyEntry Lists Forall₂
open ZeroCopyQueue

variable {Data Context Callback : Type}

/-- One `push` of data: the counters of its system calls, in order, and the
callback to invoke with its context when they have all been reported. -/
structure Transfer (Context Callback : Type) where
  group : Nat
  counters : List Nat
  framed : Bool := false
  notification : Option (Option Context × Callback)

def Transfer.finished (reported : List Nat) (transfer : Transfer Context Callback) : Bool :=
  transfer.framed && transfer.counters.all fun counter => decide (counter ∈ reported)

/-- Everything that happened to a queue: the transfers in the order of their
`push`, the counters issued and the counters reported, both in order, and the
notifications popped. -/
structure Ledger (Context Callback : Type) where
  transfers : List (Transfer Context Callback) := []
  issued : List Nat := []
  reported : List Nat := []
  popped : List (Option Context × Callback) := []

namespace Ledger

def unfinished (ledger : Ledger Context Callback) : List (Transfer Context Callback) :=
  ledger.transfers.filter fun transfer => !transfer.finished ledger.reported

def due (ledger : Ledger Context Callback) : List (Option Context × Callback) :=
  (ledger.transfers.filter (Transfer.finished ledger.reported)).filterMap Transfer.notification

def begin (ledger : Ledger Context Callback) (group counter : Nat)
    (notification : Option (Option Context × Callback)) : Ledger Context Callback :=
  { ledger with
    transfers := ledger.transfers ++ [⟨group, [counter], false, notification⟩]
    issued := ledger.issued ++ [counter] }

def extend (ledger : Ledger Context Callback) (counter : Nat) : Ledger Context Callback :=
  { ledger with
    transfers := Lists.modifyLast (fun transfer => !transfer.finished ledger.reported)
      (fun transfer => { transfer with counters := transfer.counters ++ [counter] })
      ledger.transfers
    issued := ledger.issued ++ [counter] }

def frame (ledger : Ledger Context Callback) : Ledger Context Callback :=
  { ledger with
    transfers := Lists.modifyLast (fun transfer => !transfer.finished ledger.reported)
      (fun transfer => { transfer with framed := true }) ledger.transfers }

end Ledger

def ZeroCopy.reported (zeroCopy : ZeroCopy) : List Nat :=
  List.range' zeroCopy.first (zeroCopy.thru + 1 - zeroCopy.first)

theorem ZeroCopy.mem_reported (zeroCopy : ZeroCopy) (counter : Nat) :
    counter ∈ zeroCopy.reported ↔ zeroCopy.first ≤ counter ∧ counter ≤ zeroCopy.thru := by
  unfold ZeroCopy.reported
  rw [mem_range'_1]
  omega

structure Tracked (Data Context Callback : Type) where
  queue : ZeroCopyQueue Data Context Callback := {}
  ledger : Ledger Context Callback := {}

inductive QueueAction (Data Context Callback : Type) where
  | push (group : Nat) (data : Data) (context : Option Context) (callback : Option Callback)
  | extend (group : Nat)
  | frame (group : Nat)
  | update (zeroCopy : ZeroCopy)
  | pop

/-- One call on the queue, recorded in the ledger. Refused are calls that fail
an assertion of the source, counters past the 32 bits of the kernel, reports
once the generator has left its first generation, and reports of counters that
were not issued or that have been reported before. -/
def Tracked.step (state : Tracked Data Context Callback) :
    QueueAction Data Context Callback -> Option (Tracked Data Context Callback)
  | .push group data context callback =>
    if state.queue.generator.next ≤ uint32Max then
      match state.queue.push group data context callback with
      | some (counter, queue) =>
        some ⟨queue, state.ledger.begin group counter
          (callback.map fun callback => (context, callback))⟩
      | none => none
    else none
  | .extend group =>
    if state.queue.generator.next ≤ uint32Max then
      match state.queue.extend group with
      | some (counter, queue) => some ⟨queue, state.ledger.extend counter⟩
      | none => none
    else none
  | .frame group =>
    match state.queue.frame group with
    | some queue => some ⟨queue, state.ledger.frame⟩
    | none => none
  | .update zeroCopy =>
    if state.queue.generator.generation = 0 ∧ zeroCopy.first ≤ zeroCopy.thru ∧
        ∀ counter ∈ zeroCopy.reported,
          counter ∈ state.ledger.issued ∧ counter ∉ state.ledger.reported then
      some ⟨state.queue.update zeroCopy,
        { state.ledger with reported := state.ledger.reported ++ zeroCopy.reported }⟩
    else none
  | .pop =>
    let (popped, queue) := state.queue.pop
    some ⟨queue, { state.ledger with popped := state.ledger.popped ++ popped.toList }⟩

structure Waits (reported : List Nat) (entry : ZeroCopyEntry Data Context Callback)
    (transfer : Transfer Context Callback) : Prop where
  group : entry.group = transfer.group
  framed : entry.framed = transfer.framed
  notification : entry.notification = transfer.notification
  requires : ∀ counter, entry.Requires counter ↔
    counter ∈ transfer.counters ∧ counter ∉ reported

/-- The wait list holds the unfinished transfers in order, each waiting for what
has not been reported; every notification of a finished transfer is either
popped or in the done list, once; and `pop` fails only when all were popped. -/
structure Tracked.Tracks (state : Tracked Data Context Callback) : Prop where
  waiting : List.Forall₂ (Waits state.ledger.reported) state.queue.waitList
    state.ledger.unfinished
  done : (state.ledger.popped ++
    state.queue.doneList.filterMap ZeroCopyEntry.notification).Perm state.ledger.due
  drained : state.queue.pop.1 = none -> state.ledger.popped.Perm state.ledger.due

def Tracked.ExtendsPending (state : Tracked Data Context Callback) :
    QueueAction Data Context Callback -> Prop
  | .extend _ => ∀ counter ∈ state.ledger.issued.getLast?, counter ∉ state.ledger.reported
  | _ => True

structure Tracked.Invariant (state : Tracked Data Context Callback) : Prop where
  tracks : state.Tracks
  wellFormed : ∀ entry ∈ state.queue.waitList, entry.WellFormed
  issued_eq : state.ledger.issued = List.range state.queue.generator.next
  owned : state.ledger.transfers.flatMap Transfer.counters = state.ledger.issued
  nonempty : ∀ transfer ∈ state.ledger.transfers, transfer.counters ≠ []
  reported_lt : ∀ counter ∈ state.ledger.reported, counter < state.queue.generator.next
  next_le : state.queue.generator.next ≤ uint32Max + 1
  bias_eq : state.queue.generator.generation = 0 -> state.queue.generator.bias = 0

theorem Transfer.finished_iff (reported : List Nat) (transfer : Transfer Context Callback) :
    transfer.finished reported = true ↔
      transfer.framed = true ∧ ∀ counter ∈ transfer.counters, counter ∈ reported := by
  simp [Transfer.finished]

variable {transfer : Transfer Context Callback}

open Ledger

theorem Ledger.mem_unfinished {ledger : Ledger Context Callback} : transfer ∈ ledger.unfinished ↔
      transfer ∈ ledger.transfers ∧ transfer.finished ledger.reported = false := by
  simp [unfinished]

variable {entry : ZeroCopyEntry Data Context Callback} {reported : List Nat}

theorem Waits.complete_eq (waits : Waits reported entry transfer)
    (wellFormed : entry.WellFormed) : entry.complete = transfer.finished reported := by
  rw [Bool.eq_iff_iff, complete_iff wellFormed, Transfer.finished_iff, waits.framed]
  apply and_congr_right
  intro _
  constructor
  · intro none counter mem
    by_contra absent
    exact none counter ((waits.requires counter).mpr ⟨mem, absent⟩)
  · intro all counter required
    obtain ⟨mem, absent⟩ := (waits.requires counter).mp required
    exact absent (all counter mem)

variable {state : Tracked Data Context Callback}

theorem Tracked.Invariant.increasing (holds : state.Invariant) :
    state.ledger.transfers.Pairwise fun earlier later =>
      ∀ lesser ∈ earlier.counters, ∀ greater ∈ later.counters, lesser < greater := by
  have sorted : (state.ledger.transfers.flatMap Transfer.counters).Pairwise (· < ·) := by
    rw [holds.owned, holds.issued_eq]
    exact pairwise_lt_range
  exact (pairwise_flatMap.mp sorted).2

theorem Tracked.Invariant.ordered (holds : state.Invariant) : Ordered state.queue.waitList where
  wellFormed := holds.wellFormed
  incomplete := by
    intro entry mem
    obtain ⟨transfer, waiting, waits⟩ := related_of_mem holds.tracks.waiting mem
    rw [waits.complete_eq (holds.wellFormed entry mem)]
    exact (mem_unfinished.mp waiting).2
  increasing := by
    have sorted := holds.increasing.sublist
      (filter_sublist (p := fun transfer => !transfer.finished state.ledger.reported))
    refine pairwise_of_forall₂ holds.tracks.waiting sorted ?_
    intro _ _ _ _ waits otherWaits below lesser greater required otherRequired
    exact below lesser ((waits.requires lesser).mp required).1 greater
      ((otherWaits.requires greater).mp otherRequired).1

variable {counter : Nat}

/-- Issued counters belong to a transfer, and are below the next one. -/
theorem Tracked.Invariant.counter_lt (holds : state.Invariant)
    (mem : transfer ∈ state.ledger.transfers)
    (assigned : counter ∈ transfer.counters) : counter < state.queue.generator.next := by
  have inOwned : counter ∈ state.ledger.transfers.flatMap Transfer.counters :=
    mem_flatMap.mpr ⟨transfer, mem, assigned⟩
  rw [holds.owned, holds.issued_eq] at inOwned
  exact mem_range.mp inOwned

/-! ## New entries -/

theorem Tracked.start_invariant : ({} : Tracked Data Context Callback).Invariant where
  tracks := ⟨nil, Perm.refl _, fun _ => Perm.refl _⟩
  wellFormed := by simp
  issued_eq := rfl
  owned := rfl
  nonempty := by simp
  reported_lt := by simp
  next_le := Nat.zero_le _
  bias_eq := fun _ => rfl

/-- `pop` finds nothing exactly when no entry of the done list has a callback,
and otherwise takes the first notification out. -/
theorem ZeroCopyQueue.popLoop_spec (entries : List (ZeroCopyEntry Data Context Callback)) :
    (popLoop entries).1.toList ++ (popLoop entries).2.filterMap notification =
      entries.filterMap notification ∧
    ((popLoop entries).1 = none -> entries.filterMap notification = []) := by
  induction entries with
  | nil => exact ⟨rfl, fun _ => rfl⟩
  | cons entry _ ih =>
    unfold popLoop
    cases callback : entry.callback with
    | none =>
      have silent : entry.notification = none := by simp [notification, callback]
      rw [filterMap_cons_none silent]
      exact ih
    | some found =>
      have notified : entry.notification = some (entry.context, found) := by
        simp [notification, callback]
      rw [filterMap_cons_some notified]
      exact ⟨rfl, by simp⟩

/-- The third clause of `Tracks` follows from the second. -/
theorem Tracked.Tracks.of_done (waiting : Forall₂ (Waits state.ledger.reported) state.queue.waitList
      state.ledger.unfinished) (done : (state.ledger.popped ++
      state.queue.doneList.filterMap notification).Perm state.ledger.due) : state.Tracks where
  waiting := waiting
  done := done
  drained := by
    intro nothing
    have silent := (popLoop_spec state.queue.doneList).2 nothing
    rw [silent, append_nil] at done
    exact done

theorem Tracked.pop_invariant (holds : state.Invariant) : (⟨state.queue.pop.2, { state.ledger with
      popped := state.ledger.popped ++ state.queue.pop.1.toList }⟩ :
        Tracked Data Context Callback).Invariant := { holds with
  tracks := by
    refine .of_done holds.tracks.waiting ?_
    have split := (popLoop_spec state.queue.doneList).1
    show (state.ledger.popped ++ (popLoop state.queue.doneList).1.toList ++
      (popLoop state.queue.doneList).2.filterMap notification).Perm state.ledger.due
    rw [append_assoc, split]
    exact holds.tracks.done }

theorem waits_create (group : Nat) (data : Data) (context : Option Context)
    (callback : Option Callback) (small : counter + 1 < uint64Modulus)
    (fresh : counter ∉ reported) : (create group data context callback counter).WellFormed ∧
      Waits reported (create group data context callback counter)
        ⟨group, [counter], false, callback.map fun callback => (context, callback)⟩ := by
  obtain ⟨groupEq, framedEq, setEq, rangeEq, notificationEq⟩ :=
    create_spec group data context callback small
  refine ⟨⟨?_, .inl ⟨setEq, ?_⟩⟩, groupEq, framedEq, notificationEq, ?_⟩
  · rw [setEq]
    exact separated_nil
  · rw [rangeEq]
    exact Nat.lt_succ_self counter
  · intro other
    rw [requires_of_nil setEq, rangeEq, mem_singleton]
    unfold ZeroCopyRange.Contains
    dsimp only
    constructor
    · intro _
      have isCounter : other = counter := by omega
      exact ⟨isCounter, isCounter ▸ fresh⟩
    · intro _
      omega

section

variable (ledger : Ledger Context Callback) (group counter : Nat)
  (notification : Option (Option Context × Callback))

theorem Ledger.unfinished_begin : (ledger.begin group counter notification).unfinished =
      ledger.unfinished ++ [⟨group, [counter], false, notification⟩] := by
  unfold unfinished begin
  rw [filter_append]
  rfl

theorem Ledger.due_begin : (ledger.begin group counter notification).due = ledger.due := by
  unfold due begin
  rw [filter_append, filterMap_append]
  exact append_nil _

end

theorem Tracked.push_invariant (holds : state.Invariant)
    (small : state.queue.generator.next ≤ uint32Max) (group : Nat) (data : Data)
    (context : Option Context) (callback : Option Callback) :
    (⟨{ state.queue with
        generator := state.queue.generator.issue.2
        waitList := state.queue.waitList ++ [create group data context callback
          state.queue.generator.next] },
      state.ledger.begin group state.queue.generator.next
        (callback.map fun callback => (context, callback))⟩ :
          Tracked Data Context Callback).Invariant := by
  have bound : state.queue.generator.next + 1 < uint64Modulus := by
    simp only [uint32Max] at small
    simp only [uint64Modulus]
    omega
  have nextEq : state.queue.generator.issue.2.next = state.queue.generator.next + 1 :=
    Nat.mod_eq_of_lt bound
  have fresh : state.queue.generator.next ∉ state.ledger.reported := fun mem =>
    Nat.lt_irrefl _ (holds.reported_lt _ mem)
  obtain ⟨newWellFormed, newWaits⟩ := waits_create group data context callback bound fresh
  constructor
  case tracks =>
    refine .of_done ?_ ?_
    · rw [unfinished_begin]
      exact forall₂_append holds.tracks.waiting (cons newWaits .nil)
    · rw [due_begin]
      exact holds.tracks.done
  case wellFormed =>
    intro entry mem
    rcases mem_append.mp mem with earlier | newest
    · exact holds.wellFormed entry earlier
    · exact (mem_singleton.mp newest) ▸ newWellFormed
  case issued_eq =>
    show state.ledger.issued ++ [_] = range state.queue.generator.issue.2.next
    rw [nextEq, range_succ, holds.issued_eq]
  case owned =>
    show flatMap _ (_ ++ [_]) = state.ledger.issued ++ [_]
    rw [flatMap_append, holds.owned, flatMap_singleton]
  case nonempty =>
    intro transfer mem
    rcases mem_append.mp mem with earlier | newest
    · exact holds.nonempty transfer earlier
    · rw [mem_singleton.mp newest]
      exact cons_ne_nil _ _
  case reported_lt =>
    intro counter mem
    have below := holds.reported_lt counter mem
    show counter < state.queue.generator.issue.2.next
    omega
  case next_le =>
    rw [nextEq]
    omega
  case bias_eq => exact holds.bias_eq

/-! ## Extending the newest entry -/

variable {newest : Transfer Context Callback}

theorem Tracked.Invariant.last_issued (holds : state.Invariant)
    {before : List (Transfer Context Callback)}
    (split : state.ledger.transfers = before ++ [newest]) :
    ∃ counter ∈ newest.counters, state.ledger.issued.getLast? = some counter ∧
      state.queue.generator.next = counter + 1 := by
  have ne := holds.nonempty newest (by simp [split])
  have owned := holds.owned
  rw [split, flatMap_append, flatMap_singleton] at owned
  have lastEq : state.ledger.issued.getLast? = some (newest.counters.getLast ne) := by
    rw [← owned, getLast?_append_of_ne_nil _ ne, getLast?_eq_some_getLast ne]
  have inRange := lastEq
  rw [holds.issued_eq, getLast?_range] at inRange
  refine ⟨_, getLast_mem ne, lastEq, ?_⟩
  split at inRange
  · contradiction
  · have value := Option.some.inj inRange
    omega

theorem Tracked.Invariant.newest_pending (holds : state.Invariant)
    {init : List (Transfer Context Callback)} (waiting : state.ledger.unfinished = init ++ [newest])
    (pending : ∀ counter ∈ state.ledger.issued.getLast?, counter ∉ state.ledger.reported) :
    ∃ before, state.ledger.transfers = before ++ [newest] ∧
      (before.filter fun transfer => !transfer.finished state.ledger.reported) = init ∧
      ∀ change, modifyLast (fun transfer => !transfer.finished state.ledger.reported) change
        state.ledger.transfers = before ++ [change newest] := by
  obtain ⟨before, after, split, beforeEq, afterEq, _, modified⟩ := modifyLast_split waiting
  rcases eq_nil_or_concat after with none | ⟨rest, latest, isConcat⟩
  · rw [none] at split modified
    exact ⟨before, split, beforeEq, modified⟩
  · rw [concat_eq_append] at isConcat
    have latestSplit : state.ledger.transfers = (before ++ newest :: rest) ++ [latest] := by
      rw [split, isConcat]
      simp
    obtain ⟨counter, assigned, isLast, _⟩ := holds.last_issued latestSplit
    have latestFinished : latest.finished state.ledger.reported = true := by
      have notTested := filter_eq_nil_iff.mp afterEq latest (by simp [isConcat])
      simpa using notTested
    have reported := ((Transfer.finished_iff _ _).mp latestFinished).2 counter assigned
    exact absurd reported (pending counter isLast)

theorem Waits.setMaxCounter {last : Nat} (waits : Waits reported entry transfer)
    (wellFormed : entry.WellFormed) (assigned : last ∈ transfer.counters)
    (pending : last ∉ reported) (greatest : ∀ counter ∈ transfer.counters, counter ≤ last)
    (fresh : last + 1 ∉ reported) :
    (entry.setMaxCounter (last + 2)).WellFormed ∧ Waits reported (entry.setMaxCounter (last + 2))
        { transfer with counters := transfer.counters ++ [last + 1] } := by
  have header := setMaxCounter_header entry (last + 2)
  obtain ⟨extended, requires⟩ := setMaxCounter_spec wellFormed
    (fun counter required => greatest counter ((waits.requires counter).mp required).1)
    ((waits.requires last).mpr ⟨assigned, pending⟩)
  refine ⟨extended, header.group.trans waits.group, header.framed.trans waits.framed, ?_, ?_⟩
  · rw [ZeroCopyEntry.notification, header.callback, header.context]
    exact waits.notification
  · intro _
    rw [requires, waits.requires, mem_append, mem_singleton]
    constructor
    · rintro (⟨mem, absent⟩ | isNext)
      · exact ⟨.inl mem, absent⟩
      · exact ⟨.inr isNext, isNext ▸ fresh⟩
    · rintro ⟨mem | isNext, absent⟩
      · exact .inl ⟨mem, absent⟩
      · exact .inr isNext

/-- The state after `push` of a group, where the wait list ends in `entry`. -/
def Tracked.extended (state : Tracked Data Context Callback)
    (init : List (ZeroCopyEntry Data Context Callback))
    (entry : ZeroCopyEntry Data Context Callback) : Tracked Data Context Callback :=
  ⟨{ state.queue with
      generator := state.queue.generator.issue.2
      waitList := init ++ [entry.setMaxCounter ((state.queue.generator.next + 1) % uint64Modulus)] },
    state.ledger.extend state.queue.generator.next⟩

variable {init : List (ZeroCopyEntry Data Context Callback)}

section

variable (holds : state.Invariant) (small : state.queue.generator.next ≤ uint32Max)
  (waitEq : state.queue.waitList = init ++ [entry])
include holds small waitEq

theorem Tracked.extended_invariant
    (pending : ∀ counter ∈ state.ledger.issued.getLast?, counter ∉ state.ledger.reported) :
    (state.extended init entry).Invariant := by
  have bound : state.queue.generator.next + 1 < uint64Modulus := by
    simp only [uint32Max] at small
    simp only [uint64Modulus]
    omega
  have modEq := Nat.mod_eq_of_lt bound
  have nextEq : state.queue.generator.issue.2.next = state.queue.generator.next + 1 := modEq
  have fresh : state.queue.generator.next ∉ state.ledger.reported := fun mem =>
    Nat.lt_irrefl _ (holds.reported_lt _ mem)
  have waiting := holds.tracks.waiting
  rw [waitEq] at waiting
  obtain ⟨_, newest, unfinishedEq, initWaiting, waits⟩ := forall₂_concat waiting
  obtain ⟨before, split, beforeEq, modified⟩ := holds.newest_pending unfinishedEq pending
  obtain ⟨last, assigned, isLast, nextIs⟩ := holds.last_issued split
  have newestMem : newest ∈ state.ledger.transfers := by simp [split]
  have entryWellFormed := holds.wellFormed entry (by simp [waitEq])
  rw [nextIs] at fresh
  obtain ⟨grownWellFormed, grownWaits⟩ := waits.setMaxCounter entryWellFormed assigned
    (pending last isLast)
    (fun counter mem => by
      have below := holds.counter_lt newestMem mem
      omega)
    fresh
  have transfersEq : (state.ledger.extend state.queue.generator.next).transfers =
      before ++ [{ newest with counters := newest.counters ++ [last + 1] }] := by
    show modifyLast _ _ _ = _
    rw [modified, nextIs]
  have waitListEq : (state.extended init entry).queue.waitList =
      init ++ [entry.setMaxCounter (last + 2)] := by
    show init ++ [entry.setMaxCounter _] = _
    rw [modEq, nextIs]
  have grownOpen : Transfer.finished state.ledger.reported
      { newest with counters := newest.counters ++ [last + 1] } = false := by
    rw [Bool.eq_false_iff, Ne, Transfer.finished_iff]
    rintro ⟨_, all⟩
    exact fresh (all (last + 1) (by simp))
  have newestOpen : newest.finished state.ledger.reported = false :=
    (mem_unfinished.mp (by simp [unfinishedEq])).2
  constructor
  case tracks =>
    refine .of_done ?_ ?_
    · rw [waitListEq]
      show Forall₂ _ _ (filter _ (state.ledger.extend _).transfers)
      rw [transfersEq, filter_append]
      refine forall₂_append ?_ ?_
      · show Forall₂ _ _ (before.filter fun transfer =>
          !transfer.finished state.ledger.reported)
        rw [beforeEq]
        exact initWaiting
      · rw [filter_cons_of_pos]
        · exact cons grownWaits .nil
        · show (!Transfer.finished state.ledger.reported _) = true
          rw [grownOpen]
          rfl
    · have dueEq : (state.ledger.extend state.queue.generator.next).due = state.ledger.due := by
        show filterMap _ (filter (Transfer.finished state.ledger.reported) _) = _
        rw [transfersEq]
        unfold due
        rw [split, filter_append, filter_append,
          filter_cons_of_neg (by rw [grownOpen]; exact Bool.false_ne_true),
          filter_cons_of_neg (by rw [newestOpen]; exact Bool.false_ne_true)]
      show (state.ledger.popped ++ _).Perm (state.ledger.extend _).due
      rw [dueEq]
      exact holds.tracks.done
  case wellFormed =>
    intro other mem
    rw [waitListEq] at mem
    rcases mem_append.mp mem with earlier | isLastEntry
    · exact holds.wellFormed other (by simp [waitEq, earlier])
    · exact (mem_singleton.mp isLastEntry) ▸ grownWellFormed
  case issued_eq =>
    show state.ledger.issued ++ [_] = range state.queue.generator.issue.2.next
    rw [nextEq, range_succ, holds.issued_eq]
  case owned =>
    show flatMap _ (state.ledger.extend _).transfers = state.ledger.issued ++ [_]
    have owned := holds.owned
    rw [split, flatMap_append, flatMap_singleton] at owned
    rw [transfersEq, flatMap_append, flatMap_singleton, ← owned, nextIs]
    exact (append_assoc _ _ _).symm
  case nonempty =>
    intro transfer mem
    change transfer ∈ (state.ledger.extend _).transfers at mem
    rw [transfersEq] at mem
    rcases mem_append.mp mem with earlier | isNewest
    · exact holds.nonempty transfer (by simp [split, earlier])
    · rw [mem_singleton.mp isNewest]
      simp
  case reported_lt =>
    intro counter mem
    have below := holds.reported_lt counter mem
    show counter < state.queue.generator.issue.2.next
    rw [nextEq]
    omega
  case next_le =>
    show state.queue.generator.issue.2.next ≤ _
    omega
  case bias_eq => exact holds.bias_eq

/-- After an extension the newest entry requires the counter issued last before
it, so agreement means that this counter is not reported. -/
theorem Tracked.extended_detects (agrees : (state.extended init entry).Tracks) :
    ∀ counter ∈ state.ledger.issued.getLast?, counter ∉ state.ledger.reported := by
  intro counter isLast
  have bound : state.queue.generator.next + 1 < uint64Modulus := by
    simp only [uint32Max] at small
    simp only [uint64Modulus]
    omega
  have nextIs : state.queue.generator.next = counter + 1 := by
    rw [holds.issued_eq, getLast?_range] at isLast
    split at isLast
    · contradiction
    · have value := Option.some.inj isLast
      omega
  have waiting := holds.tracks.waiting
  rw [waitEq] at waiting
  obtain ⟨_, newest, unfinishedEq, _, waits⟩ := forall₂_concat waiting
  have newestMem := (mem_unfinished.mp
    (show newest ∈ state.ledger.unfinished by simp [unfinishedEq])).1
  have required : (entry.setMaxCounter (counter + 2)).Requires counter := by
    refine setMaxCounter_requires_last (holds.wellFormed entry (by simp [waitEq])) ?_
    intro other otherRequired
    have below := holds.counter_lt newestMem ((waits.requires other).mp otherRequired).1
    omega
  have mem : entry.setMaxCounter (counter + 2) ∈ (state.extended init entry).queue.waitList := by
    show _ ∈ init ++ [entry.setMaxCounter _]
    rw [Nat.mod_eq_of_lt bound, nextIs]
    simp
  obtain ⟨_, _, grownWaits⟩ := related_of_mem agrees.waiting mem
  exact ((grownWaits.requires counter).mp required).2

end

theorem Waits.frame (waits : Waits reported entry transfer) :
    Waits reported { entry with framed := true } { transfer with framed := true } := { waits with
  framed := rfl }

/-- The state after `frame`, where the wait list ends in `entry`. -/
def Tracked.framed (state : Tracked Data Context Callback)
    (init : List (ZeroCopyEntry Data Context Callback))
    (entry : ZeroCopyEntry Data Context Callback) : Tracked Data Context Callback :=
  if ({ entry with framed := true } : ZeroCopyEntry Data Context Callback).complete then
    ⟨{ state.queue with
        doneList := state.queue.doneList ++ [{ entry with framed := true }]
        waitList := init }, state.ledger.frame⟩
  else
    ⟨{ state.queue with waitList := init ++ [{ entry with framed := true }] }, state.ledger.frame⟩

/-- Everything `frame` leaves as it was, given that it keeps the agreement. -/
theorem Tracked.frame_frame {state next : Tracked Data Context Callback}
    (holds : state.Invariant) (tracks : next.Tracks)
    (generatorEq : next.queue.generator = state.queue.generator)
    (ledgerEq : next.ledger = state.ledger.frame)
    (wellFormed : ∀ entry ∈ next.queue.waitList, entry.WellFormed)
    {before after : List (Transfer Context Callback)}
    (split : state.ledger.transfers = before ++ newest :: after)
    (transfersEq : state.ledger.frame.transfers =
      before ++ { newest with framed := true } :: after) : next.Invariant := by
  constructor
  case tracks => exact tracks
  case wellFormed => exact wellFormed
  case issued_eq =>
    rw [ledgerEq, generatorEq]
    exact holds.issued_eq
  case owned =>
    have owned := holds.owned
    rw [split, flatMap_append, flatMap_cons] at owned
    rw [ledgerEq, transfersEq, flatMap_append, flatMap_cons]
    exact owned
  case nonempty =>
    intro transfer mem
    rw [ledgerEq, transfersEq] at mem
    rcases mem_append.mp mem with earlier | later
    · exact holds.nonempty transfer (by simp [split, earlier])
    · rcases mem_cons.mp later with isNewest | inAfter
      · rw [isNewest]
        exact holds.nonempty newest (by simp [split])
      · exact holds.nonempty transfer (by simp [split, inAfter])
  case reported_lt =>
    rw [ledgerEq, generatorEq]
    exact holds.reported_lt
  case next_le =>
    rw [generatorEq]
    exact holds.next_le
  case bias_eq =>
    rw [generatorEq]
    exact holds.bias_eq

open Tracked

theorem Tracked.framed_invariant (holds : state.Invariant)
    (waitEq : state.queue.waitList = init ++ [entry]) : (state.framed init entry).Invariant := by
  have waiting := holds.tracks.waiting
  rw [waitEq] at waiting
  obtain ⟨transferInit, newest, unfinishedEq, initWaiting, waits⟩ := forall₂_concat waiting
  obtain ⟨before, after, split, beforeEq, afterEq, _, modified⟩ := modifyLast_split unfinishedEq
  have transfersEq : state.ledger.frame.transfers =
      before ++ { newest with framed := true } :: after := modified _
  have framedWellFormed :
      ({ entry with framed := true } : ZeroCopyEntry Data Context Callback).WellFormed :=
    holds.wellFormed entry (by simp [waitEq])
  have newestOpen : newest.finished state.ledger.reported = false :=
    (mem_unfinished.mp (by simp [unfinishedEq])).2
  have completeEq := waits.frame.complete_eq framedWellFormed
  have initWellFormed : ∀ other ∈ init, other.WellFormed := fun other mem =>
    holds.wellFormed other (by simp [waitEq, mem])
  have unfinishedFrame : state.ledger.frame.unfinished = transferInit ++
      filter (fun transfer => !transfer.finished state.ledger.reported)
        [{ newest with framed := true }] := by
    show filter (fun transfer => !transfer.finished state.ledger.reported)
      state.ledger.frame.transfers = _
    rw [transfersEq, ← singleton_append, filter_append, filter_append, beforeEq,
      afterEq, append_nil]
  have dueEq : state.ledger.due =
      (before.filter (Transfer.finished state.ledger.reported)).filterMap Transfer.notification ++
      (after.filter (Transfer.finished state.ledger.reported)).filterMap Transfer.notification := by
    unfold due
    rw [split, filter_append, filter_cons_of_neg (by rw [newestOpen]; exact Bool.false_ne_true),
      filterMap_append]
  have dueFrame : state.ledger.frame.due =
      (before.filter (Transfer.finished state.ledger.reported)).filterMap Transfer.notification ++
      ((filter (Transfer.finished state.ledger.reported)
          [{ newest with framed := true }]).filterMap Transfer.notification ++
        (after.filter (Transfer.finished state.ledger.reported)).filterMap
          Transfer.notification) := by
    show filterMap _ (filter (Transfer.finished state.ledger.reported)
      state.ledger.frame.transfers) = _
    rw [transfersEq, ← singleton_append, filter_append, filter_append,
      filterMap_append, filterMap_append]
  by_cases complete :
      ({ entry with framed := true } : ZeroCopyEntry Data Context Callback).complete = true
  · have finished := completeEq ▸ complete
    have stateEq : state.framed init entry = ⟨{ state.queue with
          doneList := state.queue.doneList ++ [{ entry with framed := true }]
          waitList := init }, state.ledger.frame⟩ := if_pos complete
    rw [stateEq]
    refine frame_frame holds (.of_done ?_ ?_) rfl rfl initWellFormed split transfersEq
    · show Forall₂ (Waits state.ledger.reported) init state.ledger.frame.unfinished
      rw [unfinishedFrame, filter_cons_of_neg (by simp [finished]), filter_nil, append_nil]
      exact initWaiting
    · show (state.ledger.popped ++ filterMap _ (state.queue.doneList ++ [_])).Perm
        state.ledger.frame.due
      have done := holds.tracks.done
      rw [dueEq] at done
      rw [dueFrame, filter_cons_of_pos finished, filter_nil, filterMap_append, ← append_assoc]
      refine (done.append_right _).trans ?_
      rw [append_assoc]
      refine Perm.append_left _ ?_
      have sameNotification : filterMap notification
          [({ entry with framed := true } : ZeroCopyEntry Data Context Callback)] =
          filterMap Transfer.notification [{ newest with framed := true }] := by
        rw [filterMap_cons, filterMap_cons, waits.frame.notification, filterMap_nil, filterMap_nil]
      rw [sameNotification]
      exact perm_append_comm
  · have unfinished := completeEq ▸ complete
    have stateEq : state.framed init entry =
        ⟨{ state.queue with waitList := init ++ [{ entry with framed := true }] },
          state.ledger.frame⟩ := if_neg complete
    rw [stateEq]
    refine frame_frame holds (.of_done ?_ ?_) rfl rfl ?_ split transfersEq
    · show Forall₂ (Waits state.ledger.reported) (init ++ [_]) state.ledger.frame.unfinished
      rw [unfinishedFrame, filter_cons_of_pos (by simp [unfinished]), filter_nil]
      exact forall₂_append initWaiting (cons waits.frame .nil)
    · show (state.ledger.popped ++ filterMap _ state.queue.doneList).Perm state.ledger.frame.due
      rw [dueFrame, filter_cons_of_neg (by simp [unfinished]), filter_nil,
        filterMap_nil, nil_append, ← dueEq]
      exact holds.tracks.done
    · intro other mem
      rcases mem_append.mp mem with earlier | isNewest
      · exact initWellFormed other earlier
      · exact (mem_singleton.mp isNewest) ▸ framedWellFormed

variable {zeroCopy : ZeroCopy}

/-- A report in the first generation that does not wrap is widened to itself. -/
theorem ZeroCopyCounterGenerator.update_first_generation {gen : ZeroCopyCounterGenerator}
    (generation : gen.generation = 0) (bias : gen.bias = 0)
    (order : zeroCopy.first ≤ zeroCopy.thru) :
    (gen.update zeroCopy).1 = ⟨zeroCopy.first, zeroCopy.thru + 1⟩ ∧
      (gen.update zeroCopy).2.next = gen.next ∧
      ((gen.update zeroCopy).2.generation = 0 -> (gen.update zeroCopy).2.bias = 0) := by
  have thruLe := zeroCopy.thru_le
  simp only [uint32Max] at thruLe
  have firstMod : (0 + zeroCopy.first) % uint64Modulus = zeroCopy.first := by
    simp only [uint64Modulus]
    omega
  have thruMod : (0 + zeroCopy.thru + 1) % uint64Modulus = zeroCopy.thru + 1 := by
    simp only [uint64Modulus]
    omega
  have offset : (gen.bias + gen.generation) % uint64Modulus = 0 := by
    rw [generation, bias]
    rfl
  have updated : gen.update zeroCopy = (⟨zeroCopy.first, zeroCopy.thru + 1⟩,
        if zeroCopy.thru = uint32Max then gen.bump else gen) := by
    unfold ZeroCopyCounterGenerator.update
    rw [if_neg (Nat.not_lt.mpr order), offset, firstMod, thruMod]
  rw [updated]
  split
  · refine ⟨rfl, gen.bump_next, ?_⟩
    intro isZero
    have bumped : gen.bump.generation = (gen.generation + 1) % uint64Modulus := rfl
    rw [bumped, generation] at isZero
    contradiction
  · exact ⟨rfl, rfl, fun _ => bias⟩

theorem Waits.matchCompleted (waits : Waits reported entry transfer)
    (wellFormed : entry.WellFormed) (order : zeroCopy.first ≤ zeroCopy.thru) :
    (entry.matchCompleted ⟨zeroCopy.first, zeroCopy.thru + 1⟩).WellFormed ∧
      Waits (reported ++ zeroCopy.reported)
        (entry.matchCompleted ⟨zeroCopy.first, zeroCopy.thru + 1⟩) transfer := by
  have header := matchCompleted_header entry ⟨zeroCopy.first, zeroCopy.thru + 1⟩
  obtain ⟨matchedWellFormed, requires⟩ := matchCompleted_spec wellFormed
    (show ZeroCopyRange.Proper ⟨zeroCopy.first, zeroCopy.thru + 1⟩ from Nat.lt_succ_of_le order)
  refine ⟨matchedWellFormed, header.group.trans waits.group, header.framed.trans waits.framed,
    ?_, ?_⟩
  · rw [ZeroCopyEntry.notification, header.callback, header.context]
    exact waits.notification
  · intro _
    rw [requires, waits.requires, mem_append, not_or, ZeroCopy.mem_reported, and_assoc]
    unfold ZeroCopyRange.Contains
    rw [Nat.lt_succ_iff]

theorem Transfer.finished_mono {reported more : List Nat}
    (finished : transfer.finished reported = true) :
    transfer.finished (reported ++ more) = true := by
  rw [Transfer.finished_iff] at finished ⊢
  exact ⟨finished.1, fun counter mem => mem_append_left _ (finished.2 counter mem)⟩

theorem Tracked.update_invariant (holds : state.Invariant)
    (generation : state.queue.generator.generation = 0) (order : zeroCopy.first ≤ zeroCopy.thru)
    (issued : ∀ counter ∈ zeroCopy.reported, counter ∈ state.ledger.issued) :
    (⟨state.queue.update zeroCopy,
      { state.ledger with reported := state.ledger.reported ++ zeroCopy.reported }⟩ :
        Tracked Data Context Callback).Invariant := by
  obtain ⟨rangeEq, nextEq, biasEq⟩ := ZeroCopyCounterGenerator.update_first_generation generation
    (holds.bias_eq generation) order
  have proper : ZeroCopyRange.Proper ⟨zeroCopy.first, zeroCopy.thru + 1⟩ := Nat.lt_succ_of_le order
  have loopEq := updateLoop_eq proper holds.ordered
  have updated : state.queue.update zeroCopy =
      { generator := (state.queue.generator.update zeroCopy).2
        waitList := (state.queue.waitList.map
          (·.matchCompleted ⟨zeroCopy.first, zeroCopy.thru + 1⟩)).filter fun entry =>
            !entry.complete
        doneList := state.queue.doneList ++ ((state.queue.waitList.map
          (·.matchCompleted ⟨zeroCopy.first, zeroCopy.thru + 1⟩)).filter fun entry =>
            entry.complete).filter fun entry => entry.callback.isSome } := by
    unfold update
    dsimp only
    rw [rangeEq, loopEq]
  have matched : Forall₂ (fun entry transfer => entry.WellFormed ∧
        Waits (state.ledger.reported ++ zeroCopy.reported) entry transfer)
      (state.queue.waitList.map (·.matchCompleted ⟨zeroCopy.first, zeroCopy.thru + 1⟩))
      state.ledger.unfinished := by
    rw [forall₂_map_left_iff]
    have both := (forall₂_and_left _ _).mpr ⟨holds.wellFormed, holds.tracks.waiting⟩
    exact both.imp fun _ _ related => related.2.matchCompleted related.1 order
  have agree : ∀ (entry : ZeroCopyEntry Data Context Callback) transfer, (entry.WellFormed ∧
      Waits (state.ledger.reported ++ zeroCopy.reported) entry transfer) ->
      entry.complete = transfer.finished (state.ledger.reported ++ zeroCopy.reported) :=
    fun _ _ related => related.2.complete_eq related.1
  have kept := rel_filter (p := fun entry => !entry.complete)
    (q := fun transfer => !transfer.finished (state.ledger.reported ++ zeroCopy.reported))
    (fun entry transfer related => by simp only [agree entry transfer related]) matched
  have finished := rel_filter (p := fun entry => entry.complete)
    (q := fun transfer => transfer.finished (state.ledger.reported ++ zeroCopy.reported))
    (fun entry transfer related => by simp only [agree entry transfer related]) matched
  have unfinishedEq : ({ state.ledger with
      reported := state.ledger.reported ++ zeroCopy.reported } : Ledger _ _).unfinished =
      state.ledger.unfinished.filter fun transfer =>
        !transfer.finished (state.ledger.reported ++ zeroCopy.reported) := by
    unfold unfinished
    rw [filter_filter]
    apply filter_congr
    intro transfer _
    cases before : transfer.finished state.ledger.reported with
    | false => simp
    | true => rw [Transfer.finished_mono before]; rfl
  have notified : (((state.queue.waitList.map
      (·.matchCompleted ⟨zeroCopy.first, zeroCopy.thru + 1⟩)).filter fun entry =>
        entry.complete).filter fun entry => entry.callback.isSome).filterMap notification =
      (state.ledger.unfinished.filter fun transfer =>
        transfer.finished (state.ledger.reported ++ zeroCopy.reported)).filterMap
          Transfer.notification := by
    rw [← filterMap_eq_of_forall₂ finished (f := notification)
      (fun _ _ related => related.2.notification), filterMap_filter]
    apply filterMap_congr
    intro entry _
    cases callback : entry.callback with
    | none => simp [notification, callback]
    | some => rfl
  rw [updated]
  constructor
  case tracks =>
    refine .of_done ?_ ?_
    · rw [unfinishedEq]
      exact kept.imp fun _ _ related => related.2
    · have grown : (state.ledger.transfers.filter
          (Transfer.finished (state.ledger.reported ++ zeroCopy.reported))).Perm _ :=
        filter_perm_of_imp state.ledger.transfers
          (fun _ _ (earlier : Transfer.finished state.ledger.reported _ = true) =>
            Transfer.finished_mono earlier)
      have dueGrown := grown.filterMap Transfer.notification
      rw [filterMap_append] at dueGrown
      refine Perm.trans ?_ dueGrown.symm
      rw [filterMap_append, notified, ← append_assoc]
      exact holds.tracks.done.append_right _
  case wellFormed =>
    intro _ mem
    obtain ⟨_, _, related⟩ := related_of_mem kept mem
    exact related.1
  case issued_eq =>
    rw [nextEq]
    exact holds.issued_eq
  case owned => exact holds.owned
  case nonempty => exact holds.nonempty
  case reported_lt =>
    intro counter mem
    rw [nextEq]
    rcases mem_append.mp mem with earlier | newest
    · exact holds.reported_lt counter earlier
    · have inRange := issued counter newest
      rw [holds.issued_eq] at inRange
      exact mem_range.mp inRange
  case next_le =>
    rw [nextEq]
    exact holds.next_le
  case bias_eq => exact biasEq

variable {next : ZeroCopyQueue Data Context Callback} {group : Nat}

theorem ZeroCopyQueue.extend_cases {queue : ZeroCopyQueue Data Context Callback}
    (taken : queue.extend group = some (counter, next)) :
    ∃ init entry, queue.waitList = init ++ [entry] ∧ counter = queue.generator.next ∧
      next = { queue with
        generator := queue.generator.issue.2
        waitList := init ++
          [entry.setMaxCounter ((queue.generator.next + 1) % uint64Modulus)] } := by
  unfold extend at taken
  split at taken
  · rename_i entry isLast
    obtain ⟨init, waitEq⟩ := getLast?_eq_some_iff.mp isLast
    split at taken
    · obtain ⟨counterEq, nextEq⟩ := Prod.mk.inj (Option.some.inj taken)
      refine ⟨init, entry, waitEq, counterEq.symm, ?_⟩
      rw [← nextEq, waitEq, dropLast_concat]
      rfl
    · contradiction
  · contradiction

theorem ZeroCopyQueue.frame_cases (taken : state.queue.frame group = some next) :
    ∃ init entry, state.queue.waitList = init ++ [entry] ∧
      (⟨next, state.ledger.frame⟩ : Tracked Data Context Callback) = state.framed init entry := by
  unfold frame at taken
  split at taken
  · rename_i entry isLast
    obtain ⟨init, waitEq⟩ := getLast?_eq_some_iff.mp isLast
    refine ⟨init, entry, waitEq, ?_⟩
    unfold Tracked.framed
    rw [waitEq, dropLast_concat] at taken
    split at taken
    · dsimp only at taken
      split at taken
      · rename_i complete
        rw [if_pos complete, ← Option.some.inj taken]
      · rename_i incomplete
        rw [if_neg incomplete, ← Option.some.inj taken]
    · contradiction
  · contradiction

section

variable (state : Tracked Data Context Callback) (action : QueueAction Data Context Callback)
  (next : Tracked Data Context Callback) (holds : state.Invariant)
include holds

theorem Tracked.step_invariant (pending : state.ExtendsPending action)
    (taken : state.step action = some next) : next.Invariant := by
  cases action with
  | push group data context callback =>
    simp only [step] at taken
    split at taken
    · rename_i small
      unfold push at taken
      by_cases allowed : state.queue.waitList.head?.all (fun front => front.group < group) = true
      · rw [if_pos allowed] at taken
        cases taken
        exact push_invariant holds small group data context callback
      · rw [if_neg allowed] at taken
        contradiction
    · contradiction
  | extend group =>
    simp only [step] at taken
    split at taken
    · rename_i small
      split at taken
      · rename_i counter queue extended
        obtain ⟨init, entry, waitEq, counterEq, queueEq⟩ := extend_cases extended
        rw [← Option.some.inj taken, counterEq, queueEq]
        exact extended_invariant holds small waitEq pending
      · contradiction
    · contradiction
  | frame =>
    simp only [step] at taken
    split at taken
    · rename_i _ framed
      obtain ⟨_, _, waitEq, nextEq⟩ := frame_cases framed
      rw [← Option.some.inj taken, nextEq]
      exact framed_invariant holds waitEq
    · contradiction
  | update =>
    obtain ⟨guard, rfl⟩ := Run.guarded taken
    exact update_invariant holds guard.1 guard.2.1 (fun counter mem => (guard.2.2 counter mem).1)
  | pop =>
    cases taken
    exact pop_invariant holds

theorem Tracked.step_detects (taken : state.step action = some next) (agrees : next.Tracks) :
    state.ExtendsPending action := by
  cases action with
  | extend =>
    simp only [step] at taken
    split at taken
    · rename_i small
      split at taken
      · rename_i _ _ extended
        obtain ⟨_, _, waitEq, counterEq, queueEq⟩ := extend_cases extended
        rw [← Option.some.inj taken, counterEq, queueEq] at agrees
        exact extended_detects holds small waitEq agrees
      · contradiction
    · contradiction
  | push _ _ _ _ | frame _ | update _ | pop => trivial

end

/-- A run of the queue keeps its entries in agreement with the ledger exactly
when no entry is extended after the report of the counter issued last. -/
theorem queue_tracks_iff (actions : List (QueueAction Data Context Callback)) :
    Run.Always Tracked.step Tracked.Tracks {} actions ↔
      Run.Along Tracked.step Tracked.ExtendsPending {} actions :=
  Run.always_iff_along (fun _ holds => holds.tracks) step_invariant step_detects start_invariant

/-- The first system call of a send is reported complete before its second one
is made: the entry then requires the reported counter again, and stays in the
wait list when both have been reported and it is framed. -/
theorem queue_loses_callback : ¬ Run.Always Tracked.step Tracked.Tracks ({} : Tracked Unit Unit Nat)
      [.push 1 () none (some 7), .update ⟨0, 0, by decide, by decide⟩, .extend 1, .frame 1,
        .update ⟨1, 1, by decide, by decide⟩, .pop] := by
  intro always
  have final := (Run.always_iff _ _).mp always _ [] _ (append_nil _) rfl
  have length := final.waiting.length_eq
  contradiction

end NtfCore.Ntcq
