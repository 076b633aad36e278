import NtfCore.Ntcq.ZeroCopy.Entry
import NtfCore.Ntcq.ZeroCopy.Generator

/-!
Contract: the queue of zero-copy sends (`ntcq::ZeroCopyQueue`).

Owns: the wait list, the done list, and `push`, `push` of a group, `frame`,
`update` and `pop` as `ntcq_zerocopy.cpp` computes them. An assertion of the
source that fails is `none`. The six overloads of `push` that append an entry
differ in how the data container is made, and are one definition.
-/

namespace NtfCore.Ntcq

open List

variable {Data Context Callback : Type}

/-- `ntcq::ZeroCopyQueue`. -/
structure ZeroCopyQueue (Data Context Callback : Type) where
  generator : ZeroCopyCounterGenerator := {}
  waitList : List (ZeroCopyEntry Data Context Callback) := []
  doneList : List (ZeroCopyEntry Data Context Callback) := []

/-- The entry made by `ZeroCopyQueue::push` for a counter: the context is set
only with a callback. -/
def ZeroCopyEntry.create (group : Nat) (data : Data) (context : Option Context)
    (callback : Option Callback) (counter : Nat) : ZeroCopyEntry Data Context Callback :=
  let blank : ZeroCopyEntry Data Context Callback := { group := group }
  let entry := (blank.setMinCounter counter).setMaxCounter ((counter + 1) % uint64Modulus)
  let withData := { entry with data := some data }
  if callback.isSome then { withData with context := context, callback := callback } else withData

namespace ZeroCopyQueue

/-- `ZeroCopyQueue::push(group, data, context, callback)`. -/
def push (queue : ZeroCopyQueue Data Context Callback) (group : Nat) (data : Data)
    (context : Option Context) (callback : Option Callback) :
    Option (Nat × ZeroCopyQueue Data Context Callback) :=
  if queue.waitList.head?.all (fun front => front.group < group) then
    let (counter, generator) := queue.generator.issue
    some (counter,
      { queue with
        generator := generator
        waitList := queue.waitList ++
          [ZeroCopyEntry.create group data context callback counter] })
  else none

/-- `ZeroCopyQueue::push(group)`. -/
def extend (queue : ZeroCopyQueue Data Context Callback) (group : Nat) :
    Option (Nat × ZeroCopyQueue Data Context Callback) :=
  match queue.waitList.getLast? with
  | some entry =>
    if entry.group = group then
      let (counter, generator) := queue.generator.issue
      some (counter,
        { queue with
          generator := generator
          waitList := queue.waitList.dropLast ++
            [entry.setMaxCounter ((counter + 1) % uint64Modulus)] })
    else none
  | none => none

/-- `ZeroCopyQueue::frame`. -/
def frame (queue : ZeroCopyQueue Data Context Callback) (group : Nat) :
    Option (ZeroCopyQueue Data Context Callback) :=
  match queue.waitList.getLast? with
  | some entry =>
    if entry.group = group then
      let framed := { entry with framed := true }
      if framed.complete then
        some { queue with
          doneList := queue.doneList ++ [framed]
          waitList := queue.waitList.dropLast }
      else
        some { queue with waitList := queue.waitList.dropLast ++ [framed] }
    else none
  | none => none

/-- The loop of `ZeroCopyQueue::update` from the current entry on: the entries
that stay in the wait list, and those appended to the done list. -/
def updateLoop (range : ZeroCopyRange) : List (ZeroCopyEntry Data Context Callback) ->
    List (ZeroCopyEntry Data Context Callback) × List (ZeroCopyEntry Data Context Callback)
  | [] => ([], [])
  | entry :: rest =>
    if range.maxCounter < entry.minCounter then
      (entry :: rest, [])
    else
      let matched := entry.matchCompleted range
      let (remaining, done) := updateLoop range rest
      if matched.complete then
        (remaining, if matched.callback.isSome then matched :: done else done)
      else
        (matched :: remaining, done)

/-- `ZeroCopyQueue::update`. -/
def update (queue : ZeroCopyQueue Data Context Callback) (zeroCopy : ZeroCopy) :
    ZeroCopyQueue Data Context Callback :=
  let (range, generator) := queue.generator.update zeroCopy
  let (remaining, done) := updateLoop range queue.waitList
  { generator := generator
    waitList := remaining
    doneList := queue.doneList ++ done }

/-- The loop of `ZeroCopyQueue::pop`: the first entry with a callback, and the
done list after it. -/
def popLoop : List (ZeroCopyEntry Data Context Callback) ->
    Option (Option Context × Callback) × List (ZeroCopyEntry Data Context Callback)
  | [] => (none, [])
  | entry :: rest =>
    match entry.callback with
    | some callback => (some (entry.context, callback), rest)
    | none => popLoop rest

/-- `ZeroCopyQueue::pop`: what is loaded into the arguments when the result is
true, and the queue afterwards. -/
def pop (queue : ZeroCopyQueue Data Context Callback) :
    Option (Option Context × Callback) × ZeroCopyQueue Data Context Callback :=
  let (popped, doneList) := popLoop queue.doneList
  (popped, { queue with doneList := doneList })

end ZeroCopyQueue

open ZeroCopyRange

def ZeroCopyEntry.notification (entry : ZeroCopyEntry Data Context Callback) :
    Option (Option Context × Callback) :=
  entry.callback.map fun callback => (entry.context, callback)

theorem ZeroCopyEntry.create_spec (group : Nat) (data : Data) (context : Option Context)
    (callback : Option Callback) {counter : Nat} (small : counter + 1 < uint64Modulus) :
    (create group data context callback counter).group = group ∧
      (create group data context callback counter).framed = false ∧
      (create group data context callback counter).rangeSet = [] ∧
      (create group data context callback counter).range = ⟨counter, counter + 1⟩ ∧
      (create group data context callback counter).notification =
        callback.map fun callback => (context, callback) := by
  have next : (counter + 1) % uint64Modulus = counter + 1 := Nat.mod_eq_of_lt small
  unfold create
  rw [next]
  cases callback with
  | none | some _ => exact ⟨rfl, rfl, rfl, rfl, rfl⟩

/-! ## The loop of update -/

namespace ZeroCopyEntry

variable {completed : ZeroCopyRange}

theorem flatMap_matchRange_of_disjoint (completedProper : completed.Proper)
    {ranges : List ZeroCopyRange} (proper : ∀ range ∈ ranges, range.Proper)
    (disjoint : ∀ range ∈ ranges, ∀ counter, range.Contains counter ->
      ¬ completed.Contains counter) : ranges.flatMap (matchRange completed) = ranges := by
  induction ranges with
  | nil => rfl
  | cons front _ ih =>
    have apart : (intersect front completed).empty = true :=
      (intersect_empty_iff (proper front (by simp)) completedProper).mpr (disjoint front (by simp))
    have frontKept : matchRange completed front = [front] := by
      unfold matchRange
      simp only [apart, ↓reduceIte]
    have restKept := ih (fun range mem => proper range (by simp [mem]))
      (fun range mem => disjoint range (by simp [mem]))
    rw [flatMap_cons, frontKept, restKept]
    rfl

/-- `match` leaves an entry as it is when none of its counters is completed. -/
theorem matchCompleted_of_disjoint {entry : ZeroCopyEntry Data Context Callback}
    (wellFormed : entry.WellFormed) (completedProper : completed.Proper)
    (disjoint : ∀ counter, entry.Requires counter -> ¬ completed.Contains counter) :
    entry.matchCompleted completed = entry := by
  obtain ⟨separated, rangeCases⟩ := wellFormed
  cases noSet : entry.rangeSet with
  | nil =>
    have apart : (intersect entry.range completed).empty = true := by
      rcases rangeCases with ⟨_, proper⟩ | isReset
      · rw [intersect_empty_iff proper completedProper]
        intro counter inside
        exact disjoint counter ((requires_of_nil noSet counter).mpr inside)
      · rw [isReset]
        exact intersect_reset completed
    unfold matchCompleted
    simp only [noSet, apart, ↓reduceIte]
  | cons =>
    have someSet : entry.rangeSet ≠ [] := by simp [noSet]
    have kept := flatMap_matchRange_of_disjoint completedProper separated.1
      (fun range mem counter inside =>
        disjoint counter ((requires_of_ne_nil someSet counter).mpr ⟨range, mem, inside⟩))
    rw [noSet] at kept
    unfold matchCompleted
    simp only [noSet, kept]
    rw [← noSet]

end ZeroCopyEntry

namespace ZeroCopyQueue

def Increasing (entries : List (ZeroCopyEntry Data Context Callback)) : Prop :=
  entries.Pairwise fun earlier later =>
    ∀ lesser greater, earlier.Requires lesser -> later.Requires greater -> lesser < greater

structure Ordered (entries : List (ZeroCopyEntry Data Context Callback)) : Prop where
  wellFormed : ∀ entry ∈ entries, entry.WellFormed
  incomplete : ∀ entry ∈ entries, entry.complete = false
  increasing : entries.Pairwise fun earlier later =>
    ∀ lesser greater, earlier.Requires lesser -> later.Requires greater -> lesser < greater

theorem Ordered.tail {front : ZeroCopyEntry Data Context Callback}
    {rest : List (ZeroCopyEntry Data Context Callback)} (ordered : Ordered (front :: rest)) :
    Ordered rest where
  wellFormed := fun entry mem => ordered.wellFormed entry (mem_cons_of_mem _ mem)
  incomplete := fun entry mem => ordered.incomplete entry (mem_cons_of_mem _ mem)
  increasing := ordered.increasing.of_cons

/-- An entry whose `minCounter` is positive requires it. -/
theorem requires_minCounter {entry : ZeroCopyEntry Data Context Callback}
    (wellFormed : entry.WellFormed) (pos : 0 < entry.minCounter) :
    entry.Requires entry.minCounter := by
  obtain ⟨separated, rangeCases⟩ := wellFormed
  cases noSet : entry.rangeSet with
  | nil =>
    rw [ZeroCopyEntry.requires_of_nil noSet]
    simp only [ZeroCopyEntry.minCounter, noSet] at pos ⊢
    rcases rangeCases with ⟨_, proper⟩ | isReset
    · exact ⟨.refl, proper⟩
    · simp [isReset, reset] at pos
  | cons front =>
    rw [ZeroCopyEntry.requires_of_ne_nil (by simp [noSet])]
    simp only [ZeroCopyEntry.minCounter, noSet]
    exact ⟨front, by simp, .refl, separated.1 front (by simp [noSet])⟩

variable {range : ZeroCopyRange} {entry : ZeroCopyEntry Data Context Callback}
  {rest entries : List (ZeroCopyEntry Data Context Callback)}

/-- From the first entry past a range on, no entry requires a counter of it. -/
theorem disjoint_of_past (wellFormed : ∀ other ∈ entry :: rest, other.WellFormed)
    (increasing : Increasing (entry :: rest)) (past : range.maxCounter < entry.minCounter) :
    ∀ other ∈ entry :: rest, ∀ counter, other.Requires counter -> ¬ range.Contains counter := by
  have required := requires_minCounter (wellFormed entry mem_cons_self) (Nat.zero_lt_of_lt past)
  intro other mem counter inside inRange
  have upper := inRange.2
  rcases mem_cons.mp mem with isFront | inRest
  · rw [isFront] at inside
    have lower := ZeroCopyEntry.minCounter_le (wellFormed entry mem_cons_self) inside
    omega
  · have above := rel_of_pairwise_cons increasing inRest _ _ required inside
    omega

/-- Leaving the loop at the first entry past the completed range loses nothing:
the loop matches every entry, and takes out those that became complete. -/
theorem updateLoop_eq (proper : range.Proper) (ordered : Ordered entries) :
    updateLoop range entries =
      (((entries.map (·.matchCompleted range)).filter fun entry => !entry.complete),
        ((entries.map (·.matchCompleted range)).filter fun entry => entry.complete).filter
          fun entry => entry.callback.isSome) := by
  induction entries with
  | nil => rfl
  | cons entry rest ih =>
    have tail := ih ordered.tail
    unfold updateLoop
    split
    · rename_i past
      have untouched : ∀ other ∈ entry :: rest, other.matchCompleted range = other :=
        fun other mem =>
          ZeroCopyEntry.matchCompleted_of_disjoint (ordered.wellFormed other mem) proper
            (disjoint_of_past ordered.wellFormed ordered.increasing past other mem)
      have same : (entry :: rest).map (·.matchCompleted range) = entry :: rest :=
        (map_congr_left untouched).trans (map_id' _)
      have allKept : (entry :: rest).filter (fun entry => !entry.complete) = entry :: rest := by
        rw [filter_eq_self]
        intro other mem
        simp [ordered.incomplete other mem]
      have noneDone : (entry :: rest).filter (fun entry => entry.complete) = [] := by
        rw [filter_eq_nil_iff]
        intro other mem
        simp [ordered.incomplete other mem]
      rw [same, allKept, noneDone]
      rfl
    · rw [tail]
      dsimp only
      rw [map_cons]
      by_cases finished : (entry.matchCompleted range).complete = true
      · rw [if_pos finished, filter_cons_of_neg (by simp [finished]),
          filter_cons_of_pos finished, filter_cons]
      · rw [if_neg finished, filter_cons_of_pos (by simp [finished]), filter_cons_of_neg finished]

theorem updateLoop_pending (wellFormed : ∀ entry ∈ entries, entry.WellFormed)
    (increasing : Increasing entries) : ∀ entry ∈ (updateLoop range entries).1,
      ∀ counter, entry.Requires counter -> ¬ range.Contains counter := by
  induction entries with
  | nil => simp [updateLoop]
  | cons front rest ih =>
    have inRest := ih (fun other mem => wellFormed other (mem_cons_of_mem _ mem)) increasing.of_cons
    unfold updateLoop
    split
    · rename_i past
      exact disjoint_of_past wellFormed increasing past
    · dsimp only
      split
      · exact inRest
      · refine forall_mem_cons.mpr ⟨?_, inRest⟩
        intro counter required inside
        have proper : range.Proper := Nat.lt_of_le_of_lt inside.1 inside.2
        have requires :=
          (ZeroCopyEntry.matchCompleted_spec (wellFormed front mem_cons_self) proper).2 counter
        exact (requires.mp required).2 inside

/-- A completion takes its counters from an entry, and nothing else, and the queue is left
with no entry that requires one of them. -/
theorem completed_exactly :
    (∀ (entry : ZeroCopyEntry Data Context Callback) (completed : ZeroCopyRange), entry.Pending ->
      (entry.matchCompleted completed).Pending ∧ (ZeroCopyEntry.Separated entry.rangeSet ->
          ZeroCopyEntry.Separated (entry.matchCompleted completed).rangeSet) ∧
        ∀ counter, (entry.matchCompleted completed).Requires counter ↔
          entry.Requires counter ∧ ¬ completed.Contains counter) ∧
      ∀ (queue : ZeroCopyQueue Data Context Callback) (zeroCopy : ZeroCopy),
        (∀ entry ∈ queue.waitList, entry.WellFormed) -> Increasing queue.waitList ->
        ∀ entry ∈ (queue.update zeroCopy).waitList, ∀ counter, entry.Requires counter ->
          ¬ (queue.generator.update zeroCopy).1.Contains counter :=
  ⟨fun _ completed pending => ZeroCopyEntry.matchCompleted_pending pending completed,
    fun _ _ wellFormed increasing => updateLoop_pending wellFormed increasing⟩

def splitEntry : ZeroCopyEntry Unit Unit Unit where
  rangeSet := [⟨0, 3⟩, ⟨5, 8⟩]
  range := ZeroCopyRange.reset

def splitQueue : ZeroCopyQueue Unit Unit Unit where
  waitList := [splitEntry, { range := ⟨8, 9⟩ }]

theorem splitEntry_separated : ZeroCopyEntry.Separated splitEntry.rangeSet := by
  simp [splitEntry, ZeroCopyEntry.Separated, ZeroCopyRange.Proper]

/-- Of an entry of two ranges the counters from the first one into the second are completed. -/
theorem completed_exactly_split : (∀ counter, (splitEntry.matchCompleted ⟨2, 6⟩).Requires counter ↔
      splitEntry.Requires counter ∧ ¬ ZeroCopyRange.Contains ⟨2, 6⟩ counter) ∧
    ∀ entry ∈ (splitQueue.update ⟨2, 5, by decide, by decide⟩).waitList, ∀ counter,
      entry.Requires counter -> ¬ ZeroCopyRange.Contains ⟨2, 6⟩ counter := by
  refine ⟨(completed_exactly.1 splitEntry ⟨2, 6⟩ ⟨splitEntry_separated.apart, .inr rfl⟩).2.2,
    completed_exactly.2 splitQueue ⟨2, 5, by decide, by decide⟩ ?_ ?_⟩
  · exact forall_mem_cons.mpr ⟨⟨splitEntry_separated, .inr rfl⟩,
      forall_mem_singleton.mpr ⟨ZeroCopyEntry.separated_nil, .inl ⟨rfl, by decide⟩⟩⟩
  · simp [splitQueue, splitEntry, Increasing, ZeroCopyEntry.Requires, ZeroCopyEntry.ranges,
      ZeroCopyRange.Contains]
    omega

end ZeroCopyQueue

end NtfCore.Ntcq
