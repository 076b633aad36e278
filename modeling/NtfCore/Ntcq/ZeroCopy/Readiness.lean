import NtfCore.Ntcq.ZeroCopy.Custody

/-!
Contract: whether a zero-copy queue says truly that there is a callback to pop.

Entries come into the done list from `update`, which leaves out those without a callback, and
from `frame`, which does not. `pop` passes over them.

Owns: `ready` and the three overloads of `clear`; runs of all calls on a queue, with any
groups, counters and reports; and the exact condition under which `ready` tells, in every
state of a run and after any number of pops, whether `pop` delivers a callback.
-/

namespace NtfCore.Ntcq

open NtfCore.Foundation List Option ZeroCopyQueue

variable {Data Context Callback : Type}

namespace ZeroCopyQueue

/-- `ZeroCopyQueue::ready`. -/
def ready (queue : ZeroCopyQueue Data Context Callback) : Bool := !queue.doneList.isEmpty

/-- `ZeroCopyQueue::clear()`. -/
def clear (queue : ZeroCopyQueue Data Context Callback) : ZeroCopyQueue Data Context Callback :=
  { queue with waitList := [], doneList := [] }

/-- `ZeroCopyQueue::clear`, with the callbacks loaded into a vector. -/
def clearCallbacks (queue : ZeroCopyQueue Data Context Callback) :
    List Callback × ZeroCopyQueue Data Context Callback :=
  (callbacksOf queue.doneList ++ callbacksOf queue.waitList, queue.clear)

/-- `ZeroCopyQueue::clear`, with the entries that have a callback loaded into a vector. -/
def clearEntries (queue : ZeroCopyQueue Data Context Callback) :
    List (ZeroCopyEntry Data Context Callback) × ZeroCopyQueue Data Context Callback :=
  (queue.doneList.filter (fun entry => entry.callback.isSome) ++
    queue.waitList.filter (fun entry => entry.callback.isSome), queue.clear)

inductive Call (Data Context Callback : Type) where
  | push (group : Nat) (data : Data) (context : Option Context) (callback : Option Callback)
  | extend (group : Nat)
  | frame (group : Nat)
  | update (zeroCopy : ZeroCopy)
  | pop
  | clear
  | clearCallbacks
  | clearEntries

def step (queue : ZeroCopyQueue Data Context Callback) :
    Call Data Context Callback -> Option (ZeroCopyQueue Data Context Callback)
  | .push group data context callback => (queue.push group data context callback).map Prod.snd
  | .extend group => (queue.extend group).map Prod.snd
  | .frame group => queue.frame group
  | .update zeroCopy => some (queue.update zeroCopy)
  | .pop => some queue.pop.2
  | .clear => some queue.clear
  | .clearCallbacks => some queue.clearCallbacks.2
  | .clearEntries => some queue.clearEntries.2

def popTimes (queue : ZeroCopyQueue Data Context Callback) :
    Nat -> ZeroCopyQueue Data Context Callback
  | 0 => queue
  | count + 1 => queue.pop.2.popTimes count

/-- `ready` tells whether `pop` delivers a callback, now and after any number of pops. -/
def Truthful (queue : ZeroCopyQueue Data Context Callback) : Prop :=
  ∀ count, (queue.popTimes count).ready = true ↔ (queue.popTimes count).pop.1.isSome = true

/-- An entry that `frame` finds complete has a callback. -/
def FramesNotified (queue : ZeroCopyQueue Data Context Callback) : Call Data Context Callback -> Prop
  | .frame _ => ∀ entry ∈ queue.waitList.getLast?,
      ({ entry with framed := true } : ZeroCopyEntry Data Context Callback).complete = true ->
        entry.callback.isSome = true
  | _ => True

def Notifies (queue : ZeroCopyQueue Data Context Callback) : Prop :=
  ∀ entry ∈ queue.doneList, entry.callback.isSome = true

theorem updateLoop_notifies (range : ZeroCopyRange)
    (entries : List (ZeroCopyEntry Data Context Callback)) :
    ∀ entry ∈ (updateLoop range entries).2, entry.callback.isSome = true := by
  induction entries with
  | nil => exact forall_mem_nil _
  | cons _ _ ih =>
    rw [updateLoop]
    split
    · exact by simp
    · dsimp only
      split
      · split
        · rename_i isSome
          intro entry mem
          rcases mem_cons.mp mem with isFront | inRest
          · rw [isFront]
            exact isSome
          · exact ih entry inRest
        · exact ih
      · exact ih

theorem popLoop_subset (entries : List (ZeroCopyEntry Data Context Callback)) :
    ∀ entry ∈ (popLoop entries).2, entry ∈ entries := by
  induction entries with
  | nil => exact fun _ mem => mem
  | cons front _ ih =>
    rw [popLoop]
    split
    · exact fun entry mem => mem_cons_of_mem front mem
    · exact fun entry mem => mem_cons_of_mem front (ih entry mem)

variable {queue next : ZeroCopyQueue Data Context Callback}

theorem frame_doneList {group : Nat} (taken : queue.frame group = some next) :
    ∃ entry, queue.waitList.getLast? = some entry ∧
      next.doneList = if ({ entry with framed := true } :
          ZeroCopyEntry Data Context Callback).complete = true
        then queue.doneList ++ [{ entry with framed := true }] else queue.doneList := by
  unfold frame at taken
  split at taken
  · rename_i entry isLast
    split at taken
    · dsimp only at taken
      refine ⟨entry, isLast, ?_⟩
      split at taken
      · rename_i complete
        rw [if_pos complete, ← some.inj taken]
      · rename_i incomplete
        rw [if_neg incomplete, ← some.inj taken]
    · contradiction
  · contradiction

theorem push_doneList {group number : Nat} {data : Data} {context : Option Context}
    {callback : Option Callback}
    (taken : queue.push group data context callback = some (number, next)) :
    next.doneList = queue.doneList := by
  unfold push at taken
  split at taken
  · cases taken
    rfl
  · contradiction

theorem extend_doneList {group number : Nat} (taken : queue.extend group = some (number, next)) :
    next.doneList = queue.doneList := by
  unfold extend at taken
  split at taken
  · split at taken
    · cases taken
      rfl
    · contradiction
  · contradiction

variable {call : Call Data Context Callback}

theorem step_notifies (notifies : queue.Notifies)
    (framesNotified : queue.FramesNotified call) (taken : queue.step call = some next) :
    next.Notifies := by
  cases call with
  | push group =>
    obtain ⟨⟨number, _⟩, pushed, isNext⟩ := map_eq_some_iff.mp taken
    unfold Notifies
    rw [← isNext, push_doneList pushed]
    exact notifies
  | extend group =>
    obtain ⟨⟨_, _⟩, extended, isNext⟩ := map_eq_some_iff.mp taken
    unfold Notifies
    rw [← isNext, extend_doneList extended]
    exact notifies
  | frame =>
    obtain ⟨entry, isLast, doneEq⟩ := frame_doneList taken
    unfold Notifies
    rw [doneEq]
    split
    · rename_i complete
      intro done mem
      rcases mem_append.mp mem with earlier | isFramed
      · exact notifies done earlier
      · rw [mem_singleton.mp isFramed]
        exact framesNotified entry isLast complete
    · exact notifies
  | update =>
    cases taken
    intro entry mem
    rcases mem_append.mp mem with earlier | isDone
    · exact notifies entry earlier
    · exact updateLoop_notifies _ _ entry isDone
  | pop =>
    cases taken
    exact fun entry mem => notifies entry (popLoop_subset queue.doneList entry mem)
  | clear | clearCallbacks | clearEntries =>
    cases taken
    exact forall_mem_nil _

theorem pop_of_cons {front : ZeroCopyEntry Data Context Callback}
    {rest : List (ZeroCopyEntry Data Context Callback)} (isDone : queue.doneList = front :: rest)
    (isSome : front.callback.isSome = true) :
    queue.pop.1.isSome = true ∧ queue.pop.2.doneList = rest := by
  obtain ⟨_, isCallback⟩ := isSome_iff_exists.mp isSome
  simp [pop, isDone, popLoop, isCallback]

theorem Notifies.faithful (notifies : queue.Notifies) :
    queue.ready = true ↔ queue.pop.1.isSome = true := by
  cases isDone : queue.doneList with
  | nil => simp [ready, pop, popLoop, isDone]
  | cons front =>
    have popped := (pop_of_cons isDone (notifies front (by simp [isDone]))).1
    simp [ready, isDone, popped]

theorem Notifies.truthful (notifies : queue.Notifies) : queue.Truthful := by
  intro count
  induction count generalizing queue with
  | zero => exact notifies.faithful
  | succ _ ih =>
    have popped : queue.pop.2.Notifies :=
      fun entry mem => notifies entry (popLoop_subset queue.doneList entry mem)
    exact ih popped

/-- Behind entries with a callback, one without is the only one left in the end: `ready` is
true then, and `pop` delivers nothing. -/
theorem not_truthful {entries : List (ZeroCopyEntry Data Context Callback)}
    {last : ZeroCopyEntry Data Context Callback} (isDone : queue.doneList = entries ++ [last])
    (notified : ∀ entry ∈ entries, entry.callback.isSome = true)
    (silent : last.callback.isSome = false) : ¬ queue.Truthful := by
  induction entries generalizing queue with
  | nil =>
    intro truthful
    have popped := (truthful 0).mp (by simp [popTimes, ready, isDone])
    rw [isSome_eq_false_iff, isNone_iff_eq_none] at silent
    simp [popTimes, pop, popLoop, isDone, silent] at popped
  | cons front _ ih =>
    have popped := (pop_of_cons isDone (notified front (by simp))).2
    intro truthful
    exact ih popped (fun entry mem => notified entry (by simp [mem]))
      fun count => truthful (count + 1)

theorem step_detects_frame (notifies : queue.Notifies)
    (taken : queue.step call = some next) (truthful : next.Truthful) :
    queue.FramesNotified call := by
  cases call with
  | frame =>
    obtain ⟨entry, isLast, doneEq⟩ := frame_doneList taken
    intro found isFound complete
    rw [isLast, mem_some_iff] at isFound
    rw [← isFound] at complete ⊢
    rw [if_pos complete] at doneEq
    cases silent : entry.callback.isSome with
    | true => rfl
    | false => exact absurd truthful (not_truthful doneEq notifies silent)
  | push | extend | update | pop | clear | clearCallbacks | clearEntries => trivial

end ZeroCopyQueue

/-- In every run of a queue, `ready` is true if and only if `pop` delivers a callback, now and
after any number of pops, if and only if no frame completes an entry without a callback. -/
theorem ready_iff_pop (generator : ZeroCopyCounterGenerator)
    (calls : List (ZeroCopyQueue.Call Data Context Callback)) :
    Run.Always ZeroCopyQueue.step ZeroCopyQueue.Truthful { generator := generator } calls ↔
      Run.Along step FramesNotified { generator := generator } calls :=
  Run.always_iff_along (fun _ notifies => Notifies.truthful notifies)
    (fun _ _ _ notifies framesNotified taken =>
      step_notifies notifies framesNotified taken)
    (fun _ _ _ notifies taken truthful =>
      step_detects_frame notifies taken truthful)
    (fun _ mem => absurd mem not_mem_nil)

/-- A send without a callback whose only system call is reported before it is framed. -/
theorem ready_without_callback : ¬ (∀ calls : List (ZeroCopyQueue.Call Unit Unit Nat),
        Run.Always ZeroCopyQueue.step
          (fun queue => queue.ready = true ↔ queue.pop.1.isSome = true) {} calls) ∧
      (Run.run ZeroCopyQueue.step ({} : ZeroCopyQueue Unit Unit Nat)
        [.push 1 () none none, .update ⟨0, 0, by decide, by decide⟩, .frame 1]).map
          (fun queue => (queue.ready, queue.pop.1.isSome)) = some (true, false) := by
  constructor
  · intro always
    have final := (Run.always_iff _ _).mp (always
      [.push 1 () none none, .update ⟨0, 0, by decide, by decide⟩, .frame 1]) _ [] _
        (append_nil _) rfl
    exact absurd (final.mp (by decide)) (by decide)
  · decide

end NtfCore.Ntcq
