import NtfCore.Ntcs.Chronology.Announcing
import NtfCore.Ntcs.SkipList.Refinement

/-!
Contract: a chronology whose deadline map is a skip list.

Owns: the calls that each section makes on `d_deadlineMap`, and the theorem that a skip
list to which they are made holds, in every state of every run, the pairs of the map in
their order, on which the loop of `announce` relies.
-/

namespace NtfCore.Ntcs

open NtfCore.Foundation List StableMap SkipList

namespace Chronology

/-- The call of the second section of `Timer::schedule`. -/
def scheduleCall (chronology : Chronology) (timer : Nat) (deadline : Int) (address level : Nat) :
    SkipList.Operation Int Nat :=
  match (chronology.timers timer).handle with
  | some handle => .updateR (some handle) deadline
  | none =>
    if deadline = 0 then .addL address level deadline timer
    else .addR address level deadline timer

/-- The call of the second section of `Timer::cancel` and of `Timer::close`. -/
def detachCalls (chronology : Chronology) (timer : Nat) : List (SkipList.Operation Int Nat) :=
  match (chronology.timers timer).handle with
  | some handle => [.remove (some handle)]
  | none => []

/-- The call of one round of the loop of `announce`. -/
def collectCall (now : Int) (backoff : Nat -> Int -> Int) (collecting : Collecting)
    (current : StableEntry Nat Int Nat) : SkipList.Operation Int Nat :=
  let value := collecting.chronology.timers current.data
  if value.period ≠ 0 then .updateR value.handle (nextDeadline now backoff collecting current)
  else .remove value.handle

def loopCalls (now : Int) (backoff : Nat -> Int -> Int) :
    Nat -> Collecting -> List (SkipList.Operation Int Nat)
  | 0, _ => []
  | fuel + 1, collecting =>
    match collecting.chronology.deadlineMap.entries.head? with
    | none => []
    | some current =>
      if now < current.key then []
      else if some current.handle = collecting.firstReinserted then []
      else collectCall now backoff collecting current ::
        loopCalls now backoff fuel (collectEntry now backoff collecting current)

/-- The calls of a section that change the map, with the level of a new node. -/
def mapCalls (chronology : Chronology) (level : Nat) : Operation -> List (SkipList.Operation Int Nat)
  | .take (.finish thread address) =>
    match chronology.calls thread with
    | some (.schedule timer deadline) => [chronology.scheduleCall timer deadline address level]
    | some (.cancel timer) | some (.close timer) => chronology.detachCalls timer
    | none => []
  | .take (.collect single now backoff) =>
    let (taken, done) := chronology.takeFunctors single
    if taken.deadlineMap.entries ≠ [] ∧ done = false then
      loopCalls (totalMicroseconds now) backoff (taken.deadlineMap.entries.length + 1)
        { chronology := taken }
    else []
  | .clear | .clearTimers => if chronology.deadlineMap.entries = [] then [] else [.removeAll]
  | _ => []

/-- A chronology and its `d_deadlineMap`, which is absent after a null pointer was
followed or an assertion failed. -/
structure Backed where
  chronology : Chronology := {}
  deadlineMap : Option (SkipList Int Nat)

def callMap (list : SkipList Int Nat) (call : SkipList.Operation Int Nat) :
    Option (SkipList Int Nat) :=
  (list.apply call).map Prod.snd

/-- The pool hands out no sentinel, and the random level is in range. -/
def Available (list : SkipList Int Nat) (level : Nat) : Operation -> Bool
  | .take (.finish _ address) =>
    level ≤ maxLevel && address != list.head && address != list.tail
  | _ => true

/-- Take a section, with the level that a new node is given. -/
def Backed.step (backed : Backed) : Operation × Nat -> Option Backed
  | (operation, level) =>
    match backed.deadlineMap with
    | none => none
    | some list =>
      if Available list level operation then
        (backed.chronology.operate operation).map fun next => {
          chronology := next
          deadlineMap := Run.run callMap list (backed.chronology.mapCalls level operation) }
      else none

structure Backs (head : Nat) (list : SkipList Int Nat) (chron : Chronology) : Prop where
  holds : list.Holds chron.deadlineMap
  isHead : list.head = head
  apart : ∀ timer, (chron.timers timer).handle ≠ some head

variable {head : Nat} {list : SkipList Int Nat} {chron next : Chronology}

theorem Backs.apart_of_handles (backs : Backs head list chron)
    (handles : ∀ timer, (next.timers timer).handle = (chron.timers timer).handle ∨
      (next.timers timer).handle = none) (timer : Nat) :
    (next.timers timer).handle ≠ some head := by
  rcases handles timer with same | isNone
  · exact same ▸ backs.apart timer
  · exact isNone ▸ nofun

/-- A section that leaves the map as it is, and gives no timer a handle. -/
theorem Backs.frame (backs : Backs head list chron) (sameMap : next.deadlineMap = chron.deadlineMap)
    (handles : ∀ timer, (next.timers timer).handle = (chron.timers timer).handle ∨
      (next.timers timer).handle = none) : Backs head list next :=
  ⟨sameMap ▸ backs.holds, backs.isHead, backs.apart_of_handles handles⟩

theorem setTimer_handle (chron : Chronology) (timer : Nat) (value : Timer)
    (kept : value.handle = (chron.timers timer).handle ∨ value.handle = none) (other : Nat) :
    ((chron.setTimer timer value).timers other).handle = (chron.timers other).handle ∨
      ((chron.setTimer timer value).timers other).handle = none := by
  by_cases same : other = timer
  · rw [same, setTimer_self]
    exact kept
  · rw [setTimer_of_ne _ _ same]
    exact .inl rfl

theorem specify_updateR (map : StableMap Nat Int Nat) (handle : Nat) (key : Int) :
    (specify map (.updateR (some handle) key)).2 = map.update handle key := by
  simp only [specify]
  split
  · rfl
  · rename_i stale
    unfold update
    rw [find_eq_none.mpr stale]

theorem specify_remove (map : StableMap Nat Int Nat) (handle : Nat) :
    (specify map (.remove (some handle))).2 = map.erase handle := by
  simp only [specify]
  split
  · rfl
  · rename_i stale
    have kept : map.entries.filter (fun entry => entry.handle ≠ handle) = map.entries := by
      refine filter_eq_self.mpr fun entry mem => decide_eq_true fun same => ?_
      exact stale (mem_map.mpr ⟨entry, mem, same⟩)
    unfold erase
    rw [kept]

/-- One call, where the section changes the map as the call does. -/
theorem Backs.call (backs : Backs head list chron) {call : SkipList.Operation Int Nat}
    (allowed : call.Allowed list chron.deadlineMap)
    (isMap : next.deadlineMap = (specify chron.deadlineMap call).2)
    (apart : ∀ timer, (next.timers timer).handle ≠ some head) :
    ∃ result, callMap list call = some result ∧ Backs head result next := by
  obtain ⟨result, applied, holds, sameHead⟩ := backs.holds.apply_eq call allowed
  refine ⟨result, ?_, isMap ▸ holds, sameHead.trans backs.isHead, apart⟩
  unfold callMap
  rw [applied]
  rfl

theorem run_single {call : SkipList.Operation Int Nat}
    (called : ∃ result, callMap list call = some result ∧ Backs head result next) :
    ∃ result, Run.run callMap list [call] = some result ∧ Backs head result next := by
  obtain ⟨result, isResult, backs⟩ := called
  exact ⟨result, Run.run_cons_of_step isResult, backs⟩

theorem Backs.allowed (backs : Backs head list chron) {timer handle : Nat}
    (isHandle : (chron.timers timer).handle = some handle) : handle ≠ list.head := by
  intro same
  rw [same, backs.isHead] at isHandle
  exact backs.apart timer isHandle

theorem Backs.detach (backs : Backs head list chron) (timer : Nat) :
    ∃ result, Run.run callMap list (chron.detachCalls timer) = some result ∧
      Backs head result (chron.detach timer) := by
  unfold detachCalls Chronology.detach
  dsimp only
  cases isHandle : (chron.timers timer).handle with
  | none => exact ⟨list, rfl, backs⟩
  | some handle =>
    have kept := backs.apart_of_handles (setTimer_handle (chron.addReferences timer (-1)) timer
      { chron.timers timer with handle := none } (.inr rfl))
    dsimp only
    cases (chron.deadlineMap.erase handle).entries.head? with
    | none | some _ =>
      exact run_single (backs.call (backs.allowed isHandle) (specify_remove _ handle).symm kept)

theorem Backs.finishSchedule (backs : Backs head list chron) {timer address level : Nat}
    (available : level ≤ maxLevel ∧ address ≠ list.head ∧ address ≠ list.tail)
    (fresh : address ∉ chron.deadlineMap.handles) (deadline : Int) :
    ∃ result, callMap list (chron.scheduleCall timer deadline address level) = some result ∧
      Backs head result (chron.finishSchedule timer deadline address) := by
  unfold scheduleCall Chronology.finishSchedule
  dsimp only
  cases isHandle : (chron.timers timer).handle with
  | some handle =>
    exact backs.call (backs.allowed isHandle) (specify_updateR _ handle deadline).symm backs.apart
  | none =>
    have apart : ∀ other, (((chron.addReferences timer 1).setTimer timer
        { chron.timers timer with handle := some address }).timers other).handle ≠
          some head := by
      intro other
      by_cases same : other = timer
      · rw [same, setTimer_self]
        exact fun isHead => available.2.1 ((Option.some.inj isHead).trans backs.isHead.symm)
      · rw [setTimer_of_ne _ _ same]
        exact backs.apart other
    have unused : address ∉ list.head :: chron.deadlineMap.handles ++ [list.tail] := by
      simp [available.2, fresh]
    dsimp only
    split
    · exact backs.call ⟨available.1, unused⟩ rfl apart
    · exact backs.call ⟨available.1, unused⟩ rfl apart

variable {round : Collecting} (now : Int) (backoff : Nat -> Int -> Int)

theorem collectEntry_handle (current : StableEntry Nat Int Nat) (timer : Nat) :
    ((collectEntry now backoff round current).chronology.timers timer).handle =
        (round.chronology.timers timer).handle ∨
      ((collectEntry now backoff round current).chronology.timers timer).handle = none := by
  unfold collectEntry
  dsimp only
  split
  · refine setTimer_handle (round.chronology.addReferences current.data 1) current.data _ ?_ timer
    exact .inl rfl
  · exact setTimer_handle round.chronology current.data _ (.inr rfl) timer

theorem Backs.collectEntry (backs : Backs head list round.chronology)
    (current : StableEntry Nat Int Nat) :
    ∃ result, callMap list (collectCall now backoff round current) = some result ∧
      Backs head result (collectEntry now backoff round current).chronology := by
  apply backs.call
  case allowed =>
    unfold collectCall
    dsimp only
    cases isHandle : (round.chronology.timers current.data).handle with
    | none =>
      split
      · trivial
      · trivial
    | some handle =>
      split
      · exact backs.allowed isHandle
      · exact backs.allowed isHandle
  case isMap =>
    unfold collectCall Chronology.collectEntry nextDeadline
    dsimp only
    cases isHandle : (round.chronology.timers current.data).handle with
    | none =>
      split
      · rfl
      · rfl
    | some handle =>
      split
      · exact (specify_updateR _ handle _).symm
      · exact (specify_remove _ handle).symm
  case apart => exact backs.apart_of_handles (collectEntry_handle now backoff current)

/-- The loop of `announce`, round by round. -/
theorem Backs.collectLoop (fuel : Nat) (backs : Backs head list round.chronology) :
    ∃ result, Run.run callMap list (loopCalls now backoff fuel round) = some result ∧
      Backs head result (collectLoop now backoff fuel round).chronology := by
  induction fuel generalizing list round with
  | zero => exact ⟨list, rfl, backs⟩
  | succ _ ih =>
    unfold loopCalls Chronology.collectLoop
    cases round.chronology.deadlineMap.entries.head? with
    | none => exact ⟨list, rfl, backs⟩
    | some current =>
      dsimp only
      split
      · exact ⟨list, rfl, backs⟩
      · split
        · exact ⟨list, rfl, backs⟩
        · obtain ⟨between, called, entered⟩ := backs.collectEntry now backoff current
          obtain ⟨result, ran, kept⟩ := ih entered
          exact ⟨result, (Run.run_cons_of_step called).trans ran, kept⟩

theorem Backs.refresh (backs : Backs head list chron) : Backs head list chron.refresh := by
  obtain ⟨_, _, refreshEq⟩ := refresh_eq chron
  rw [refreshEq]
  exact backs.frame rfl fun _ => .inl rfl

theorem Backs.collect (backs : Backs head list chron) (single : Bool) (level : Nat) :
    ∃ result, Run.run callMap list
        (chron.mapCalls level (.take (.collect single now backoff))) = some result ∧
      Backs head result (chron.collect single now backoff) := by
  obtain ⟨queue, isEmpty, _, takenEq⟩ := takeFunctors_eq chron single
  have taken : Backs head list { chron with
    functorQueue := queue, functorQueueEmpty := isEmpty } := backs.frame rfl fun _ => .inl rfl
  simp only [mapCalls]
  unfold Chronology.collect
  rw [takenEq]
  dsimp only
  split
  · have start : Backs head list ({ chronology := { chron with
        functorQueue := queue, functorQueueEmpty := isEmpty } } : Collecting).chronology := taken
    obtain ⟨result, ran, kept⟩ := start.collectLoop (totalMicroseconds now) backoff
      (chron.deadlineMap.entries.length + 1)
    exact ⟨result, ran, kept.refresh.frame rfl fun _ => .inl rfl⟩
  · exact ⟨list, rfl, taken⟩

theorem Backs.clearTimers (backs : Backs head list chron) (level : Nat) :
    ∃ result, Run.run callMap list (chron.mapCalls level .clearTimers) = some result ∧
      Backs head result chron.clearTimers := by
  simp only [mapCalls]
  split
  · rename_i isEmpty
    rw [clearTimers_of_nil isEmpty]
    exact ⟨list, rfl, backs⟩
  · unfold Chronology.clearTimers
    split
    · contradiction
    · exact run_single (backs.call trivial rfl backs.apart)

/-- One section: the skip list takes its calls. -/
theorem Backs.operate (backs : Backs head list chron) {level : Nat} {op : Operation}
    (available : Available list level op = true) (taken : chron.operate op = some next) :
    ∃ result, Run.run callMap list (chron.mapCalls level op) = some result ∧
      Backs head result next := by
  cases op with
  | take action =>
    have stepped : chron.step action = some next := taken
    cases action with
    | createTimer timer =>
      rw [(createTimer_taken stepped).2]
      exact ⟨list, rfl, backs.frame rfl (setTimer_handle chron timer _ (.inr rfl))⟩
    | schedule | cancel | close =>
      obtain ⟨_, rfl | ⟨_, _, rfl, _, sameHandle, _⟩⟩ := begin_taken rfl stepped
      · exact ⟨list, rfl, backs⟩
      · exact ⟨list, rfl, backs.frame rfl (setTimer_handle chron _ _ (.inl sameHandle))⟩
    | finish thread address =>
      obtain ⟨call, isCall, fresh, isNext⟩ := finish_taken stepped
      have returned : Backs head list { chron with
        calls := Function.update chron.calls thread none } := backs.frame rfl fun _ => .inl rfl
      simp only [Available, Bool.and_eq_true, decide_eq_true_eq, bne_iff_ne, and_assoc] at available
      simp only [mapCalls, isCall]
      rw [isNext]
      cases call with
      | schedule timer deadline =>
        exact run_single (returned.finishSchedule available fresh deadline)
      | cancel timer | close timer => exact returned.detach timer
    | execute =>
      cases taken
      exact ⟨list, rfl, backs.frame rfl fun _ => .inl rfl⟩
    | collect single now backoff =>
      cases taken
      exact backs.collect now backoff single level
    | arrive index =>
      obtain ⟨entry, rest, _, isNext⟩ := arrive_taken stepped
      obtain ⟨_, _, arriveEq, sameHandle, _⟩ := arrive_eq { chron with
        announcing := chron.announcing.set index { current := some entry, due := rest } } entry
      rw [isNext, arriveEq]
      exact ⟨list, rfl, backs.frame rfl (setTimer_handle chron _ _ (.inl sameHandle))⟩
    | depart =>
      obtain ⟨_, _, _, isNext⟩ := depart_taken stepped
      rw [isNext]
      exact ⟨list, rfl, backs.frame rfl fun _ => .inl rfl⟩
  | clear =>
    cases taken
    have emptied : Backs head list { chron with functorQueue := [], functorQueueEmpty := true } :=
      backs.frame rfl fun _ => .inl rfl
    exact emptied.clearTimers level
  | clearTimers =>
    cases taken
    exact backs.clearTimers level
  | release =>
    obtain ⟨_, rfl⟩ := Run.guarded taken
    exact ⟨list, rfl, backs.frame rfl fun _ => .inl rfl⟩

def Backed.Sound (head : Nat) (backed : Backed) : Prop :=
  ∃ list, backed.deadlineMap = some list ∧ Backs head list backed.chronology

theorem Backed.step_sound {backed next : Backed} {taking : Operation × Nat}
    (sound : backed.Sound head) (taken : backed.step taking = some next) : next.Sound head := by
  obtain ⟨list, isList, backs⟩ := sound
  unfold Backed.step at taken
  rw [isList] at taken
  dsimp only at taken
  split at taken
  · rename_i available
    obtain ⟨_, operated, rfl⟩ := Option.map_eq_some_iff.mp taken
    exact backs.operate available operated
  · contradiction

/-- In every state of every run of a chronology, whatever the levels of the nodes, no
call on its skip list fails, and the list holds the pairs of the map in order. -/
theorem deadlineMap_agrees (sentinels : Sentinels) (actions : List (Operation × Nat)) :
    Run.Always Backed.step (fun backed => ∃ list, backed.deadlineMap = some list ∧
      list.Agrees backed.chronology.deadlineMap) ⟨{}, some (initialList sentinels)⟩ actions := by
  have start : Backed.Sound sentinels.head ⟨{}, some (initialList sentinels)⟩ :=
    ⟨_, rfl, ⟨initialList_represents sentinels, empty_ordered, nofun⟩, rfl, nofun⟩
  exact (Run.always_of_keeps (fun _ _ _ => Backed.step_sound) start).mono
    fun _ ⟨list, isList, backs⟩ => ⟨list, isList, backs.holds.agrees⟩

end Chronology

end NtfCore.Ntcs
