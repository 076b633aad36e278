import NtfCore.Ntcs.Chronology.Collection

/-!
Contract: the cached earliest deadline of a chronology.

Owns: what it means that the cached minimum is exact, with the deadline and the
timeout that are read off it; the condition on a section of `schedule` under
which it stays exact; and the theorem that it is exact in every state of a run
if and only if every section meets the condition.
-/

namespace NtfCore.Ntcs

open NtfCore.Foundation List StableMap Chronology Option

namespace Chronology

def cached (chronology : Chronology) : Option Int :=
  if chronology.deadlineMapEmpty then none else some chronology.deadlineMapEarliest

def minimum (chronology : Chronology) : Option Int :=
  (chronology.deadlineMap.entries.map StableEntry.key).min?

def exactTimeout (now : Int) : Option Int -> Int
  | none => -1
  | some deadline => min ((max (ofMicroseconds deadline - now) 0) / 1000000) (2 ^ 31 - 1)

structure Exact (chronology : Chronology) : Prop where
  cached_eq : chronology.cached = chronology.minimum
  earliest_eq : chronology.functorQueue = [] ->
    chronology.earliest = chronology.minimum.map ofMicroseconds
  timeout_eq : chronology.functorQueue = [] -> ∀ now,
    chronology.timeoutInMilliseconds now = exactTimeout now chronology.minimum

def Fresh (chronology : Chronology) : Prop :=
  chronology.cached = chronology.deadlineMap.entries.head?.map StableEntry.key

structure Cached (chronology : Chronology) : Prop where
  tied : chronology.Tied
  fresh : chronology.Fresh
  flag : chronology.functorQueueEmpty = true ↔ chronology.functorQueue = []

variable {chron : Chronology}

theorem Tied.minimum_eq (tied : chron.Tied) :
    chron.minimum = chron.deadlineMap.entries.head?.map StableEntry.key :=
  tied.ordered.min?_keys

theorem earliest_eq_cached (deferred : chron.functorQueueEmpty = true) :
    chron.earliest = chron.cached.map ofMicroseconds := by
  unfold earliest cached
  rw [deferred]
  cases chron.deadlineMapEmpty with
  | true | false => rfl

theorem timeout_eq_exactTimeout {minimum : Option Int} (now : Int)
    (earliestEq : chron.earliest = minimum.map ofMicroseconds) :
    chron.timeoutInMilliseconds now = exactTimeout now minimum := by
  unfold timeoutInMilliseconds timeoutInterval exactTimeout totalMilliseconds
  rw [earliestEq]
  cases minimum with
  | none => rfl
  | some deadline =>
    simp only [map_some]
    by_cases later : ofMicroseconds deadline > now
    · have pos : 0 ≤ ofMicroseconds deadline - now := by omega
      rw [if_pos later, max_eq_left pos, Int.tdiv_eq_ediv_of_nonneg pos]
      split
      · rename_i atMost
        exact (min_eq_left atMost).symm
      · rename_i beyond
        exact (min_eq_right (by omega)).symm
    · have negative : ofMicroseconds deadline - now ≤ 0 := by omega
      rw [if_neg later, max_eq_right negative]
      decide

theorem Cached.exact (inv : chron.Cached) : chron.Exact := by
  have cachedEq : chron.cached = chron.minimum := by
    rw [inv.tied.minimum_eq]
    exact inv.fresh
  have earliestEq : chron.functorQueue = [] ->
      chron.earliest = chron.minimum.map ofMicroseconds := by
    intro noFunctors
    rw [earliest_eq_cached (inv.flag.mpr noFunctors), cachedEq]
  exact {
    cached_eq := cachedEq
    earliest_eq := earliestEq
    timeout_eq := fun noFunctors now => timeout_eq_exactTimeout now (earliestEq noFunctors) }

/-! ## Scheduling -/

def Steady (chronology : Chronology) (timer : Nat) (deadline : Int) : Prop :=
  ∀ entry ∈ chronology.deadlineMap.entries, entry.data = timer ->
    (∃ other ∈ chronology.deadlineMap.entries, other.data ≠ timer ∧ other.key ≤ entry.key) ∨
      ∀ other ∈ chronology.deadlineMap.entries, other.data ≠ timer -> deadline < other.key

/-- Every second section of `schedule` finds the map steady. -/
def KeepsFront (chronology : Chronology) : Action -> Prop
  | .finish thread _ => ∀ timer deadline,
      chronology.calls thread = some (.schedule timer deadline) ->
        chronology.Steady timer deadline
  | _ => True

theorem Fresh.of_front (fresh : chron.Fresh) {front : StableEntry Nat Int Nat}
    (isFront : chron.deadlineMap.entries.head? = some front) :
    chron.deadlineMapEmpty = false ∧ chron.deadlineMapEarliest = front.key := by
  unfold Fresh cached at fresh
  rw [isFront] at fresh
  split at fresh
  · contradiction
  · rename_i notEmpty
    exact ⟨Bool.eq_false_iff.mpr notEmpty, some.inj fresh⟩

variable {timer address : Nat}

theorem Cached.finishSchedule_insert (inv : chron.Cached)
    (unhandled : (chron.timers timer).handle = none)
    (freshAddress : address ∉ chron.deadlineMap.handles) (deadline : Int) :
    (chron.finishSchedule timer deadline address).Fresh := by
  have headEq := inv.tied.ordered.head?_insert address deadline timer
  unfold finishSchedule Fresh cached
  simp only [unhandled]
  cases isFront : chron.deadlineMap.entries.head? with
  | none =>
    have isEmpty : chron.deadlineMap.entries = [] := head?_eq_none_iff.mp isFront
    simp [StableMap.insert, StableMap.first, StableMap.handles, isEmpty]
  | some front =>
    obtain ⟨notEmpty, earliestEq⟩ := inv.fresh.of_front isFront
    have frontHandle : front.handle ≠ address := fun same =>
      freshAddress (same ▸ mem_map_of_mem (mem_of_mem_head? isFront))
    rw [isFront] at headEq
    simp only at headEq
    split at headEq
    · simp [first, handles, headEq, frontHandle, notEmpty, earliestEq]
    · simp [first, handles, headEq, notEmpty]

/-- When some other timer is due by the new deadline, the map is steady if and only
if the first of the others is due with the front. -/
theorem Tied.steady_iff (tied : chron.Tied) {handle : Nat} {deadline : Int}
    {head front : StableEntry Nat Int Nat} (isHandle : (chron.timers timer).handle = some handle)
    (isHead : chron.deadlineMap.entries.head? = some head)
    (isFront : (chron.deadlineMap.erase handle).entries.head? = some front)
    (atMost : front.key ≤ deadline) : chron.Steady timer deadline ↔ head.key = front.key := by
  obtain ⟨entry, _, mem, entryHandle, isTimer⟩ := tied.element isHandle
  have headMember := mem_of_mem_head? isHead
  obtain ⟨frontMem, frontApart⟩ := (tied.mem_others isHandle).mp (mem_of_mem_head? isFront)
  have headLe := tied.ordered.head_le isHead frontMem
  have frontLe : ∀ other ∈ chron.deadlineMap.entries, other.data ≠ timer ->
      front.key ≤ other.key := by
    intro other inEntries apart
    exact (tied.ordered.erase handle).head_le isFront
      ((tied.mem_others isHandle).mpr ⟨inEntries, apart⟩)
  constructor
  · intro steady
    rcases steady entry mem isTimer with ⟨other, inEntries, apart, otherLe⟩ | before
    · have otherFront := frontLe other inEntries apart
      by_cases headTimer : head.data = timer
      · have headHandle : head.handle = handle := by
          by_contra apartHandle
          exact (tied.handle_ne_iff isHandle headMember).mp apartHandle headTimer
        have headOwn : head = entry := inj_on_of_nodup_map tied.ordered.distinct headMember
          mem (headHandle.trans entryHandle.symm)
        rw [headOwn] at headLe ⊢
        exact le_antisymm headLe (le_trans otherFront otherLe)
      · exact le_antisymm headLe (frontLe head headMember headTimer)
    · exact absurd (before front frontMem frontApart) (not_lt.mpr atMost)
  · intro same _ ownMember _
    apply Or.inl
    refine ⟨front, frontMem, frontApart, ?_⟩
    rw [← same]
    exact tied.ordered.head_le isHead ownMember

/-- The second section of `schedule` for a timer in the map: the cache stays exact
if and only if the map is steady. -/
theorem Cached.finishSchedule_update (inv : chron.Cached) {handle : Nat}
    (isHandle : (chron.timers timer).handle = some handle) (deadline : Int) (address : Nat) :
    (chron.finishSchedule timer deadline address).Fresh ↔ chron.Steady timer deadline := by
  have tied := inv.tied
  obtain ⟨entry, found, mem, entryHandle, _⟩ := tied.element isHandle
  obtain ⟨head, isHead⟩ : ∃ head, chron.deadlineMap.entries.head? = some _ := by
    rw [← ne_none_iff_exists']
    intro isNone
    rw [head?_eq_none_iff.mp isNone] at mem
    exact not_mem_nil mem
  obtain ⟨notEmpty, earliestEq⟩ := inv.fresh.of_front isHead
  have live : handle ∈ chron.deadlineMap.handles := entryHandle ▸ mem_map_of_mem mem
  have updateEq : chron.deadlineMap.update handle deadline =
      (chron.deadlineMap.erase handle).insert handle deadline entry.data := by
    unfold update
    rw [found]
  have headEq := (tied.ordered.erase handle).head?_insert handle deadline entry.data
  unfold finishSchedule Fresh cached
  simp only [isHandle, updateEq, live, decide_true, Bool.true_and]
  simp only [first, handles, head?_map]
  rw [headEq]
  cases isFront : (chron.deadlineMap.erase handle).entries.head? with
  | none =>
    have noOthers : (chron.deadlineMap.erase handle).entries = [] := head?_eq_none_iff.mp isFront
    have steady : chron.Steady timer deadline := by
      intro _ _ _
      apply Or.inr
      intro other inEntries apart
      have impossible := (tied.mem_others isHandle).mpr ⟨inEntries, apart⟩
      rw [noOthers] at impossible
      contradiction
    simp [steady, notEmpty]
  | some front =>
    obtain ⟨frontMem, frontApart⟩ := (tied.mem_others isHandle).mp (mem_of_mem_head? isFront)
    have frontHandle := (tied.handle_ne_iff isHandle frontMem).mpr frontApart
    have frontLe : ∀ other ∈ chron.deadlineMap.entries, other.data ≠ timer ->
        front.key ≤ other.key := by
      intro other inEntries apart
      exact (tied.ordered.erase handle).head_le isFront
        ((tied.mem_others isHandle).mpr ⟨inEntries, apart⟩)
    by_cases atMost : front.key ≤ deadline
    · have freshIff := tied.steady_iff isHandle isHead isFront atMost
      rw [freshIff]
      simp [atMost, frontHandle, notEmpty, earliestEq]
    · have steady : chron.Steady timer deadline := by
        intro _ _ _
        apply Or.inr
        intro other inEntries apart
        exact lt_of_lt_of_le (not_le.mp atMost) (frontLe other inEntries apart)
      simp [atMost, steady, notEmpty]

theorem Cached.detach_fresh (inv : chron.Cached) (timer : Nat) : (chron.detach timer).Fresh := by
  unfold detach
  dsimp only
  cases isHandle : (chron.timers timer).handle with
  | none => exact inv.fresh
  | some handle =>
    obtain ⟨entry, _, mem, _⟩ := inv.tied.element isHandle
    obtain ⟨head, isHead⟩ : ∃ head, chron.deadlineMap.entries.head? = some head := by
      rw [← ne_none_iff_exists']
      intro isNone
      rw [head?_eq_none_iff.mp isNone] at mem
      exact not_mem_nil mem
    obtain ⟨notEmpty, _⟩ := inv.fresh.of_front isHead
    dsimp only
    split
    · rename_i front isFront
      simp [Fresh, cached, isFront, setTimer, addReferences, notEmpty]
    · rename_i isNone
      simp [Fresh, cached, isNone]

theorem refresh_fresh (notEmpty : chron.deadlineMapEmpty = false) : chron.refresh.Fresh := by
  unfold refresh
  split
  · rename_i isNone
    simp [Fresh, cached, isNone]
  · rename_i _ isFront
    simp [Fresh, cached, isFront, notEmpty]

theorem Cached.collect_fresh (inv : chron.Cached) (single : Bool) (now : Int)
    (backoff : Nat -> Int -> Int) : (chron.collect single now backoff).Fresh := by
  obtain ⟨queue, isEmpty, done, takenEq⟩ := takeFunctors_eq chron single
  unfold collect
  rw [takenEq]
  dsimp only
  split
  · rename_i occupied
    obtain ⟨head, isHead⟩ : ∃ head, chron.deadlineMap.entries.head? = some head := by
      rw [← ne_none_iff_exists']
      exact fun isNone => occupied.1 (head?_eq_none_iff.mp isNone)
    obtain ⟨notEmpty, _⟩ := inv.fresh.of_front isHead
    obtain ⟨_, _, _, loopEq⟩ := collectLoop_frame (totalMicroseconds now) backoff
      (chron.deadlineMap.entries.length + 1) { chronology := { chron with
        functorQueue := queue, functorQueueEmpty := isEmpty } }
    rw [loopEq]
    exact refresh_fresh (by exact notEmpty)
  · exact inv.fresh

variable {next : Chronology}

/-- What does not finish a call, execute or collect. -/
def Action.leavesMap : Action -> Bool
  | .finish _ _ | .execute _ | .collect _ _ _ => false
  | _ => true

theorem step_frame {action : Action} (leaves : action.leavesMap = true)
    (taken : chron.step action = some next) : ∃ timers references calls announcing announced,
      next = { chron with timers, references, calls, announcing, announced } := by
  cases action with
  | createTimer =>
    rw [(createTimer_taken taken).2]
    exact ⟨_, _, _, _, _, rfl⟩
  | schedule | cancel | close =>
    obtain ⟨_, rfl | ⟨_, _, rfl, _⟩⟩ := begin_taken rfl taken
    · exact ⟨_, _, _, _, _, rfl⟩
    · exact ⟨_, _, _, _, _, rfl⟩
  | finish | execute | collect => contradiction
  | arrive index =>
    obtain ⟨entry, rest, _, isNext⟩ := arrive_taken taken
    obtain ⟨_, _, arrivedEq, _⟩ := arrive_eq { chron with
      announcing := chron.announcing.set index { current := some entry, due := rest } } entry
    exact ⟨_, _, _, _, _, isNext.trans arrivedEq⟩
  | depart =>
    obtain ⟨_, _, _, isNext⟩ := depart_taken taken
    exact ⟨_, _, _, _, _, isNext⟩

theorem Cached.finishCall_fresh (inv : chron.Cached) {call : TimerCall}
    (freshAddress : address ∉ chron.deadlineMap.handles)
    (steady : ∀ timer deadline, call = .schedule timer deadline ->
      chron.Steady timer deadline) : (chron.finishCall address call).Fresh := by
  cases call with
  | schedule timer deadline =>
    cases isHandle : (chron.timers timer).handle with
    | none => exact inv.finishSchedule_insert isHandle freshAddress deadline
    | some =>
      exact (inv.finishSchedule_update isHandle deadline address).mpr (steady timer deadline rfl)
  | cancel timer | close timer => exact inv.detach_fresh timer

variable {action : Action}

theorem step_fresh (inv : chron.Cached)
    (keeps : chron.KeepsFront action) (taken : chron.step action = some next) : next.Fresh := by
  cases action with
  | finish thread =>
    obtain ⟨_, isCall, freshAddress, isNext⟩ := finish_taken taken
    have returned : ({ chron with
        calls := Function.update chron.calls thread none } : Chronology).Cached :=
      { inv with
        tied := inv.tied.return thread }
    rw [isNext]
    apply returned.finishCall_fresh freshAddress
    intro timer deadline isSchedule
    exact keeps timer deadline (isSchedule ▸ isCall)
  | execute =>
    cases taken
    exact inv.fresh
  | collect single now backoff =>
    cases taken
    exact inv.collect_fresh single now backoff
  | createTimer | schedule | cancel | close | arrive | depart =>
    obtain ⟨_, _, _, _, _, nextEq⟩ := step_frame rfl taken
    rw [nextEq]
    exact inv.fresh

theorem finishCall_queue (chron : Chronology) (address : Nat) (call : TimerCall) :
    (chron.finishCall address call).functorQueue = chron.functorQueue ∧
      (chron.finishCall address call).functorQueueEmpty = chron.functorQueueEmpty := by
  have detached : ∀ timer, (chron.detach timer).functorQueue = chron.functorQueue ∧
      (chron.detach timer).functorQueueEmpty = chron.functorQueueEmpty := by
    intro timer
    unfold detach
    dsimp only
    split
    · exact ⟨rfl, rfl⟩
    · split
      · exact ⟨rfl, rfl⟩
      · exact ⟨rfl, rfl⟩
  cases call with
  | schedule timer =>
    unfold finishCall finishSchedule
    dsimp only
    cases (chron.timers timer).handle with
    | none | some _ => exact ⟨rfl, rfl⟩
  | cancel timer | close timer => exact detached timer

theorem takeFunctors_flag (flag : chron.functorQueueEmpty = true ↔
    chron.functorQueue = []) (single : Bool) :
    (chron.takeFunctors single).1.functorQueueEmpty = true ↔
      (chron.takeFunctors single).1.functorQueue = [] := by
  unfold takeFunctors
  split
  · exact flag
  · rename_i _ rest isQueue
    split
    · have notEmpty : chron.functorQueueEmpty = false := by
        apply Bool.eq_false_iff.mpr
        rw [ne_eq, flag, isQueue]
        exact cons_ne_nil _ _
      by_cases isLast : rest = []
      · simp [isLast]
      · simp [isLast, notEmpty]
    · simp

theorem collect_functors (chron : Chronology) (single : Bool) (now : Int)
    (backoff : Nat -> Int -> Int) :
    (chron.collect single now backoff).functorQueue = (chron.takeFunctors single).1.functorQueue ∧
      (chron.collect single now backoff).functorQueueEmpty =
        (chron.takeFunctors single).1.functorQueueEmpty := by
  unfold collect
  generalize chron.takeFunctors single = result
  obtain ⟨before, _⟩ := result
  dsimp only
  split
  · obtain ⟨_, _, _, loopEq⟩ := collectLoop_frame (totalMicroseconds now) backoff
      (before.deadlineMap.entries.length + 1) { chronology := before }
    obtain ⟨_, _, refreshEq⟩ := refresh_eq (collectLoop (totalMicroseconds now) backoff
      (before.deadlineMap.entries.length + 1) { chronology := before }).chronology
    simp only [refreshEq]
    simp only [loopEq, and_self]
  · exact ⟨rfl, rfl⟩

def functorsAfter (chronology : Chronology) : Action -> List Nat × Bool
  | .execute functor => (chronology.functorQueue ++ [functor], false)
  | .collect single _ _ => ((chronology.takeFunctors single).1.functorQueue,
      (chronology.takeFunctors single).1.functorQueueEmpty)
  | _ => (chronology.functorQueue, chronology.functorQueueEmpty)

theorem step_functors (taken : chron.step action = some next) :
    next.functorQueue = (chron.functorsAfter action).1 ∧
      next.functorQueueEmpty = (chron.functorsAfter action).2 := by
  cases action with
  | finish thread address =>
    obtain ⟨call, _, _, isNext⟩ := finish_taken taken
    rw [isNext]
    exact finishCall_queue { chron with
      calls := Function.update chron.calls thread none } address call
  | execute =>
    cases taken
    exact ⟨rfl, rfl⟩
  | collect single now backoff =>
    cases taken
    exact collect_functors chron single now backoff
  | createTimer | schedule | cancel | close | arrive | depart =>
    obtain ⟨_, _, _, _, _, nextEq⟩ := step_frame rfl taken
    rw [nextEq]
    exact ⟨rfl, rfl⟩

theorem step_flag (flag : chron.functorQueueEmpty = true ↔ chron.functorQueue = [])
    (taken : chron.step action = some next) :
    next.functorQueueEmpty = true ↔ next.functorQueue = [] := by
  rw [(step_functors taken).1, (step_functors taken).2]
  cases action with
  | execute => simp [functorsAfter]
  | collect single => exact takeFunctors_flag flag single
  | createTimer | schedule | cancel | close | finish | arrive | depart => exact flag

theorem step_cached (inv : chron.Cached)
    (keeps : chron.KeepsFront action) (taken : chron.step action = some next) : next.Cached where
  tied := step_tied inv.tied taken
  fresh := step_fresh inv keeps taken
  flag := step_flag inv.flag taken

theorem step_detects (inv : chron.Cached)
    (taken : chron.step action = some next) (exactNext : next.Exact) : chron.KeepsFront action := by
  have freshNext : next.Fresh := by
    unfold Fresh
    rw [exactNext.cached_eq]
    exact (step_tied inv.tied taken).minimum_eq
  cases action with
  | finish thread address =>
    intro timer deadline isCall
    simp only [step, isCall] at taken
    obtain ⟨_, rfl⟩ := Run.guarded taken
    cases isHandle : (chron.timers timer).handle with
    | none =>
      intro entry mem isTimer
      have mapped := (inv.tied.handle_iff timer entry.handle).mpr ⟨entry, mem, rfl, isTimer⟩
      rw [isHandle] at mapped
      contradiction
    | some =>
      have returned : ({ chron with
          calls := Function.update chron.calls thread none } : Chronology).Cached :=
        { inv with
          tied := inv.tied.return thread }
      exact (returned.finishSchedule_update isHandle deadline address).mp freshNext
  | _ => trivial

/-- In every run of a chronology, the cached earliest deadline is exact in every
state if and only if no timer that alone is the earliest is moved to or behind
the deadline of another. -/
theorem earliest_exact_iff (actions : List Action) :
    Run.Always step Exact {} actions ↔ Run.Along step KeepsFront {} actions :=
  Run.always_iff_along (fun _ inv => Cached.exact inv)
    (fun _ _ _ inv keeps taken => step_cached inv keeps taken)
    (fun _ _ _ inv taken exactNext => step_detects inv taken exactNext)
    ⟨start_tied, rfl, by simp⟩

/-- Two timers are due after one and two microseconds. When the first is put off to
the third, the cache still holds the first microsecond. -/
theorem postponed_timer_leaves_cache : ¬ Run.Always step Exact {}
      [.createTimer 0 {} true, .createTimer 1 {} true, .schedule 0 0 1000 0, .finish 0 7,
        .schedule 0 1 2000 0, .finish 0 8, .schedule 0 0 3000 0, .finish 0 9] := by
  intro always
  have final := (Run.always_iff _ _).mp always _ [] _ (append_nil _) rfl
  have stale := final.cached_eq
  contradiction

end Chronology

end NtfCore.Ntcs
