import NtfCore.Ntcs.Chronology.Sleeping

/-!
Contract: the functions a caller passes to an executor in a sequence that it keeps.

`ntci::Executor::moveAndExecute` promises to defer the functors of the sequence and then the
functor, and to clear the sequence. A chronology keeps its queue as a vector, into which it
copies the sequence, or as a list, into which it splices it.

Owns: what both do to the caller's sequence; the system of a caller with one sequence
object, a chronology, and the threads that execute what was deferred; and the exact
condition on the caller under which every functor is executed once.
-/

namespace NtfCore.Ntcs

open NtfCore.Foundation List
open Chronology

/-- The contract of `ntci::Executor::moveAndExecute`: what is deferred before and after, and
what is left in the sequence. -/
structure MovedAndExecuted {Function : Type} (functorSequence : List Function)
    (functor : Option Function) (before after left : List Function) : Prop where
  deferred : after = before ++ functorSequence ++ functor.toList
  cleared : left = []

namespace Chronology

/-- `NTCS_CHRONOLOGY_USE_FUNCTOR_QUEUE_VECTOR`. -/
def useFunctorQueueVector : Bool := true

/-- `Chronology::moveAndExecute` and what it leaves in the sequence, with a vector or with a
list as the queue. -/
def moveSequence (vector : Bool) (chronology : Chronology) (functorSequence : List Nat)
    (functor : Option Nat) : Chronology × List Nat :=
  (chronology.moveAndExecute functorSequence functor, if vector then functorSequence else [])

/-- `Chronology::drain`, without a parent: the queue is emptied. -/
def drain (chronology : Chronology) : Chronology :=
  { chronology with functorQueue := [], functorQueueEmpty := true }

def functorsDue (chronology : Chronology) : Action -> List Nat
  | .collect single _ _ => if single then chronology.functorQueue.take 1 else chronology.functorQueue
  | _ => []

def Action.deferred : Action -> List Nat
  | .execute functor => [functor]
  | _ => []

theorem moveSequence_moved_iff (vector : Bool) (chron : Chronology)
    (functorSequence : List Nat) (functor : Option Nat) :
    MovedAndExecuted functorSequence functor chron.functorQueue
        (chron.moveSequence vector functorSequence functor).1.functorQueue
        (chron.moveSequence vector functorSequence functor).2 ↔
      vector = true -> functorSequence = [] := by
  constructor
  · intro moved isVector
    rw [← moved.cleared, moveSequence, isVector, if_pos rfl]
  · intro isEmpty
    constructor
    · rfl
    · unfold moveSequence
      cases vector with
      | false => rfl
      | true => exact isEmpty rfl

/-- What was deferred is executed or still deferred. -/
theorem functorsDue_append {chron next : Chronology} {action : Action}
    (taken : chron.step action = some next) :
    chron.functorsDue action ++ next.functorQueue = chron.functorQueue ++ action.deferred := by
  rw [(step_functors taken).1]
  cases action with
  | execute => rfl
  | collect single =>
    unfold functorsDue functorsAfter takeFunctors
    cases isQueue : chron.functorQueue with
    | nil => simp [Action.deferred, isQueue]
    | cons => cases single <;> simp [Action.deferred]
  | createTimer | schedule | cancel | close | finish | arrive | depart =>
    simp [functorsDue, functorsAfter, Action.deferred]

end Chronology

/-! ## One sequence for many calls -/

/-- A chronology, the sequence of a caller, and what the threads that execute functors have
taken from the queue. Functors are numbered as they are made. `passed` is what was given to
the chronology, with every functor as often as it was given, and `executed` what was
executed, in order. -/
structure Reuse where
  chronology : Chronology := {}
  functorSequence : List Nat := []
  created : Nat := 0
  passed : List Nat := []
  running : List (List Nat) := []
  executed : List Nat := []

/-- The caller adds a new functor to its sequence, clears it, or passes it, with a new functor
or with none; a section of the chronology is taken, `execute` with a new functor; a thread
drains the chronology, or invokes the next functor of those it has taken. -/
inductive Reuse.Action where
  | push
  | clear
  | moveAndExecute (withFunctor : Bool)
  | take (action : Chronology.Action)
  | drain
  | invoke (index : Nat)

namespace Reuse

def functor (reuse : Reuse) (withFunctor : Bool) : Option Nat :=
  if withFunctor then some reuse.created else none

def step (vector : Bool) (reuse : Reuse) : Action -> Option Reuse
  | .push => some { reuse with
      functorSequence := reuse.functorSequence ++ [reuse.created]
      created := reuse.created + 1 }
  | .clear => some { reuse with functorSequence := [] }
  | .moveAndExecute withFunctor =>
    let functor := reuse.functor withFunctor
    let (chronology, functorSequence) :=
      reuse.chronology.moveSequence vector reuse.functorSequence functor
    some { reuse with
      chronology := chronology
      functorSequence := functorSequence
      created := reuse.created + functor.toList.length
      passed := reuse.passed ++ reuse.functorSequence ++ functor.toList }
  | .take action =>
    if ∀ functor ∈ action.deferred, functor = reuse.created then
      (reuse.chronology.step action).map fun chronology =>
        { reuse with
          chronology := chronology
          created := reuse.created + action.deferred.length
          passed := reuse.passed ++ action.deferred
          running := reuse.running ++ [reuse.chronology.functorsDue action] }
    else none
  | .drain => some { reuse with
      chronology := reuse.chronology.drain
      running := reuse.running ++ [reuse.chronology.functorQueue] }
  | .invoke index =>
    match reuse.running[index]? with
    | some (functor :: rest) => some { reuse with
        running := reuse.running.set index rest
        executed := reuse.executed ++ [functor] }
    | _ => none

structure Begins (reuse : Reuse) : Prop where
  functorSequence : reuse.functorSequence = []
  running : reuse.running = []
  executed : reuse.executed = []
  passed : reuse.passed = reuse.chronology.functorQueue
  distinct : reuse.passed.Nodup
  numbered : ∀ functor ∈ reuse.passed, functor < reuse.created

def everywhere (reuse : Reuse) : List Nat :=
  reuse.executed ++ reuse.running.flatten ++ reuse.chronology.functorQueue

def Once (reuse : Reuse) : Prop := ∀ functor ∈ reuse.passed, reuse.everywhere.count functor = 1

def PassesNew (reuse : Reuse) : Action -> Prop
  | .moveAndExecute _ => ∀ functor ∈ reuse.functorSequence, functor ∉ reuse.passed
  | _ => True

instance (reuse : Reuse) : (action : Action) -> Decidable (reuse.PassesNew action)
  | .moveAndExecute _ => inferInstanceAs
      (Decidable (∀ functor ∈ reuse.functorSequence, functor ∉ reuse.passed))
  | .push | .clear | .take _ | .drain | .invoke _ => inferInstanceAs (Decidable True)

structure Kept (reuse : Reuse) : Prop where
  everywhere : reuse.everywhere.Perm reuse.passed
  sequence : ∀ functor ∈ reuse.functorSequence, functor < reuse.created
  passed : ∀ functor ∈ reuse.passed, functor < reuse.created
  distinct : reuse.functorSequence.Nodup

theorem Begins.kept {reuse : Reuse} (begins : reuse.Begins) : reuse.Kept where
  everywhere := by
    unfold everywhere
    rw [begins.executed, begins.running, begins.passed]
    exact Perm.refl _
  sequence := by simp [begins.functorSequence]
  passed := begins.numbered
  distinct := by simp [begins.functorSequence]

theorem Kept.once_iff {reuse : Reuse} (kept : reuse.Kept) : reuse.Once ↔ reuse.passed.Nodup := by
  have counts : ∀ functor, reuse.everywhere.count functor = reuse.passed.count functor :=
    fun functor => kept.everywhere.count_eq functor
  unfold Once
  rw [nodup_iff_count_eq_one]
  simp only [counts]

/-- New functors are given to the chronology, which defers them behind the others. -/
theorem Perm.defer {executed running before taken after passed added : List Nat}
    (kept : (executed ++ running ++ before).Perm passed)
    (moved : taken ++ after = before ++ added) :
    (executed ++ (running ++ taken) ++ after).Perm (passed ++ added) := by
  have sorted : executed ++ (running ++ taken) ++ after =
      executed ++ running ++ before ++ added := by
    rw [← append_assoc, append_assoc, moved, ← append_assoc]
  rw [sorted]
  exact kept.append_right added

theorem Perm.invoke {executed deferred passed : List Nat} {running : List (List Nat)}
    {index functor : Nat} {rest : List Nat} (found : running[index]? = some (functor :: rest))
    (kept : (executed ++ running.flatten ++ deferred).Perm passed) :
    (executed ++ [functor] ++ (running.set index rest).flatten ++ deferred).Perm passed := by
  obtain ⟨_, _, isRunning, isSet⟩ := Lists.set_split found rest
  refine Perm.trans ?_ kept
  rw [isSet, isRunning]
  apply Perm.append_right
  rw [append_assoc]
  apply Perm.append_left
  simp only [flatten_append, flatten_cons, cons_append, nil_append]
  exact perm_middle.symm

variable {vector : Bool} {reuse next : Reuse} {action : Action}

theorem step_kept (kept : reuse.Kept) (taken : reuse.step vector action = some next) :
    next.Kept := by
  cases action with
  | push =>
    cases taken
    constructor
    · exact kept.everywhere
    · intro functor mem
      rcases mem_append.mp mem with earlier | isNew
      · exact Nat.lt_succ_of_lt (kept.sequence functor earlier)
      · rw [mem_singleton.mp isNew]
        exact Nat.lt_succ_self _
    · exact fun functor mem => Nat.lt_succ_of_lt (kept.passed functor mem)
    · apply nodup_append.mpr
      refine ⟨kept.distinct, nodup_singleton _, ?_⟩
      intro earlier mem _ isLater same
      have isOld := kept.sequence earlier mem
      rw [same, mem_singleton.mp isLater] at isOld
      exact Nat.lt_irrefl _ isOld
  | clear =>
    cases taken
    exact { kept with sequence := by simp, distinct := nodup_nil }
  | moveAndExecute withFunctor =>
    cases taken
    have isNew : ∀ functor ∈ (reuse.functor withFunctor).toList,
        functor < reuse.created + (reuse.functor withFunctor).toList.length := by
      unfold functor
      cases withFunctor <;> simp
    have left : ∀ functor ∈ (reuse.chronology.moveSequence vector reuse.functorSequence
        (reuse.functor withFunctor)).2, functor ∈ reuse.functorSequence := by
      unfold moveSequence
      cases vector <;> simp
    constructor
    · have moved := Perm.defer kept.everywhere (show ([] : List Nat) ++
        (reuse.chronology.functorQueue ++ (reuse.functorSequence ++
          (reuse.functor withFunctor).toList)) = reuse.chronology.functorQueue ++
            (reuse.functorSequence ++ (reuse.functor withFunctor).toList) from rfl)
      simpa only [everywhere, moveSequence, moveAndExecute, append_nil, ← append_assoc] using moved
    · exact fun functor mem =>
        Nat.lt_add_right _ (kept.sequence functor (left functor mem))
    · intro functor mem
      rcases mem_append.mp mem with earlier | fresh
      · rcases mem_append.mp earlier with isPassed | inSequence
        · exact Nat.lt_add_right _ (kept.passed functor isPassed)
        · exact Nat.lt_add_right _ (kept.sequence functor inSequence)
      · exact isNew functor fresh
    · dsimp only [moveSequence]
      split
      · exact kept.distinct
      · exact nodup_nil
  | take section? =>
    unfold step at taken
    dsimp only at taken
    split at taken
    · rename_i isNew
      obtain ⟨_, stepped, isNext⟩ := Option.map_eq_some_iff.mp taken
      rw [← isNext]
      constructor
      · show (reuse.executed ++ (reuse.running ++ [_]).flatten ++ _).Perm _
        rw [flatten_append, flatten_singleton]
        exact Perm.defer kept.everywhere (functorsDue_append stepped)
      · exact fun functor mem => Nat.lt_add_right _ (kept.sequence functor mem)
      · intro functor mem
        rcases mem_append.mp mem with earlier | fresh
        · exact Nat.lt_add_right _ (kept.passed functor earlier)
        · rw [isNew functor fresh]
          exact Nat.lt_add_of_pos_right (length_pos_of_mem fresh)
      · exact kept.distinct
    · contradiction
  | drain =>
    cases taken
    refine { kept with everywhere := ?_ }
    show (reuse.executed ++ (reuse.running ++ [_]).flatten ++ _).Perm _
    rw [flatten_append, flatten_singleton]
    have moved := Perm.defer kept.everywhere (show reuse.chronology.functorQueue ++
      ([] : List Nat) = reuse.chronology.functorQueue ++ [] from rfl)
    rw [append_nil reuse.passed] at moved
    exact moved
  | invoke =>
    unfold step at taken
    dsimp only at taken
    split at taken
    · rename_i _ _ found
      cases taken
      exact { kept with everywhere := Perm.invoke found kept.everywhere }
    · contradiction

/-- Whether the functors that were passed are still told apart after a step. -/
theorem step_distinct_iff (kept : reuse.Kept) (distinct : reuse.passed.Nodup)
    (taken : reuse.step vector action = some next) :
    next.passed.Nodup ↔ reuse.PassesNew action := by
  cases action with
  | push | clear | drain =>
    cases taken
    exact ⟨fun _ => trivial, fun _ => distinct⟩
  | moveAndExecute withFunctor =>
    cases taken
    have isNew : ∀ functor ∈ (reuse.functor withFunctor).toList, functor = reuse.created := by
      unfold functor
      cases withFunctor <;> simp
    have single : (reuse.functor withFunctor).toList.Nodup := by
      unfold functor
      cases withFunctor <;> simp
    constructor
    · intro distinctAfter functor inSequence isPassed
      exact (nodup_append.mp (nodup_append.mp distinctAfter).1).2.2
        functor isPassed functor inSequence rfl
    · intro passesNew
      apply nodup_append.mpr
      refine ⟨nodup_append.mpr ⟨distinct, kept.distinct, ?_⟩, single, ?_⟩
      · intro functor isPassed other inSequence same
        rw [same] at isPassed
        exact passesNew other inSequence isPassed
      · intro functor mem other fresh same
        have isOld : functor < reuse.created := by
          rcases mem_append.mp mem with isPassed | inSequence
          · exact kept.passed functor isPassed
          · exact kept.sequence functor inSequence
        rw [same, isNew other fresh] at isOld
        exact Nat.lt_irrefl _ isOld
  | take section? =>
    unfold step at taken
    dsimp only at taken
    split at taken
    · rename_i isNew
      obtain ⟨_, _, isNext⟩ := Option.map_eq_some_iff.mp taken
      rw [← isNext]
      refine ⟨fun _ => trivial, fun _ => nodup_append.mpr ⟨distinct, ?_, ?_⟩⟩
      · cases section? <;> simp [Action.deferred]
      · intro functor isPassed other fresh same
        have isOld := kept.passed functor isPassed
        rw [same, isNew other fresh] at isOld
        exact Nat.lt_irrefl _ isOld
    · contradiction
  | invoke =>
    unfold step at taken
    dsimp only at taken
    split at taken
    · cases taken
      exact ⟨fun _ => trivial, fun _ => distinct⟩
    · contradiction

/-- In every run each functor is executed once, if and only if the caller never passes a
functor again. -/
theorem once_iff_passesNew {actions : List Action} (begins : reuse.Begins) :
    Run.Always (step vector) Once reuse actions ↔ Run.Along (step vector)
    PassesNew reuse actions := by
  have visible : ∀ reuse : Reuse, reuse.Kept ∧ reuse.passed.Nodup -> reuse.Once :=
    fun _ kept => kept.1.once_iff.mpr kept.2
  apply Run.always_iff_along visible
  · intro before action after kept passesNew taken
    exact ⟨step_kept kept.1 taken, (step_distinct_iff kept.1 kept.2 taken).mpr passesNew⟩
  · intro _ _ _ kept taken once
    exact (step_distinct_iff kept.1 kept.2 taken).mp ((step_kept kept.1 taken).once_iff.mp once)
  · exact ⟨begins.kept, begins.distinct⟩

end Reuse

/-- What a chronology does with the sequence of a caller. -/
theorem moveAndExecute_iff (chronology : Chronology) (functorSequence : List Nat)
    (functor : Option Nat) {reuse : Reuse} {actions : List Reuse.Action} (begins : reuse.Begins) :
    ((chronology.moveSequence useFunctorQueueVector functorSequence functor).1.functorQueue =
        chronology.functorQueue ++ functorSequence ++ functor.toList) ∧
      (MovedAndExecuted functorSequence functor chronology.functorQueue
          (chronology.moveSequence useFunctorQueueVector functorSequence functor).1.functorQueue
          (chronology.moveSequence useFunctorQueueVector functorSequence functor).2 ↔
        functorSequence = []) ∧
      (Run.Always (Reuse.step useFunctorQueueVector) Reuse.Once reuse actions ↔
        Run.Along (Reuse.step useFunctorQueueVector) Reuse.PassesNew reuse actions) := by
  refine ⟨rfl, ?_, Reuse.once_iff_passesNew begins⟩
  rw [moveSequence_moved_iff]
  exact ⟨fun isEmpty => isEmpty rfl, fun isEmpty _ => isEmpty⟩

/-- A caller that clears its sequence, as the sockets do. -/
theorem moveAndExecute_cleared : Run.Along (Reuse.step useFunctorQueueVector) Reuse.PassesNew {}
        [.push, .moveAndExecute true, .clear, .push, .moveAndExecute false, .drain, .invoke 0] ∧
      Run.Always (Reuse.step useFunctorQueueVector) Reuse.Once {}
        [.push, .moveAndExecute true, .clear, .push, .moveAndExecute false, .drain, .invoke 0] := by
  have passesNew : Run.Along (Reuse.step useFunctorQueueVector) Reuse.PassesNew {}
      [.push, .moveAndExecute true, .clear, .push, .moveAndExecute false, .drain, .invoke 0] :=
    ⟨trivial, by decide, trivial, trivial, by decide, trivial, trivial, trivial⟩
  exact ⟨passesNew, (moveAndExecute_iff {} [0] none
    ⟨rfl, rfl, rfl, rfl, nodup_nil, by simp⟩).2.2.mpr passesNew⟩

/-- A caller that relies on the contract: the functor is executed by both calls. -/
theorem moveAndExecute_reused :
    ¬ ((∀ (chronology : Chronology) (functorSequence : List Nat) (functor : Option Nat),
          MovedAndExecuted functorSequence functor chronology.functorQueue
            (chronology.moveSequence useFunctorQueueVector functorSequence functor).1.functorQueue
            (chronology.moveSequence useFunctorQueueVector functorSequence functor).2) ∧
        ∀ (reuse : Reuse) (actions : List Reuse.Action), reuse.Begins ->
          Run.Always (Reuse.step useFunctorQueueVector) Reuse.Once reuse actions) ∧
      ¬ MovedAndExecuted [0] none [] [0]
        (({} : Chronology).moveSequence useFunctorQueueVector [0] none).2 ∧
      (Run.run (Reuse.step useFunctorQueueVector) {}
        [.push, .moveAndExecute false, .moveAndExecute false, .drain, .invoke 0, .invoke 0]).map
          Reuse.executed = some [0, 0] := by
  refine ⟨fun holds => absurd (holds.1 {} [0] none).cleared (by decide), ?_, by decide⟩
  exact fun moved => absurd moved.cleared (by decide)

end NtfCore.Ntcs
