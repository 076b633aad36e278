import Mathlib.Algebra.GroupWithZero.Nat
import NtfCore.Foundation.Run

/-!
Contract: a strand (`ntcs::Strand`) with the greedy algorithm, which is the one
the source selects.

Owns: the critical sections of `execute`, `moveAndExecute` and `invoke`; the
system of any number of calling threads and any number of executor threads,
where each critical section is one step and a function may call the strand
while it runs; and the theorem that the functions run one at a time, in the
order in which they were submitted, and that all of them are executed when no
more calls come, however the remaining steps are ordered.

Does not own: the executor beyond running each submitted `invoke` once, and
`drain` and `clear`, which require that nothing is pending or drop functions.
-/

namespace NtfCore.Ntcs

open NtfCore.Foundation List

variable {Function : Type}

/-- The state of `ntcs::Strand` guarded by its mutex. -/
structure Strand (Function : Type) where
  functorQueue : List Function := []
  pending : Bool := false

namespace Strand

def activate (strand : Strand Function) : Bool × Strand Function :=
  if strand.pending then (false, strand) else (true, { strand with pending := true })

/-- The critical section of `Strand::execute`. -/
def execute (strand : Strand Function) (function : Function) : Bool × Strand Function :=
  activate { strand with functorQueue := strand.functorQueue ++ [function] }

/-- The critical section of `Strand::moveAndExecute`. A null functor is `none`. -/
def moveAndExecute (strand : Strand Function) (functorSequence : List Function)
    (functor : Option Function) : Bool × Strand Function :=
  activate { strand with
    functorQueue := strand.functorQueue ++ functorSequence ++ functor.toList }

/-- The critical section of `Strand::invoke`: the functions to run, or `none`
when the loop is left. -/
def take (strand : Strand Function) : Option (List Function) × Strand Function :=
  match strand.functorQueue with
  | [] => (none, { strand with pending := false })
  | function :: rest => (some (function :: rest), { strand with functorQueue := [] })

end Strand

/-- One run of `Strand::invoke`: the function that is being executed and those
after it in the local queue. -/
structure Invocation (Function : Type) where
  current : Option Function := none
  remaining : List Function := []

inductive StrandEvent (Function : Type) where
  | started (function : Function)
  | finished (function : Function)

/-- A strand and everything outside of its mutex: the threads that have left
`execute` or `moveAndExecute` with the duty to activate it, the calls of
`invoke` submitted to the executor, and the running ones. The functions
submitted and the events of their execution are recorded in order. -/
structure StrandSystem (Function : Type) where
  strand : Strand Function := {}
  activations : Nat := 0
  queued : Nat := 0
  running : List (Invocation Function) := []
  submitted : List Function := []
  events : List (StrandEvent Function) := []

inductive StrandAction (Function : Type) where
  | execute (function : Function)
  | moveAndExecute (functorSequence : List Function) (functor : Option Function)
  | submit
  | invoke
  | take (index : Nat)
  | start (index : Nat)
  | finish (index : Nat)

def StrandAction.completes : StrandAction Function -> Bool
  | .execute _ => false
  | .moveAndExecute _ _ => false
  | _ => true

namespace StrandSystem

/-- The state after a critical section of `execute` or `moveAndExecute`. -/
def submission (system : StrandSystem Function) (functions : List Function)
    (result : Bool × Strand Function) : StrandSystem Function :=
  { system with
    strand := result.2
    activations := system.activations + if result.1 then 1 else 0
    submitted := system.submitted ++ functions }

def step (system : StrandSystem Function) : StrandAction Function -> Option (StrandSystem Function)
  | .execute function =>
    some (system.submission [function] (system.strand.execute function))
  | .moveAndExecute functorSequence functor =>
    some (system.submission (functorSequence ++ functor.toList)
      (system.strand.moveAndExecute functorSequence functor))
  | .submit =>
    match system.activations with
    | 0 => none
    | activations + 1 =>
      some { system with activations := activations, queued := system.queued + 1 }
  | .invoke =>
    match system.queued with
    | 0 => none
    | queued + 1 => some { system with queued := queued, running := system.running ++ [{}] }
  | .take index =>
    match system.running[index]? with
    | some ⟨none, []⟩ =>
      match system.strand.take with
      | (some functions, strand) =>
        some { system with
          strand := strand
          running := system.running.set index ⟨none, functions⟩ }
      | (none, strand) =>
        some { system with strand := strand, running := system.running.eraseIdx index }
    | _ => none
  | .start index =>
    match system.running[index]? with
    | some ⟨none, function :: rest⟩ =>
      some { system with
        running := system.running.set index ⟨some function, rest⟩
        events := system.events ++ [.started function] }
    | _ => none
  | .finish index =>
    match system.running[index]? with
    | some ⟨some function, rest⟩ =>
      some { system with
        running := system.running.set index ⟨none, rest⟩
        events := system.events ++ [.finished function] }
    | _ => none

/-! ## Serial execution -/

def serialEvents (functions : List Function) : List (StrandEvent Function) :=
  functions.flatMap fun function => [.started function, .finished function]

def executing (system : StrandSystem Function) : List Function :=
  system.running.flatMap fun invocation => invocation.current.toList

def taken (system : StrandSystem Function) : List Function :=
  system.running.flatMap Invocation.remaining

/-- The measure that every completing step lowers: a function counts for the steps
between it and the end of its execution, and so does a duty to run `invoke`. -/
def work (system : StrandSystem Function) : Nat :=
  3 * system.activations + 2 * system.queued +
    (system.running.map fun invocation =>
      1 + invocation.current.toList.length + 2 * invocation.remaining.length).sum +
    3 * system.strand.functorQueue.length

structure Serial (system : StrandSystem Function) : Prop where
  /-- At most one `invoke` is queued or running. -/
  single : system.queued + system.running.length ≤ 1
  /-- The flag is set exactly while an `invoke` is outstanding, and then one is. -/
  outstanding : system.activations + system.queued + system.running.length =
    if system.strand.pending then 1 else 0
  waiting : system.strand.functorQueue ≠ [] -> system.strand.pending = true
  /-- The functions executed, the one being executed, those taken and those in
  the queue are the ones submitted, in order, and they ran one at a time. -/
  order : ∃ executed, system.events =
      serialEvents executed ++ system.executing.map StrandEvent.started ∧
    system.submitted =
      executed ++ system.executing ++ system.taken ++ system.strand.functorQueue
  /-- When nothing is pending every function submitted has been executed. -/
  idle : system.strand.pending = false -> system.events = serialEvents system.submitted
  /-- While something is pending some thread can take a step towards it. -/
  progress : system.strand.pending = true ->
    ∃ action, StrandAction.completes action = true ∧ (system.step action).isSome = true
  /-- The steps of threads that make no further call come to an end. -/
  lowers : ∀ action next, StrandAction.completes action = true ->
    system.step action = some next -> next.work < system.work
  /-- They reach a state where nothing is pending and exactly the functions submitted
  have been executed, in order. -/
  drains : ∃ actions final, (∀ action ∈ actions, StrandAction.completes action = true) ∧
    Run.run step system actions = some final ∧ final.strand.pending = false ∧
    final.events = serialEvents system.submitted

/-- The part of `Serial` the other parts follow from. -/
structure Invariant (system : StrandSystem Function) : Prop where
  outstanding : system.activations + system.queued + system.running.length =
    if system.strand.pending then 1 else 0
  waiting : system.strand.functorQueue ≠ [] -> system.strand.pending = true
  order : ∃ executed, system.events =
      serialEvents executed ++ system.executing.map StrandEvent.started ∧
    system.submitted =
      executed ++ system.executing ++ system.taken ++ system.strand.functorQueue

variable {system : StrandSystem Function}

theorem Invariant.running_cases (holds : system.Invariant) : system.running = [] ∨
      ∃ invocation, system.running = [invocation] ∧ system.activations = 0 ∧
        system.queued = 0 ∧ system.strand.pending = true := by
  have count := holds.outstanding
  cases shape : system.running with
  | nil => exact .inl rfl
  | cons invocation rest =>
    rw [shape, length_cons] at count
    split at count
    · rename_i pending
      have restEmpty : rest = [] := eq_nil_of_length_eq_zero (by omega)
      exact .inr ⟨invocation, by rw [restEmpty], by omega, by omega, pending⟩
    · omega

variable {index : Nat}

section

variable (holds : system.Invariant)
include holds

/-- A step of an invocation is a step of the only one. -/
theorem Invariant.at_index {invocation : Invocation Function}
    (found : system.running[index]? = some invocation) :
    index = 0 ∧ system.running = [invocation] ∧ system.activations = 0 ∧
      system.queued = 0 ∧ system.strand.pending = true := by
  rcases holds.running_cases with none | ⟨only, shape, activations, queued, pending⟩
  · simp [none] at found
  · rw [shape] at found
    cases index with
    | zero =>
      have isOnly : only = invocation := by simpa using found
      rw [isOnly] at shape
      exact ⟨rfl, shape, activations, queued, pending⟩
    | succ => simp at found

theorem Invariant.idle (notPending : system.strand.pending = false) :
    system.events = serialEvents system.submitted := by
  have count := holds.outstanding
  rw [notPending] at count
  have noRunning : system.running = [] := by
    apply eq_nil_of_length_eq_zero
    simp only [Bool.false_eq_true, ↓reduceIte] at count
    omega
  have noQueue : system.strand.functorQueue = [] := by
    by_contra someQueue
    rw [holds.waiting someQueue] at notPending
    contradiction
  obtain ⟨_, eventsEq, submittedEq⟩ := holds.order
  simp only [executing, taken, noRunning, noQueue, flatMap_nil, map_nil,
    append_nil] at eventsEq submittedEq
  rw [eventsEq, submittedEq]

theorem Invariant.progress (pending : system.strand.pending = true) :
    ∃ action, StrandAction.completes action = true ∧ (system.step action).isSome = true := by
  have count := holds.outstanding
  rw [pending, if_pos rfl] at count
  rcases holds.running_cases with none | ⟨invocation, shape, _⟩
  · rw [none, length_nil] at count
    cases activations : system.activations with
    | zero =>
      cases queued : system.queued with
      | zero => omega
      | succ => exact ⟨.invoke, rfl, by simp [step, queued]⟩
    | succ => exact ⟨.submit, rfl, by simp [step, activations]⟩
  · rcases invocation with ⟨current, remaining⟩
    cases current with
    | some => exact ⟨.finish 0, rfl, by simp [step, shape]⟩
    | none =>
      cases remaining with
      | cons => exact ⟨.start 0, rfl, by simp [step, shape]⟩
      | nil =>
        refine ⟨.take 0, rfl, ?_⟩
        cases queue : system.strand.functorQueue with
        | nil | cons _ _ => simp [step, shape, Strand.take, queue]

end

theorem start_invariant : ({} : StrandSystem Function).Invariant where
  outstanding := rfl
  waiting := fun ne => absurd rfl ne
  order := ⟨[], rfl, rfl⟩

open StrandSystem

theorem Invariant.submission (holds : system.Invariant) (functions : List Function) :
    (system.submission functions (Strand.activate { system.strand with
      functorQueue := system.strand.functorQueue ++ functions })).Invariant := by
  have count := holds.outstanding
  obtain ⟨executed, eventsEq, submittedEq⟩ := holds.order
  have appended : system.submitted ++ functions = executed ++ system.executing ++ system.taken ++
        (system.strand.functorQueue ++ functions) := by rw [submittedEq, append_assoc _ _ functions]
  cases pending : system.strand.pending with
  | true =>
    rw [pending, if_pos rfl] at count
    have activated : Strand.activate { system.strand with
        functorQueue := system.strand.functorQueue ++ functions } =
        (false, { system.strand with
          functorQueue := system.strand.functorQueue ++ functions }) := if_pos pending
    rw [activated]
    refine ⟨?_, fun _ => pending, executed, eventsEq, appended⟩
    simp only [StrandSystem.submission, pending, ↓reduceIte, Bool.false_eq_true]
    exact count
  | false =>
    rw [pending] at count
    simp only [Bool.false_eq_true, ↓reduceIte] at count
    have activated : Strand.activate { system.strand with
        functorQueue := system.strand.functorQueue ++ functions } =
        (true, { functorQueue := system.strand.functorQueue ++ functions, pending := true }) :=
      if_neg (by simp [pending])
    rw [activated]
    refine ⟨?_, fun _ => rfl, executed, eventsEq, appended⟩
    simp only [StrandSystem.submission, ↓reduceIte]
    omega

variable {system next : StrandSystem Function}

section

variable (holds : system.Invariant)
include holds

theorem Invariant.take (stepped : system.step (.take index) = some next) : next.Invariant := by
  simp only [step] at stepped
  split at stepped
  · rename_i found
    obtain ⟨isZero, shape, activations, queued, pending⟩ := holds.at_index found
    obtain ⟨executed, eventsEq, submittedEq⟩ := holds.order
    simp only [executing, taken, shape, flatMap_singleton, Option.toList_none,
      map_nil, append_nil] at eventsEq submittedEq
    cases queue : system.strand.functorQueue with
    | nil | cons _ _ =>
      simp only [Strand.take, queue] at stepped
      cases stepped
      rw [isZero, shape]
      refine ⟨?_, fun ne => absurd rfl ne, executed, ?_, ?_⟩
      · simp [activations, queued, pending]
      · simpa [executing] using eventsEq
      · simpa [executing, taken, queue] using submittedEq
  · contradiction

theorem Invariant.start (stepped : system.step (.start index) = some next) : next.Invariant := by
  simp only [step] at stepped
  split at stepped
  · rename_i _ _ found
    obtain ⟨isZero, shape, activations, queued, pending⟩ := holds.at_index found
    obtain ⟨executed, eventsEq, submittedEq⟩ := holds.order
    simp only [executing, taken, shape, flatMap_singleton, Option.toList_none,
      map_nil, append_nil] at eventsEq submittedEq
    cases stepped
    rw [isZero, shape]
    refine ⟨?_, holds.waiting, executed, ?_, ?_⟩
    · simp [activations, queued, pending]
    · simp [executing, eventsEq]
    · simp [executing, taken, submittedEq]
  · contradiction

theorem Invariant.finish (stepped : system.step (.finish index) = some next) : next.Invariant := by
  simp only [step] at stepped
  split at stepped
  · rename_i function _ found
    obtain ⟨isZero, shape, activations, queued, pending⟩ := holds.at_index found
    obtain ⟨executed, eventsEq, submittedEq⟩ := holds.order
    simp only [executing, taken, shape, flatMap_singleton, Option.toList_some,
      map_cons, map_nil] at eventsEq submittedEq
    cases stepped
    rw [isZero, shape]
    refine ⟨?_, holds.waiting, executed ++ [function], ?_, ?_⟩
    · simp [activations, queued, pending]
    · simp [executing, serialEvents, eventsEq]
    · simp [executing, taken, submittedEq]
  · contradiction

end

theorem step_invariant (system : StrandSystem Function) (action : StrandAction Function)
    (next : StrandSystem Function) (holds : system.Invariant)
    (stepped : system.step action = some next) : next.Invariant := by
  cases action with
  | execute function =>
    cases stepped
    exact holds.submission [function]
  | moveAndExecute functorSequence functor =>
    cases stepped
    have appended := holds.submission (functorSequence ++ functor.toList)
    rw [← append_assoc] at appended
    exact appended
  | submit =>
    have count := holds.outstanding
    simp only [step] at stepped
    split at stepped
    · contradiction
    · rename_i activations isSucc
      cases stepped
      refine ⟨?_, holds.waiting, holds.order⟩
      dsimp only
      omega
  | invoke =>
    have count := holds.outstanding
    simp only [step] at stepped
    split at stepped
    · contradiction
    · rename_i queued isSucc
      cases stepped
      obtain ⟨executed, eventsEq, submittedEq⟩ := holds.order
      refine ⟨?_, holds.waiting, executed, ?_, ?_⟩
      · simp only [length_append, length_singleton]
        omega
      · simpa [executing] using eventsEq
      · simpa [executing, taken] using submittedEq
  | take index => exact holds.take stepped
  | start index => exact holds.start stepped
  | finish index => exact holds.finish stepped

/-! ## Completion -/

section

variable (holds : system.Invariant)
include holds

/-- A completing step submits nothing and leaves less work. -/
theorem Invariant.completes {action : StrandAction Function} (completing : action.completes = true)
    (stepped : system.step action = some next) :
    next.submitted = system.submitted ∧ next.work < system.work := by
  cases action with
  | execute | moveAndExecute => contradiction
  | submit =>
    simp only [step] at stepped
    split at stepped
    · contradiction
    · rename_i activations isSucc
      cases stepped
      exact ⟨rfl, by simp +arith [work, isSucc]⟩
  | invoke =>
    simp only [step] at stepped
    split at stepped
    · contradiction
    · rename_i queued isSucc
      cases stepped
      exact ⟨rfl, by simp +arith [work, isSucc]⟩
  | take =>
    simp only [step] at stepped
    split at stepped
    · rename_i found
      obtain ⟨isZero, shape, _⟩ := holds.at_index found
      cases queue : system.strand.functorQueue with
      | nil | cons _ _ =>
        simp only [Strand.take, queue] at stepped
        cases stepped
        exact ⟨rfl, by simp +arith [work, isZero, shape, queue]⟩
    · contradiction
  | start =>
    simp only [step] at stepped
    split at stepped
    · rename_i found
      obtain ⟨isZero, shape, _⟩ := holds.at_index found
      cases stepped
      exact ⟨rfl, by simp +arith [work, isZero, shape]⟩
    · contradiction
  | finish =>
    simp only [step] at stepped
    split at stepped
    · rename_i found
      obtain ⟨isZero, shape, _⟩ := holds.at_index found
      cases stepped
      exact ⟨rfl, by simp +arith [work, isZero, shape]⟩
    · contradiction

/-- By induction on the work: while something is pending a completing step is enabled. -/
theorem Invariant.drains : ∃ actions final,
    (∀ action ∈ actions, StrandAction.completes action = true) ∧
      Run.run step system actions = some final ∧ final.strand.pending = false ∧
      final.events = serialEvents system.submitted := by
  induction measure : system.work using Nat.strongRecOn generalizing system with
  | ind _ ih =>
    cases pending : system.strand.pending with
    | false => exact ⟨[], system, forall_mem_nil _, rfl, pending, holds.idle pending⟩
    | true =>
      obtain ⟨action, completing, enabled⟩ := holds.progress pending
      obtain ⟨next, stepped⟩ := Option.isSome_iff_exists.mp enabled
      obtain ⟨sameSubmitted, lower⟩ := holds.completes completing stepped
      obtain ⟨rest, final, allComplete, isRun, isIdle, executed⟩ :=
        ih next.work (measure ▸ lower) (step_invariant system action next holds stepped) rfl
      refine ⟨action :: rest, final, forall_mem_cons.mpr ⟨completing, allComplete⟩, ?_, isIdle, ?_⟩
      · rw [Run.run_cons_of_step stepped]
        exact isRun
      · rw [executed, sameSubmitted]

theorem Invariant.serial : system.Serial := { holds with
  single := by
    have count := holds.outstanding
    split at count <;> omega
  idle := holds.idle
  progress := holds.progress
  lowers := fun _ _ completing stepped => (holds.completes completing stepped).2
  drains := holds.drains }

end

end StrandSystem

/-- In every interleaving of calls of the strand with the steps of the executor
threads, functions run one at a time and in the order of their submission. -/
theorem strand_serial (actions : List (StrandAction Function)) :
    Run.Always StrandSystem.step StrandSystem.Serial {} actions := by
  refine Run.Always.mono (fun _ holds => StrandSystem.Invariant.serial holds) ?_
  exact Run.always_of_keeps StrandSystem.step_invariant StrandSystem.start_invariant

end NtfCore.Ntcs
