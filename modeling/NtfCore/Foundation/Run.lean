import Mathlib.Data.List.Basic

/-!
Contract: runs of a guarded deterministic transition function.

A component is a partial step function: `step state action` is `none` when the
precondition of the action does not hold in `state`. A run is a list of
actions, taken one after another.

Owns: the run of a list of actions; the two ways of speaking about every state
of a run (`Always`) and every step of a run (`Along`); the invariant rule; and
the rule that turns an exact condition on one step into an exact condition on
whole runs.
-/

namespace NtfCore.Foundation.Run

variable {State Action : Type}

/-- A guarded transition is taken where the guard holds. -/
theorem guarded {condition : Prop} [Decidable condition] {after next : State}
    (taken : (if condition then some after else none) = some next) : condition ∧ after = next := by
  split at taken
  · rename_i holds
    exact ⟨holds, Option.some.inj taken⟩
  · contradiction

/-- Take the actions in order. The run ends at the first refused action. -/
def run (step : State -> Action -> Option State) : State -> List Action -> Option State
  | state, [] => some state
  | state, action :: rest =>
    match step state action with
    | some next => run step next rest
    | none => none

/-- Every step of the run from `state` meets the condition, which reads the
state before the step and the action. -/
def Along (step : State -> Action -> Option State) (condition : State -> Action -> Prop) :
    State -> List Action -> Prop
  | _, [] => True
  | state, action :: rest =>
    match step state action with
    | some next => condition state action ∧ Along step condition next rest
    | none => True

/-- Every state the run from `state` reaches, the first one included, has the
property. -/
def Always (step : State -> Action -> Option State) (property : State -> Prop) :
    State -> List Action -> Prop
  | state, [] => property state
  | state, action :: rest =>
    property state ∧
      match step state action with
      | some next => Always step property next rest
      | none => True

/-- A property that can be decided of a state can be decided of all states of a run. -/
instance decidableAlways {step : State -> Action -> Option State} {property : State -> Prop}
    [DecidablePred property] :
    (state : State) -> (actions : List Action) -> Decidable (Always step property state actions)
  | state, [] => inferInstanceAs (Decidable (property state))
  | state, action :: rest =>
    match stepped : step state action with
    | some next =>
      have : Decidable (Always step property next rest) := decidableAlways next rest
      decidable_of_iff (property state ∧ Always step property next rest)
        (by simp [Always, stepped])
    | none => decidable_of_iff (property state) (by simp [Always, stepped])

section Rules

variable {step : State -> Action -> Option State} {condition : State -> Action -> Prop}
  {property inv : State -> Prop}

theorem run_cons_of_step {state next : State} {action : Action} {rest : List Action}
    (taken : step state action = some next) :
    run step state (action :: rest) = run step next rest := by
  simp [run, taken]

/-- A property of every state reached is a property of the state where a
prefix of the run ends. -/
theorem always_iff (state : State) (actions : List Action) : Always step property state actions ↔
      ∀ before after final, before ++ after = actions ->
        run step state before = some final -> property final := by
  induction actions generalizing state with
  | nil =>
    constructor
    · intro holds before after final split taken
      obtain ⟨rfl, rfl⟩ := List.append_eq_nil_iff.mp split
      cases taken
      exact holds
    · intro holds
      exact holds [] [] state rfl rfl
  | cons action rest ih =>
    constructor
    · intro holds before after final split taken
      cases before with
      | nil =>
        cases taken
        exact holds.1
      | cons head tail =>
        obtain ⟨rfl, tailSplit⟩ := List.cons_eq_cons.mp split
        simp only [run] at taken
        simp only [Always] at holds
        cases stepped : step state head with
        | none => simp [stepped] at taken
        | some next =>
          simp only [stepped] at taken holds
          exact (ih next).mp holds.2 tail after final tailSplit taken
    · intro holds
      refine ⟨holds [] (action :: rest) state rfl rfl, ?_⟩
      cases stepped : step state action with
      | none => trivial
      | some next =>
        refine (ih next).mpr ?_
        intro before after final split taken
        refine holds (action :: before) after final (by rw [List.cons_append, split]) ?_
        rw [run_cons_of_step stepped]
        exact taken

variable {actions : List Action} {state : State}

theorem always_of_along (keeps : ∀ state action next, inv state -> condition state action ->
      step state action = some next -> inv next)
    (start : inv state) (meets : Along step condition state actions) :
    Always step inv state actions := by
  induction actions generalizing state with
  | nil => exact start
  | cons action _ ih =>
    refine ⟨start, ?_⟩
    simp only [Along] at meets
    cases stepped : step state action with
    | none => trivial
    | some next =>
      simp only [stepped] at meets
      exact ih (keeps state action next start meets.1 stepped) meets.2

theorem always_of_keeps
    (keeps : ∀ state action next, inv state -> step state action = some next -> inv next)
    (start : inv state) : Always step inv state actions := by
  induction actions generalizing state with
  | nil => exact start
  | cons action _ ih =>
    refine ⟨start, ?_⟩
    cases stepped : step state action with
    | none => trivial
    | some next => exact ih (keeps state action next start stepped)

theorem always_of_within (keeps : ∀ state action next, inv state -> property next ->
      step state action = some next -> inv next) (start : inv state)
    (within : Always step property state actions) : Always step inv state actions := by
  induction actions generalizing state with
  | nil => exact start
  | cons action rest ih =>
    refine ⟨start, ?_⟩
    simp only [Always] at within
    cases stepped : step state action with
    | none => trivial
    | some next =>
      simp only [stepped] at within
      have reached : property next := by
        cases rest with
        | nil => exact within.2
        | cons => exact within.2.1
      exact ih (keeps state action next start reached stepped) within.2

theorem Always.mono (implied : ∀ state, inv state -> property state)
    (holds : Always step inv state actions) : Always step property state actions := by
  rw [always_iff] at holds ⊢
  intro before after final split taken
  exact implied final (holds before after final split taken)

theorem along_of_always (guaranteed : ∀ state action, inv state -> condition state action)
    (holds : Always step inv state actions) : Along step condition state actions := by
  induction actions generalizing state with
  | nil => trivial
  | cons action _ ih =>
    simp only [Always] at holds
    simp only [Along]
    cases stepped : step state action with
    | none => trivial
    | some =>
      simp only [stepped] at holds
      exact ⟨guaranteed state action holds.1, ih holds.2⟩

/-- When a property of a step is equivalent to the condition on it, and the condition
keeps the invariant that the equivalence needs, both are equivalent along a run. -/
theorem along_iff {stepProperty : State -> Action -> Prop}
    (equivalent : ∀ state action next, inv state -> step state action = some next ->
      (stepProperty state action ↔ condition state action))
    (keeps : ∀ state action next, inv state -> condition state action ->
      step state action = some next -> inv next) (start : inv state) :
    Along step stepProperty state actions ↔ Along step condition state actions := by
  induction actions generalizing state with
  | nil => exact Iff.rfl
  | cons action _ ih =>
    simp only [Along]
    cases stepped : step state action with
    | none => exact Iff.rfl
    | some next =>
      rw [equivalent state action next start stepped]
      exact and_congr_right fun meets =>
        ih (keeps state action next start meets stepped)

/-- When the property after a step is equivalent to the condition on that step,
the property of all states of a run is equivalent to the condition on all its
steps. -/
theorem always_iff_along (visible : ∀ state, inv state -> property state)
    (keeps : ∀ state action next, inv state -> condition state action ->
      step state action = some next -> inv next)
    (detects : ∀ state action next, inv state -> step state action = some next ->
      property next -> condition state action) (start : inv state) :
    Always step property state actions ↔ Along step condition state actions := by
  constructor
  · intro holds
    induction actions generalizing state with
    | nil => trivial
    | cons action rest ih =>
      simp only [Always] at holds
      simp only [Along]
      cases stepped : step state action with
      | none => trivial
      | some next =>
        simp only [stepped] at holds
        have afterStep : property next := by
          cases rest with
          | nil => exact holds.2
          | cons => exact holds.2.1
        have meets := detects state action next start stepped afterStep
        exact ⟨meets, ih (keeps state action next start meets stepped) holds.2⟩
  · intro meets
    exact (always_of_along keeps start meets).mono visible

end Rules

end NtfCore.Foundation.Run
