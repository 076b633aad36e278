import Mathlib.Data.List.Basic

/-!
Contract: machines that are fed their input piece by piece.

A machine takes one step at a time: it moves and writes some output, it fails, or it is
blocked until it is fed more input. Fed with a piece, it moves until it is blocked or fails.

Owns: the loop over the steps, and over the pieces; and that a machine whose steps do not
depend on the input behind what they read ends in the same state with the same output,
however its input is cut into pieces.
-/

namespace NtfCore.Foundation.Resumable

open List

/-- How a step of a machine ends. -/
inductive Progress (State Output : Type) where
  | blocked
  | failed
  | moved (next : State) (written : List Output)

variable {State Item Output : Type}

section Machine

variable (advance : State -> Progress State Output) (fail : State -> State)

/-- Move until the machine is blocked or fails. The last component says whether it failed. -/
def process : (fuel : Nat) -> State -> State × List Output × Bool
  | 0, state => (state, [], false)
  | fuel + 1, state =>
    match advance state with
    | .blocked => (state, [], false)
    | .failed => (fail state, [], true)
    | .moved next written =>
      let rest := process fuel next
      (rest.1, written ++ rest.2.1, rest.2.2)

variable (feed : State -> List Item -> State) (size : State -> Nat)

/-- Feed the pieces in order, up to the first at which the machine fails. -/
def processAll : State -> List (List Item) -> State × List Output × Bool
  | state, [] => (state, [], false)
  | state, piece :: rest =>
    let fed := feed state piece
    let next := process advance fail (size fed + 1) fed
    if next.2.2 then next
    else
      let last := processAll next.1 rest
      (last.1, next.2.1 ++ last.2.1, last.2.2)

/-- What is fed is fed behind what was fed before; a step that moves or fails does so
whatever is fed behind it; and a machine cannot move forever. -/
structure Lawful : Prop where
  feed_nil : ∀ state, feed state [] = state
  feed_append : ∀ state first second, feed (feed state first) second = feed state (first ++ second)
  moved_feed : ∀ state next written more, advance state = .moved next written ->
    advance (feed state more) = .moved (feed next more) written
  failed_feed : ∀ state more, advance state = .failed -> advance (feed state more) = .failed
  size_lt : ∀ state next written, advance state = .moved next written -> size next < size state

/-- The machine moves from a state to another and writes the output on its way. -/
inductive Reaches : State -> List Output -> State -> Prop where
  | stay (state : State) : Reaches state [] state
  | move {state next final : State} {written rest : List Output}
      (moves : advance state = .moved next written) (goesOn : Reaches next rest final) :
      Reaches state (written ++ rest) final

end Machine

variable {advance : State -> Progress State Output} (fail : State -> State)
  {feed : State -> List Item -> State} {size : State -> Nat}

theorem Reaches.trans {first second third : State} {left right : List Output}
    (leads : Reaches advance first left second) (follows : Reaches advance second right third) :
    Reaches advance first (left ++ right) third := by
  induction leads with
  | stay => exact follows
  | move moves _ ih =>
    rw [append_assoc]
    exact .move moves (ih follows)

theorem Reaches.single {state next : State} {written : List Output}
    (moves : advance state = .moved next written) : Reaches advance state written next := by
  have leads := Reaches.move moves (.stay next)
  rw [append_nil] at leads
  exact leads

variable {output : List Output}

/-- The first step of a way to a state where the machine is blocked. -/
theorem Reaches.first {state final : State} (reaches : Reaches advance state output final)
    (isBlocked : advance final = .blocked) :
    (advance state = .blocked ∧ state = final ∧ output = []) ∨
      ∃ next written rest, advance state = .moved next written ∧
        output = written ++ rest ∧ Reaches advance next rest final := by
  cases reaches with
  | stay => exact .inl ⟨isBlocked, rfl, rfl⟩
  | move moves goesOn => exact .inr ⟨_, _, _, moves, rfl, goesOn⟩

section

variable (lawful : Lawful advance feed size)
include lawful

/-- The loop follows the way on which the machine would go if it were fed the rest. -/
theorem process_of_reaches {final : State} (isBlocked : advance final = .blocked) {rest : List Item}
    (fuel : Nat) (state : State) (enough : size state < fuel)
    (reaches : Reaches advance (feed state rest) output final) :
    ∃ next written left, process advance fail fuel state = (next, written, false) ∧
      output = written ++ left ∧ advance next = .blocked ∧
      Reaches advance (feed next rest) left final := by
  induction fuel generalizing state output with
  | zero => omega
  | succ _ ih =>
    rw [process]
    cases stepped : advance state with
    | blocked => exact ⟨state, [], output, rfl, rfl, stepped, reaches⟩
    | failed =>
      have fails := lawful.failed_feed state rest stepped
      obtain ⟨blocks, _⟩ | ⟨_, _, _, moves, _⟩ := reaches.first isBlocked
      · rw [fails] at blocks
        contradiction
      · rw [fails] at moves
        contradiction
    | moved next written =>
      have movesFed := lawful.moved_feed state next written rest stepped
      have isShorter := lawful.size_lt state next written stepped
      obtain ⟨blocks, _⟩ | ⟨_, _, _, moves, isOutput, goesOn⟩ := reaches.first isBlocked
      · rw [movesFed] at blocks
        contradiction
      · rw [movesFed] at moves
        obtain ⟨sameNext, sameWritten⟩ := Progress.moved.inj moves
        rw [← sameNext] at goesOn
        obtain ⟨last, more, after, processed, isLeft, lastBlocked, reachesFinal⟩ :=
          ih next (by omega) goesOn
        refine ⟨last, written ++ more, after, ?_, ?_, lastBlocked, reachesFinal⟩
        · dsimp only
          rw [processed]
        · rw [isOutput, isLeft, sameWritten, append_assoc]

/-- However the input is cut into pieces, the machine ends where it would end if it were
fed all of it. -/
theorem processAll_of_reaches {final : State} (isBlocked : advance final = .blocked)
    (pieces : List (List Item)) (state : State) (startsBlocked : advance state = .blocked)
    (reaches : Reaches advance (feed state pieces.flatten) output final) :
    processAll advance fail feed size state pieces = (final, output, false) := by
  induction pieces generalizing state output with
  | nil =>
    rw [flatten_nil, lawful.feed_nil] at reaches
    obtain ⟨_, isFinal, noOutput⟩ | ⟨_, _, _, moves, _⟩ := reaches.first isBlocked
    · rw [processAll, isFinal, noOutput]
    · rw [startsBlocked] at moves
      contradiction
  | cons piece _ ih =>
    rw [flatten_cons, ← lawful.feed_append] at reaches
    obtain ⟨next, _, _, processed, isOutput, nextBlocked, goesOn⟩ :=
      process_of_reaches fail lawful isBlocked (size (feed state piece) + 1)
        (feed state piece) .refl reaches
    rw [processAll, processed]
    rw [if_neg Bool.false_ne_true, ih next nextBlocked goesOn, isOutput]

/-- The loop has written what is written on the way to a state that it reaches. -/
theorem process_through {state next : State} (reaches : Reaches advance state output next)
    (fuel : Nat) (enough : size state < fuel) :
    ∃ left, size next < left ∧ process advance fail fuel state =
        ((process advance fail left next).1, output ++ (process advance fail left next).2.1,
          (process advance fail left next).2.2) := by
  induction reaches generalizing fuel with
  | stay state => exact ⟨fuel, enough, rfl⟩
  | @move state following _ written _ moves _ ih =>
    have isShorter := lawful.size_lt state following written moves
    cases fuel with
    | zero => omega
    | succ fuel =>
      obtain ⟨left, enoughLeft, processed⟩ := ih fuel (by omega)
      refine ⟨left, enoughLeft, ?_⟩
      rw [process, moves]
      dsimp only
      rw [processed, append_assoc]

end

section Each

variable {State Item Output : Type} (advance : State -> Progress State Output) (fail : State -> State)
  (feed : State -> List Item -> State) (size : State -> Nat)

/-- Feed all the pieces, also behind a failure. -/
def processEach : State -> List (List Item) -> State × List Output × Bool
  | state, [] => (state, [], false)
  | state, piece :: rest =>
    let fed := feed state piece
    let next := process advance fail (size fed + 1) fed
    let last := processEach next.1 rest
    (last.1, next.2.1 ++ last.2.1, next.2.2 || last.2.2)

/-- A machine that has failed keeps what it is fed, and fails again. -/
structure Stuck : Prop where
  fail_feed : ∀ state more, advance state = .failed -> fail (feed state more) = feed (fail state) more
  advance_fail : ∀ state, advance state = .failed -> advance (fail state) = .failed
  fail_fail : ∀ state, advance state = .failed -> fail (fail state) = fail state

variable {advance fail feed size} (lawful : Lawful advance feed size)
include lawful

theorem process_fuel {fuel other : Nat} {state : State} (enough : size state < fuel)
    (alsoEnough : size state < other) :
    process advance fail fuel state = process advance fail other state := by
  induction fuel generalizing state other with
  | zero => omega
  | succ fuel ih =>
    cases other with
    | zero => omega
    | succ other =>
      rw [process, process]
      cases stepped : advance state with
      | blocked | failed => rfl
      | moved next written =>
        have shorter := lawful.size_lt state next written stepped
        dsimp only
        rw [ih (show size next < fuel by omega) (show size next < other by omega)]

/-- What is fed in two pieces is processed as if it were fed at once. -/
theorem process_feed (stuck : Stuck advance fail feed) (more : List Item) (fuel : Nat)
    (state : State) (enough : size state < fuel) : let first := process advance fail fuel state
    let fed := feed first.1 more
    let second := process advance fail (size fed + 1) fed
    process advance fail (size (feed state more) + 1) (feed state more) =
      (second.1, first.2.1 ++ second.2.1, first.2.2 || second.2.2) := by
  induction fuel generalizing state with
  | zero => omega
  | succ fuel ih =>
    cases stepped : advance state with
    | blocked =>
      have here : process advance fail (fuel + 1) state = (state, [], false) := by
        rw [process, stepped]
      rw [here]
      rfl
    | failed =>
      have here : process advance fail (fuel + 1) state = (fail state, [], true) := by
        rw [process, stepped]
      have fails := lawful.failed_feed _ more (stuck.advance_fail state stepped)
      have again := stuck.fail_feed _ more (stuck.advance_fail state stepped)
      rw [here, process, lawful.failed_feed state more stepped, stuck.fail_feed state more stepped]
      dsimp only
      rw [process, fails]
      rw [again, stuck.fail_fail state stepped]
      rfl
    | moved next written =>
      have moves := lawful.moved_feed state next written more stepped
      have shorter := lawful.size_lt state next written stepped
      have fedShorter := lawful.size_lt _ _ _ moves
      have later := ih next (by omega)
      rw [process, process, moves, stepped]
      dsimp only
      rw [process_fuel lawful fedShorter .refl, later, append_assoc]

/-- However the input is cut into pieces, the machine ends in the same state, has written
the same output, and has failed or not. -/
theorem processEach_cons (stuck : Stuck advance fail feed) (rest : List (List Item))
    (piece : List Item) (state : State) : processEach advance fail feed size state (piece :: rest) =
      process advance fail (size (feed state (piece ++ rest.flatten)) + 1)
        (feed state (piece ++ rest.flatten)) := by
  induction rest generalizing piece state with
  | nil =>
    rw [processEach, flatten_nil, append_nil]
    dsimp only [processEach]
    rw [append_nil, Bool.or_false]
  | cons next rest ih =>
    have whole := process_feed lawful stuck (next ++ rest.flatten) _ (feed state piece) .refl
    rw [lawful.feed_append] at whole
    rw [processEach, flatten_cons, whole]
    rw [ih]

end Each

end NtfCore.Foundation.Resumable
