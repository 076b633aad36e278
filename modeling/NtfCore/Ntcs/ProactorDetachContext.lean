import Mathlib.Algebra.Group.Nat.Defs
import NtfCore.Foundation.Run

/-!
Contract: detachment of a socket from its proactor (`ntcs::ProactorDetachContext`).

Owns: the word that holds the detachment state and the number of threads that work on
the socket; the three operations on it, as loops of a load and a compare-and-swap; any
number of calls of them that run at the same time; and what every interleaving of their
atomic steps satisfies.
-/

namespace NtfCore.Ntcs

open NtfCore.Foundation List

/-- The errors that `detach` returns. -/
inductive DetachError where
  | wouldBlock
  | invalid
deriving DecidableEq

namespace ProactorDetachContext

/-! ## The word -/

def attached : BitVec 32 := 0#32

def detaching : BitVec 32 := 1#32 <<< 30

def detached : BitVec 32 := 1#32 <<< 31

def countMask : BitVec 32 := 0x3FFFFFFF#32

def stateMask : BitVec 32 := 0xC0000000#32

inductive Operation where
  | incrementReference
  | decrementReference
  | detach
deriving DecidableEq

inductive Result where
  | incremented (authorized : Bool)
  | decremented (announce : Bool)
  | detached (error : Option DetachError)
deriving DecidableEq

/-- How an iteration of a loop goes on behind its load: it returns, it tries to swap and
then returns, it loads again, or an assertion fails. -/
inductive Iteration where
  | returns (result : Result)
  | swaps (newValue : BitVec 32) (result : Result)
  | again
  | fails

def incrementReference (currentValue : BitVec 32) : Iteration :=
  let currentState := currentValue &&& stateMask
  let currentCount := currentValue &&& countMask
  if currentState = attached then
    .swaps (attached ||| (currentCount + 1#32)) (.incremented true)
  else .returns (.incremented false)

def decrementReference (currentValue : BitVec 32) : Iteration :=
  let currentState := currentValue &&& stateMask
  let currentCount := currentValue &&& countMask
  if currentState = attached then
    if 0#32 < currentCount then .swaps (attached ||| (currentCount - 1#32)) (.decremented false)
    else .fails
  else if currentState = detaching then
    if currentCount = 1#32 then .swaps detached (.decremented true)
    else if 1#32 < currentCount then
      .swaps (detaching ||| (currentCount - 1#32)) (.decremented false)
    else .fails
  else if currentState ≠ detached then .again
  else .fails

def detach (currentValue : BitVec 32) : Iteration :=
  let currentState := currentValue &&& stateMask
  let currentCount := currentValue &&& countMask
  if currentState = attached then
    if currentCount = 0#32 then .swaps detached (.detached none)
    else if 0#32 < currentCount then
      .swaps (detaching ||| currentCount) (.detached (some .wouldBlock))
    else .fails
  else .returns (.detached (some .invalid))

def Operation.iteration : Operation -> BitVec 32 -> Iteration
  | .incrementReference => ProactorDetachContext.incrementReference
  | .decrementReference => ProactorDetachContext.decrementReference
  | .detach => ProactorDetachContext.detach

structure Call where
  operation : Operation
  loaded : Option (BitVec 32) := none

/-- The context, the calls in progress in any threads, the successful increments for
which no decrement was called, what the calls have returned so far, and whether an
assertion has failed. -/
structure Context where
  value : BitVec 32 := 0#32
  calls : List Call := []
  leases : Nat := 0
  returned : List Result := []
  failed : Bool := false

inductive Action where
  | call (operation : Operation)
  | load (index : Nat)
  | swap (index : Nat)

def Result.lease : Result -> Nat
  | .incremented true => 1
  | _ => 0

def Context.finish (context : Context) (index : Nat) (result : Result) : Context :=
  { context with
    calls := context.calls.eraseIdx index
    leases := context.leases + result.lease
    returned := context.returned ++ [result] }

def step (context : Context) : Action -> Option Context
  | .call operation =>
    let called := context.calls ++ [⟨operation, none⟩]
    match operation with
    | .decrementReference =>
      if 0 < context.leases then
        some { context with calls := called, leases := context.leases - 1 }
      else none
    | _ => some { context with calls := called }
  | .load index =>
    match context.calls[index]? with
    | some ⟨operation, none⟩ =>
      match operation.iteration context.value with
      | .returns result => some (context.finish index result)
      | .swaps _ _ =>
        some { context with calls := context.calls.set index ⟨operation, some context.value⟩ }
      | .again => some context
      | .fails => some { context with failed := true }
    | _ => none
  | .swap index =>
    match context.calls[index]? with
    | some ⟨operation, some loaded⟩ =>
      match operation.iteration loaded with
      | .swaps newValue result =>
        if context.value = loaded then
          some { context.finish index result with value := newValue }
        else some { context with calls := context.calls.set index ⟨operation, none⟩ }
      | _ => none
    | _ => none

/-! ## Soundness -/

def Call.leaves (call : Call) : Bool :=
  call.operation = .decrementReference

def Context.workers (context : Context) : Nat :=
  context.leases + context.calls.countP Call.leaves

def Result.begins : Result -> Bool
  | .detached error => error ≠ some .invalid
  | _ => false

def Result.signals : Result -> Bool
  | .detached none => true
  | .decremented true => true
  | _ => false

/-- No assertion fails; the count is the number of workers; behind a detachment no
increment succeeds; and the detachment is signalled once, when the last worker has
left. -/
structure Sound (context : Context) : Prop where
  safe : context.failed = false
  count : (context.value &&& countMask).toNat = context.workers
  closed : context.returned.Pairwise fun earlier later =>
    earlier.begins = true -> later ≠ .incremented true
  begun : context.returned.countP Result.begins ≤ 1
  once : context.returned.countP Result.signals ≤ 1
  last : 0 < context.returned.countP Result.signals -> context.workers = 0
  complete : 0 < context.returned.countP Result.begins -> context.workers = 0 ->
    context.returned.countP Result.signals = 1

/-! ## The word as a state and a count -/

def word (state : BitVec 32) (count : Nat) : BitVec 32 :=
  state ||| BitVec.ofNat 32 count

variable {count : Nat}

theorem ofNat_and_countMask (small : count < 2 ^ 30) :
    BitVec.ofNat 32 count &&& countMask = BitVec.ofNat 32 count := by
  refine BitVec.eq_of_toNat_eq ?_
  rw [BitVec.toNat_and, BitVec.toNat_ofNat, Nat.mod_eq_of_lt (by omega)]
  exact (Nat.and_two_pow_sub_one_eq_mod count 30).trans (Nat.mod_eq_of_lt small)

theorem ofNat_and_stateMask (small : count < 2 ^ 30) :
    BitVec.ofNat 32 count &&& stateMask = 0#32 := by
  have complement : stateMask &&& countMask = 0#32 := by decide
  rw [← ofNat_and_countMask small, BitVec.and_assoc, BitVec.and_comm countMask, complement,
    BitVec.and_zero]

variable {state : BitVec 32}

section

variable (small : count < 2 ^ 30)
include small

theorem word_count (isState : state &&& countMask = 0#32) :
    word state count &&& countMask = BitVec.ofNat 32 count := by
  rw [word, BitVec.and_or_distrib_right, isState, BitVec.zero_or, ofNat_and_countMask small]

theorem word_state (isState : state &&& stateMask = state) : word state count &&& stateMask = state := by
  rw [word, BitVec.and_or_distrib_right, isState, ofNat_and_stateMask small, BitVec.or_zero]

theorem attached_state : word attached count &&& stateMask = attached :=
  word_state small (by decide)

theorem detaching_state : word detaching count &&& stateMask = detaching :=
  word_state small (by decide)

end

theorem ofNat_pred (pos : 0 < count) (small : count < 2 ^ 30) :
    BitVec.ofNat 32 count - 1#32 = BitVec.ofNat 32 (count - 1) := by
  refine BitVec.eq_of_toNat_eq ?_
  rw [BitVec.toNat_sub, BitVec.toNat_ofNat, BitVec.toNat_ofNat, BitVec.toNat_ofNat]
  omega

variable {small large : Nat}

theorem ofNat_lt (isLess : small < large) (bound : large < 2 ^ 30) :
    BitVec.ofNat 32 small < BitVec.ofNat 32 large := by
  rw [BitVec.lt_def, BitVec.toNat_ofNat, BitVec.toNat_ofNat]
  omega

theorem ofNat_ne (isLess : small < large) (bound : large < 2 ^ 30) :
    BitVec.ofNat 32 large ≠ BitVec.ofNat 32 small := by
  intro isEqual
  have isSmaller := ofNat_lt isLess bound
  rw [isEqual] at isSmaller
  exact absurd isSmaller (BitVec.lt_irrefl _)

/-! ## The operations on a state and a count -/

section Operations

variable {count : Nat}

theorem incrementReference_attached (small : count < 2 ^ 30) :
    incrementReference (word attached count) =
      .swaps (word attached (count + 1)) (.incremented true) := by
  unfold incrementReference
  rw [attached_state small, if_pos rfl, word_count small (by decide), word, BitVec.ofNat_add]

variable {value : BitVec 32}

theorem incrementReference_of_ne (notAttached : value &&& stateMask ≠ attached) :
    incrementReference value = .returns (.incremented false) :=
  if_neg notAttached

theorem decrementReference_attached (pos : 0 < count) (small : count < 2 ^ 30) :
    decrementReference (word attached count) =
      .swaps (word attached (count - 1)) (.decremented false) := by
  unfold decrementReference
  rw [attached_state small, if_pos rfl, word_count small (by decide), ofNat_pred pos small,
    if_pos (ofNat_lt pos small)]
  rfl

theorem decrementReference_detaching (several : 1 < count) (small : count < 2 ^ 30) :
    decrementReference (word detaching count) =
      .swaps (word detaching (count - 1)) (.decremented false) := by
  unfold decrementReference
  rw [detaching_state small, if_neg (by decide), if_pos rfl, word_count small (by decide),
    ofNat_pred (by omega) small, if_neg (ofNat_ne several small), if_pos (ofNat_lt several small)]
  rfl

theorem detach_busy (pos : 0 < count) (small : count < 2 ^ 30) : detach (word attached count) =
      .swaps (word detaching count) (.detached (some .wouldBlock)) := by
  unfold detach
  rw [attached_state small, if_pos rfl, word_count small (by decide),
    if_neg (ofNat_ne pos small), if_pos (ofNat_lt pos small)]
  rfl

theorem detach_of_ne (notAttached : value &&& stateMask ≠ attached) :
    detach value = .returns (.detached (some .invalid)) :=
  if_neg notAttached

end Operations

inductive Phase : BitVec 32 -> Nat -> List Result -> Prop where
  | attached {count : Nat} {returned : List Result} (small : count < 2 ^ 30)
      (notBegun : returned.countP Result.begins = 0)
      (silent : returned.countP Result.signals = 0) :
      Phase (word attached count) count returned
  | detaching {count : Nat} {returned : List Result} (small : count < 2 ^ 30)
      (positive : 0 < count) (begun : returned.countP Result.begins = 1)
      (silent : returned.countP Result.signals = 0) :
      Phase (word detaching count) count returned
  | detached {returned : List Result} (begun : returned.countP Result.begins = 1)
      (signalled : returned.countP Result.signals = 1) :
      Phase (word detached 0) 0 returned

section

variable (returned : List Result) (result : Result)

theorem begins_append : (returned ++ [result]).countP Result.begins =
      returned.countP Result.begins + if result.begins then 1 else 0 := by
  rw [countP_append, countP_singleton]

theorem signals_append : (returned ++ [result]).countP Result.signals =
      returned.countP Result.signals + if result.signals then 1 else 0 := by
  rw [countP_append, countP_singleton]

end

variable {returned : List Result} {value : BitVec 32} {result : Result}

/-- A result that neither begins a detachment nor completes it. -/
theorem Phase.note (phase : Phase value count returned) (notBegins : result.begins = false)
    (notSignals : result.signals = false) : Phase value count (returned ++ [result]) := by
  have sameBegins : (returned ++ [result]).countP Result.begins = returned.countP Result.begins := by
    rw [begins_append, notBegins]
    rfl
  have sameSignals :
      (returned ++ [result]).countP Result.signals = returned.countP Result.signals := by
    rw [signals_append, notSignals]
    rfl
  cases phase with
  | attached small notBegun silent =>
    exact .attached small (sameBegins.trans notBegun) (sameSignals.trans silent)
  | detaching small pos begun silent =>
    exact .detaching small pos (sameBegins.trans begun) (sameSignals.trans silent)
  | detached begun signalled =>
    exact .detached (sameBegins.trans begun) (sameSignals.trans signalled)

inductive Advances (operation : Operation) (value : BitVec 32) (count : Nat)
    (returned : List Result) : Iteration -> Prop where
  | returns {result : Result} (kept : operation ≠ .decrementReference) (noLease : result.lease = 0)
      (notGranted : result ≠ .incremented true) (phase : Phase value count (returned ++ [result])) :
      Advances operation value count returned (.returns result)
  | swaps {newValue : BitVec 32} {result : Result} (after : Nat)
      (isAfter : after + (if operation = .decrementReference then 1 else 0) = count + result.lease)
      (granted : result = .incremented true -> returned.countP Result.begins = 0)
      (phase : after < 2 ^ 30 -> Phase newValue after (returned ++ [result])) :
      Advances operation value count returned (.swaps newValue result)

open Operation

section

variable (phase : Phase value count returned)
include phase

theorem Phase.increment : Advances .incrementReference value count returned
      (Operation.incrementReference.iteration value) := by
  cases phase with
  | attached small notBegun silent =>
    rw [iteration, incrementReference_attached small]
    refine .swaps (count + 1) rfl (fun _ => notBegun) fun bound => ?_
    exact .note (.attached bound notBegun silent) rfl rfl
  | detaching small pos begun silent =>
    rw [iteration, incrementReference_of_ne (by rw [detaching_state small]; decide)]
    exact .returns (by decide) rfl (by decide) (.note (.detaching small pos begun silent) rfl rfl)
  | detached begun signalled =>
    exact .returns (by decide) rfl (by decide) (.note (.detached begun signalled) rfl rfl)

theorem Phase.decrement (pos : 0 < count) : Advances .decrementReference value count returned
      (Operation.decrementReference.iteration value) := by
  cases phase with
  | attached small notBegun silent =>
    rw [iteration, decrementReference_attached pos small]
    refine .swaps (count - 1) ?_ nofun fun bound => ?_
    · rw [if_pos rfl, Nat.sub_add_cancel pos]
      rfl
    · exact .note (.attached bound notBegun silent) rfl rfl
  | detaching small _ begun silent =>
    by_cases isLast : count = 1
    · subst isLast
      refine .swaps 0 rfl nofun fun _ => ?_
      refine .detached ?_ ?_
      · rw [begins_append, begun]
        rfl
      · rw [signals_append, silent]
        rfl
    · rw [iteration, decrementReference_detaching (by omega) small]
      refine .swaps (count - 1) ?_ nofun fun bound => ?_
      · rw [if_pos rfl, Nat.sub_add_cancel pos]
        rfl
      · exact .note (.detaching bound (by omega) begun silent) rfl rfl
  | detached => omega

theorem Phase.detach :
    Advances .detach value count returned (Operation.detach.iteration value) := by
  cases phase with
  | attached small notBegun silent =>
    by_cases isIdle : count = 0
    · subst isIdle
      refine .swaps 0 rfl nofun fun _ => ?_
      refine .detached ?_ ?_
      · rw [begins_append, notBegun]
        rfl
      · rw [signals_append, silent]
        rfl
    · have pos : 0 < count := Nat.pos_of_ne_zero isIdle
      rw [iteration, detach_busy pos small]
      refine .swaps count rfl nofun fun _ => ?_
      refine .detaching small pos ?_ ?_
      · rw [begins_append, notBegun]
        rfl
      · rw [signals_append, silent]
        rfl
  | detaching small pos begun silent =>
    rw [iteration, detach_of_ne (by rw [detaching_state small]; decide)]
    exact .returns (by decide) rfl (by decide) (.note (.detaching small pos begun silent) rfl rfl)
  | detached begun signalled =>
    exact .returns (by decide) rfl (by decide) (.note (.detached begun signalled) rfl rfl)

theorem Phase.iterate (op : Operation) (working : op = .decrementReference -> 0 < count) :
    Advances op value count returned (op.iteration value) := by
  cases op with
  | incrementReference => exact phase.increment
  | decrementReference => exact phase.decrement (working rfl)
  | detach => exact phase.detach

end

variable {index : Nat} {calls : List Call}

theorem countP_eraseIdx {call : Call} (found : calls[index]? = some call) :
    (calls.eraseIdx index).countP Call.leaves +
    (if call.operation = .decrementReference then 1 else 0) = calls.countP Call.leaves := by
  induction calls generalizing index with
  | nil => contradiction
  | cons _ rest ih =>
    cases index with
    | zero =>
      cases found
      rw [eraseIdx_cons_zero, countP_cons]
      simp [Call.leaves]
    | succ index =>
      have isRest : rest[index]? = some call := found
      rw [eraseIdx_cons_succ, countP_cons, countP_cons, ← ih isRest]
      omega

theorem countP_set {call : Call} (found : calls[index]? = some call) (loaded : Option (BitVec 32)) :
    (calls.set index ⟨call.operation, loaded⟩).countP Call.leaves = calls.countP Call.leaves := by
  induction calls generalizing index with
  | nil => contradiction
  | cons _ rest ih =>
    cases index with
    | zero =>
      cases found
      rfl
    | succ index =>
      have isRest : rest[index]? = some call := found
      rw [set_cons_succ, countP_cons, countP_cons, ih isRest]

theorem workers_eq (context : Context) :
    context.workers = context.leases + context.calls.countP Call.leaves := rfl

structure Consistent (context : Context) : Prop where
  safe : context.failed = false
  phase : Phase context.value context.workers context.returned
  closed : context.returned.Pairwise fun earlier later =>
    earlier.begins = true -> later ≠ .incremented true

theorem Consistent.working {context : Context} {call : Call}
    (found : context.calls[index]? = some call) (isDecrement : call.operation = .decrementReference)
    : 0 < context.workers := by
  have removed := countP_eraseIdx found
  rw [if_pos isDecrement] at removed
  rw [workers_eq]
  omega

theorem closed_append (closed : returned.Pairwise fun earlier later =>
      earlier.begins = true -> later ≠ .incremented true)
    (granted : result = .incremented true -> returned.countP Result.begins = 0) :
    (returned ++ [result]).Pairwise fun earlier later =>
      earlier.begins = true -> later ≠ .incremented true := by
  refine pairwise_append.mpr ⟨closed, pairwise_singleton _ _, ?_⟩
  intro earlier isEarlier later isLater begins
  rw [mem_singleton.mp isLater]
  intro isGranted
  exact absurd begins (countP_eq_zero.mp (granted isGranted) earlier isEarlier)

variable {context next : Context}

theorem Consistent.call {op : Operation}
    (consistent : Consistent context) (taken : step context (.call op) = some next) :
    Consistent next := by
  have isWorkers : next.workers = context.workers ∧ next.value = context.value ∧
      next.returned = context.returned ∧ next.failed = context.failed := by
    cases op with
    | incrementReference =>
      cases taken
      refine ⟨?_, rfl, rfl, rfl⟩
      rw [workers_eq, workers_eq, countP_append]
      rfl
    | decrementReference =>
      obtain ⟨_, rfl⟩ := Run.guarded taken
      refine ⟨?_, rfl, rfl, rfl⟩
      rw [workers_eq, workers_eq, countP_append, countP_singleton,
        if_pos (show Call.leaves ⟨.decrementReference, none⟩ = true from rfl)]
      dsimp only
      omega
    | detach =>
      cases taken
      refine ⟨?_, rfl, rfl, rfl⟩
      rw [workers_eq, workers_eq, countP_append]
      rfl
  obtain ⟨sameWorkers, sameValue, sameReturned, sameFailed⟩ := isWorkers
  constructor
  case safe => exact sameFailed.trans consistent.safe
  case phase =>
    rw [sameWorkers, sameValue, sameReturned]
    exact consistent.phase
  case closed =>
    rw [sameReturned]
    exact consistent.closed

/-- A call that tries again changes nothing. -/
theorem Consistent.set {context : Context} (consistent : Consistent context) {call : Call}
    (found : context.calls[index]? = some call) (loaded : Option (BitVec 32)) :
    Consistent { context with calls := context.calls.set index ⟨call.operation, loaded⟩ } := by
  constructor
  case safe => exact consistent.safe
  case phase =>
    rw [workers_eq]
    dsimp only
    rw [countP_set found, ← workers_eq]
    exact consistent.phase
  case closed => exact consistent.closed

theorem Consistent.load (consistent : Consistent context)
    (taken : step context (.load index) = some next) : Consistent next := by
  simp only [step] at taken
  split at taken
  · rename_i op found
    have advances := consistent.phase.iterate op
      fun isDecrement => Consistent.working found isDecrement
    generalize op.iteration context.value = iteration at taken advances
    cases advances with
    | @returns result kept _ notGranted phase =>
      have removed := countP_eraseIdx found
      rw [if_neg kept] at removed
      have isWorkers : (context.finish index result).workers = context.workers := by
        rw [workers_eq, workers_eq]
        dsimp only [Context.finish]
        omega
      cases taken
      constructor
      case safe => exact consistent.safe
      case phase => exact isWorkers.symm ▸ phase
      case closed =>
        exact closed_append consistent.closed fun isGranted => absurd isGranted notGranted
    | swaps =>
      cases taken
      exact consistent.set found _
  · contradiction

theorem Consistent.swap (consistent : Consistent context)
    (few : next.workers < 2 ^ 30) (taken : step context (.swap index) = some next) :
    Consistent next := by
  simp only [step] at taken
  split at taken
  · rename_i op loaded found
    by_cases isCurrent : context.value = loaded
    · subst isCurrent
      have advances := consistent.phase.iterate op
        fun isDecrement => Consistent.working found isDecrement
      generalize op.iteration context.value = iteration at taken advances
      cases advances with
      | returns => contradiction
      | @swaps _ _ after isAfter granted phase =>
        dsimp only at taken
        rw [if_pos rfl] at taken
        have removed := countP_eraseIdx found
        dsimp only at removed
        have isWorkers : next.workers = after := by
          rw [workers_eq] at isAfter
          rw [← Option.some.inj taken, workers_eq]
          dsimp only [Context.finish]
          omega
        have isPhase := phase (isWorkers ▸ few)
        rw [← isWorkers] at isPhase
        cases taken
        exact ⟨consistent.safe, isPhase, closed_append consistent.closed granted⟩
    · split at taken
      · rw [if_neg isCurrent] at taken
        cases taken
        exact consistent.set found none
      · contradiction
  · contradiction

theorem step_consistent (context : Context) (action : Action) (next : Context)
    (consistent : Consistent context) (few : next.workers < 2 ^ 30)
    (taken : step context action = some next) : Consistent next := by
  cases action with
  | call => exact consistent.call taken
  | load index => exact consistent.load taken
  | swap => exact consistent.swap few taken

theorem Consistent.sound {context : Context} (consistent : Consistent context) : Sound context := by
  have phase := consistent.phase
  have isCount : ∀ {state : BitVec 32} {count : Nat}, count < 2 ^ 30 ->
      state &&& countMask = 0#32 -> (word state count &&& countMask).toNat = count := by
    intro state count small isState
    rw [word_count small isState, BitVec.toNat_ofNat, Nat.mod_eq_of_lt (by omega)]
  generalize isValue : context.value = value at phase
  generalize isWorkers : context.workers = workers at phase
  generalize isReturned : context.returned = returned at phase
  constructor
  case safe => exact consistent.safe
  case closed => exact consistent.closed
  case count =>
    rw [isValue, isWorkers]
    cases phase with
    | attached small _ _ | detaching small _ _ _ => exact isCount small (by decide)
    | detached => decide
  case begun =>
    rw [isReturned]
    cases phase with
    | attached _ notBegun _ | detaching _ _ begun _ | detached _ _ => omega
  case once =>
    rw [isReturned]
    cases phase with
    | attached _ _ silent | detaching _ _ _ silent | detached _ signalled => omega
  case last =>
    rw [isReturned, isWorkers]
    cases phase with
    | attached _ _ silent | detaching _ _ _ _ => omega
    | detached => exact fun _ => rfl
  case complete =>
    rw [isReturned, isWorkers]
    cases phase with
    | attached _ notBegun _ | detaching _ _ _ _ => omega
    | detached _ signalled => exact fun _ _ => signalled

theorem initial_consistent : Consistent {} where
  safe := rfl
  phase := .attached (Nat.two_pow_pos 30) rfl rfl
  closed := Pairwise.nil

/-- Every interleaving of the atomic steps of any number of calls is sound. -/
theorem always_sound (actions : List Action)
    (few : Run.Always step (fun context => context.workers < 2 ^ 30) {} actions) :
    Run.Always step Sound {} actions :=
  (Run.always_of_within step_consistent initial_consistent few).mono
    fun _ consistent => consistent.sound

/-- A worker leaves while a detachment is begun: the swap of its decrement fails, since
the state has changed behind its load, and its second swap completes the detachment. -/
def leavesMeanwhile : List Action :=
  [.call .incrementReference, .load 0, .swap 0, .call .decrementReference, .load 0, .call .detach,
    .load 1, .swap 1, .swap 0, .load 0, .swap 0, .call .detach, .load 0]

theorem leavesMeanwhile_sound : Run.Always step Sound {} leavesMeanwhile ∧
      ∃ final, Run.run step {} leavesMeanwhile = some final ∧
        final.returned = [.incremented true, .detached (some .wouldBlock), .decremented true,
          .detached (some .invalid)] := by
  exact ⟨always_sound leavesMeanwhile (by decide), _, rfl, rfl⟩

end ProactorDetachContext

end NtfCore.Ntcs
