import NtfCore.Ntcs.Chronology.Sleeping

/-!
Contract: how the waiters of an I/O ring (`ntco::IoRing`) are woken up.

A waiter reads the earliest deadline of the chronology and blocks in the kernel
until a completion or that deadline; with several waiters only the one that holds
the semaphore does. Whoever defers a function or schedules the earliest timer
calls `interruptAll`, which reads the number of interrupts pending, then the
number of waiters, and posts what is missing. The last waiter to leave flushes
the ring. Each of these steps may be taken while other threads take theirs.

Owns: the waiters, the calls of `interruptAll` and of `flush` under way, the
interrupts posted, and the theorem that says in which runs no wakeup is lost.
-/

namespace NtfCore.Ntco

open NtfCore.Foundation List Subset Bool
open NtfCore.Ntcs (Chronology)

/-- `ntca::ProactorConfig`, as far as waiting reads it. -/
structure ProactorConfig where
  maxThreads : Nat
  positive : 0 < maxThreads
  maxCyclesPerWait : Nat

def ProactorConfig.dynamic (config : ProactorConfig) : Bool := decide (1 < config.maxThreads)

def ProactorConfig.entryListCapacity (config : ProactorConfig) : Nat :=
  if config.maxThreads = 1 then 128 else 1

inductive Completion where
  | interrupt
  | other
deriving DecidableEq

/-- Where a waiter is: it has yet to store its thread; it is outside of `wait`; it waits
for the semaphore; it has it; it waits for a completion or the deadline; it
processes what it has popped; or it announces the chronology. -/
inductive WaiterPhase where
  | registering
  | resting
  | acquiring
  | holding
  | waiting (deadline : Option Int)
  | processing (entries : List Completion)
  | announcing (cycles : Nat)
deriving DecidableEq

/-- `ntco::IoRingWaiter`. -/
structure IoRingWaiter where
  thread : Nat
  phase : WaiterPhase
deriving DecidableEq

/-- Where a call of `interruptAll` is: it has yet to read the number of interrupts
pending; it has read it, and has yet to decide how many to post; or it has yet to
post so many. -/
inductive InterruptPhase where
  | reading
  | counting (numInterruptsPending : Int)
  | posting (numInterruptsToPost : Nat)

structure InterruptCall where
  thread : Nat
  phase : InterruptPhase

/-- Where the `flush` of a `deregisterWaiter` is. -/
inductive FlushPhase where
  | starting
  | popping
  | ending
  | repeating
  | storing
  | done

/-- `ntco::IoRing`, as far as waking its waiters goes. `submitted` counts the
interrupts that the kernel has yet to complete. -/
structure IoRingDriver where
  chronology : Chronology := {}
  now : Nat := 0
  run : Bool := true
  interruptsPending : Int := 0
  submitted : Nat := 0
  completions : List Completion := []
  semaphore : Nat := 0
  threadId : Option Nat := none
  waiters : List IoRingWaiter := []
  calls : List InterruptCall := []
  flushes : List FlushPhase := []

def WaiterPhase.inWait : WaiterPhase -> Bool
  | .acquiring | .holding | .waiting _ => true
  | _ => false

def WaiterPhase.holds : WaiterPhase -> Bool
  | .holding | .waiting _ => true
  | _ => false

def IoRingWaiter.held (waiter : IoRingWaiter) : Nat :=
  match waiter.phase with
  | .processing entries => entries.count .interrupt
  | _ => 0

namespace IoRingDriver

variable (config : ProactorConfig)

def initial : IoRingDriver := { semaphore := if 1 < config.maxThreads then 1 else 0 }

/-- The thread is in `wait` and does nothing else. -/
def waits (driver : IoRingDriver) (thread : Nat) : Bool :=
  driver.waiters.any fun waiter => waiter.thread == thread && waiter.phase.inWait

/-- A call of `interruptAll` begins. -/
def interruptAll (driver : IoRingDriver) (thread : Nat) : IoRingDriver :=
  { driver with calls := driver.calls ++ [{ thread := thread, phase := .reading }] }

/-- What `interruptAll` posts when it has read that number of interrupts pending. -/
def numInterruptsToPost (driver : IoRingDriver) (thread : Nat) (numInterruptsPending : Int) : Nat :=
  if config.maxThreads = 1 then
    if driver.threadId = some thread then 0
    else if numInterruptsPending = 0 then 1
    else 0
  else if numInterruptsPending < driver.waiters.length then
    (driver.waiters.length - numInterruptsPending).toNat
  else 0

def toPost (driver : IoRingDriver) (call : InterruptCall) : Nat :=
  match call.phase with
  | .reading => driver.numInterruptsToPost config call.thread driver.interruptsPending
  | .counting pending => driver.numInterruptsToPost config call.thread pending
  | .posting count => count

/-- `IoRing::interruptComplete`. -/
def interruptComplete (driver : IoRingDriver) : IoRingDriver :=
  { driver with interruptsPending := driver.interruptsPending - 1 }

/-- `Chronology::announce` of a waiter or of a flush. -/
def announce (driver : IoRingDriver) (backoff : Nat -> Int -> Int) : IoRingDriver :=
  { driver with
    chronology := driver.chronology.collect config.dynamic driver.now backoff }

def postSemaphore (driver : IoRingDriver) : IoRingDriver :=
  { driver with semaphore := if 1 < config.maxThreads then driver.semaphore + 1
    else driver.semaphore }

def setPhase (driver : IoRingDriver) (index : Nat) (waiter : IoRingWaiter)
    (phase : WaiterPhase) : IoRingDriver :=
  { driver with waiters := driver.waiters.set index { waiter with phase := phase } }

/-- A step of a `flush`, and the store that follows it in `deregisterWaiter`. -/
def flush (driver : IoRingDriver) (backoff : Nat -> Int -> Int) :
    FlushPhase -> Option (IoRingDriver × FlushPhase)
  | .starting =>
    if driver.chronology.hasAnyScheduledOrDeferred then
      some (driver.announce config backoff, .popping)
    else some (driver, .popping)
  | .popping =>
    if driver.completions = [] then some (driver, .ending)
    else some ({ driver with completions := driver.completions.drop 128 }, .popping)
  | .ending =>
    if driver.chronology.hasAnyScheduledOrDeferred then
      some (driver.announce config backoff, .repeating)
    else some (driver, .storing)
  | .repeating =>
    if driver.chronology.hasAnyDeferred then
      some (driver.announce config backoff, .repeating)
    else some (driver, .storing)
  | .storing => some ({ driver with threadId := none }, .done)
  | .done => none

/-- The section is one that the thread may take outside of `announce`. -/
def ofThread (thread : Nat) : Chronology.Action -> Bool
  | .schedule caller _ _ _ | .cancel caller _ | .close caller _ | .finish caller _ =>
    caller == thread
  | .collect _ _ _ => false
  | _ => true

/-- A step of a waiter. `take` and `leave` end a wait with and without completions. -/
inductive WaiterStep where
  | store
  | deregisterWaiter
  | wait
  | acquire
  | earliest
  | take
  | leave
  | process
  | announce (backoff : Nat -> Int -> Int)

/-- A step of a call of `interruptAll`. -/
inductive CallStep where
  | read
  | count
  | post

inductive Action where
  | chronology (thread : Nat) (action : Chronology.Action)
  | moveAndExecute (thread : Nat) (functorSequence : List Nat) (functor : Option Nat)
  | stop (thread : Nat)
  | restart
  | call (index : Nat) (action : CallStep)
  | registerWaiter (thread : Nat)
  | waiter (index : Nat) (action : WaiterStep)
  | flush (index : Nat) (backoff : Nat -> Int -> Int)
  | complete
  | completeOther
  | tick (duration : Nat)

def stepWaiter (driver : IoRingDriver) (index : Nat) (waiter : IoRingWaiter) :
    WaiterStep -> Option IoRingDriver
  | .store =>
    match waiter.phase with
    | .registering => some ({ driver with
        threadId := if config.maxThreads = 1 then some waiter.thread
          else driver.threadId }.setPhase index waiter .resting)
    | _ => none
  | .deregisterWaiter =>
    match waiter.phase with
    | .resting => some { driver with
        waiters := driver.waiters.eraseIdx index
        flushes := if driver.waiters.eraseIdx index = [] then driver.flushes ++ [.starting]
          else driver.flushes }
    | _ => none
  | .wait =>
    match waiter.phase with
    | .resting => some (driver.setPhase index waiter
        (if 1 < config.maxThreads then .acquiring else .holding))
    | _ => none
  | .acquire =>
    match waiter.phase with
    | .acquiring =>
      if driver.semaphore = 0 then none
      else some ({ driver with semaphore := driver.semaphore - 1 }.setPhase index waiter
        .holding)
    | _ => none
  | .earliest =>
    match waiter.phase with
    | .holding =>
      if 1 < config.maxThreads ∧ driver.run = false then
        some ((driver.postSemaphore config).setPhase index waiter
          (.announcing config.maxCyclesPerWait))
      else some (driver.setPhase index waiter (.waiting driver.chronology.earliest))
    | _ => none
  | .take =>
    match waiter.phase with
    | .waiting _ =>
      if driver.completions = [] then none
      else some (({ driver with
        completions := driver.completions.drop config.entryListCapacity }.postSemaphore
          config).setPhase index waiter
            (.processing (driver.completions.take config.entryListCapacity)))
    | _ => none
  | .leave =>
    match waiter.phase with
    | .waiting _ => some ((driver.postSemaphore config).setPhase index waiter (.processing []))
    | _ => none
  | .process =>
    match waiter.phase with
    | .processing (.interrupt :: rest) =>
      some (driver.interruptComplete.setPhase index waiter (.processing rest))
    | .processing (.other :: rest) => some (driver.setPhase index waiter (.processing rest))
    | .processing [] =>
      some (driver.setPhase index waiter (.announcing config.maxCyclesPerWait))
    | _ => none
  | .announce backoff =>
    match waiter.phase with
    | .announcing 0 => some (driver.setPhase index waiter .resting)
    | .announcing (cycles + 1) =>
      if driver.chronology.hasAnyScheduledOrDeferred then
        some ((driver.announce config backoff).setPhase index waiter (.announcing cycles))
      else some (driver.setPhase index waiter .resting)
    | _ => none

/-- A step of the call of `interruptAll` at an index. -/
def stepCall (driver : IoRingDriver) (index : Nat) (call : InterruptCall) :
    CallStep -> Option IoRingDriver
  | .read =>
    match call.phase with
    | .reading => some { driver with
        calls := driver.calls.set index
          { call with phase := .counting driver.interruptsPending } }
    | _ => none
  | .count =>
    match call.phase with
    | .counting pending => some { driver with
        calls := driver.calls.set index { call with
          phase := .posting (driver.numInterruptsToPost config call.thread pending) } }
    | _ => none
  | .post =>
    match call.phase with
    | .posting (count + 1) => some { driver with
        interruptsPending := driver.interruptsPending + 1
        submitted := driver.submitted + 1
        calls := driver.calls.set index { call with phase := .posting count } }
    | _ => none

/-- Take a step. A waiter is registered when there are fewer than `maxThreads`. -/
def step (driver : IoRingDriver) : Action -> Option IoRingDriver
  | .chronology thread action =>
    if ofThread thread action && !driver.waits thread then
      (driver.chronology.step action).map fun chronology =>
        if driver.chronology.interrupts action then
          ({ driver with chronology := chronology }.interruptAll thread)
        else { driver with chronology := chronology }
    else none
  | .moveAndExecute thread functorSequence functor =>
    if driver.waits thread then none
    else some ({ driver with chronology :=
      driver.chronology.moveAndExecute functorSequence functor }.interruptAll thread)
  | .stop thread =>
    if driver.waits thread then none
    else some ({ driver with run := false }.interruptAll thread)
  | .restart => some { driver with run := true }
  | .call index action => driver.calls[index]?.bind fun call =>
      driver.stepCall config index call action
  | .registerWaiter thread =>
    if driver.waiters.length < config.maxThreads then
      some { driver with
        waiters := driver.waiters ++ [{ thread := thread, phase := .registering }] }
    else none
  | .waiter index action => driver.waiters[index]?.bind fun waiter =>
      driver.stepWaiter config index waiter action
  | .flush index backoff => driver.flushes[index]?.bind fun phase =>
      (driver.flush config backoff phase).map fun flushed =>
        { flushed.1 with flushes := driver.flushes.set index flushed.2 }
  | .complete =>
    if driver.submitted = 0 then none
    else some { driver with
      submitted := driver.submitted - 1
      completions := driver.completions ++ [.interrupt] }
  | .completeOther => some { driver with completions := driver.completions ++ [.other] }
  | .tick duration => some { driver with now := driver.now + duration }

/-! ## Asleep and awake -/

/-- The waiter is in `run` or `poll`, and not between two rounds of it. -/
def Running (waiter : IoRingWaiter) : Prop :=
  waiter.phase ≠ .registering ∧ waiter.phase ≠ .resting

def Blocked (driver : IoRingDriver) (waiter : IoRingWaiter) : Prop :=
  match waiter.phase with
  | .acquiring => driver.semaphore = 0
  | .waiting deadline => driver.completions = [] ∧ ¬ Chronology.Reached deadline driver.now
  | _ => False

structure Asleep (driver : IoRingDriver) : Prop where
  some_running : ∃ waiter ∈ driver.waiters, Running waiter
  blocked : ∀ waiter ∈ driver.waiters, Running waiter -> driver.Blocked waiter
  completions : driver.completions = []
  submitted : driver.submitted = 0
  calls : ∀ call ∈ driver.calls, driver.toPost config call = 0

def outstanding (driver : IoRingDriver) : Nat :=
  driver.submitted + driver.completions.count .interrupt +
    (driver.waiters.map IoRingWaiter.held).sum

/-- No wakeup is lost: when the waiters are asleep no function is deferred, and no timer
is due before the deadline they block on. The interrupts pending are counted. -/
structure Awake (driver : IoRingDriver) : Prop where
  counted : driver.interruptsPending = driver.outstanding
  nonnegative : 0 ≤ driver.interruptsPending
  deferred : driver.Asleep config -> driver.chronology.functorQueue = []
  scheduled : driver.Asleep config -> ∀ waiter ∈ driver.waiters, ∀ deadline,
    waiter.phase = .waiting deadline -> driver.chronology.Idle deadline

/-- The condition on a step: a flush discards no interrupt, and a waiter that leaves
does not keep a call that has counted the interrupts pending, but not the
waiters, from posting one. -/
def Careful (driver : IoRingDriver) : Action -> Prop
  | .flush index _ => driver.flushes[index]? = some .popping ->
      .interrupt ∉ driver.completions.take 128
  | .waiter _ .deregisterWaiter => 1 < config.maxThreads -> ∀ call ∈ driver.calls,
      match call.phase with
      | .counting pending => pending < driver.waiters.length -> pending + 1 < driver.waiters.length
      | _ => True
  | _ => True

end IoRingDriver

def InterruptCall.Coming (config : ProactorConfig) (count : Nat) (waiter : IoRingWaiter)
    (call : InterruptCall) : Prop :=
  (config.maxThreads = 1 -> call.thread ≠ waiter.thread) ∧
    match call.phase with
    | .reading => True
    | .counting pending => if config.maxThreads = 1 then pending = 0 else pending < count
    | .posting number => 0 < number

/-- The call still comes when there is another number of waiters. -/
theorem InterruptCall.Coming.recount {config : ProactorConfig} {count other : Nat}
    {waiter : IoRingWaiter} {call : InterruptCall} (coming : call.Coming config count waiter)
    (few : config.maxThreads ≠ 1 -> ∀ pending : Int, call.phase = .counting pending ->
      pending < count -> pending < other) : call.Coming config other waiter := by
  refine ⟨coming.1, ?_⟩
  have isComing := coming.2
  cases isPhase : call.phase with
  | reading => trivial
  | posting =>
    rw [isPhase] at isComing
    exact isComing
  | counting pending =>
    rw [isPhase] at isComing
    dsimp only at isComing ⊢
    by_cases single : config.maxThreads = 1
    · rw [if_pos single] at isComing ⊢
      exact isComing
    · rw [if_neg single] at isComing ⊢
      exact few single pending isPhase isComing

namespace IoRingDriver

variable {config : ProactorConfig} {driver next : IoRingDriver}

def available (driver : IoRingDriver) : Nat :=
  driver.submitted + driver.completions.count .interrupt

def Covered (config : ProactorConfig) (driver : IoRingDriver) (waiter : IoRingWaiter)
    (deadline : Option Int) : Prop :=
  driver.chronology.Quiet deadline ∨ 0 < driver.available ∨
    ∃ call ∈ driver.calls, call.Coming config driver.waiters.length waiter

structure Invariant (config : ProactorConfig) (driver : IoRingDriver) : Prop where
  watched : driver.chronology.Watched
  counted : driver.interruptsPending =
    driver.available + (driver.waiters.map IoRingWaiter.held).sum
  capacity : 1 < config.maxThreads -> ∀ waiter ∈ driver.waiters, waiter.held ≤ 1
  bounded : driver.waiters.length ≤ config.maxThreads
  exclusive : 1 < config.maxThreads ->
    driver.semaphore + driver.waiters.countP (fun waiter => waiter.phase.holds) = 1
  identity : config.maxThreads = 1 -> ∀ waiter ∈ driver.waiters, waiter.phase ≠ .registering ->
    driver.threadId = none ∨ driver.threadId = some waiter.thread
  direct : config.maxThreads = 1 -> ∀ waiter ∈ driver.waiters, waiter.phase ≠ .acquiring
  covered : ∀ (index : Nat) (waiter : IoRingWaiter), driver.waiters[index]? = some waiter ->
    ∀ deadline, waiter.phase = .waiting deadline -> Covered config driver waiter deadline

theorem initial_invariant (config : ProactorConfig) : (initial config).Invariant config where
  watched := Chronology.start_watched
  counted := rfl
  capacity := fun _ _ mem => absurd mem not_mem_nil
  bounded := Nat.zero_le _
  exclusive := by
    intro several
    show (if 1 < config.maxThreads then 1 else 0) + 0 = 1
    rw [if_pos several]
  identity := fun _ _ mem => absurd mem not_mem_nil
  direct := fun _ _ mem => absurd mem not_mem_nil
  covered := fun _ _ found => absurd found (by simp [initial])

variable {waiter : IoRingWaiter} {index : Nat}

/-- How many waiters have the semaphore, before and after one of them moves on. -/
theorem countP_holds (found : driver.waiters[index]? = some waiter) (phase : WaiterPhase) :
    (driver.waiters.set index { waiter with phase := phase }).countP
        (fun waiter => waiter.phase.holds) + (if waiter.phase.holds then 1 else 0) =
      driver.waiters.countP (fun waiter => waiter.phase.holds) + (if phase.holds then 1 else 0) :=
  Lists.countP_set_add (fun waiter => waiter.phase.holds) found { waiter with phase := phase }

/-- Only one waiter has the semaphore, or there is only one waiter. -/
theorem Invariant.holds_unique (inv : driver.Invariant config) {first second : Nat}
    {waiter other : IoRingWaiter} (found : driver.waiters[first]? = some waiter)
    (holds : waiter.phase.holds = true) (otherFound : driver.waiters[second]? = some other)
    (otherHolds : other.phase.holds = true) : first = second := by
  have bounded := inv.bounded
  by_cases several : 1 < config.maxThreads
  · by_contra apart
    have counted := countP_holds found .resting
    have exclusive := inv.exclusive several
    have stillFound : (driver.waiters.set first { waiter with phase := .resting })[second]? =
        some other := by rw [getElem?_set_ne apart, otherFound]
    have pos : 0 < (driver.waiters.set first { waiter with phase := .resting }).countP
        fun waiter => waiter.phase.holds :=
      countP_pos_iff.mpr ⟨other, mem_of_getElem? stillFound, otherHolds⟩
    rw [if_pos holds, if_neg (by decide)] at counted
    omega
  · have firstBound := (List.getElem?_eq_some_iff.mp found).1
    have secondBound := (List.getElem?_eq_some_iff.mp otherFound).1
    omega

open IoRingWaiter

theorem held_sum_lt {waiters : List IoRingWaiter} (capacity : ∀ waiter ∈ waiters, waiter.held ≤ 1)
    (mem : waiter ∈ waiters)
    (holdsNone : waiter.held = 0) : (waiters.map held).sum < waiters.length := by
  have atMost : ∀ others : List IoRingWaiter, (∀ waiter ∈ others, waiter.held ≤ 1) ->
      (others.map held).sum ≤ others.length := by
    intro others
    induction others with
    | nil => simp
    | cons head _ ih =>
      intro each
      have headLe := each head mem_cons_self
      have restLe := ih fun other isOther =>
        each other (mem_cons_of_mem _ isOther)
      simp only [map_cons, sum_cons, length_cons]
      omega
  obtain ⟨before, after, rfl⟩ := append_of_mem mem
  have beforeLe := atMost before fun other isOther =>
    capacity other (mem_append_left _ isOther)
  have afterLe := atMost after fun other isOther =>
    capacity other (mem_append_right _ (mem_cons_of_mem _ isOther))
  simp only [map_append, map_cons, sum_append, sum_cons, length_append, length_cons, holdsNone]
  omega

variable {deadline : Option Int}

section

variable (inv : driver.Invariant config)
include inv

section

variable (found : driver.waiters[index]? = some waiter)
  (isWaiting : waiter.phase = .waiting deadline)
include found isWaiting

/-- While a waiter is in the kernel, the others hold fewer interrupts than there are
waiters. -/
theorem Invariant.held_lt : (driver.waiters.map held).sum < driver.waiters.length := by
  have holdsNone : waiter.held = 0 := by simp [held, isWaiting]
  have mem := mem_of_getElem? found
  by_cases several : 1 < config.maxThreads
  · exact held_sum_lt (inv.capacity several) mem holdsNone
  · have bounded := inv.bounded
    have isOne : driver.waiters.length = 1 := by
      have present := length_pos_of_mem mem
      omega
    obtain ⟨_, isOnly⟩ := length_eq_one_iff.mp isOne
    rw [isOnly] at mem ⊢
    rw [← mem_singleton.mp mem]
    simp [holdsNone]

/-- While a waiter is in the kernel and no interrupt is on its way, fewer interrupts are
pending than `interruptAll` provides for. -/
theorem Invariant.pending_few (nothing : driver.available = 0) :
    if config.maxThreads = 1 then driver.interruptsPending = 0
      else driver.interruptsPending < driver.waiters.length := by
  have pendingEq := inv.counted
  have heldLt := inv.held_lt found isWaiting
  have bounded := inv.bounded
  split
  · omega
  · omega

end

/-- A call that is not one of the waiter itself posts an interrupt then. -/
theorem Invariant.posts {index thread : Nat} {pending : Int}
    (found : driver.waiters[index]? = some waiter) (isWaiting : waiter.phase = .waiting deadline)
    (notOwn : config.maxThreads = 1 -> thread ≠ waiter.thread)
    (few : if config.maxThreads = 1 then pending = 0 else pending < driver.waiters.length) :
    0 < driver.numInterruptsToPost config thread pending := by
  unfold numInterruptsToPost
  by_cases single : config.maxThreads = 1
  · have isOther : driver.threadId ≠ some thread := by
      rcases inv.identity single waiter (mem_of_getElem? found) (by simp [isWaiting])
        with isNone | isOwn
      · simp [isNone]
      · rw [isOwn]
        exact fun same => notOwn single (Option.some.inj same).symm
    rw [if_pos single] at few ⊢
    rw [if_neg isOther, if_pos few]
    exact Nat.one_pos
  · rw [if_neg single] at few ⊢
    rw [if_pos few]
    omega

/-- When the waiters are asleep, the one in the kernel sleeps with reason. -/
theorem Invariant.idle (asleep : driver.Asleep config)
    (found : driver.waiters[index]? = some waiter) (isWaiting : waiter.phase = .waiting deadline) :
    driver.chronology.Idle deadline := by
  have nothing : driver.available = 0 := by simp [available, asleep.submitted, asleep.completions]
  rcases inv.covered index waiter found deadline isWaiting with quiet | _ | coming
  · rcases quiet with isZero | idle
    · have blocked := asleep.blocked waiter (mem_of_getElem? found) (by simp [Running, isWaiting])
      simp only [Blocked, isWaiting] at blocked
      exact absurd ⟨0, isZero, by simp⟩ blocked.2
    · exact idle
  · omega
  · exfalso
    obtain ⟨call, isCall, notOwn, isComing⟩ := coming
    have isNone := asleep.calls call isCall
    unfold toPost at isNone
    cases isPhase : call.phase with
    | reading =>
      rw [isPhase] at isNone
      dsimp only at isNone
      have posts := inv.posts found isWaiting notOwn (inv.pending_few found isWaiting nothing)
      omega
    | counting =>
      rw [isPhase] at isNone isComing
      dsimp only at isNone
      have posts := inv.posts found isWaiting notOwn isComing
      omega
    | posting =>
      rw [isPhase] at isNone isComing
      dsimp only at isNone isComing
      omega

theorem Invariant.some_waiting (asleep : driver.Asleep config) :
    ∃ (index : Nat) (waiter : IoRingWaiter)
      (deadline : Option Int), driver.waiters[index]? = some waiter ∧
        waiter.phase = .waiting deadline := by
  -- Whoever has the semaphore is running, and is blocked in the kernel only.
  have inKernel : ∀ waiter ∈ driver.waiters, waiter.phase.holds = true ->
      ∃ (index : Nat) (waiter : IoRingWaiter) (deadline : Option Int),
        driver.waiters[index]? = some waiter ∧ waiter.phase = .waiting deadline := by
    intro waiter mem holds
    obtain ⟨index, found⟩ := mem_iff_getElem?.mp mem
    cases isPhase : waiter.phase with
    | waiting deadline => exact ⟨index, waiter, deadline, found, isPhase⟩
    | holding =>
      have blocked := asleep.blocked waiter mem (by simp [Running, isPhase])
      simp [Blocked, isPhase] at blocked
    | registering | resting | acquiring | processing entries
    | announcing cycles => simp [WaiterPhase.holds, isPhase] at holds
  obtain ⟨waiter, mem, running⟩ := asleep.some_running
  have blocked := asleep.blocked waiter mem running
  cases isPhase : waiter.phase with
  | waiting => exact inKernel waiter mem (by simp [WaiterPhase.holds, isPhase])
  | acquiring =>
    have several : 1 < config.maxThreads := by
      have pos := config.positive
      have notSingle : config.maxThreads ≠ 1 := fun single =>
        inv.direct single waiter mem isPhase
      omega
    have exclusive := inv.exclusive several
    simp only [Blocked, isPhase] at blocked
    obtain ⟨owner, isHolder, holds⟩ := countP_pos_iff.mp
      (by omega : 0 < driver.waiters.countP fun waiter => waiter.phase.holds)
    exact inKernel owner isHolder holds
  | holding | registering | resting | processing entries
  | announcing => simp [Blocked, isPhase] at blocked

theorem Invariant.awake : driver.Awake config where
  counted := by
    rw [inv.counted]
    rfl
  nonnegative := by
    rw [inv.counted]
    omega
  deferred := by
    intro asleep
    obtain ⟨index, waiter, deadline, found, isWaiting⟩ := inv.some_waiting asleep
    exact (inv.idle asleep found isWaiting).deferred
  scheduled := by
    intro asleep _ mem _ isWaiting
    obtain ⟨_, found⟩ := mem_iff_getElem?.mp mem
    exact inv.idle asleep found isWaiting

end

/-! ## The steps of a waiter -/

/-- What a step of a waiter may do: it moves on, it pops or processes interrupts, it
takes or posts the semaphore, and it announces the chronology. -/
structure Moves (config : ProactorConfig) (driver next : IoRingDriver) (index : Nat)
    (waiter : IoRingWaiter) (phase : WaiterPhase) : Prop where
  waiters : next.waiters = driver.waiters.set index { waiter with phase := phase }
  calls : next.calls = driver.calls
  watched : next.chronology.Watched
  counted : next.interruptsPending + driver.available + waiter.held =
    driver.interruptsPending + next.available + ({ waiter with phase := phase } : IoRingWaiter).held
  capacity : 1 < config.maxThreads -> ({ waiter with phase := phase } : IoRingWaiter).held ≤ 1
  exclusive : 1 < config.maxThreads -> next.semaphore + (if phase.holds then 1 else 0) =
    driver.semaphore + (if waiter.phase.holds then 1 else 0)
  identity : config.maxThreads = 1 -> phase ≠ .registering ->
    next.threadId = none ∨ next.threadId = some waiter.thread
  direct : config.maxThreads = 1 -> phase ≠ .acquiring
  own : ∀ deadline, phase = .waiting deadline -> next.chronology.Quiet deadline
  quiet : ∀ deadline, driver.chronology.Quiet deadline -> next.chronology.Quiet deadline
  available : waiter.phase.holds = true ∨ next.available = driver.available

variable {phase : WaiterPhase}

section

variable (inv : driver.Invariant config)
include inv

section

variable (found : driver.waiters[index]? = some waiter)
include found

theorem Invariant.moves
    (moves : Moves config driver next index waiter phase) : next.Invariant config := by
  have lengthEq : next.waiters.length = driver.waiters.length := by rw [moves.waiters, length_set]
  -- With a single thread the waiter is the only one.
  have only : config.maxThreads = 1 -> ∀ other ∈ next.waiters,
      other = { waiter with phase := phase } := by
    intro single other mem
    have bounded := inv.bounded
    obtain ⟨number, isAt⟩ := mem_iff_getElem?.mp mem
    have numberBound := (List.getElem?_eq_some_iff.mp isAt).1
    have indexBound := (List.getElem?_eq_some_iff.mp found).1
    have same : number = index := by omega
    rw [moves.waiters, same, getElem?_set_self indexBound] at isAt
    exact (Option.some.inj isAt).symm
  exact { moves with
    counted := by
      have sumEq := Lists.sum_map_set_add held found { waiter with phase := phase }
      have balance := moves.counted
      have before := inv.counted
      rw [moves.waiters]
      omega
    capacity := by
      intro several other mem
      rw [moves.waiters] at mem
      rcases mem_or_eq_of_mem_set mem with before | isNew
      · exact inv.capacity several other before
      · rw [isNew]
        exact moves.capacity several
    bounded := by
      rw [lengthEq]
      exact inv.bounded
    exclusive := by
      intro several
      have counted := countP_holds found phase
      have balance := moves.exclusive several
      have before := inv.exclusive several
      rw [moves.waiters]
      omega
    identity := by
      intro single other mem notRegistering
      rw [only single other mem] at notRegistering ⊢
      exact moves.identity single notRegistering
    direct := by
      intro single other mem
      rw [only single other mem]
      exact moves.direct single
    covered := by
      intro number other isAt deadline isWaiting
      unfold Covered
      rw [lengthEq, moves.calls]
      by_cases isIndex : number = index
      · rw [moves.waiters, isIndex,
          List.getElem?_set_self (List.getElem?_eq_some_iff.mp found).1] at isAt
        have isNew := Option.some.inj isAt
        rw [← isNew] at isWaiting
        exact .inl (moves.own deadline isWaiting)
      · rw [moves.waiters, getElem?_set_ne (Ne.symm isIndex)] at isAt
        rcases inv.covered number other isAt deadline isWaiting with
          quiet | positive | coming
        · exact .inl (moves.quiet deadline quiet)
        · rcases moves.available with holds | same
          · have otherHolds : other.phase.holds = true := by simp [isWaiting, WaiterPhase.holds]
            exact absurd (inv.holds_unique isAt otherHolds found holds) isIndex
          · rw [same]
            exact .inr (.inl positive)
        · exact .inr (.inr coming) }

/-- The waiter only moves on. -/
theorem Invariant.goes_on {before : WaiterPhase} (isPhase : waiter.phase = before)
    (sameHeld : ({ waiter with phase := phase } : IoRingWaiter).held =
      ({ waiter with phase := before } : IoRingWaiter).held)
    (sameHolds : 1 < config.maxThreads -> phase.holds = before.holds)
    (registered : before ≠ .registering) (direct : config.maxThreads = 1 -> phase ≠ .acquiring)
    (own : ∀ deadline, phase = .waiting deadline -> driver.chronology.Quiet deadline) :
    (driver.setPhase index waiter phase).Invariant config := by
  subst isPhase
  exact inv.moves found { inv with
    waiters := rfl
    calls := rfl
    counted := by rw [sameHeld]; rfl
    capacity := fun several => sameHeld ▸ inv.capacity several waiter (mem_of_getElem? found)
    exclusive := fun several => by rw [sameHolds several]; rfl
    identity := fun single _ => inv.identity single waiter (mem_of_getElem? found) registered
    direct := direct
    own := own
    quiet := fun _ quiet => quiet
    available := .inr rfl }

open IoRingDriver

theorem Invariant.store (isPhase : waiter.phase = .registering) :
    ({ driver with threadId := if config.maxThreads = 1 then some waiter.thread
        else driver.threadId }.setPhase index waiter .resting).Invariant config := by
  exact inv.moves found { inv with
    waiters := rfl
    calls := rfl
    counted := by simp [held, isPhase, setPhase, available]
    capacity := by simp [held]
    exclusive := by simp [isPhase, WaiterPhase.holds, setPhase]
    identity := by
      intro single _
      simp [setPhase, single]
    direct := by simp
    own := by simp
    quiet := fun _ quiet => quiet
    available := .inr rfl }

theorem Invariant.moves_pop (holds : waiter.phase.holds = true) {completions : List Completion}
    (notHolds : phase.holds = false) (direct : phase ≠ .acquiring)
    (counted : completions.count .interrupt +
      ({ waiter with phase := phase } : IoRingWaiter).held = driver.completions.count .interrupt)
    (capacity : 1 < config.maxThreads -> ({ waiter with phase := phase } : IoRingWaiter).held ≤ 1) :
    Moves config driver
      (({ driver with completions := completions }.postSemaphore config).setPhase index waiter
        phase) index waiter phase := { inv with
  waiters := rfl
  calls := rfl
  counted := by
    have holdsNone : waiter.held = 0 := by
      unfold held
      cases isPhase : waiter.phase <;> simp [isPhase, WaiterPhase.holds] at holds ⊢
    simp only [available, setPhase, postSemaphore]
    omega
  capacity := capacity
  exclusive := by
    intro several
    rw [notHolds, holds]
    simp [setPhase, postSemaphore, several]
  identity := fun single _ => inv.identity single waiter (mem_of_getElem? found) (by
    intro isRegistering
    simp [isRegistering, WaiterPhase.holds] at holds)
  direct := fun _ => direct
  own := by
    intro _ isWaiting
    simp [isWaiting, WaiterPhase.holds] at notHolds
  quiet := fun _ quiet => quiet
  available := .inl holds }

theorem Invariant.wait (isPhase : waiter.phase = .resting) : (driver.setPhase index waiter
      (if 1 < config.maxThreads then .acquiring else .holding)).Invariant config := by
  split
  · exact inv.goes_on found isPhase rfl (fun _ => rfl) nofun (by omega) nofun
  · rename_i several
    exact inv.goes_on found isPhase rfl (fun several' => absurd several' several) nofun nofun nofun

theorem Invariant.acquire (isPhase : waiter.phase = .acquiring) (posted : driver.semaphore ≠ 0) :
    ({ driver with semaphore := driver.semaphore - 1 }.setPhase index waiter
      .holding).Invariant config := by
  exact inv.moves found { inv with
    waiters := rfl
    calls := rfl
    counted := by simp [held, isPhase, setPhase, available]
    capacity := by simp [held]
    exclusive := by
      intro _
      simp only [isPhase, WaiterPhase.holds, setPhase, if_true, false_eq_true, if_false]
      omega
    identity := fun single _ => inv.identity single waiter
      (mem_of_getElem? found) (by simp [isPhase])
    direct := by simp
    own := by simp
    quiet := fun _ quiet => quiet
    available := .inr rfl }

theorem Invariant.earliest (isPhase : waiter.phase = .holding)
    (taken : driver.stepWaiter config index waiter .earliest = some next) :
    next.Invariant config := by
  simp only [stepWaiter, isPhase] at taken
  split at taken
  · cases taken
    apply inv.moves found
    apply inv.moves_pop found (by simp [isPhase, WaiterPhase.holds]) (by rfl) (by simp)
    · simp [held]
    · simp [held]
  · cases taken
    refine inv.goes_on found isPhase rfl (fun _ => rfl) nofun nofun ?_
    intro _ isWaiting
    rw [← WaiterPhase.waiting.inj isWaiting]
    exact inv.watched.quiet_earliest

variable (isPhase : waiter.phase = .waiting deadline)
include isPhase

theorem Invariant.take : (({ driver with
      completions := driver.completions.drop config.entryListCapacity }.postSemaphore
        config).setPhase index waiter
          (.processing (driver.completions.take config.entryListCapacity))).Invariant config := by
  apply inv.moves found
  apply inv.moves_pop found (by simp [isPhase, WaiterPhase.holds]) (by rfl) (by simp)
  · simp only [held]
    rw [Nat.add_comm, ← count_append, take_append_drop]
  · intro _
    have isOne : config.entryListCapacity = 1 := by
      unfold ProactorConfig.entryListCapacity
      rw [if_neg (by omega)]
    simp only [held, isOne]
    exact le_trans count_le_length (by simp)

theorem Invariant.leave :
    ((driver.postSemaphore config).setPhase index waiter (.processing [])).Invariant config := by
  apply inv.moves found
  apply inv.moves_pop found (by simp [isPhase, WaiterPhase.holds]) (by rfl) (by simp)
  · simp [held]
  · simp [held]

end

theorem Invariant.interruptComplete {rest : List Completion}
    (found : driver.waiters[index]? = some waiter)
    (isPhase : waiter.phase = .processing (.interrupt :: rest)) :
    (driver.interruptComplete.setPhase index waiter (.processing rest)).Invariant config := by
  exact inv.moves found { inv with
    waiters := rfl
    calls := rfl
    counted := by
      simp only [held, isPhase, setPhase, available,
        IoRingDriver.interruptComplete, count_cons_self]
      omega
    capacity := by
      intro several
      have before := inv.capacity several waiter (mem_of_getElem? found)
      simp only [held, isPhase, count_cons_self] at before ⊢
      omega
    exclusive := by simp [isPhase, WaiterPhase.holds, setPhase, IoRingDriver.interruptComplete]
    identity := fun single _ => inv.identity single waiter
      (mem_of_getElem? found) (by simp [isPhase])
    direct := by simp
    own := by simp
    quiet := fun _ quiet => quiet
    available := .inr rfl }

theorem Invariant.process {entries : List Completion} (found : driver.waiters[index]? = some waiter)
    (isPhase : waiter.phase = .processing entries)
    (taken : driver.stepWaiter config index waiter .process = some next) :
    next.Invariant config := by
  simp only [stepWaiter, isPhase] at taken
  cases entries with
  | nil =>
    cases taken
    exact inv.goes_on found isPhase rfl (fun _ => rfl) nofun nofun nofun
  | cons entry =>
    cases entry with
    | interrupt =>
      cases taken
      exact inv.interruptComplete found isPhase
    | other =>
      cases taken
      exact inv.goes_on found isPhase rfl (fun _ => rfl) nofun nofun nofun

theorem Invariant.announce {index cycles : Nat} (found : driver.waiters[index]? = some waiter)
    (isPhase : waiter.phase = .announcing (cycles + 1)) (backoff : Nat -> Int -> Int) :
    ((driver.announce config backoff).setPhase index waiter
      (.announcing cycles)).Invariant config := by
  have taken : driver.chronology.step (.collect config.dynamic driver.now backoff) =
      some (driver.chronology.collect config.dynamic driver.now backoff) := rfl
  have swept := Chronology.step_sweeps inv.watched taken rfl
  exact inv.moves found {
    waiters := rfl
    calls := rfl
    watched := Chronology.step_watched inv.watched taken
    counted := by
      simp [held, isPhase, setPhase, IoRingDriver.available, IoRingDriver.announce]
    capacity := by simp [held]
    exclusive := by simp [isPhase, WaiterPhase.holds, setPhase, IoRingDriver.announce]
    identity := fun single _ => inv.identity single waiter
      (mem_of_getElem? found) (by simp [isPhase])
    direct := by simp
    own := by simp
    quiet := fun _ quiet => quiet.sweeps swept
    available := .inr rfl }

/-- A waiter leaves that has popped nothing and does not have the semaphore. -/
theorem Invariant.deregisterWaiter (found : driver.waiters[index]? = some waiter)
    (isPhase : waiter.phase = .resting)
    (careful : driver.Careful config (.waiter index .deregisterWaiter)) (flushes : List FlushPhase) :
    ({ driver with waiters := driver.waiters.eraseIdx index, flushes := flushes } :
      IoRingDriver).Invariant config := by
  obtain ⟨_, _, isWaiters, isErased⟩ := Lists.eraseIdx_split found
  have lengthEq : (driver.waiters.eraseIdx index).length + 1 = driver.waiters.length := by
    rw [isErased, isWaiters]
    simp only [length_append, length_cons]
    omega
  have remaining : ∀ other ∈ driver.waiters.eraseIdx index, other ∈ driver.waiters :=
    fun other mem => mem_of_mem_eraseIdx mem
  exact { inv with
    counted := by
      have pendingEq := inv.counted
      have holdsNone : waiter.held = 0 := by simp [held, isPhase]
      show driver.interruptsPending = driver.available +
        ((driver.waiters.eraseIdx index).map held).sum
      rw [isWaiters] at pendingEq
      rw [isErased]
      simp only [map_append, map_cons, sum_append, sum_cons] at pendingEq ⊢
      omega
    capacity := fun several other mem => inv.capacity several other (remaining other mem)
    bounded := by
      have bounded := inv.bounded
      dsimp only
      omega
    exclusive := by
      intro several
      have exclusive := inv.exclusive several
      have notHolds : waiter.phase.holds = false := by simp [WaiterPhase.holds, isPhase]
      rw [isWaiters] at exclusive
      rw [isErased]
      simp only [countP_append, countP_cons, notHolds, false_eq_true, if_false] at exclusive ⊢
      omega
    identity := fun single other mem => inv.identity single other (remaining other mem)
    direct := fun single other mem => inv.direct single other (remaining other mem)
    covered := by
      intro _ other isAt deadline isWaiting
      obtain ⟨place, isPlace⟩ := mem_iff_getElem?.mp (remaining other (mem_of_getElem? isAt))
      rcases inv.covered place other isPlace deadline isWaiting with
        quiet | positive | ⟨call, isCall, coming⟩
      · exact .inl quiet
      · exact .inr (.inl positive)
      · refine .inr (.inr ⟨call, isCall, coming.recount ?_⟩)
        intro _ _ isPending _
        have positive := config.positive
        have stillFew := careful (by omega) call isCall
        rw [isPending] at stillFew
        dsimp only
        omega }

theorem Invariant.stepWaiter {action : WaiterStep}
    (careful : driver.Careful config (.waiter index action))
    (found : driver.waiters[index]? = some waiter)
    (taken : driver.stepWaiter config index waiter action = some next) : next.Invariant config := by
  cases action with
  | store =>
    cases isPhase : waiter.phase <;> simp only [IoRingDriver.stepWaiter, isPhase] at taken
    case registering =>
      cases taken
      exact inv.store found isPhase
    all_goals contradiction
  | deregisterWaiter =>
    cases isPhase : waiter.phase <;> simp only [IoRingDriver.stepWaiter, isPhase] at taken
    case resting =>
      cases taken
      exact inv.deregisterWaiter found isPhase careful _
    all_goals contradiction
  | wait =>
    cases isPhase : waiter.phase <;> simp only [IoRingDriver.stepWaiter, isPhase] at taken
    case resting =>
      cases taken
      exact inv.wait found isPhase
    all_goals contradiction
  | acquire =>
    cases isPhase : waiter.phase <;> simp only [IoRingDriver.stepWaiter, isPhase] at taken
    case acquiring =>
      split at taken
      · contradiction
      · rename_i unposted
        cases taken
        exact inv.acquire found isPhase unposted
    all_goals contradiction
  | earliest =>
    cases isPhase : waiter.phase
    case holding => exact inv.earliest found isPhase taken
    all_goals simp [IoRingDriver.stepWaiter, isPhase] at taken
  | take =>
    cases isPhase : waiter.phase <;> simp only [IoRingDriver.stepWaiter, isPhase] at taken
    case waiting deadline =>
      split at taken
      · contradiction
      · cases taken
        exact inv.take found isPhase
    all_goals contradiction
  | leave =>
    cases isPhase : waiter.phase <;> simp only [IoRingDriver.stepWaiter, isPhase] at taken
    case waiting deadline =>
      cases taken
      exact inv.leave found isPhase
    all_goals contradiction
  | process =>
    cases isPhase : waiter.phase
    case processing entries => exact inv.process found isPhase taken
    all_goals simp [IoRingDriver.stepWaiter, isPhase] at taken
  | announce backoff =>
    cases isPhase : waiter.phase
    case announcing cycles =>
      have rests : (driver.setPhase index waiter .resting).Invariant config :=
        inv.goes_on found isPhase rfl (fun _ => rfl) nofun nofun nofun
      cases cycles with
      | zero =>
        simp only [IoRingDriver.stepWaiter, isPhase] at taken
        cases taken
        exact rests
      | succ =>
        simp only [IoRingDriver.stepWaiter, isPhase] at taken
        by_cases hasAny : driver.chronology.hasAnyScheduledOrDeferred = true
        · rw [if_pos hasAny] at taken
          cases taken
          exact inv.announce found isPhase backoff
        · rw [if_neg hasAny] at taken
          cases taken
          exact rests
    all_goals simp [IoRingDriver.stepWaiter, isPhase] at taken

end

/-! ## The other steps -/

/-- Nothing changes that concerns a waiter in the kernel, except that calls may be
added. -/
theorem Invariant.frame (inv : driver.Invariant config)
    (watched : next.chronology.Watched) (available : next.available = driver.available)
    (quiet : ∀ (index : Nat) (waiter : IoRingWaiter), driver.waiters[index]? = some waiter ->
      ∀ deadline, waiter.phase = .waiting deadline -> driver.chronology.Quiet deadline ->
        Covered config next waiter deadline)
    (identity : next.threadId = none ∨ next.threadId = driver.threadId)
    (calls : driver.calls ⊆ next.calls)
    (pending : next.interruptsPending = driver.interruptsPending)
    (waiters : next.waiters = driver.waiters) (semaphore : next.semaphore = driver.semaphore) :
    next.Invariant config where
  watched := watched
  counted := by
    rw [pending, available, waiters]
    exact inv.counted
  capacity := by
    rw [waiters]
    exact inv.capacity
  bounded := by
    rw [waiters]
    exact inv.bounded
  exclusive := by
    rw [semaphore, waiters]
    exact inv.exclusive
  identity := by
    intro single waiter mem registered
    rw [waiters] at mem
    rcases identity with isNone | same
    · exact .inl isNone
    · rw [same]
      exact inv.identity single waiter mem registered
  direct := by
    rw [waiters]
    exact inv.direct
  covered := by
    intro index waiter found deadline isWaiting
    rw [waiters] at found
    rcases inv.covered index waiter found deadline isWaiting with
      isQuiet | positive | ⟨call, isCall, coming⟩
    · exact quiet index waiter found deadline isWaiting isQuiet
    · rw [← available] at positive
      exact .inr (.inl positive)
    · rw [← waiters] at coming
      exact .inr (.inr ⟨call, calls isCall, coming⟩)

variable {chron : Chronology}

section

variable (inv : driver.Invariant config)
include inv

/-- A thread that is not in `wait` begins a call of `interruptAll`, after it has done
what it likes with the chronology. -/
theorem Invariant.interruptAll {thread : Nat} (notWaiting : driver.waits thread = false)
    (watched : chron.Watched) (run : Bool) :
    ({ driver with chronology := chron, run := run }.interruptAll thread).Invariant config := by
  refine inv.frame watched rfl ?_ (.inr rfl) (subset_append_left _ _) rfl rfl rfl
  intro _ waiter found _ isWaiting _
  refine .inr (.inr ⟨_, mem_append_right _ (mem_singleton_self _), ?_, trivial⟩)
  intro _ isOwn
  dsimp only at isOwn
  have waits : driver.waits thread = true := by
    unfold waits
    rw [any_eq_true]
    exact ⟨waiter, mem_of_getElem? found, by
      simp [isOwn, isWaiting, WaiterPhase.inWait]⟩
  rw [notWaiting] at waits
  contradiction

/-- The chronology changes in a way that makes nothing due. -/
theorem Invariant.sweeps (watched : chron.Watched)
    (swept : Chronology.Sweeps driver.chronology chron) :
    ({ driver with chronology := chron } : IoRingDriver).Invariant config :=
  inv.frame watched rfl (fun _ _ _ _ _ quiet => .inl (quiet.sweeps swept)) (.inr rfl)
    (refl _) rfl rfl rfl

theorem Invariant.announceOnly (backoff : Nat -> Int -> Int) :
    (driver.announce config backoff).Invariant config := by
  have taken : driver.chronology.step (.collect config.dynamic driver.now backoff) =
      some (driver.chronology.collect config.dynamic driver.now backoff) := rfl
  exact inv.sweeps (Chronology.step_watched inv.watched taken)
    (Chronology.step_sweeps inv.watched taken rfl)

theorem Invariant.registerWaiter (fewer : driver.waiters.length < config.maxThreads) (thread : Nat) :
    ({ driver with waiters := driver.waiters ++ [{ thread := thread, phase := .registering }] } :
      IoRingDriver).Invariant config := by
  exact { inv with
    counted := by
      have pendingEq := inv.counted
      simp only [map_append, sum_append]
      exact pendingEq
    capacity := by
      intro several waiter mem
      rcases mem_append.mp mem with before | isNew
      · exact inv.capacity several waiter before
      · rw [mem_singleton.mp isNew]
        exact Nat.zero_le _
    bounded := by
      simp only [length_append, length_singleton]
      omega
    exclusive := by
      intro several
      simp only [countP_append]
      exact inv.exclusive several
    identity := by
      intro single waiter mem registered
      rcases mem_append.mp mem with before | isNew
      · exact inv.identity single waiter before registered
      · rw [mem_singleton.mp isNew] at registered
        contradiction
    direct := by
      intro single waiter mem
      rcases mem_append.mp mem with before | isNew
      · exact inv.direct single waiter before
      · rw [mem_singleton.mp isNew]
        simp
    covered := by
      intro _ waiter isAt deadline isWaiting
      have isBefore : waiter ∈ driver.waiters := by
        rcases mem_append.mp (mem_of_getElem? isAt) with before | isNew
        · exact before
        · rw [mem_singleton.mp isNew] at isWaiting
          contradiction
      obtain ⟨place, isPlace⟩ := mem_iff_getElem?.mp isBefore
      rcases inv.covered place waiter isPlace deadline isWaiting with
        quiet | positive | ⟨call, isCall, coming⟩
      · exact .inl quiet
      · exact .inr (.inl positive)
      · refine .inr (.inr ⟨call, isCall, coming.recount ?_⟩)
        intro _ _ _ _
        simp only [length_append, length_singleton]
        omega }

end

variable {call : InterruptCall}

/-- A call takes a step that keeps it coming, or after which an interrupt is on its
way. -/
theorem Invariant.calls (inv : driver.Invariant config)
    (found : driver.calls[index]? = some call) (phase : InterruptPhase)
    (coming : ∀ (place : Nat) (waiter : IoRingWaiter), driver.waiters[place]? = some waiter ->
      ∀ deadline, waiter.phase = .waiting deadline -> driver.available = 0 ->
      call.Coming config driver.waiters.length waiter ->
      ({ call with phase := phase } : InterruptCall).Coming config driver.waiters.length waiter) :
    ({ driver with calls := driver.calls.set index { call with phase := phase } } :
      IoRingDriver).Invariant config := by
  exact { inv with
    covered := by
      intro place waiter isAt deadline isWaiting
      rcases inv.covered place waiter isAt deadline isWaiting with
        quiet | positive | ⟨other, isOther, isComing⟩
      · exact .inl quiet
      · exact .inr (.inl positive)
      · by_cases nothing : driver.available = 0
        · obtain ⟨number, isNumber⟩ := mem_iff_getElem?.mp isOther
          by_cases isIndex : number = index
          · rw [isIndex, found] at isNumber
            cases isNumber
            refine .inr (.inr ⟨_, ?_, coming place waiter isAt deadline isWaiting nothing isComing⟩)
            exact mem_of_getElem? (List.getElem?_set_self (List.getElem?_eq_some_iff.mp found).1)
          · refine .inr (.inr ⟨other, ?_, isComing⟩)
            rw [← getElem?_set_ne (Ne.symm isIndex)] at isNumber
            exact mem_of_getElem? isNumber
        · exact .inr (.inl (Nat.pos_of_ne_zero nothing)) }

theorem Invariant.stepCall (inv : driver.Invariant config) {action : CallStep}
    (found : driver.calls[index]? = some call)
    (taken : driver.stepCall config index call action = some next) : next.Invariant config := by
  cases action with
  | read =>
    cases isPhase : call.phase <;> simp only [IoRingDriver.stepCall, isPhase] at taken
    case reading =>
      cases taken
      apply inv.calls found
      intro _ _ isAt _ isWaiting nothing coming
      exact ⟨coming.1, inv.pending_few isAt isWaiting nothing⟩
    all_goals contradiction
  | count =>
    cases isPhase : call.phase <;> simp only [IoRingDriver.stepCall, isPhase] at taken
    case counting pending =>
      cases taken
      apply inv.calls found
      intro _ _ isAt _ isWaiting _ coming
      have few := coming.2
      rw [isPhase] at few
      exact ⟨coming.1, inv.posts isAt isWaiting coming.1 few⟩
    all_goals contradiction
  | post =>
    cases isPhase : call.phase with
    | reading | counting _ => simp [IoRingDriver.stepCall, isPhase] at taken
    | posting number =>
      cases number with
      | zero => simp [IoRingDriver.stepCall, isPhase] at taken
      | succ =>
        simp only [IoRingDriver.stepCall, isPhase] at taken
        cases taken
        exact { inv with
          counted := by
            have pendingEq := inv.counted
            simp only [available] at pendingEq ⊢
            omega
          covered := fun _ _ _ _ _ => .inr (.inl (by
            simp only [available]
            omega)) }

theorem flush_invariant {backoff : Nat -> Int -> Int} {phase : FlushPhase}
    {flushed : IoRingDriver × FlushPhase} (inv : driver.Invariant config)
    (careful : driver.Careful config (.flush index backoff))
    (found : driver.flushes[index]? = some phase)
    (taken : driver.flush config backoff phase = some flushed) : flushed.1.Invariant config := by
  -- An announcement if there is anything to announce, and then another phase.
  have announced : ∀ (hasAny : Bool) (first second : FlushPhase),
      (if hasAny then some (driver.announce config backoff, first) else some (driver, second)) =
        some flushed -> flushed.1.Invariant config := by
    intro hasAny _ _ isFlushed
    cases hasAny with
    | true =>
      cases isFlushed
      exact inv.announceOnly backoff
    | false =>
      cases isFlushed
      exact inv
  cases phase with
  | starting | ending | repeating => exact announced _ _ _ taken
  | done => exact absurd taken (by simp [flush])
  | storing =>
    cases taken
    exact inv.frame inv.watched rfl (fun _ _ _ _ _ quiet => .inl quiet) (.inl rfl)
      (refl _) rfl rfl rfl
  | popping =>
    unfold flush at taken
    by_cases isEmpty : driver.completions = []
    · rw [if_pos isEmpty] at taken
      cases taken
      exact inv
    · rw [if_neg isEmpty] at taken
      cases taken
      have noneTaken := count_eq_zero.mpr (careful found)
      have split : (driver.completions.take 128 ++ driver.completions.drop 128).count
          Completion.interrupt = driver.completions.count .interrupt := by rw [take_append_drop]
      rw [count_append, noneTaken, Nat.zero_add] at split
      exact inv.frame inv.watched (by simp only [available, split])
        (fun _ _ _ _ _ quiet => .inl quiet)
        (.inr rfl) (refl _) rfl rfl rfl

theorem step_invariant {action : Action} (inv : driver.Invariant config)
    (careful : driver.Careful config action) (taken : driver.step config action = some next) :
    next.Invariant config := by
  cases action with
  | chronology thread action =>
    simp only [step] at taken
    split at taken
    · rename_i allowed
      obtain ⟨_, stepped, isNext⟩ := Option.map_eq_some_iff.mp taken
      have notWaiting : driver.waits thread = false := by simpa using (and_eq_true_iff.mp allowed).2
      have watched := Chronology.step_watched inv.watched stepped
      split at isNext
      · rw [← isNext]
        exact inv.interruptAll notWaiting watched driver.run
      · rename_i interrupting
        rw [← isNext]
        exact inv.sweeps watched (Chronology.step_sweeps inv.watched stepped
          (eq_false_iff.mpr interrupting))
    · contradiction
  | moveAndExecute thread functorSequence functor =>
    simp only [step] at taken
    split at taken
    · contradiction
    · rename_i waits
      cases taken
      exact inv.interruptAll (eq_false_iff.mpr waits)
        (inv.watched.moveAndExecute functorSequence functor) driver.run
  | stop thread =>
    simp only [step] at taken
    split at taken
    · contradiction
    · rename_i waits
      cases taken
      exact inv.interruptAll (eq_false_iff.mpr waits) inv.watched false
  | restart =>
    cases taken
    exact { inv with }
  | call index action =>
    obtain ⟨_, found, stepped⟩ := Option.bind_eq_some_iff.mp taken
    exact inv.stepCall found stepped
  | registerWaiter thread =>
    obtain ⟨fewer, rfl⟩ := Run.guarded taken
    exact inv.registerWaiter fewer thread
  | waiter index =>
    obtain ⟨_, found, stepped⟩ := Option.bind_eq_some_iff.mp taken
    exact inv.stepWaiter careful found stepped
  | flush =>
    obtain ⟨_, found, stepped⟩ := Option.bind_eq_some_iff.mp taken
    obtain ⟨_, isFlushed, isNext⟩ := Option.map_eq_some_iff.mp stepped
    rw [← isNext]
    exact { flush_invariant inv careful found isFlushed with }
  | complete =>
    simp only [step] at taken
    split at taken
    · contradiction
    · cases taken
      refine inv.frame inv.watched ?_ (fun _ _ _ _ _ quiet => .inl quiet)
        (.inr rfl) (refl _) rfl rfl rfl
      simp only [available, count_append, count_singleton_self]
      omega
  | completeOther =>
    cases taken
    exact inv.frame inv.watched (by simp [available, count_append])
      (fun _ _ _ _ _ quiet => .inl quiet)
      (.inr rfl) (refl _) rfl rfl rfl
  | tick =>
    cases taken
    exact { inv with }

/-- In every run whose steps are careful, no wakeup is lost, and the interrupts pending
are counted. -/
theorem always_awake {actions : List Action}
    (careful : Run.Along (step config) (Careful config) (initial config) actions) :
    Run.Always (step config) (Awake config) (initial config) actions :=
  (Run.always_of_along (fun _ _ _ inv isCareful taken => step_invariant inv isCareful taken)
    (initial_invariant config) careful).mono fun _ inv => inv.awake

def oneThread : ProactorConfig := { maxThreads := 1, positive := by decide, maxCyclesPerWait := 1 }

def deferredOnce : List Action :=
  [.registerWaiter 1, .waiter 0 .store, .waiter 0 .wait, .waiter 0 .earliest,
    .chronology 2 (.execute 7), .call 0 .read, .call 0 .count, .call 0 .post, .complete,
    .waiter 0 .take, .waiter 0 .process, .waiter 0 .process, .waiter 0 (.announce fun _ _ => 0),
    .waiter 0 (.announce fun _ _ => 0), .waiter 0 .deregisterWaiter,
    .flush 0 fun _ _ => 0, .flush 0 fun _ _ => 0, .flush 0 fun _ _ => 0, .flush 0 fun _ _ => 0]

theorem always_awake_once :
    Run.Always (step oneThread) (Awake oneThread) (initial oneThread) deferredOnce :=
  always_awake
    ⟨trivial, trivial, trivial, trivial, trivial, trivial, trivial, trivial, trivial, trivial,
      trivial, trivial, trivial, trivial, fun several => absurd several (by decide),
      fun _ => by decide +kernel, fun _ => by decide +kernel, fun _ => by decide +kernel,
      fun _ => by decide +kernel, trivial⟩

/-- The proactor is stopped while its only waiter is about to leave: the flush discards
the interrupt. Another waiter comes, and is in the kernel when a function is
deferred: the call still finds an interrupt pending, and posts none. -/
def discardedInterrupt : List Action :=
  [.registerWaiter 1, .waiter 0 .store, .stop 2, .call 0 .read, .call 0 .count, .call 0 .post,
    .complete, .waiter 0 .deregisterWaiter,
    .flush 0 fun _ _ => 0, .flush 0 fun _ _ => 0, .flush 0 fun _ _ => 0, .flush 0 fun _ _ => 0,
    .flush 0 fun _ _ => 0, .restart, .registerWaiter 3, .waiter 0 .store, .waiter 0 .wait,
    .waiter 0 .earliest, .chronology 2 (.execute 7), .call 1 .read, .call 1 .count]

theorem not_always_awake : ¬ ∀ (config : ProactorConfig) (actions : List Action),
    Run.Always (step config) (Awake config) (initial config) actions := by
  intro all
  obtain ⟨final, reached⟩ : ∃ final,
      Run.run (step oneThread) (initial oneThread) discardedInterrupt = some final := ⟨_, rfl⟩
  have awake := (Run.always_iff _ _).mp (all oneThread discardedInterrupt) discardedInterrupt []
    final (append_nil _) reached
  have isFinal : final = ((Run.run (step oneThread) (initial oneThread) discardedInterrupt).getD
      (initial oneThread)) := by
    rw [reached]
    rfl
  have waitersEq : final.waiters = [{ thread := 3, phase := .waiting none }] := by
    rw [isFinal]
    decide +kernel
  have completionsEq : final.completions = [] := by
    rw [isFinal]
    decide +kernel
  have asleep : final.Asleep oneThread :=
    { some_running := by simp [waitersEq, Running]
      blocked := by simp [waitersEq, Blocked, completionsEq, Chronology.Reached]
      completions := completionsEq
      submitted := by
        rw [isFinal]
        decide +kernel
      calls := by
        rw [isFinal]
        decide +kernel }
  have stuck : final.chronology.functorQueue = [7] := by
    rw [isFinal]
    decide +kernel
  rw [awake.deferred asleep] at stuck
  contradiction

end IoRingDriver

end NtfCore.Ntco
