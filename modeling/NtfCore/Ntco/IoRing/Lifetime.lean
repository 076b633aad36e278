import NtfCore.Foundation.Run

/-!
Contract: the life of the operations of an I/O ring (`ntco::IoRing`) whose kernel
cannot cancel by handle.

An operation takes an event from the pool, enters it into the pending set of its
socket and submits it. Its completion is popped by a waiter, which arbitrates on
the status of the event, clears the pending set, announces the operation and
returns the event to the pool. `cancel` takes the pending set of a socket and
marks its events one after another.

Owns: the events and their pool, the pending sets, each operation with what
became of it, the cancels under way, and the theorem that says which runs treat
every operation properly.
-/

namespace NtfCore.Ntcs

/-- `ntcs::EventType`. -/
inductive EventType where
  | undefined
  | callback
  | accept
  | connect
  | send
  | receive
deriving DecidableEq

/-- `ntcs::EventStatus`. -/
inductive EventStatus where
  | free
  | pending
  | cancelled
  | failed
  | complete
deriving DecidableEq

/-- `ntcs::Event`, with the number of the operation that it is in use for. -/
structure Event where
  type : EventType := .undefined
  status : EventStatus := .free
  socket : Option Nat := none
  operation : Option Nat := none

end NtfCore.Ntcs

namespace NtfCore.Ntco

open NtfCore.Foundation
open NtfCore.Ntcs (Event EventStatus EventType)

/-- The result of a completion: a negative one is a cancellation if it is `-ECANCELED`
and otherwise a failure. -/
inductive IoRingResult where
  | succeeded
  | failed
  | canceled
deriving DecidableEq

def IoRingResult.status : IoRingResult -> EventStatus
  | .succeeded => .complete
  | .failed => .failed
  | .canceled => .cancelled

/-- How far an operation has come. The stages from `popped` to `returning` are those
of the waiter that processes its completion. -/
inductive Stage where
  | prepared
  | submitted
  | completed
  | popped
  | arbitrated
  | settled
  | returning
  | returned
deriving DecidableEq

inductive Descriptor where
  | none
  | produced
  | handed
  | closed
deriving DecidableEq

/-- An operation: what it was initiated with, and what became of it. `handle` tells
whether the waiter found a valid handle; `cancelled` whether a cancel that found
the operation pending has marked its event. -/
structure Operation where
  type : EventType
  socket : Nat
  event : Nat
  stage : Stage := .prepared
  result : Option IoRingResult := none
  handle : Bool := false
  descriptor : Descriptor := .none
  cancelled : Bool := false
  pops : Nat := 0
  announcements : Nat := 0
  returns : Nat := 0

/-- A cancel has looked at an event: `intended` is the operation it means to cancel,
`found` the one that the event is in use for. -/
structure Touch where
  event : Nat
  intended : Option Nat
  found : Option Nat
deriving DecidableEq

/-- `ntco::IoRing`. `available` counts how often an event is in the pool; `pending`
holds the pending set of the context of each socket; `handles` tells which
sockets have a valid handle; `cancels` holds, for each call of `cancel`, the
events it has yet to mark. -/
structure IoRing where
  events : Nat -> Event := fun _ => {}
  available : Nat -> Nat := fun _ => 1
  pending : Nat -> List Nat := fun _ => []
  handles : Nat -> Bool := fun _ => true
  operations : List Operation := []
  cancels : List (List (Nat × Option Nat)) := []
  touches : List Touch := []

namespace IoRing

/-- `ntci::ProactorSocket::handle` of the socket of an event. -/
def handleOf (ring : IoRing) (event : Nat) : Bool :=
  match (ring.events event).socket with
  | some socket => ring.handles socket
  | none => false

/-- `IoRingContext::registerEvent`. -/
def registerEvent (ring : IoRing) (socket event : Nat) : IoRing :=
  if event ∈ ring.pending socket then ring
  else { ring with
    pending := Function.update ring.pending socket (event :: ring.pending socket) }

/-- `IoRingContext::completeEvent` of the context of the socket of an event. -/
def completeEvent (ring : IoRing) (event : Nat) : IoRing :=
  match (ring.events event).socket with
  | some socket => { ring with
      pending := Function.update ring.pending socket
        ((ring.pending socket).filter fun other => other != event) }
  | none => ring

/-- `IoRingContext::loadPending`, which empties the set. -/
def loadPending (ring : IoRing) (socket : Nat) : List (Nat × Option Nat) × IoRing :=
  ((ring.pending socket).map fun event => (event, (ring.events event).operation),
    { ring with pending := Function.update ring.pending socket [] })

/-- `EventPool::getManagedObject` and the preparation of the submission. -/
def prepare (ring : IoRing) (type : EventType) (socket event : Nat) : IoRing :=
  { ring with
    available := Function.update ring.available event (ring.available event - 1)
    events := Function.update ring.events event
      { type := type, status := .pending, socket := some socket,
        operation := some ring.operations.length }
    operations := ring.operations ++ [{ type := type, socket := socket, event := event }] }

/-- What `accept`, `connect`, `send` and `receive` do up to their submission. -/
def initiate (ring : IoRing) (type : EventType) (socket event : Nat) : IoRing :=
  (ring.prepare type socket event).registerEvent socket event

def accept (ring : IoRing) (socket event : Nat) : IoRing := ring.initiate .accept socket event

def connect (ring : IoRing) (socket event : Nat) : IoRing := ring.initiate .connect socket event

def send (ring : IoRing) (socket event : Nat) : IoRing := ring.initiate .send socket event

def receive (ring : IoRing) (socket event : Nat) : IoRing := ring.initiate .receive socket event

def update (ring : IoRing) (number : Nat) (change : Operation -> Operation) : IoRing :=
  { ring with operations := ring.operations.modify number change }

def credit (ring : IoRing) (event : Nat) (change : Operation -> Operation) : IoRing :=
  match (ring.events event).operation with
  | some number => ring.update number change
  | none => ring

def complete (ring : IoRing) (number : Nat) (result : IoRingResult) : IoRing :=
  ring.update number fun operation => { operation with
    stage := .completed
    result := some result
    descriptor := if operation.type = .accept ∧ result = .succeeded then .produced
      else operation.descriptor }

/-- `IoRing::wait` looks at the status of the event: it drops the completion of an
event that was marked, and otherwise records the result. -/
def arbitrate (ring : IoRing) (number event : Nat) (result : IoRingResult) : IoRing :=
  if (ring.events event).status = .cancelled then
    ring.update number fun operation => { operation with stage := .returning }
  else
    { ring.update number fun operation => { operation with
      stage := .arbitrated } with
      events := Function.update ring.events event
        { ring.events event with status := result.status } }

/-- `IoRing::wait` reads the handle and takes the event out of the pending set. -/
def settle (ring : IoRing) (number event : Nat) : IoRing :=
  (ring.completeEvent event).update number fun operation => { operation with
    stage := .settled
    handle := ring.handleOf event }

/-- `IoRing::wait` announces the operation, unless it was cancelled or its socket has
no valid handle. The descriptor of a successful accept goes with it. -/
def announce (ring : IoRing) (number event : Nat) (result : IoRingResult) (handle : Bool) :
    IoRing :=
  if result = .canceled ∨ handle = false then
    ring.update number fun operation => { operation with stage := .returning }
  else
    (ring.credit event fun operation => { operation with
      announcements := operation.announcements + 1 }).update number fun operation =>
        { operation with
          stage := .returning
          descriptor := if (ring.events event).type = .accept ∧ result = .succeeded then .handed
            else operation.descriptor }

/-- The managed pointer of `IoRing::wait` returns the event to the pool, which resets
it. -/
def release (ring : IoRing) (number event : Nat) : IoRing :=
  { (ring.credit event fun operation => { operation with
      returns := operation.returns + 1 }).update number fun operation =>
        { operation with stage := .returned } with
    events := Function.update ring.events event {}
    available := Function.update ring.available event (ring.available event + 1) }

/-- `IoRing::cancel` up to its loop. -/
def cancel (ring : IoRing) (socket : Nat) : IoRing :=
  let loaded := ring.loadPending socket
  { loaded.2 with cancels := ring.cancels ++ [loaded.1] }

/-- A round of the loop of `IoRing::cancel`. The cancellation it submits lets the
kernel complete the operation with any result. -/
def mark (ring : IoRing) (event : Nat) (intended : Option Nat) : IoRing :=
  let touched : IoRing := { ring with
    touches := ring.touches ++
      [{ event := event, intended := intended, found := (ring.events event).operation }] }
  if (ring.events event).status ≠ .pending then touched
  else
    let marked : IoRing := { touched with
      events := Function.update ring.events event
        { ring.events event with status := .cancelled } }
    match intended with
    | some number => marked.update number fun operation => { operation with cancelled := true }
    | none => marked

/-- A step: the initiation of an operation with an event of the pool, its submission,
its completion by the kernel, a step of the waiter that popped the completion, a
call of `cancel`, a round of the loop of one, or the handle of a socket becomes
valid or invalid. -/
inductive Action where
  | accept (socket event : Nat)
  | connect (socket event : Nat)
  | send (socket event : Nat)
  | receive (socket event : Nat)
  | submit (number : Nat)
  | complete (number : Nat) (result : IoRingResult)
  | pop (number : Nat)
  | arbitrate (number : Nat)
  | settle (number : Nat)
  | announce (number : Nat)
  | release (number : Nat)
  | cancel (socket : Nat)
  | mark (index : Nat)
  | setHandle (socket : Nat) (valid : Bool)

def at? (ring : IoRing) (number : Nat) (stage : Stage) : Option Operation :=
  match ring.operations[number]? with
  | some operation => if operation.stage = stage then some operation else none
  | none => none

def step (ring : IoRing) : Action -> Option IoRing
  | .accept socket event =>
    if ring.available event = 0 then none else some (ring.accept socket event)
  | .connect socket event =>
    if ring.available event = 0 then none else some (ring.connect socket event)
  | .send socket event =>
    if ring.available event = 0 then none else some (ring.send socket event)
  | .receive socket event =>
    if ring.available event = 0 then none else some (ring.receive socket event)
  | .submit number => (ring.at? number .prepared).map fun _ =>
      ring.update number fun operation => { operation with stage := .submitted }
  | .complete number result => (ring.at? number .submitted).map fun _ =>
      ring.complete number result
  | .pop number => (ring.at? number .completed).map fun _ =>
      ring.update number fun operation =>
        { operation with stage := .popped, pops := operation.pops + 1 }
  | .arbitrate number => (ring.at? number .popped).bind fun operation =>
      operation.result.map fun result => ring.arbitrate number operation.event result
  | .settle number => (ring.at? number .arbitrated).map fun operation =>
      ring.settle number operation.event
  | .announce number => (ring.at? number .settled).bind fun operation =>
      operation.result.map fun result =>
        ring.announce number operation.event result operation.handle
  | .release number => (ring.at? number .returning).map fun operation =>
      ring.release number operation.event
  | .cancel socket => some (ring.cancel socket)
  | .mark index =>
    match ring.cancels[index]? with
    | some ((event, intended) :: rest) =>
      some (({ ring with cancels := ring.cancels.set index rest } : IoRing).mark
        event intended)
    | _ => none
  | .setHandle socket valid =>
    some { ring with handles := Function.update ring.handles socket valid }

end IoRing

/-- An operation was treated properly so far: its event was returned at most once,
exactly once in the end, and after its completion was popped; it was announced at
most once, and exactly once in the end unless it was cancelled or its socket had
no valid handle; and the descriptor it produced, if any, was handed over or closed. -/
structure Operation.Sound (operation : Operation) : Prop where
  returned : operation.returns = if operation.stage = .returned then 1 else 0
  popped : operation.returns ≤ operation.pops ∧ operation.pops ≤ 1
  atMostOnce : operation.announcements ≤ 1
  announced : operation.stage = .returned -> operation.cancelled = false ->
    operation.result ≠ some .canceled -> operation.handle = true -> operation.announcements = 1
  descriptor : operation.stage = .returned -> operation.descriptor ≠ .produced

namespace IoRing

/-- Every operation was treated properly so far, no event is in the pool twice, and
each event that a cancel looked at was still in use for the operation meant. -/
structure Sound (ring : IoRing) : Prop where
  operations : ∀ operation ∈ ring.operations, operation.Sound
  available : ∀ event, ring.available event ≤ 1
  touches : ∀ touch ∈ ring.touches, ∃ number, touch.intended = some number ∧
    touch.found = some number

/-- The condition on a step: the completion of an accept that produced a descriptor
is processed neither after its event was marked nor while its socket has no valid
handle; and an event is not returned while a cancel has yet to mark it. -/
def Proper (ring : IoRing) : Action -> Prop
  | .arbitrate number => ∀ operation ∈ ring.operations[number]?.toList,
      operation.descriptor = .produced -> (ring.events operation.event).status ≠ .cancelled
  | .settle number => ∀ operation ∈ ring.operations[number]?.toList,
      operation.descriptor = .produced -> ring.handleOf operation.event = true
  | .release number => ∀ operation ∈ ring.operations[number]?.toList,
      ∀ list ∈ ring.cancels, ∀ entry ∈ list, entry.1 ≠ operation.event
  | _ => True

instance (ring : IoRing) : (action : Action) -> Decidable (ring.Proper action)
  | .arbitrate number => inferInstanceAs (Decidable (∀ operation ∈ ring.operations[number]?.toList,
      operation.descriptor = .produced -> (ring.events operation.event).status ≠ .cancelled))
  | .settle number => inferInstanceAs (Decidable (∀ operation ∈ ring.operations[number]?.toList,
      operation.descriptor = .produced -> ring.handleOf operation.event = true))
  | .release number => inferInstanceAs (Decidable (∀ operation ∈ ring.operations[number]?.toList,
      ∀ list ∈ ring.cancels, ∀ entry ∈ list, entry.1 ≠ operation.event))
  | .accept _ _ | .connect _ _ | .send _ _ | .receive _ _ | .submit _ | .complete _ _ | .pop _
  | .announce _ | .cancel _ | .mark _ | .setHandle _ _ => isTrue trivial

end IoRing

def Stage.Early : Stage -> Prop
  | .prepared | .submitted | .completed | .popped => True
  | _ => False

structure Operation.Disposed (operation : Operation) : Prop where
  atMostOnce : operation.announcements ≤ 1
  announced : operation.cancelled = false -> operation.result ≠ some .canceled ->
    operation.handle = true -> operation.announcements = 1
  descriptor : operation.descriptor ≠ .produced

def Operation.Accounted (operation : Operation) : Prop :=
  match operation.stage with
  | .prepared | .submitted => operation.pops = 0 ∧ operation.returns = 0 ∧
      operation.announcements = 0 ∧ operation.descriptor = .none
  | .completed => operation.pops = 0 ∧ operation.returns = 0 ∧ operation.announcements = 0
  | .popped | .arbitrated => operation.pops = 1 ∧ operation.returns = 0 ∧
      operation.announcements = 0
  | .settled => operation.pops = 1 ∧ operation.returns = 0 ∧ operation.announcements = 0 ∧
      (operation.descriptor = .produced -> operation.handle = true)
  | .returning => operation.pops = 1 ∧ operation.returns = 0 ∧ operation.Disposed
  | .returned => operation.pops = 1 ∧ operation.returns = 1 ∧ operation.Disposed

def Operation.Accepted (operation : Operation) : Prop :=
  operation.descriptor = .produced ->
    operation.type = .accept ∧ operation.result = some .succeeded

namespace Operation

variable {operation : Operation}

theorem Disposed.cancel (disposed : operation.Disposed) :
    ({ operation with cancelled := true } : Operation).Disposed :=
  { disposed with announced := fun isFalse => absurd isFalse (by simp) }

theorem Accounted.cancel (accounted : operation.Accounted) :
    ({ operation with cancelled := true } : Operation).Accounted := by
  obtain ⟨_, _, _, stage⟩ := operation
  cases stage
  case returning => exact ⟨accounted.1, accounted.2.1, accounted.2.2.cancel⟩
  case returned => exact ⟨accounted.1, accounted.2.1, accounted.2.2.cancel⟩
  all_goals exact accounted

theorem Accounted.sound (accounted : operation.Accounted) : operation.Sound := by
  unfold Accounted at accounted
  cases isStage : operation.stage <;> rw [isStage] at accounted <;> dsimp only at accounted
  case returned =>
    obtain ⟨pops, returns, disposed⟩ := accounted
    exact { disposed with
      returned := by rw [isStage, returns, if_pos rfl]
      popped := ⟨by omega, by omega⟩
      announced := fun _ => disposed.announced
      descriptor := fun _ => disposed.descriptor }
  case returning =>
    obtain ⟨_, returns, disposed⟩ := accounted
    exact { disposed with
      returned := by simp [isStage, returns]
      popped := ⟨by omega, by omega⟩
      announced := by simp [isStage]
      descriptor := by simp [isStage] }
  all_goals exact {
      returned := by simp [isStage, accounted]
      popped := ⟨by omega, by omega⟩
      atMostOnce := by omega
      announced := by simp [isStage]
      descriptor := by simp [isStage] }

end Operation

def Operation.Stated (operation : Operation) (event : Event) : Prop :=
  (operation.stage.Early -> event.status = .pending ∨
    (event.status = .cancelled ∧ operation.cancelled = true)) ∧
  (¬ operation.stage.Early -> event.status ≠ .pending)

def Operation.Cleared (operation : Operation) (event : Event) : Prop :=
  (operation.stage.Early ∧ event.status = .cancelled) ∨ operation.stage = .settled ∨
    operation.stage = .returning

structure Operation.Uses (operation : Operation) (number : Nat) (event : Event) : Prop where
  owner : event.operation = some number
  type : event.type = operation.type
  socket : event.socket = some operation.socket
  stated : operation.Stated event

namespace IoRing

open Function List

structure Invariant (ring : IoRing) : Prop where
  accounted : ∀ operation ∈ ring.operations, operation.Accounted
  accepted : ∀ operation ∈ ring.operations, operation.Accepted
  uses : ∀ (number : Nat) (operation : Operation), ring.operations[number]? = some operation ->
    operation.stage ≠ .returned -> operation.Uses number (ring.events operation.event)
  cleared : ∀ (number : Nat) (operation : Operation), ring.operations[number]? = some operation ->
    operation.stage ≠ .returned -> operation.Cleared (ring.events operation.event) ->
    ∀ socket, operation.event ∉ ring.pending socket
  held : ∀ event number, (ring.events event).operation = some number ->
    ring.available event = 0 ∧ ∃ operation, ring.operations[number]? = some operation ∧
      operation.stage ≠ .returned ∧ operation.event = event
  pooled : ∀ event, (ring.events event).operation = none -> ring.available event = 1
  pending : ∀ socket event, event ∈ ring.pending socket ->
    (ring.events event).socket = some socket ∧ ∃ number, (ring.events event).operation = some number
  cancels : ∀ list ∈ ring.cancels, ∀ entry ∈ list,
    (∃ number, entry.2 = some number ∧ (ring.events entry.1).operation = some number) ∧
      ∀ socket, entry.1 ∉ ring.pending socket
  touches : ∀ touch ∈ ring.touches, ∃ number, touch.intended = some number ∧
    touch.found = some number

variable {ring : IoRing}

theorem Invariant.sound (inv : ring.Invariant) : ring.Sound := { inv with
  operations operation mem := (inv.accounted operation mem).sound
  available event := by
    cases isOp : (ring.events event).operation with
    | none => exact Nat.le_of_eq (inv.pooled event isOp)
    | some number =>
      rw [(inv.held event number isOp).1]
      exact Nat.zero_le 1 }

theorem start_invariant : ({} : IoRing).Invariant where
  accounted := by simp
  accepted := by simp
  uses := by simp
  cleared := by simp
  held := by simp
  pooled := by simp
  pending := by simp
  cancels := by simp
  touches := by simp

variable {number : Nat} {operations : List Operation} {operation : Operation}

theorem Invariant.change (inv : ring.Invariant) {operation' : Operation}
    {event : Event} {pending : Nat -> List Nat} (found : ring.operations[number]? = some operation)
    (placed : ∀ other, operations[other]? =
      if other = number then some operation' else ring.operations[other]?)
    (isLive : operation.stage ≠ .returned) (isLive' : operation'.stage ≠ .returned)
    (sameEvent : operation'.event = operation.event)
    (accounted : operation'.Accounted) (accepted : operation'.Accepted)
    (uses : operation'.Uses number event)
    (sameSocket : event.socket = (ring.events operation.event).socket)
    (fewer : ∀ socket, pending socket ⊆ ring.pending socket)
    (cleared : operation'.Cleared event -> ∀ socket, operation.event ∉ pending socket) : ({ ring with
      operations := operations
      events := Function.update ring.events operation.event event
      pending := pending } : IoRing).Invariant := by
  have owner := (inv.uses number operation found isLive).owner
  -- No other operation uses the event.
  have apart : ∀ (other : Nat) (operation'' : Operation), ring.operations[other]? = some operation'' ->
      operation''.stage ≠ .returned -> other ≠ number -> operation''.event ≠ operation.event := by
    intro other operation'' found' isLive'' isOther sameEvent'
    have owner' := (inv.uses other operation'' found' isLive'').owner
    rw [sameEvent', owner] at owner'
    exact isOther (Option.some.inj owner').symm
  have mem : ∀ operation'' ∈ operations,
      operation'' = operation' ∨ operation'' ∈ ring.operations := by
    intro operation'' isMem
    obtain ⟨other, isAt⟩ := mem_iff_getElem?.mp isMem
    rw [placed] at isAt
    split at isAt
    · exact .inl (Option.some.inj isAt).symm
    · exact .inr (mem_of_getElem? isAt)
  exact { inv with
    accounted := by
      intro operation'' isMem
      rcases mem operation'' isMem with rfl | before
      · exact accounted
      · exact inv.accounted operation'' before
    accepted := by
      intro operation'' isMem
      rcases mem operation'' isMem with rfl | before
      · exact accepted
      · exact inv.accepted operation'' before
    uses := by
      intro other operation'' isAt isLive''
      dsimp only at isAt ⊢
      rw [placed] at isAt
      by_cases isNumber : other = number
      · rw [if_pos isNumber] at isAt
        cases isAt
        rw [sameEvent, update_self, isNumber]
        exact uses
      · rw [if_neg isNumber] at isAt
        rw [update_of_ne (apart other operation'' isAt isLive'' isNumber)]
        exact inv.uses other operation'' isAt isLive''
    cleared := by
      intro other operation'' isAt isLive'' isCleared socket inSet
      dsimp only at isAt isCleared inSet
      rw [placed] at isAt
      split at isAt
      · cases isAt
        rw [sameEvent] at isCleared inSet
        rw [update_self] at isCleared
        exact cleared isCleared socket inSet
      · rename_i isNumber
        rw [update_of_ne (apart other operation'' isAt isLive'' isNumber)] at isCleared
        exact inv.cleared other operation'' isAt isLive'' isCleared socket (fewer socket inSet)
    held := by
      intro event' number' isOp
      dsimp only at isOp ⊢
      by_cases isEvent : event' = operation.event
      · rw [isEvent, update_self, uses.owner] at isOp
        cases isOp
        rw [isEvent]
        exact ⟨(inv.held operation.event number owner).1, operation',
          by rw [placed, if_pos rfl], isLive', sameEvent⟩
      · rw [update_of_ne isEvent] at isOp
        obtain ⟨none, operation'', isAt, isLive'', isEvent'⟩ := inv.held event' number' isOp
        refine ⟨none, operation'', ?_, isLive'', isEvent'⟩
        rw [placed, if_neg, isAt]
        intro isNumber
        rw [isNumber, found] at isAt
        cases isAt
        exact isEvent isEvent'.symm
    pooled := by
      intro event' isOp
      dsimp only at isOp ⊢
      by_cases isEvent : event' = operation.event
      · rw [isEvent, update_self, uses.owner] at isOp
        contradiction
      · rw [update_of_ne isEvent] at isOp
        exact inv.pooled event' isOp
    pending := by
      intro socket event' inSet
      have before := inv.pending socket event' (fewer socket inSet)
      dsimp only
      by_cases isEvent : event' = operation.event
      · rw [isEvent] at before ⊢
        rw [update_self, sameSocket]
        exact ⟨before.1, number, uses.owner⟩
      · rw [update_of_ne isEvent]
        exact before
    cancels := by
      intro list isList entry isEntry
      obtain ⟨⟨number', intended, isOp⟩, outside⟩ := inv.cancels list isList entry isEntry
      refine ⟨⟨number', intended, ?_⟩, fun socket inSet => outside socket (fewer socket inSet)⟩
      dsimp only
      by_cases isEvent : entry.1 = operation.event
      · rw [isEvent, owner] at isOp
        rw [isEvent, update_self, uses.owner, isOp]
      · rw [update_of_ne isEvent]
        exact isOp }

theorem at?_eq_some {stage : Stage} : ring.at? number stage = some operation ↔
      ring.operations[number]? = some operation ∧ operation.stage = stage := by
  unfold at?
  cases found : ring.operations[number]? with
  | none => simp
  | some other =>
    dsimp only
    split
    · rename_i isStage
      constructor
      · intro isOther
        cases isOther
        exact ⟨rfl, isStage⟩
      · exact fun both => both.1
    · constructor
      · intro impossible
        contradiction
      · rintro ⟨isOther, isStage'⟩
        cases isOther
        contradiction

theorem getElem?_modify_of_found (found : operations[number]? = some operation)
    (change : Operation -> Operation) (other : Nat) : (operations.modify number change)[other]? =
      if other = number then some (change operation) else operations[other]? := by
  rw [getElem?_modify]
  by_cases isNumber : other = number
  · rw [if_pos isNumber, isNumber, found]
    simp
  · rw [if_neg isNumber]
    cases operations[other]? with
    | none => rfl
    | some => simp [Ne.symm isNumber]

variable {change : Operation -> Operation}

section

variable (inv : ring.Invariant)
include inv

variable {operation : Operation}

theorem Invariant.update (found : ring.operations[number]? = some operation)
    (isLive : operation.stage ≠ .returned) (isLive' : (change operation).stage ≠ .returned)
    (sameEvent : (change operation).event = operation.event)
    (accounted : (change operation).Accounted) (accepted : (change operation).Accepted)
    (uses : (change operation).Uses number (ring.events operation.event))
    (cleared : (change operation).Cleared (ring.events operation.event) ->
      ∀ socket, operation.event ∉ ring.pending socket) : (ring.update number change).Invariant := by
  have changed := inv.change found (getElem?_modify_of_found found change) isLive isLive'
    sameEvent accounted accepted uses rfl (fun _ => List.Subset.refl _) cleared
  rw [update_eq_self] at changed
  exact changed

theorem Invariant.advance
    (found : ring.operations[number]? = some operation) (isEarly : operation.stage.Early)
    (isEarly' : (change operation).stage.Early)
    (accounted : (change operation).Accounted) (accepted : (change operation).Accepted)
    (same : (change operation).event = operation.event ∧
      (change operation).type = operation.type ∧ (change operation).socket = operation.socket ∧
      (change operation).cancelled = operation.cancelled) :
    (ring.update number change).Invariant := by
  have isLive : operation.stage ≠ .returned := by
    intro isReturned
    rw [isReturned] at isEarly
    exact isEarly
  have isLive' : (change operation).stage ≠ .returned := by
    intro isReturned
    rw [isReturned] at isEarly'
    exact isEarly'
  have uses := inv.uses number operation found isLive
  apply inv.update found isLive isLive' same.1 accounted accepted
  · exact { uses with
      type := uses.type.trans same.2.1.symm
      socket := by rw [uses.socket, same.2.2.1]
      stated := ⟨fun _ => same.2.2.2 ▸ uses.stated.1 isEarly,
        fun notEarly => absurd isEarly' notEarly⟩ }
  · intro isCleared
    apply inv.cleared number operation found isLive
    rcases isCleared with early | isSettled | isReturning
    · exact .inl ⟨isEarly, early.2⟩
    · rw [isSettled] at isEarly'
      exact isEarly'.elim
    · rw [isReturning] at isEarly'
      exact isEarly'.elim

theorem Invariant.found_at {stage : Stage} (isAt : ring.at? number stage = some operation) :
    ring.operations[number]? = some operation ∧ operation.stage = stage ∧
      operation ∈ ring.operations ∧ ({ operation with stage := stage } : Operation).Accounted := by
  obtain ⟨found, isStage⟩ := at?_eq_some.mp isAt
  have mem := mem_of_getElem? found
  refine ⟨found, isStage, mem, ?_⟩
  rw [← isStage]
  exact inv.accounted operation mem

theorem Invariant.submit (isAt : ring.at? number .prepared = some operation) :
    (ring.update number fun operation => { operation with stage := .submitted }).Invariant := by
  obtain ⟨found, isStage, mem, accounted⟩ := inv.found_at isAt
  refine inv.advance found (by rw [isStage]; trivial) trivial ?_ ?_ ⟨rfl, rfl, rfl, rfl⟩
  · exact accounted
  · exact inv.accepted operation mem

theorem Invariant.complete
    (isAt : ring.at? number .submitted = some operation) (result : IoRingResult) :
    (ring.complete number result).Invariant := by
  obtain ⟨found, isStage, _, accounted⟩ := inv.found_at isAt
  refine inv.advance found (by rw [isStage]; trivial) trivial ?_ ?_ ⟨rfl, rfl, rfl, rfl⟩
  · exact ⟨accounted.1, accounted.2.1, accounted.2.2.1⟩
  · intro isProduced
    by_cases produces : operation.type = .accept ∧ result = .succeeded
    · rw [produces.2]
      exact ⟨produces.1, rfl⟩
    · rw [if_neg produces, accounted.2.2.2] at isProduced
      contradiction

theorem Invariant.pop (isAt : ring.at? number .completed = some operation) :
    (ring.update number fun operation =>
      { operation with stage := .popped, pops := operation.pops + 1 }).Invariant := by
  obtain ⟨found, isStage, mem, accounted⟩ := inv.found_at isAt
  refine inv.advance found (by rw [isStage]; trivial) trivial ?_ ?_ ⟨rfl, rfl, rfl, rfl⟩
  · refine ⟨?_, accounted.2.1, accounted.2.2⟩
    rw [accounted.1]
  · exact inv.accepted operation mem

theorem Invariant.arbitrate
    (isAt : ring.at? number .popped = some operation) (proper : ring.Proper (.arbitrate number))
    (result : IoRingResult) : (ring.arbitrate number operation.event result).Invariant := by
  obtain ⟨found, isStage, mem, accounted⟩ := inv.found_at isAt
  dsimp only [Operation.Accounted] at accounted
  have isLive : operation.stage ≠ .returned := by simp [isStage]
  have isEarly : operation.stage.Early := by
    rw [isStage]
    trivial
  have uses := inv.uses number operation found isLive
  unfold IoRing.arbitrate
  split
  · rename_i isCancelled
    have marked : operation.cancelled = true := by
      rcases uses.stated.1 isEarly with isPending | marked
      · rw [isPending] at isCancelled
        contradiction
      · exact marked.2
    apply inv.update found isLive
    · simp
    · rfl
    · refine ⟨accounted.1, accounted.2.1, ?_⟩
      exact {
        atMostOnce := by simp [accounted.2.2]
        announced := fun notCancelled => absurd notCancelled (by simp [marked])
        descriptor := fun isProduced =>
          proper operation (by simp [found]) isProduced isCancelled }
    · exact inv.accepted operation mem
    · exact { uses with stated := ⟨fun early => early.elim, fun _ => by simp [isCancelled]⟩ }
    · intro _
      exact inv.cleared number operation found isLive (.inl ⟨isEarly, isCancelled⟩)
  · apply inv.change found (getElem?_modify_of_found found _) isLive
    · simp
    · rfl
    · exact ⟨accounted.1, accounted.2.1, accounted.2.2⟩
    · exact inv.accepted operation mem
    · exact { uses with
        stated := ⟨fun early => early.elim, fun _ => by cases result <;> simp [IoRingResult.status]⟩ }
    · rfl
    · exact fun _ => List.Subset.refl _
    · rintro (early | isSettled | isReturning)
      · exact early.1.elim
      · contradiction
      · contradiction

theorem Invariant.settle
    (isAt : ring.at? number .arbitrated = some operation) (proper : ring.Proper (.settle number)) :
    (ring.settle number operation.event).Invariant := by
  obtain ⟨found, isStage, mem, accounted⟩ := inv.found_at isAt
  have isLive : operation.stage ≠ .returned := by simp [isStage]
  have uses := inv.uses number operation found isLive
  have same : ring.settle number operation.event = { ring with
      operations := ring.operations.modify number fun operation' => { operation' with
        stage := .settled
        handle := ring.handleOf operation.event }
      events := Function.update ring.events operation.event (ring.events operation.event)
      pending := Function.update ring.pending operation.socket
        ((ring.pending operation.socket).filter fun other => other != operation.event) } := by
    unfold IoRing.settle completeEvent
    rw [uses.socket, update_eq_self]
    rfl
  rw [same]
  apply inv.change found (getElem?_modify_of_found found _) isLive
  · simp
  · rfl
  · exact ⟨accounted.1, accounted.2.1, accounted.2.2,
      fun isProduced => proper operation (by simp [found]) isProduced⟩
  · exact inv.accepted operation mem
  · exact { uses with
      stated := ⟨fun early => early.elim, fun _ => uses.stated.2 (by simp [isStage, Stage.Early])⟩ }
  · rfl
  · intro socket
    by_cases isSocket : socket = operation.socket
    · rw [isSocket, update_self]
      exact filter_subset_self _
    · rw [update_of_ne isSocket]
      exact List.Subset.refl _
  · intro _ socket inSet
    by_cases isSocket : socket = operation.socket
    · rw [isSocket, update_self] at inSet
      simp at inSet
    · rw [update_of_ne isSocket] at inSet
      have isSocket' := (inv.pending socket operation.event inSet).1
      rw [uses.socket] at isSocket'
      exact isSocket (Option.some.inj isSocket').symm

end

variable {event : Nat}

theorem credit_update {number : Nat}
    (owner : (ring.events event).operation = some number) (first second : Operation -> Operation) :
    (ring.credit event first).update number second = ring.update number (second ∘ first) := by
  unfold credit
  rw [owner]
  simp only [update, modify_modify_eq]

section

variable (inv : ring.Invariant)
include inv

theorem Invariant.announce {result : IoRingResult}
    (isAt : ring.at? number .settled = some operation) (isResult : operation.result = some result) :
    (ring.announce number operation.event result operation.handle).Invariant := by
  obtain ⟨found, isStage, mem, accounted⟩ := inv.found_at isAt
  dsimp only [Operation.Accounted] at accounted
  obtain ⟨pops, returns, announcements, hasHandle⟩ := accounted
  have accepted := inv.accepted operation mem
  have isLive : operation.stage ≠ .returned := by simp [isStage]
  have uses := inv.uses number operation found isLive
  have stated : (ring.events operation.event).status ≠ .pending :=
    uses.stated.2 (by simp [isStage, Stage.Early])
  have outside := inv.cleared number operation found isLive (.inr (.inl isStage))
  unfold IoRing.announce
  split
  · rename_i isSkipped
    apply inv.update found isLive
    · simp
    · rfl
    · refine ⟨pops, returns, ?_⟩
      exact {
        atMostOnce := by simp [announcements]
        announced := by
          intro _ notCanceled isValid
          dsimp only at notCanceled isValid
          rw [isResult] at notCanceled
          rcases isSkipped with isCanceled | isInvalid
          · exact absurd (congrArg some isCanceled) notCanceled
          · exact absurd isInvalid (by simp [isValid])
        descriptor := by
          intro isProduced
          rcases isSkipped with isCanceled | isInvalid
          · have succeeded := (accepted isProduced).2
            rw [isResult, isCanceled] at succeeded
            contradiction
          · exact absurd isInvalid (by simp [hasHandle isProduced]) }
    · exact accepted
    · exact { uses with stated := ⟨fun early => early.elim, fun _ => stated⟩ }
    · exact fun _ => outside
  · rw [credit_update uses.owner]
    have notProduced : (if (ring.events operation.event).type = .accept ∧ result = .succeeded
        then Descriptor.handed else operation.descriptor) ≠ .produced := by
      by_cases isHanded : (ring.events operation.event).type = .accept ∧ result = .succeeded
      · simp [isHanded]
      · rw [if_neg isHanded]
        intro isProduced
        obtain ⟨isAccept, succeeded⟩ := accepted isProduced
        rw [isResult] at succeeded
        exact isHanded ⟨uses.type.trans isAccept, Option.some.inj succeeded⟩
    apply inv.update found isLive
    · simp
    · rfl
    · refine ⟨pops, returns, ?_⟩
      exact {
        atMostOnce := by simp [announcements]
        announced := fun _ _ _ => by simp [announcements]
        descriptor := notProduced }
    · exact fun isProduced => absurd isProduced notProduced
    · exact { uses with stated := ⟨fun early => early.elim, fun _ => stated⟩ }
    · exact fun _ => outside

theorem Invariant.release (isAt : ring.at? number .returning = some operation)
    (proper : ring.Proper (.release number)) : (ring.release number operation.event).Invariant := by
  obtain ⟨found, isStage, mem, accounted⟩ := inv.found_at isAt
  dsimp only [Operation.Accounted] at accounted
  have isLive : operation.stage ≠ .returned := by simp [isStage]
  have uses := inv.uses number operation found isLive
  have outside := inv.cleared number operation found isLive (.inr (.inr isStage))
  have placed := getElem?_modify_of_found found
    ((fun operation => { operation with stage := .returned }) ∘
      fun operation => { operation with returns := operation.returns + 1 })
  unfold IoRing.release
  rw [credit_update uses.owner]
  unfold IoRing.update
  have before : ∀ operation'' ∈ ring.operations.modify number
      ((fun operation => { operation with stage := .returned }) ∘
        fun operation => { operation with returns := operation.returns + 1 }),
      operation'' = { operation with returns := operation.returns + 1, stage := .returned } ∨
        operation'' ∈ ring.operations := by
    intro operation'' isMem
    obtain ⟨other, isAt'⟩ := mem_iff_getElem?.mp isMem
    rw [placed] at isAt'
    by_cases isNumber : other = number
    · rw [if_pos isNumber] at isAt'
      exact .inl (Option.some.inj isAt').symm
    · rw [if_neg isNumber] at isAt'
      exact .inr (mem_of_getElem? isAt')
  -- An operation that is not returned afterwards is another one, with another event.
  have others : ∀ (other : Nat) (operation'' : Operation), (ring.operations.modify number
        ((fun operation => { operation with stage := .returned }) ∘
          fun operation => { operation with returns := operation.returns + 1 }))[other]? =
        some operation'' -> operation''.stage ≠ .returned ->
      ring.operations[other]? = some operation'' ∧ operation''.event ≠ operation.event := by
    intro other operation'' isAt' isLive''
    rw [placed] at isAt'
    by_cases isNumber : other = number
    · rw [if_pos isNumber] at isAt'
      cases isAt'
      contradiction
    · rw [if_neg isNumber] at isAt'
      refine ⟨isAt', ?_⟩
      intro sameEvent
      have owner := (inv.uses other operation'' isAt' isLive'').owner
      rw [sameEvent, uses.owner] at owner
      exact isNumber (Option.some.inj owner).symm
  exact { inv with
    accounted := by
      intro operation'' isMem
      rcases before operation'' isMem with rfl | isBefore
      · exact ⟨accounted.1, by simp [accounted.2.1], { accounted.2.2 with }⟩
      · exact inv.accounted operation'' isBefore
    accepted := by
      intro operation'' isMem
      rcases before operation'' isMem with rfl | isBefore
      · exact inv.accepted operation mem
      · exact inv.accepted operation'' isBefore
    uses := by
      intro other operation'' isAt' isLive''
      obtain ⟨isBefore, isOther⟩ := others other operation'' isAt' isLive''
      dsimp only
      rw [update_of_ne isOther]
      exact inv.uses other operation'' isBefore isLive''
    cleared := by
      intro other operation'' isAt' isLive'' isCleared
      obtain ⟨isBefore, isOther⟩ := others other operation'' isAt' isLive''
      dsimp only at isCleared
      rw [update_of_ne isOther] at isCleared
      exact inv.cleared other operation'' isBefore isLive'' isCleared
    held := by
      intro event' number' isOp
      dsimp only at isOp ⊢
      by_cases isEvent : event' = operation.event
      · rw [isEvent, update_self] at isOp
        contradiction
      · rw [update_of_ne isEvent] at isOp ⊢
        obtain ⟨none, operation'', isAt', isLive'', isEvent'⟩ := inv.held event' number' isOp
        refine ⟨none, operation'', ?_, isLive'', isEvent'⟩
        rw [placed, if_neg, isAt']
        intro isNumber
        rw [isNumber, found] at isAt'
        cases isAt'
        exact isEvent isEvent'.symm
    pooled := by
      intro event' isOp
      dsimp only at isOp ⊢
      by_cases isEvent : event' = operation.event
      · rw [isEvent, update_self]
        rw [(inv.held operation.event number uses.owner).1]
      · rw [update_of_ne isEvent] at isOp ⊢
        exact inv.pooled event' isOp
    pending := by
      intro socket event' inSet
      dsimp only at inSet ⊢
      rw [update_of_ne]
      · exact inv.pending socket event' inSet
      · intro isEvent
        rw [isEvent] at inSet
        exact outside socket inSet
    cancels := by
      intro list isList entry isEntry
      dsimp only
      rw [update_of_ne (proper operation (by simp [found]) list isList entry isEntry)]
      exact inv.cancels list isList entry isEntry }

theorem initiate_eq (type : EventType)
    (socket : Nat) (isFree : (ring.events event).operation = none) :
    ring.initiate type socket event = { ring.prepare type socket event with
      pending := Function.update ring.pending socket (event :: ring.pending socket) } := by
  have absent : event ∉ ring.pending socket := by
    intro inSet
    obtain ⟨_, isOp⟩ := (inv.pending socket event inSet).2
    rw [isFree] at isOp
    contradiction
  exact if_neg absent

theorem Invariant.initiate (type : EventType)
    (socket : Nat) (isAvailable : ring.available event ≠ 0) :
    (ring.initiate type socket event).Invariant := by
  have isFree : (ring.events event).operation = none := by
    cases isOp : (ring.events event).operation with
    | none => rfl
    | some number => exact absurd (inv.held event number isOp).1 isAvailable
  -- Nothing refers to an event of the pool.
  have unused : ∀ (number : Nat) (operation : Operation),
      ring.operations[number]? = some operation -> operation.stage ≠ .returned ->
      operation.event ≠ event := by
    intro number operation found isLive isEvent
    have owner := (inv.uses number operation found isLive).owner
    rw [isEvent, isFree] at owner
    contradiction
  have absent : ∀ other, event ∉ ring.pending other := by
    intro other inSet
    obtain ⟨number, isOp⟩ := (inv.pending other event inSet).2
    rw [isFree] at isOp
    contradiction
  have split : ∀ (number : Nat) (operation : Operation),
      (ring.operations ++ [{ type := type, socket := socket, event := event }])[number]? =
        some operation ->
      ring.operations[number]? = some operation ∨ number = ring.operations.length ∧
        operation = { type := type, socket := socket, event := event } := by
    intro number operation isAt
    rcases Nat.lt_trichotomy number ring.operations.length with before | isLast | _
    · rw [getElem?_append_left before] at isAt
      exact .inl isAt
    · rw [isLast, getElem?_concat_length] at isAt
      exact .inr ⟨isLast, (Option.some.inj isAt).symm⟩
    · rw [getElem?_eq_none (by simp; omega)] at isAt
      contradiction
  rw [initiate_eq inv type socket isFree]
  exact { inv with
    accounted := by
      intro operation isMem
      rcases mem_append.mp isMem with before | isNew
      · exact inv.accounted operation before
      · rw [mem_singleton.mp isNew]
        exact ⟨rfl, rfl, rfl, rfl⟩
    accepted := by
      intro operation isMem
      rcases mem_append.mp isMem with before | isNew
      · exact inv.accepted operation before
      · rw [mem_singleton.mp isNew]
        exact fun isProduced => absurd isProduced (by simp)
    uses := by
      intro number operation isAt isLive
      dsimp only [prepare]
      rcases split number operation isAt with before | ⟨isNumber, isNew⟩
      · rw [update_of_ne (unused number operation before isLive)]
        exact inv.uses number operation before isLive
      · rw [isNew, isNumber, update_self]
        exact {
          owner := rfl
          type := rfl
          socket := rfl
          stated := ⟨fun _ => .inl rfl, fun notEarly => absurd trivial notEarly⟩ }
    cleared := by
      intro number operation isAt isLive isCleared other inSet
      dsimp only [prepare] at isCleared inSet
      rcases split number operation isAt with before | ⟨_, isNew⟩
      · have isOther := unused number operation before isLive
        rw [update_of_ne isOther] at isCleared
        apply inv.cleared number operation before isLive isCleared other
        by_cases isSocket : other = socket
        · rw [isSocket, update_self] at inSet
          rw [isSocket]
          exact (mem_cons.mp inSet).resolve_left isOther
        · rw [update_of_ne isSocket] at inSet
          exact inSet
      · rw [isNew, update_self] at isCleared
        rcases isCleared with early | isSettled | isReturning
        · exact absurd early.2 (by simp)
        · contradiction
        · contradiction
    held := by
      intro event' number isOp
      dsimp only [prepare] at isOp ⊢
      by_cases isEvent : event' = event
      · rw [isEvent, update_self] at isOp
        cases isOp
        rw [isEvent, update_self]
        refine ⟨?_, _, getElem?_concat_length, by simp, rfl⟩
        rw [inv.pooled event isFree]
      · rw [update_of_ne isEvent] at isOp ⊢
        obtain ⟨none, operation, isAt, isLive, isEvent'⟩ := inv.held event' number isOp
        exact ⟨none, operation, by rw [getElem?_append_left
          (List.getElem?_eq_some_iff.mp isAt).1, isAt], isLive, isEvent'⟩
    pooled := by
      intro event' isOp
      dsimp only [prepare] at isOp ⊢
      by_cases isEvent : event' = event
      · rw [isEvent, update_self] at isOp
        contradiction
      · rw [update_of_ne isEvent] at isOp ⊢
        exact inv.pooled event' isOp
    pending := by
      intro other event' inSet
      dsimp only [prepare] at inSet ⊢
      by_cases isEvent : event' = event
      · rw [isEvent] at inSet ⊢
        rw [update_self]
        by_cases isSocket : other = socket
        · exact ⟨congrArg some isSocket.symm, _, rfl⟩
        · rw [update_of_ne isSocket] at inSet
          exact absurd inSet (absent other)
      · rw [update_of_ne isEvent]
        apply inv.pending other event'
        by_cases isSocket : other = socket
        · rw [isSocket, update_self] at inSet
          rw [isSocket]
          exact (mem_cons.mp inSet).resolve_left isEvent
        · rw [update_of_ne isSocket] at inSet
          exact inSet
    cancels := by
      intro list isList entry isEntry
      obtain ⟨⟨number, intended, isOp⟩, outside⟩ := inv.cancels list isList entry isEntry
      have isOther : entry.1 ≠ event := by
        intro isEvent
        rw [isEvent, isFree] at isOp
        contradiction
      dsimp only [prepare]
      rw [update_of_ne isOther]
      refine ⟨⟨number, intended, isOp⟩, ?_⟩
      intro other inSet
      by_cases isSocket : other = socket
      · rw [isSocket, update_self] at inSet
        exact outside socket ((mem_cons.mp inSet).resolve_left isOther)
      · rw [update_of_ne isSocket] at inSet
        exact outside other inSet }

theorem Invariant.cancel (socket : Nat) : (ring.cancel socket).Invariant := by
  have fewer : ∀ other event, event ∈ Function.update ring.pending socket [] other ->
      event ∈ ring.pending other ∧ other ≠ socket := by
    intro other event inSet
    by_cases isSocket : other = socket
    · rw [isSocket, update_self] at inSet
      contradiction
    · rw [update_of_ne isSocket] at inSet
      exact ⟨inSet, isSocket⟩
  exact { inv with
    cleared := by
      intro number operation isAt isLive isCleared other inSet
      exact inv.cleared number operation isAt isLive isCleared other (fewer other _ inSet).1
    pending := fun other event inSet => inv.pending other event (fewer other event inSet).1
    cancels := by
      intro list isList entry isEntry
      rcases mem_append.mp isList with before | isNew
      · obtain ⟨isOwner, outside⟩ := inv.cancels list before entry isEntry
        exact ⟨isOwner, fun other inSet => outside other (fewer other _ inSet).1⟩
      · rw [mem_singleton.mp isNew] at isEntry
        obtain ⟨event, inSet, rfl⟩ := mem_map.mp isEntry
        obtain ⟨isSocket, number, isOperation⟩ := inv.pending socket event inSet
        refine ⟨⟨number, isOperation, isOperation⟩, ?_⟩
        intro other inOther
        obtain ⟨before, isOther⟩ := fewer other event inOther
        have isSocket' := (inv.pending other event before).1
        rw [isSocket] at isSocket'
        exact isOther (Option.some.inj isSocket').symm }

theorem Invariant.mark {index : Nat} {intended : Option Nat} {rest : List (Nat × Option Nat)}
    (found : ring.cancels[index]? = some ((event, intended) :: rest)) :
    (({ ring with cancels := ring.cancels.set index rest } : IoRing).mark
      event intended).Invariant := by
  obtain ⟨⟨number, isIntended, isOp⟩, outside⟩ :=
    inv.cancels _ (mem_of_getElem? found) (event, intended) mem_cons_self
  subst isIntended
  have looked : ({ ring with
      cancels := ring.cancels.set index rest
      touches := ring.touches ++
        [{ event := event, intended := some number, found := (ring.events event).operation }] } :
      IoRing).Invariant := { inv with
    cancels := by
      intro list isList
      rcases mem_or_eq_of_mem_set isList with before | isRest
      · exact inv.cancels list before
      · intro entry isEntry
        rw [isRest] at isEntry
        exact inv.cancels _ (mem_of_getElem? found) entry (mem_cons_of_mem _ isEntry)
    touches := by
      intro touch isTouch
      rcases mem_append.mp isTouch with before | isNew
      · exact inv.touches touch before
      · rw [mem_singleton.mp isNew]
        exact ⟨number, rfl, isOp⟩ }
  unfold IoRing.mark
  by_cases isPending : (ring.events event).status = .pending
  · rw [if_neg (not_not.mpr isPending)]
    obtain ⟨_, operation, isAt, isLive, rfl⟩ := inv.held event number isOp
    have uses := inv.uses number operation isAt isLive
    have mem := mem_of_getElem? isAt
    have isEarly : operation.stage.Early := by
      by_contra notEarly
      exact uses.stated.2 notEarly isPending
    apply looked.change isAt (getElem?_modify_of_found isAt _) isLive
    · exact isLive
    · rfl
    · exact (inv.accounted operation mem).cancel
    · exact inv.accepted operation mem
    · exact { uses with
        stated := ⟨fun _ => .inr ⟨rfl, rfl⟩, fun notEarly => absurd isEarly notEarly⟩ }
    · rfl
    · exact fun _ => List.Subset.refl _
    · exact fun _ => outside
  · rw [if_pos isPending]
    exact looked

end

theorem step_invariant {ring next : IoRing} {action : Action} (inv : ring.Invariant)
    (proper : ring.Proper action) (taken : ring.step action = some next) : next.Invariant := by
  -- An event is taken only out of the pool.
  have initiated : ∀ (type : EventType) (socket event : Nat),
      (if ring.available event = 0 then none else some (ring.initiate type socket event)) =
        some next -> next.Invariant := by
    intro type socket event taken'
    by_cases isEmpty : ring.available event = 0
    · rw [if_pos isEmpty] at taken'
      contradiction
    · rw [if_neg isEmpty] at taken'
      rw [← Option.some.inj taken']
      exact inv.initiate type socket isEmpty
  cases action with
  | accept socket event => exact initiated .accept socket event taken
  | connect socket event => exact initiated .connect socket event taken
  | send socket event => exact initiated .send socket event taken
  | receive socket event => exact initiated .receive socket event taken
  | submit number =>
    obtain ⟨operation, isAt, rfl⟩ := Option.map_eq_some_iff.mp taken
    exact inv.submit isAt
  | complete number result =>
    obtain ⟨operation, isAt, rfl⟩ := Option.map_eq_some_iff.mp taken
    exact inv.complete isAt result
  | pop number =>
    obtain ⟨operation, isAt, rfl⟩ := Option.map_eq_some_iff.mp taken
    exact inv.pop isAt
  | arbitrate number =>
    obtain ⟨operation, isAt, taken'⟩ := Option.bind_eq_some_iff.mp taken
    obtain ⟨result, isResult, rfl⟩ := Option.map_eq_some_iff.mp taken'
    exact inv.arbitrate isAt proper result
  | settle number =>
    obtain ⟨operation, isAt, rfl⟩ := Option.map_eq_some_iff.mp taken
    exact inv.settle isAt proper
  | announce number =>
    obtain ⟨operation, isAt, taken'⟩ := Option.bind_eq_some_iff.mp taken
    obtain ⟨_, isResult, rfl⟩ := Option.map_eq_some_iff.mp taken'
    exact inv.announce isAt isResult
  | release =>
    obtain ⟨_, isAt, rfl⟩ := Option.map_eq_some_iff.mp taken
    exact inv.release isAt proper
  | cancel socket =>
    cases taken
    exact inv.cancel socket
  | mark index =>
    cases found : ring.cancels[index]? with
    | none => simp [step, found] at taken
    | some list =>
      cases list with
      | nil => simp [step, found] at taken
      | cons =>
        simp only [step, found] at taken
        cases taken
        exact inv.mark found
  | setHandle =>
    cases taken
    exact { inv with }

/-- In every run whose steps are proper, every operation is treated properly, no event
is in the pool twice, and no cancel looks at an event that was returned. -/
theorem always_operations_sound {actions : List Action}
    (proper : Run.Along step Proper {} actions) : Run.Always step Sound {} actions :=
  (Run.always_of_along (fun _ _ _ inv isProper taken => step_invariant inv isProper taken)
    start_invariant proper).mono fun _ inv => inv.sound

/-- A receive is cancelled, and the cancel has marked its event before its completion
is processed; an accept on another socket hands over its descriptor. -/
theorem always_operations_sound_two : Run.Always step Sound {}
    [.receive 0 0, .submit 0, .cancel 0, .mark 0, .accept 1 1, .submit 1, .complete 0 .canceled,
      .pop 0, .arbitrate 0, .release 0, .complete 1 .succeeded, .pop 1, .arbitrate 1, .settle 1,
      .announce 1, .release 1] :=
  always_operations_sound ⟨trivial, trivial, trivial, trivial, trivial, trivial, trivial, trivial,
      by decide +kernel, by decide +kernel, trivial, trivial,
      by decide +kernel, by decide +kernel, trivial, by decide +kernel, trivial⟩

/-- A receive completes between the two steps of a cancel, and its event is used for a
send on another socket: the cancel marks the send. -/
theorem not_always_operations_sound : ¬ ∀ actions : List Action,
    Run.Always step Sound {} actions := by
  intro all
  have always := all
    [.receive 0 0, .submit 0, .cancel 0, .complete 0 .succeeded, .pop 0, .arbitrate 0, .settle 0,
      .announce 0, .release 0, .send 1 0, .submit 1, .mark 0]
  have sound := (Run.always_iff _ _).mp always
    [.receive 0 0, .submit 0, .cancel 0, .complete 0 .succeeded, .pop 0, .arbitrate 0, .settle 0,
      .announce 0, .release 0, .send 1 0, .submit 1, .mark 0] [] _ rfl rfl
  obtain ⟨_, intended, found⟩ := sound.touches
    { event := 0, intended := some 0, found := some 1 } (by decide +kernel)
  cases intended
  contradiction

end IoRing

end NtfCore.Ntco
