import NtfCore.Foundation.Ring
import NtfCore.Foundation.Run

/-!
Contract: the submission queue of an I/O ring (`ntco::IoRingSubmissionQueue`), as
`push` and `IoRingDevice::wait` use it.

A push holds the mutex of the queue while it looks at the ring, writes its entry,
gathers what is pending and enters the ring; a wait gathers and enters without
the mutex. Each of these is a step of its own. The kernel consumes entries at the
head of the ring.

Owns: the ring with its 32-bit head and tail, the pending count, the calls under
way, what the kernel has consumed, and the theorem that says when every entry is
accounted for.
-/

namespace NtfCore.Ntco

open NtfCore.Foundation List UInt32 Function

structure IoRingConfig where
  bits : Nat
  bits_lt : bits < 32

namespace IoRingConfig

def size (config : IoRingConfig) : Nat := 2 ^ config.bits

def mask (config : IoRingConfig) : UInt32 := UInt32.ofNat (config.size - 1)

def index (config : IoRingConfig) (value : UInt32) : Nat := (value &&& config.mask).toNat

end IoRingConfig

/-- `ntco::IoRingSubmissionMode`. -/
inductive IoRingSubmissionMode where
  | deferred
  | immediate
deriving DecidableEq

/-- Where the push is that holds the mutex: it is about to look at the ring; it has
read the head; it is about to gather; or it has gathered and is about to enter. -/
inductive PushCall (Entry : Type) where
  | idle
  | looping (entry : Entry) (mode : IoRingSubmissionMode)
  | looked (entry : Entry) (mode : IoRingSubmissionMode) (head : UInt32)
  | gathering
  | entering (count : Nat)

def PushCall.count {Entry : Type} : PushCall Entry -> Nat
  | .entering count => count
  | _ => 0

/-- `ntco::IoRingSubmissionQueue`. `gathered` holds what each wait has gathered that
has yet to enter; `pushed` the entries written to the ring, in order; `consumed`
what the kernel has read; `failed` the places among the entries pushed of those
whose push returned an error; and `asserted` tells whether the assertion of
`push` has held so far. -/
structure IoRingSubmissionQueue (Entry : Type) where
  head : UInt32 := 0
  tail : UInt32 := 0
  pending : Nat := 0
  entryArray : Nat -> Option Entry := fun _ => none
  array : Nat -> Nat := fun _ => 0
  call : PushCall Entry := .idle
  gathered : List Nat := []
  pushed : List Entry := []
  consumed : List (Option Entry) := []
  failed : List Nat := []
  asserted : Bool := true

inductive EnterOutcome where
  | consumed (count : Nat)
  | error
deriving DecidableEq

namespace IoRingSubmissionQueue

variable {Entry : Type} (config : IoRingConfig)

def entries (queue : IoRingSubmissionQueue Entry) : Nat := (queue.tail - queue.head).toNat

def entryAt (queue : IoRingSubmissionQueue Entry) (value : UInt32) : Option Entry :=
  queue.entryArray (queue.array (config.index value))

def contents (queue : IoRingSubmissionQueue Entry) : List (Option Entry) :=
  (List.range queue.entries).map fun offset =>
    queue.entryAt config (queue.head + UInt32.ofNat offset)

def consumeOne (queue : IoRingSubmissionQueue Entry) : IoRingSubmissionQueue Entry :=
  { queue with
    head := queue.head + 1
    consumed := queue.consumed ++ [queue.entryAt config queue.head] }

def consume (queue : IoRingSubmissionQueue Entry) : Nat -> IoRingSubmissionQueue Entry
  | 0 => queue
  | count + 1 => (queue.consumeOne config).consume count

/-- What the kernel does when it is asked to consume `count` entries. -/
def enter (queue : IoRingSubmissionQueue Entry) (count : Nat) :
    EnterOutcome -> Option (IoRingSubmissionQueue Entry)
  | .consumed number =>
    if number ≤ count ∧ number ≤ queue.entries then some (queue.consume config number) else none
  | .error => some queue

/-- A round of the loop of `push`, once the head was read. The assertion is that of
the full ring. -/
def pushRound (queue : IoRingSubmissionQueue Entry) (entry : Entry)
    (mode : IoRingSubmissionMode) (head : UInt32) : IoRingSubmissionQueue Entry :=
  let tail := queue.tail
  let next := tail + 1
  let tailIndex := config.index tail
  if tailIndex = config.index head ∧ head ≠ tail then
    { queue with
      asserted := queue.asserted && queue.pending == 0
      call := .looping entry mode }
  else
    { queue with
      entryArray := Function.update queue.entryArray tailIndex (some entry)
      array := Function.update queue.array tailIndex tailIndex
      tail := next
      pending := queue.pending + 1
      pushed := queue.pushed ++ [entry]
      call := if config.index next = config.index head ∨ mode = .immediate then .gathering
        else .idle }

/-- A step of a thread: `push` takes the mutex, `look` reads the head, `round` is what
follows, `gather` and `enter` end a push that submits; `wait` gathers for a wait,
and `waitEnter` enters for one of them. -/
inductive Action (Entry : Type) where
  | push (entry : Entry) (mode : IoRingSubmissionMode)
  | look
  | round
  | gather
  | enter (outcome : EnterOutcome)
  | wait
  | waitEnter (index : Nat) (outcome : EnterOutcome)

def step (queue : IoRingSubmissionQueue Entry) : Action Entry -> Option (IoRingSubmissionQueue Entry)
  | .push entry mode =>
    match queue.call with
    | .idle => some { queue with call := .looping entry mode }
    | _ => none
  | .look =>
    match queue.call with
    | .looping entry mode => some { queue with call := .looked entry mode queue.head }
    | _ => none
  | .round =>
    match queue.call with
    | .looked entry mode head => some (queue.pushRound config entry mode head)
    | _ => none
  | .gather =>
    match queue.call with
    | .gathering => some { queue with pending := 0, call := .entering queue.pending }
    | _ => none
  | .enter outcome =>
    match queue.call with
    | .entering count =>
      (queue.enter config count outcome).map fun entered =>
        { entered with
          call := .idle
          failed := if outcome = .error then entered.failed ++ [entered.pushed.length - 1]
            else entered.failed }
    | _ => none
  | .wait => some { queue with pending := 0, gathered := queue.gathered ++ [queue.pending] }
  | .waitEnter index outcome =>
    match queue.gathered[index]? with
    | some count =>
      (queue.enter config count outcome).map fun entered =>
        { entered with gathered := entered.gathered.eraseIdx index }
    | none => none

/-- Every entry in the ring is counted; what was consumed and what is in the ring is
what was pushed, in order; no entry is left in the ring whose push returned an
error; and the assertion has held. -/
structure Accounted (queue : IoRingSubmissionQueue Entry) : Prop where
  counted : queue.entries = queue.pending + queue.gathered.sum + queue.call.count
  ordered : queue.consumed ++ queue.contents config = queue.pushed.map some
  returned : ∀ place ∈ queue.failed, place < queue.consumed.length
  asserted : queue.asserted = true

/-- The kernel consumes all that it is asked to consume. An error leaves nothing
behind: nothing was asked for, and when a push receives it the ring is empty. -/
def Exhaustive (queue : IoRingSubmissionQueue Entry) : Action Entry -> Prop
  | .enter (.consumed number) => number = queue.call.count
  | .enter .error => queue.call.count = 0 ∧ queue.head = queue.tail
  | .waitEnter index (.consumed number) => queue.gathered[index]? = some number
  | .waitEnter index .error => queue.gathered[index]? = some 0
  | _ => True

end IoRingSubmissionQueue

/-! ## Positions -/

namespace IoRingConfig

variable (config : IoRingConfig)

theorem size_pos : 0 < config.size := Nat.two_pow_pos _

theorem size_lt : config.size < 2 ^ 32 := Nat.pow_lt_pow_right (by decide) config.bits_lt

/-- The cell of a position, whose number was wrapped. -/
theorem index_ofNat (pos : Nat) : config.index (UInt32.ofNat pos) = pos % config.size := by
  have maskLt : config.size - 1 < 2 ^ 32 := Nat.lt_of_le_of_lt (Nat.sub_le _ _) config.size_lt
  have divides : config.size ∣ 2 ^ 32 := Nat.pow_dvd_pow 2 config.bits_lt.le
  unfold index mask
  rw [UInt32.toNat_and, UInt32.toNat_ofNat', UInt32.toNat_ofNat', Nat.mod_eq_of_lt maskLt]
  unfold size at divides ⊢
  rw [Nat.and_two_pow_sub_one_eq_mod, Nat.mod_mod_of_dvd _ divides]

variable {start stop : Nat} (inOrder : start ≤ stop) (near : stop ≤ start + config.size)
include inOrder near

/-- The distance of two positions, whose numbers were wrapped. -/
theorem toNat_sub : (ofNat stop - ofNat start).toNat = stop - start := by
  have sizeLt := config.size_lt
  rw [UInt32.toNat_sub, UInt32.toNat_ofNat', UInt32.toNat_ofNat']
  omega

theorem ofNat_inj : ofNat start = ofNat stop ↔ start = stop := by
  constructor
  · intro same
    have distance := config.toNat_sub inOrder near
    rw [same, UInt32.sub_self] at distance
    have isZero : (0 : UInt32).toNat = 0 := rfl
    omega
  · intro same
    rw [same]

theorem full_iff : (config.index (ofNat stop) = config.index (ofNat start) ∧
      ofNat start ≠ ofNat stop) ↔ stop = start + config.size := by
  rw [Ne, config.ofNat_inj inOrder near, config.index_ofNat, config.index_ofNat]
  have sizePos := config.size_pos
  constructor
  · rintro ⟨sameCell, _⟩
    have divides := (Nat.modEq_iff_dvd' inOrder).mp sameCell.symm
    have atLeast := Nat.le_of_dvd (by omega) divides
    omega
  · intro isFull
    rw [isFull, Nat.add_mod_right]
    exact ⟨rfl, by omega⟩

end IoRingConfig

/-! ## The ring -/

namespace IoRingSubmissionQueue

variable {Entry : Type} {config : IoRingConfig} {queue next : IoRingSubmissionQueue Entry}

/-- The head and the tail are the numbers of entries consumed and pushed, and the
cells between them hold what was pushed and not consumed. -/
structure Circular (config : IoRingConfig) (queue : IoRingSubmissionQueue Entry) : Prop where
  head_eq : queue.head = UInt32.ofNat queue.consumed.length
  tail_eq : queue.tail = UInt32.ofNat queue.pushed.length
  inOrder : queue.consumed.length ≤ queue.pushed.length
  bounded : queue.pushed.length ≤ queue.consumed.length + config.size
  array_eq : ∀ position, queue.consumed.length ≤ position -> position < queue.pushed.length ->
    queue.array (position % config.size) = position % config.size
  ordered : queue.consumed ++ Ring.contents queue.entryArray config.size queue.consumed.length
    (queue.pushed.length - queue.consumed.length) = queue.pushed.map some

section

variable (circular : queue.Circular config)
include circular

theorem Circular.entries_eq : queue.entries = queue.pushed.length - queue.consumed.length := by
  unfold entries
  rw [circular.head_eq, circular.tail_eq, config.toNat_sub circular.inOrder circular.bounded]

theorem Circular.contents_eq :
    queue.contents config = Ring.contents queue.entryArray config.size queue.consumed.length
      (queue.pushed.length - queue.consumed.length) := by
  unfold contents
  rw [circular.entries_eq]
  apply map_congr_left
  intro offset mem
  have inRange := mem_range.mp mem
  unfold entryAt
  rw [circular.head_eq, ← ofNat_add, config.index_ofNat,
    circular.array_eq _ (Nat.le_add_right _ _) (by omega)]

theorem Circular.consumeOne (available : queue.consumed.length < queue.pushed.length) :
    (queue.consumeOne config).Circular config := by
  have entryEq : queue.entryAt config queue.head =
      queue.entryArray (queue.consumed.length % config.size) := by
    unfold entryAt
    rw [circular.head_eq, config.index_ofNat, circular.array_eq _ .refl available]
  have bounded := circular.bounded
  have ordered := circular.ordered
  have countEq : queue.pushed.length - queue.consumed.length =
      queue.pushed.length - (queue.consumed.length + 1) + 1 := by omega
  rw [countEq, Ring.contents_succ, ← entryEq] at ordered
  unfold IoRingSubmissionQueue.consumeOne
  constructor
  case head_eq =>
    rw [circular.head_eq, length_append, length_singleton, ofNat_add]
    rfl
  case tail_eq => exact circular.tail_eq
  case inOrder =>
    rw [length_append, length_singleton]
    exact available
  case bounded =>
    dsimp only
    rw [length_append, length_singleton]
    omega
  case array_eq =>
    intro pos lower upper
    rw [length_append, length_singleton] at lower
    exact circular.array_eq pos (by omega) upper
  case ordered =>
    rw [length_append, length_singleton, append_assoc, singleton_append]
    exact ordered

end

structure Consumed (config : IoRingConfig) (queue : IoRingSubmissionQueue Entry) (number : Nat)
    (after : IoRingSubmissionQueue Entry) : Prop where
  circular : after.Circular config
  length_eq : after.consumed.length = queue.consumed.length + number
  same : ∃ head consumed, after = { queue with head := head, consumed := consumed }

theorem Circular.consume (circular : queue.Circular config) {number : Nat}
    (available : queue.consumed.length + number ≤ queue.pushed.length) :
    Consumed config queue number (queue.consume config number) := by
  induction number generalizing queue with
  | zero => exact ⟨circular, rfl, _, _, rfl⟩
  | succ number ih =>
    have one := circular.consumeOne (by omega)
    have lengthEq : (queue.consumeOne config).consumed.length = queue.consumed.length + 1 := by
      simp [IoRingSubmissionQueue.consumeOne]
    have rest := ih one (by
      exact Nat.le_trans (by omega) available)
    obtain ⟨head, consumed, restEq⟩ := rest.same
    have sumEq : (queue.consumeOne config).consumed.length + number =
        queue.consumed.length + (number + 1) := by omega
    exact ⟨rest.circular, rest.length_eq.trans sumEq, head, consumed, restEq⟩

theorem Circular.insert (circular : queue.Circular config)
    (room : queue.pushed.length < queue.consumed.length + config.size) (entry : Entry)
    (pending : Nat) (call : PushCall Entry) : ({ queue with
      entryArray := update queue.entryArray (config.index queue.tail) (some entry)
      array := update queue.array (config.index queue.tail) (config.index queue.tail)
      tail := queue.tail + 1
      pending := pending
      pushed := queue.pushed ++ [entry]
      call := call } : IoRingSubmissionQueue Entry).Circular config := by
  have inOrder := circular.inOrder
  have indexEq : config.index queue.tail = queue.pushed.length % config.size := by
    rw [circular.tail_eq, config.index_ofNat]
  constructor
  case head_eq => exact circular.head_eq
  case tail_eq =>
    rw [circular.tail_eq, length_append, length_singleton, ofNat_add]
    rfl
  case inOrder =>
    dsimp only
    rw [length_append]
    omega
  case bounded =>
    dsimp only
    rw [length_append, length_singleton]
    omega
  case array_eq =>
    dsimp only
    intro pos lower upper
    rw [length_append, length_singleton] at upper
    rw [indexEq]
    rcases Nat.lt_or_eq_of_le (Nat.le_of_lt_succ upper) with before | isNew
    · rw [update_of_ne (Ring.mod_ne_mod lower before room)]
      exact circular.array_eq pos lower before
    · rw [isNew, update_self]
  case ordered =>
    have countEq : (queue.pushed ++ [entry]).length - queue.consumed.length =
        queue.pushed.length - queue.consumed.length + 1 := by
      rw [length_append, length_singleton]
      omega
    have cellEq : queue.pushed.length =
        queue.consumed.length + (queue.pushed.length - queue.consumed.length) := by omega
    have written := Ring.contents_write queue.entryArray queue.consumed.length
      (queue.pushed.length - queue.consumed.length) (Nat.sub_lt_left_of_lt_add inOrder room) (some entry)
    rw [← cellEq] at written
    rw [countEq, indexEq, written, ← append_assoc, circular.ordered, map_append]
    rfl

/-! ## The calls -/

/-- What a push that has not written its entry relies on: when the ring is full
nothing is pending. A push that has read the head relies on it as of then. -/
def Settled (config : IoRingConfig) (queue : IoRingSubmissionQueue Entry) : Prop :=
  match queue.call with
  | .idle => queue.pending = 0 ∨ queue.pushed.length < queue.consumed.length + config.size
  | .looping _ _ => queue.pending = 0 ∨ queue.pushed.length < queue.consumed.length + config.size
  | .looked _ _ head => ∃ position, head = UInt32.ofNat position ∧
      position ≤ queue.consumed.length ∧ queue.pushed.length ≤ position + config.size ∧
      (queue.pending = 0 ∨ queue.pushed.length < position + config.size)
  | .gathering => queue.pushed ≠ []
  | .entering _ => queue.pending = 0 ∧ queue.pushed ≠ []

structure Invariant (config : IoRingConfig) (queue : IoRingSubmissionQueue Entry) : Prop
    extends Circular config queue where
  settled : queue.Settled config
  counted : queue.pushed.length =
    queue.consumed.length + (queue.pending + queue.gathered.sum + queue.call.count)
  returned : ∀ place ∈ queue.failed, place < queue.consumed.length
  asserted : queue.asserted = true

theorem Invariant.accounted (inv : queue.Invariant config) : queue.Accounted config := { inv with
  counted := by
    rw [inv.entries_eq, inv.counted]
    omega
  ordered := by
    rw [inv.contents_eq]
    exact inv.ordered }

theorem start_invariant : ({} : IoRingSubmissionQueue Entry).Invariant config where
  head_eq := rfl
  tail_eq := rfl
  inOrder := .refl
  bounded := Nat.zero_le _
  array_eq := fun pos _ impossible => absurd impossible (Nat.not_lt_zero pos)
  ordered := rfl
  settled := .inl rfl
  counted := rfl
  returned := by simp
  asserted := rfl

theorem Settled.mono (settled : queue.Settled config) (sameCall : next.call = queue.call)
    (samePushed : next.pushed = queue.pushed)
    (pending : next.pending = 0 ∨ next.pending = queue.pending)
    (consumed : queue.consumed.length ≤ next.consumed.length) : next.Settled config := by
  have pendingOf : queue.pending = 0 -> next.pending = 0 := by
    intro nothing
    rcases pending with isZero | same
    · exact isZero
    · rw [same, nothing]
  unfold Settled at settled ⊢
  rw [sameCall, samePushed]
  cases isCall : queue.call with
  | idle | looping entry mode =>
    rw [isCall] at settled
    exact settled.imp pendingOf (fun _ => by omega)
  | looked =>
    rw [isCall] at settled
    obtain ⟨pos, headEq, _, near, nothing⟩ := settled
    exact ⟨pos, headEq, by omega, near, nothing.imp_left pendingOf⟩
  | gathering =>
    rw [isCall] at settled
    exact settled
  | entering =>
    rw [isCall] at settled
    exact ⟨pendingOf settled.1, settled.2⟩

variable {outcome : EnterOutcome}

section

variable (inv : queue.Invariant config)
include inv

theorem Invariant.enter {count : Nat} {entered : IoRingSubmissionQueue Entry}
    (taken : queue.enter config count outcome = some entered) :
    ∃ number, number ≤ count ∧ Consumed config queue number entered ∧
      (outcome = .error ∧ number = 0 ∨ outcome = .consumed number) := by
  cases outcome with
  | error =>
    cases taken
    exact ⟨0, Nat.zero_le _, ⟨inv.toCircular, rfl, _, _, rfl⟩, .inl ⟨rfl, rfl⟩⟩
  | consumed number =>
    unfold enter at taken
    obtain ⟨allowed, rfl⟩ := Run.guarded taken
    have available := allowed.2
    rw [inv.entries_eq] at available
    have inOrder := inv.inOrder
    exact ⟨number, allowed.1, inv.toCircular.consume (by omega), .inr rfl⟩

theorem enter_taken (taken : queue.step config (.enter outcome) = some next) :
    ∃ count number entered, queue.call = .entering count ∧ number ≤ count ∧
      Consumed config queue number entered ∧
      (outcome = .error ∧ number = 0 ∨ outcome = .consumed number) ∧ next = { entered with
        call := .idle
        failed := if outcome = .error then entered.failed ++ [entered.pushed.length - 1]
          else entered.failed } := by
  cases isCall : queue.call with
  | entering count =>
    simp only [step, isCall] at taken
    obtain ⟨entered, enters, isNext⟩ := Option.map_eq_some_iff.mp taken
    obtain ⟨number, atMost, consumed, outcomeEq⟩ := inv.enter enters
    exact ⟨count, number, entered, rfl, atMost, consumed, outcomeEq, isNext.symm⟩
  | idle | looping entry mode | looked entry mode head | gathering => simp [step, isCall] at taken

theorem waitEnter_taken {index : Nat}
    (taken : queue.step config (.waitEnter index outcome) = some next) :
    ∃ count number entered, queue.gathered[index]? = some count ∧ number ≤ count ∧
      Consumed config queue number entered ∧
      (outcome = .error ∧ number = 0 ∨ outcome = .consumed number) ∧
      next = { entered with gathered := entered.gathered.eraseIdx index } := by
  cases found : queue.gathered[index]? with
  | some count =>
    simp only [step, found] at taken
    obtain ⟨entered, enters, isNext⟩ := Option.map_eq_some_iff.mp taken
    obtain ⟨number, atMost, consumed, outcomeEq⟩ := inv.enter enters
    exact ⟨count, number, entered, rfl, atMost, consumed, outcomeEq, isNext.symm⟩
  | none => simp [step, found] at taken

end

/-- What is gathered and not yet entered, once a wait enters. -/
theorem sum_eraseIdx {gathered : List Nat} {index count : Nat}
    (found : gathered[index]? = some count) :
    gathered.sum = count + (gathered.eraseIdx index).sum := by
  induction gathered generalizing index with
  | nil => simp at found
  | cons first _ ih =>
    cases index with
    | zero =>
      have isFirst : first = count := by simpa using found
      simp [isFirst]
    | succ =>
      have restEq := ih (by simpa using found)
      simp only [sum_cons, eraseIdx_cons_succ, restEq]
      omega

/-! ## The steps -/

theorem Invariant.push (inv : queue.Invariant config) (isIdle : queue.call = .idle)
    (entry : Entry) (mode : IoRingSubmissionMode) :
    ({ queue with call := .looping entry mode } : IoRingSubmissionQueue Entry).Invariant config := by
  have settled := inv.settled
  have counted := inv.counted
  unfold Settled at settled
  rw [isIdle] at settled counted
  exact { inv with
    settled := settled
    counted := counted }

variable {mode : IoRingSubmissionMode}

section

variable (inv : queue.Invariant config)
include inv

theorem Invariant.look {entry : Entry} (isLooping : queue.call = .looping entry mode) :
    ({ queue with call := .looked entry mode queue.head } :
      IoRingSubmissionQueue Entry).Invariant config := by
  have settled := inv.settled
  have counted := inv.counted
  unfold Settled at settled
  rw [isLooping] at settled counted
  exact { inv with
    settled := ⟨_, inv.head_eq, .refl, inv.bounded, settled⟩
    counted := counted }

theorem Invariant.round {entry : Entry} {head : UInt32}
    (isLooked : queue.call = .looked entry mode head) :
    (queue.pushRound config entry mode head).Invariant config := by
  have settled := inv.settled
  have counted := inv.counted
  unfold Settled at settled
  rw [isLooked] at settled counted
  obtain ⟨pos, headEq, past, near, nothing⟩ := settled
  have inOrder := inv.inOrder
  have fullIff := config.full_iff (Nat.le_trans past inOrder) near
  rw [← headEq, ← inv.tail_eq] at fullIff
  unfold pushRound
  by_cases isFull : config.index queue.tail = config.index head ∧ head ≠ queue.tail
  · -- The ring was full when the head was read, so nothing is pending.
    rw [if_pos isFull]
    have full := fullIff.mp isFull
    have isZero : queue.pending = 0 := by omega
    exact { inv with
      settled := Or.inl isZero
      counted := counted
      asserted := by simp [inv.asserted, isZero] }
  · rw [if_neg isFull]
    have room : queue.pushed.length < pos + config.size :=
      Nat.lt_of_le_of_ne near (fun full => isFull (fullIff.mpr full))
    have circular := inv.toCircular.insert (by omega) entry
    by_cases submits : config.index (queue.tail + 1) = config.index head ∨ mode = .immediate
    · rw [if_pos submits]
      exact { circular (queue.pending + 1) .gathering with
        settled := by
          show queue.pushed ++ [entry] ≠ []
          simp
        counted := by
          simp only [length_append, length_singleton, PushCall.count] at counted ⊢
          omega
        returned := inv.returned
        asserted := inv.asserted }
    · -- It does not look full once the entry is written, so it is not.
      rw [if_neg submits]
      have nextEq : queue.tail + 1 = ofNat (queue.pushed.length + 1) := by
        rw [inv.tail_eq, ofNat_add]
        rfl
      have notFull : queue.pushed.length + 1 ≠ pos + config.size := by
        intro full
        apply submits
        rw [nextEq, full, headEq, config.index_ofNat, config.index_ofNat, Nat.add_mod_right]
        exact Or.inl rfl
      exact { circular (queue.pending + 1) .idle with
        settled := by
          apply Or.inr
          show (queue.pushed ++ [entry]).length < queue.consumed.length + config.size
          rw [length_append, length_singleton]
          omega
        counted := by
          simp only [length_append, length_singleton, PushCall.count] at counted ⊢
          omega
        returned := inv.returned
        asserted := inv.asserted }

theorem Invariant.gather (isGathering : queue.call = .gathering) :
    ({ queue with pending := 0, call := .entering queue.pending } :
      IoRingSubmissionQueue Entry).Invariant config := by
  have settled := inv.settled
  have counted := inv.counted
  unfold Settled at settled
  rw [isGathering] at settled counted
  exact { inv with
    settled := ⟨rfl, settled⟩
    counted := by
      simp only [PushCall.count] at counted ⊢
      omega }

theorem Invariant.wait :
    ({ queue with pending := 0, gathered := queue.gathered ++ [queue.pending] } :
      IoRingSubmissionQueue Entry).Invariant config := by
  have counted := inv.counted
  exact { inv with
    settled := inv.settled.mono rfl rfl (.inl rfl) .refl
    counted := by
      simp only [sum_append, sum_singleton] at counted ⊢
      omega }

theorem Invariant.enterAll (exhaustive : queue.Exhaustive (.enter outcome))
    (taken : queue.step config (.enter outcome) = some next) : next.Invariant config := by
  obtain ⟨count, number, _, isCall, _, consumed, outcomeEq, isNext⟩ := enter_taken inv taken
  have settled := inv.settled
  have counted := inv.counted
  unfold Settled at settled
  rw [isCall] at settled counted
  obtain ⟨_, _, enteredEq⟩ := consumed.same
  have lengthEq := consumed.length_eq
  have circular := consumed.circular
  subst enteredEq
  subst isNext
  have isAll : number = count := by
    rcases outcomeEq with ⟨isError, isZero⟩ | isConsumed
    · rw [isError] at exhaustive
      have nothing : queue.call.count = 0 := exhaustive.1
      rw [isCall] at nothing
      exact isZero.trans nothing.symm
    · rw [isConsumed] at exhaustive
      have same : number = queue.call.count := exhaustive
      rw [isCall] at same
      exact same
  dsimp only at lengthEq
  exact { circular with
    settled := .inl settled.1
    counted := by
      simp only [PushCall.count] at counted ⊢
      omega
    returned := by
      intro place mem
      dsimp only at mem ⊢
      split at mem
      · rename_i isError
        rcases mem_append.mp mem with before | isNew
        · have inConsumed := inv.returned place before
          omega
        · rw [isError] at exhaustive
          have emptied : queue.consumed.length = queue.pushed.length := by
            apply (config.ofNat_inj inv.inOrder inv.bounded).mp
            rw [← inv.head_eq, ← inv.tail_eq]
            exact exhaustive.2
          have pos := length_pos_of_ne_nil settled.2
          rw [mem_singleton.mp isNew]
          omega
      · have inConsumed := inv.returned place mem
        omega
    asserted := inv.asserted }

theorem Invariant.waitEnterAll {index : Nat}
    (exhaustive : queue.Exhaustive (.waitEnter index outcome))
    (taken : queue.step config (.waitEnter index outcome) = some next) : next.Invariant config := by
  obtain ⟨count, number, _, found, _, consumed, outcomeEq, isNext⟩ := waitEnter_taken inv taken
  have counted := inv.counted
  obtain ⟨_, _, enteredEq⟩ := consumed.same
  have lengthEq := consumed.length_eq
  have circular := consumed.circular
  have sumEq := sum_eraseIdx found
  subst enteredEq
  subst isNext
  have isAll : number = count := by
    rcases outcomeEq with ⟨isError, isZero⟩ | isConsumed
    · rw [isError] at exhaustive
      have nothing : queue.gathered[index]? = some 0 := exhaustive
      rw [found] at nothing
      exact isZero.trans (Option.some.inj nothing).symm
    · rw [isConsumed] at exhaustive
      have same : queue.gathered[index]? = some number := exhaustive
      rw [found] at same
      exact (Option.some.inj same).symm
  dsimp only at lengthEq
  exact { circular with
    settled := inv.settled.mono rfl rfl (.inr rfl) (by dsimp only; omega)
    counted := by
      dsimp only at counted ⊢
      omega
    returned := by
      intro place mem
      have inConsumed := inv.returned place mem
      dsimp only
      omega
    asserted := inv.asserted }

end

variable {action : Action Entry}

theorem step_invariant (inv : queue.Invariant config)
    (exhaustive : queue.Exhaustive action) (taken : queue.step config action = some next) :
    next.Invariant config := by
  cases action with
  | push entry mode =>
    cases isCall : queue.call with
    | idle =>
      simp only [step, isCall] at taken
      cases taken
      exact inv.push isCall entry mode
    | looping entry mode | looked entry mode head | gathering
    | entering count => simp [step, isCall] at taken
  | look =>
    cases isCall : queue.call with
    | looping entry mode =>
      simp only [step, isCall] at taken
      cases taken
      exact inv.look isCall
    | idle | looked entry mode head | gathering | entering count => simp [step, isCall] at taken
  | round =>
    cases isCall : queue.call with
    | looked entry mode head =>
      simp only [step, isCall] at taken
      cases taken
      exact inv.round isCall
    | idle | looping entry mode | gathering | entering count => simp [step, isCall] at taken
  | gather =>
    cases isCall : queue.call with
    | gathering =>
      simp only [step, isCall] at taken
      cases taken
      exact inv.gather isCall
    | idle | looping entry mode | looked entry mode head
    | entering => simp [step, isCall] at taken
  | enter outcome => exact inv.enterAll exhaustive taken
  | wait =>
    cases taken
    exact inv.wait
  | waitEnter => exact inv.waitEnterAll exhaustive taken

theorem step_detects (inv : queue.Invariant config)
    (taken : queue.step config action = some next) (accounted : next.Accounted config) :
    queue.Exhaustive action := by
  cases action with
  | push entry mode | look | round | gather | wait => trivial
  | enter outcome =>
    obtain ⟨count, number, entered, isCall, atMost, consumed, outcomeEq, isNext⟩ :=
      enter_taken inv taken
    have counted := inv.counted
    have lengthEq := consumed.length_eq
    have entriesEq := consumed.circular.entries_eq
    have inOrder := consumed.circular.inOrder
    obtain ⟨head, after, enteredEq⟩ := consumed.same
    subst enteredEq
    subst isNext
    have remaining : queue.pushed.length - after.length =
        queue.pending + queue.gathered.sum + 0 := entriesEq.symm.trans accounted.counted
    rw [isCall] at counted
    simp only [PushCall.count] at counted
    dsimp only at lengthEq inOrder
    have isAll : number = count := by omega
    rcases outcomeEq with ⟨isError, isZero⟩ | isConsumed
    · rw [isError]
      have emptied : queue.pushed.length - 1 < after.length := by
        apply accounted.returned
        rw [if_pos isError]
        exact mem_append_right _ (mem_singleton_self _)
      have sameLength : queue.consumed.length = queue.pushed.length := by omega
      refine ⟨?_, ?_⟩
      · rw [isCall]
        exact isAll.symm.trans isZero
      · rw [inv.head_eq, inv.tail_eq, sameLength]
    · rw [isConsumed]
      show number = queue.call.count
      rw [isCall]
      exact isAll
  | waitEnter index =>
    obtain ⟨count, number, _, found, _, consumed, outcomeEq, isNext⟩ := waitEnter_taken inv taken
    have counted := inv.counted
    have lengthEq := consumed.length_eq
    have entriesEq := consumed.circular.entries_eq
    have inOrder := consumed.circular.inOrder
    have sumEq := sum_eraseIdx found
    obtain ⟨_, after, enteredEq⟩ := consumed.same
    subst enteredEq
    subst isNext
    have remaining : queue.pushed.length - after.length =
        queue.pending + (queue.gathered.eraseIdx index).sum + queue.call.count :=
      entriesEq.symm.trans accounted.counted
    dsimp only at lengthEq inOrder
    have isAll : number = count := by omega
    rcases outcomeEq with ⟨isError, isZero⟩ | isConsumed
    · rw [isError]
      show queue.gathered[index]? = some 0
      rw [found, ← isAll, isZero]
    · rw [isConsumed]
      show queue.gathered[index]? = some number
      rw [found, isAll]

/-- In every run, every entry is accounted for in every state if and only if the
kernel consumes all that it is asked to consume. -/
theorem always_accounted_iff (config : IoRingConfig) (actions : List (Action Entry)) :
    Run.Always (step config) (Accounted config) {} actions ↔
      Run.Along (step config) Exhaustive {} actions :=
  Run.always_iff_along (fun _ inv => Invariant.accounted inv)
    (fun _ _ _ inv exhaustive taken => step_invariant inv exhaustive taken)
    (fun _ _ _ inv taken accounted => step_detects inv taken accounted)
    start_invariant

/-- An entry is pushed, a wait gathers it, and the kernel refuses: nobody counts the
entry any more. -/
theorem not_always_accounted : ¬ ∀ (config : IoRingConfig) (actions : List (Action Nat)),
    Run.Always (step config) (Accounted config) {} actions := by
  intro all
  have always := all { bits := 3, bits_lt := by decide }
    [.push 7 .deferred, .look, .round, .wait, .waitEnter 0 .error]
  have accounted := (Run.always_iff _ _).mp always
    [.push 7 .deferred, .look, .round, .wait, .waitEnter 0 .error] [] _ rfl rfl
  exact absurd accounted.counted (by decide +kernel)

end IoRingSubmissionQueue

end NtfCore.Ntco
