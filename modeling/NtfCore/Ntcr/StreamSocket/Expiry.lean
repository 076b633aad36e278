import NtfCore.Ntcr.StreamSocket.Soundness

/-!
Contract: the deadline of a send on the queue of `ntcr::StreamSocket`.

Owns: the identifiers of the entries, those of the sends, which increase, and those that
`SendQueue::generateEntryId` gives to graceful shutdowns, which increase too; the condition
on the steps of a run under which no identifier is one of both, and a deadline removes the
entry that it is of.
-/

namespace NtfCore.Ntcr.StreamSocket

open NtfCore.Foundation NtfCore.Ntcq List

variable {Token : Type}

def ids (entries : List (Entry Token)) : List Nat :=
  entries.map SendQueueEntry.id

/-- The timer of the entry removes it, and dispatches its callback with an error. -/
def Expires (socket : StreamSocket Token) (index : Nat) (entry : Entry Token) : Prop :=
  ∃ outcome, socket.processSendDeadlineTimer entry.id = some outcome ∧
    outcome.socket.sendQueue.entryList = socket.sendQueue.entryList.eraseIdx index ∧
    outcome.events = .removed entry.id :: dispatch .error (some .wouldBlock)
      (entry.callback.toList.map fun callback => (entry.context, callback))

structure Identified (socket : StreamSocket Token) : Prop where
  distinct : (ids socket.sendQueue.entryList).Nodup
  expires : ∀ index entry, socket.sendQueue.entryList[index]? = some entry ->
    entry.deadline.isSome -> entry.inProgress = false -> Expires socket index entry

/-- Whether `send` comes to deflate, encrypt or enqueue its data. -/
def Admits (socket : StreamSocket Token) (options : SendOptions Token) : Prop :=
  socket.isOpen = true ∧
    socket.sendQueue.size < options.highWatermark.getD socket.highWatermark

/-- The identifiers of the entries, and whether they are sends: a shutdown has no data. -/
def numbers (entries : List (Entry Token)) : List (Nat × Bool) :=
  entries.map fun entry => (entry.id, entry.data.isSome)

/-- A send that the step puts on the queue does not take the number of a shutdown on the
queue, and a shutdown not that of a send. -/
def Apart (half : SendHalf Token) : Action Token -> Prop
  | .send message options _ plugIns _ =>
    Admits half.socket options -> ∀ data, produce plugIns message.bytes = some data -> data ≠ [] ->
      (half.socket.sendCounter, false) ∉ numbers half.socket.sendQueue.entryList
  | .sendCipherData cipherData _ =>
    cipherData ≠ [] -> (half.socket.sendCounter, false) ∉ numbers half.socket.sendQueue.entryList
  | .shutdown graceful =>
    graceful = true -> half.socket.canSend = true ->
      (half.socket.nextEntryId + 1, true) ∉ numbers half.socket.sendQueue.entryList
  | _ => True

/-! ## Identifiers -/

/-- The entries of each kind are numbered in their order and below the bound of the kind, and
no number is one of both kinds. -/
structure Separate (numbers : List (Nat × Bool)) (bound : Bool -> Nat) : Prop where
  increasing : numbers.Pairwise fun earlier later => earlier.2 = later.2 -> earlier.1 < later.1
  below : ∀ number ∈ numbers, number.1 < bound number.2
  apart : numbers.Pairwise fun earlier later => earlier.2 ≠ later.2 -> earlier.1 ≠ later.1

section

variable {ns fewer : List (Nat × Bool)} {bound later : Bool -> Nat} (separate : Separate ns bound)
include separate

theorem Separate.nodup : (ns.map Prod.fst).Nodup := by
  refine pairwise_map.mpr ((separate.increasing.and separate.apart).imp ?_)
  rintro earlier later ⟨increases, differs⟩
  by_cases sameKind : earlier.2 = later.2
  · exact Nat.ne_of_lt (increases sameKind)
  · exact differs sameKind

theorem Separate.sublist (isFewer : fewer.Sublist ns) (isLater : ∀ kind, bound kind ≤ later kind) :
    Separate fewer later where
  increasing := separate.increasing.sublist isFewer
  below := fun number mem =>
    Nat.lt_of_lt_of_le (separate.below number (isFewer.subset mem)) (isLater number.2)
  apart := separate.apart.sublist isFewer

/-- An entry takes the bound of its kind, which then increases. -/
theorem Separate.push (kind : Bool) (apart : (bound kind, !kind) ∉ ns)
    (isLater : ∀ kind, bound kind ≤ later kind) (increases : bound kind < later kind) :
    Separate (ns ++ [(bound kind, kind)]) later where
  increasing := by
    refine pairwise_append.mpr ⟨separate.increasing, pairwise_singleton _ _, ?_⟩
    intro number mem _ isNew sameKind
    rw [mem_singleton.mp isNew] at sameKind ⊢
    exact Nat.lt_of_lt_of_eq (separate.below number mem) (congrArg bound sameKind)
  below := by
    intro number mem
    rcases mem_append.mp mem with before | isNew
    · exact Nat.lt_of_lt_of_le (separate.below number before) (isLater number.2)
    · rw [mem_singleton.mp isNew]
      exact increases
  apart := by
    refine pairwise_append.mpr ⟨separate.apart, pairwise_singleton _ _, ?_⟩
    rintro ⟨_, other⟩ mem _ isNew differs sameNumber
    cases mem_singleton.mp isNew
    cases sameNumber
    exact apart (Bool.eq_not_of_ne differs ▸ mem)

end

variable {entries : List (Entry Token)} {entry : Entry Token}

theorem numbers_concat : numbers (entries ++ [entry]) =
    numbers entries ++ [(entry.id, entry.data.isSome)] :=
  map_append

theorem Drained.numbers {numBytes : Nat} {left : List (Entry Token)}
    (drained : Drained numBytes entries left) : (numbers left).Sublist (numbers entries) := by
  induction drained with
  | stop => exact Sublist.refl _
  | whole _ _ _ ih => exact ih.cons _
  | part _ _ remains =>
    obtain ⟨_, isData, isLeft⟩ := remains.data
    rw [StreamSocket.numbers, StreamSocket.numbers, map_cons, map_cons, remains.id, isData, isLeft]
    exact Sublist.refl _

variable {socket : StreamSocket Token} {outcome : Outcome Token} {options : SendOptions Token}

variable {reply : Reply}

/-- The next number of each kind: `generateEntryId` increments its counter first. -/
def nextNumber (socket : StreamSocket Token) : Bool -> Nat
  | true => socket.sendCounter
  | false => socket.nextEntryId + 1

/-- The sends are numbered below the counter of the socket, and the shutdowns up to that of
the queue. -/
def Identifies (socket : StreamSocket Token) : Prop :=
  Separate (numbers socket.sendQueue.entryList) (nextNumber socket)

theorem counted_nextNumber (kind : Bool) : nextNumber socket kind ≤ nextNumber socket.counted kind := by
  cases kind with
  | true => exact Nat.le_succ _
  | false => exact .refl

theorem Sending.identifies {produced : Option (List UInt8)} {buffers : Buffers}
    (sending : Sending socket options produced buffers reply outcome)
    (identifies : Identifies socket) (apart : ∀ data, produced = some data -> data ≠ [] ->
      (socket.sendCounter, false) ∉ numbers socket.sendQueue.entryList) :
    Identifies outcome.socket := by
  have counted : Identifies socket.counted := identifies.sublist (Sublist.refl _) counted_nextNumber
  cases sending with
  | nothing same => rcases same with rfl | rfl <;> assumption
  | raw isRecord _ _ isRaw =>
    cases isRaw with
    | failed | copied | written => exact counted
    | queued _ _ _ partly =>
      rw [Identifies, numbers_concat]
      exact identifies.push true
        (apart _ isRecord (ne_nil_of_length_pos (Nat.zero_lt_of_lt partly)))
        counted_nextNumber (Nat.lt_succ_self _)
  | silent => exact counted

/-- A send that is not admitted takes a number and does nothing else. -/
theorem send_refused {message : Message} {hasCallback : Bool} {plugIns : PlugIns}
    (refused : ¬ Admits socket options)
    (taken : socket.send message options hasCallback plugIns reply = some outcome) :
    outcome.socket = socket.counted := by
  unfold send at taken
  dsimp only at taken
  split at taken
  · cases taken
    rfl
  · rename_i isOpen
    rw [if_pos] at taken
    · cases taken
      rfl
    · by_contra below
      exact refused ⟨by simpa using isOpen, Nat.lt_of_not_le below⟩

/-- A step that keeps both kinds of numbers apart keeps the invariant. -/
theorem step_identified [DecidableEq Token] (half : SendHalf Token) (action : Action Token)
    (next : SendHalf Token) (kept : Sized half.socket.sendQueue ∧ Identifies half.socket)
    (apart : Apart half action) (taken : half.step action = some next) :
    Sized next.socket.sendQueue ∧ Identifies next.socket := by
  obtain ⟨sized, identifies⟩ := kept
  obtain ⟨outcome, isOutcome, rfl⟩ := Option.map_eq_some_iff.mp taken
  have performs := perform_cases sized.measured isOutcome
  refine ⟨performs.sized sized, ?_⟩
  have fewer : ∀ {left : List (Nat × Bool)},
      left.Sublist (numbers half.socket.sendQueue.entryList) ->
        Separate left (nextNumber half.socket) :=
    fun isFewer => identifies.sublist isFewer fun _ => .refl
  cases performs with
  | @send _ options _ _ _ _ sending =>
    by_cases admits : Admits half.socket options
    · exact sending.identifies identifies (apart admits)
    · dsimp only
      rw [send_refused admits isOutcome]
      exact identifies.sublist (Sublist.refl _) counted_nextNumber
  | sendCipherData sending =>
    refine sending.identifies identifies fun _ isData => ?_
    cases isData
    exact apart
  | writable writing =>
    cases writing with
    | idle => exact identifies
    | wrote _ _ _ writes => exact fewer writes.drained.numbers
    | ended isFront =>
      refine fewer ?_
      rw [isFront]
      exact sublist_cons_self _ _
  | sendDeadline removing | cancel removing =>
    cases removing with
    | kept => exact identifies
    | removed => exact fewer ((eraseIdx_sublist _ _).map _)
  | zeroCopyUpdate | setZeroCopyThreshold | setWriteQueueHighWatermark => exact identifies
  | @shutdown graceful _ ending =>
    cases ending with
    | nothing | begun => exact identifies
    | marked canSend =>
      have isGraceful : graceful = true := by
        by_contra notGraceful
        change half.socket.privateShutdown graceful = _ at isOutcome
        rw [privateShutdown, if_pos canSend, if_neg fun both => notGraceful both.1] at isOutcome
        have sameId := congrArg (fun outcome => outcome.socket.nextEntryId)
          (Option.some.inj isOutcome)
        exact absurd sameId (Nat.ne_of_lt .refl)
      rw [Identifies, numbers_concat]
      refine identifies.push false (apart isGraceful canSend) ?_ (Nat.lt_succ_self _)
      rintro (_ | _)
      · exact Nat.le_succ _
      · exact .refl
  | shutdownSequenceComplete closing =>
    cases closing with
    | nothing => exact identifies
    | swept => exact fewer (nil_sublist _)

/-! ## Deadlines -/

theorem indexOfId_of_distinct {queue : SendQueue Token (SendContext Token) Nat} {index : Nat}
    (distinct : (ids queue.entryList).Nodup)
    (found : queue.entryList[index]? = some entry) : queue.indexOfId entry.id = index := by
  obtain ⟨inside, isEntry⟩ := List.getElem?_eq_some_iff.mp found
  have isIndex := distinct.idxOf_getElem index (by rw [ids, List.length_map]; exact inside)
  simp only [ids, idxOf, findIdx_map, getElem_map, isEntry] at isIndex
  exact isIndex

/-- Where the identifiers are distinct the search for one finds its entry. -/
theorem identified_of_distinct (sized : Sized socket.sendQueue)
    (distinct : (ids socket.sendQueue.entryList).Nodup) : Identified socket where
  distinct := distinct
  expires := by
    intro index entry found timed waiting
    obtain ⟨_, outcome, isRemoval, _, isOutcome, isErased, _, isDispatched⟩ :=
      removeEntry_removed (fun entry => entry.deadline.isSome && !entry.inProgress) .wouldBlock
        sized found (by rw [timed, waiting]; rfl)
    refine ⟨outcome, ?_, isErased, isDispatched⟩
    rw [processSendDeadlineTimer, SendQueue.removeEntryId, indexOfId_of_distinct distinct found,
      isRemoval, isOutcome]

/-- In every run in which no send takes the number of a shutdown on the queue, and no
shutdown that of a send, a deadline is that of the entry it removes. -/
theorem always_identified [DecidableEq Token] (actions : List (Action Token))
    (apart : Run.Along SendHalf.step Apart ({} : SendHalf Token) actions) :
    Run.Always SendHalf.step (fun half => Identified half.socket) ({} : SendHalf Token) actions := by
  have start : Sized ({} : SendHalf Token).socket.sendQueue ∧
      Identifies ({} : SendHalf Token).socket :=
    ⟨⟨rfl, fun _ mem => absurd mem not_mem_nil⟩, .nil, fun _ mem => absurd mem not_mem_nil, .nil⟩
  refine (Run.always_of_along step_identified start apart).mono fun _ kept => ?_
  refine identified_of_distinct kept.1 ?_
  have distinct := kept.2.nodup
  rw [numbers, map_map] at distinct
  exact distinct

/-- The graceful shutdown takes the identifier 2, and the queue holds that of one send. -/
theorem always_identified_shutdown :
    Run.Always SendHalf.step (fun half => Identified half.socket) ({} : SendHalf Nat)
      [.send (.blob [1]) { deadline := some 5 } true {} .wouldBlock, .shutdown true,
        .sendDeadline 0] :=
  always_identified _ ⟨fun _ _ _ _ => by decide, fun _ _ => by decide, trivial, trivial⟩

def sendBehindShutdown : List (Action Nat) :=
  [.send (.blob [1]) {} false {} .wouldBlock, .send (.blob [2]) {} false {} .wouldBlock,
    .shutdown true, .send (.blob [3]) { deadline := some 5 } true {} .wouldBlock]

/-- The deadline of the third send finds the shutdown, and its callback is not dispatched. -/
theorem sendBehindShutdown_not_identified :
    ¬ Run.Always SendHalf.step (fun half => Identified half.socket) ({} : SendHalf Nat)
      sendBehindShutdown := by
  intro always
  obtain ⟨_, isOutcome, isErased, _⟩ := always.2.2.2.2.expires 3 _ rfl rfl rfl
  cases isOutcome
  exact absurd (congrArg length isErased) (by decide)

end NtfCore.Ntcr.StreamSocket
