import NtfCore.Ntcr.StreamSocket.Traffic

/-!
Contract: the stream that a socket writes.

Owns: that the bytes written are a prefix of the records handed to `privateSendRaw`
while none is dropped (`recorded_of_preserves`), and that they are a prefix of the
messages accepted and not removed while no cancellation removes a message that is begun
and none is shortened when it is queued (`whole_of_spares`).

A message of which the direct attempt of `privateSendRaw` wrote a part is put on the
queue without a deadline but not as in progress, so `cancel` removes it. When it is an
array of buffers, more than what was written may be dropped from it. A record of the
encryption session or the deflater is removed by its deadline or its token like a message,
and the records behind it are then written all the same.
-/

namespace NtfCore.Ntcr

open NtfCore.Foundation NtfCore.Ntcq List Prod
open Parcels

namespace SendHalf

open StreamSocket

variable {Token : Type}

def written (half : SendHalf Token) : List UInt8 :=
  half.events.flatMap Event.written

def owners (half : SendHalf Token) : List Nat :=
  half.events.flatMap Event.owners

/-- The data handed to `privateSendRaw` so far. -/
def recorded (half : SendHalf Token) : List UInt8 :=
  half.events.flatMap Event.record

def messages (half : SendHalf Token) : List (Nat × List UInt8) :=
  half.events.flatMap Event.message

def removals (half : SendHalf Token) : List Nat :=
  half.events.flatMap Event.removal

def kept (half : SendHalf Token) : List (Nat × List UInt8) :=
  half.messages.filter fun message => message.1 ∉ half.removals

def observe (half : SendHalf Token) (outcome : Outcome Token) : SendHalf Token :=
  { socket := outcome.socket, events := half.events ++ outcome.events }

variable {action : StreamSocket.Action Token} {half : SendHalf Token}

theorem step_cases [DecidableEq Token] {next : SendHalf Token}
    (taken : half.step action = some next) :
    ∃ outcome, half.socket.perform action = some outcome ∧ next = half.observe outcome := by
  obtain ⟨outcome, isOutcome, isNext⟩ := Option.map_eq_some_iff.mp taken
  exact ⟨outcome, isOutcome, isNext.symm⟩

section Observe

variable (half : SendHalf Token) (outcome : Outcome Token)

theorem written_observe : (half.observe outcome).written =
    half.written ++ outcome.events.flatMap Event.written :=
  flatMap_append

theorem owners_observe : (half.observe outcome).owners =
    half.owners ++ outcome.events.flatMap Event.owners :=
  flatMap_append

theorem recorded_observe : (half.observe outcome).recorded =
    half.recorded ++ outcome.events.flatMap Event.record :=
  flatMap_append

theorem messages_observe : (half.observe outcome).messages =
    half.messages ++ outcome.events.flatMap Event.message :=
  flatMap_append

theorem removals_observe : (half.observe outcome).removals =
    half.removals ++ outcome.events.flatMap Event.removal :=
  flatMap_append

end Observe

/-- Nothing handed to `privateSendRaw` is dropped: no deadline or token removes an
entry, no direct attempt fails while the send direction is up, and `pop` takes no more than
was written. -/
def Preserves [DecidableEq Token] (half : SendHalf Token) (action : StreamSocket.Action Token) :
    Prop :=
  half.socket.PopsExactly action ∧ match action with
  | .sendDeadline entryId => ∀ entry,
      half.socket.sendQueue.entryList[half.socket.sendQueue.indexOfId entryId]? = some entry ->
        entry.deadline = none ∨ entry.inProgress = true
  | .cancel token => ∀ entry,
      half.socket.sendQueue.entryList[half.socket.sendQueue.indexOfToken token]? = some entry ->
        entry.inProgress = true
  | .send _ _ _ _ reply | .sendCipherData _ reply =>
    reply = .failed -> half.socket.isWritable = true -> half.socket.sendQueue.entryList ≠ []
  | _ => True

def Recorded (half : SendHalf Token) : Prop :=
  half.written <+: half.recorded

structure Recording (half : SendHalf Token) : Prop where
  sized : Sized half.socket.sendQueue
  up : half.socket.isWritable = true ->
    half.written ++ contents (parcels half.socket.sendQueue.entryList) = half.recorded
  down : half.socket.isWritable = false -> Recorded half

theorem Recording.isRecorded (recording : Recording half) : Recorded half := by
  cases isWritable : half.socket.isWritable with
  | true =>
    rw [Recorded, ← recording.up isWritable]
    exact prefix_append _ _
  | false => exact recording.down isWritable

variable {numBytes : Nat}

theorem accept_contents {wire queue data : List UInt8} (first : numBytes ≠ 0 -> queue = []) :
    wire ++ data.take numBytes ++ (queue ++ data.drop numBytes) = wire ++ queue ++ data := by
  by_cases isZero : numBytes = 0
  · rw [isZero, take_zero, drop_zero, append_nil, append_assoc]
  · rw [first isZero, nil_append, append_nil, append_assoc, take_append_drop]

variable {options : SendOptions Token} {queued : List (Entry Token)}
  {socket : StreamSocket Token} {data : List UInt8} {counter : Nat}

variable {outcome : Outcome Token}

theorem contents_of_accepts
    (accepts : Accepts socket data counter options outcome numBytes (data.drop numBytes) queued) :
    contents (parcels outcome.socket.sendQueue.entryList) =
      contents (parcels socket.sendQueue.entryList) ++ data.drop numBytes := by
  rw [accepts.entries, parcels_append, contents_append, accepts.parcels]
  split
  · rw [contents_cons, contents_nil, append_nil]
  · rw [contents_nil, drop_eq_nil_of_le (by omega)]

/-- An outcome that drops nothing keeps what is written and queued equal to what was
handed over, until the queue is discarded with the send direction. -/
theorem Recording.observe [DecidableEq Token] (recording : Recording half)
    (preserves : Preserves half action) (carries : Carries half.socket action outcome)
    (sized : Sized outcome.socket.sendQueue) : Recording (half.observe outcome) := by
  cases carries with
  | quiet silent message isWritable isParcels entries =>
    refine ⟨sized, ?_, ?_⟩
    · intro writable
      rw [written_observe, recorded_observe, silent.written, silent.record, append_nil, append_nil]
      change half.written ++ contents (parcels outcome.socket.sendQueue.entryList) = _
      rw [isParcels]
      exact recording.up (isWritable ▸ writable)
    · intro _
      rw [Recorded, written_observe, recorded_observe, silent.written, silent.record,
        append_nil, append_nil]
      exact recording.isRecorded
  | @failed _ _ reply counter data isAction empty answered isEvents canSend isWritable sendCounter
      entries =>
      have shut : half.socket.isWritable = false := by
        by_contra isUp
        have writable : half.socket.isWritable = true := by simpa using isUp
        rcases isAction with ⟨message, options, _, _, rfl⟩ | ⟨_, rfl⟩
        · exact preserves.2 (answered writable) writable empty
        · exact preserves.2 (answered writable) writable empty
      refine ⟨sized, ?_, ?_⟩
      · intro writable
        exact absurd (writable.symm.trans (isWritable.trans shut)) (by decide)
      · intro _
        have unwritten : outcome.events.flatMap Event.written = [] := by
          rw [isEvents]
          rfl
        rw [Recorded, written_observe, recorded_observe, unwritten, append_nil]
        exact recording.isRecorded.trans (prefix_append _ _)
  | @accepts _ _ _ _ numBytes _ _ canSend accepts isExact =>
    have accepts := accepts.exact (isExact preserves.1)
    have isQueue := contents_of_accepts accepts
    change _ = contents (parcels half.socket.sendQueue.entryList) ++ _ at isQueue
    refine ⟨sized, ?_, ?_⟩
    · intro writable
      rw [written_observe, recorded_observe, accepts.written, accepts.record]
      change _ ++ contents (parcels outcome.socket.sendQueue.entryList) = _
      rw [isQueue, accept_contents, recording.up (accepts.isWritable ▸ writable)]
      intro isNonzero
      have isEmpty : half.socket.sendQueue.entryList = [] := (accepts.empty isNonzero).1
      rw [isEmpty]
      rfl
    · intro shut
      have isZero : numBytes = 0 := by
        by_contra isNonzero
        have writable := (accepts.empty isNonzero).2
        exact absurd (writable.symm.trans (accepts.isWritable.symm.trans shut)) (by decide)
      rw [Recorded, written_observe, recorded_observe, accepts.written, accepts.record, isZero,
        take_zero, append_nil]
      exact recording.isRecorded.trans (prefix_append _ _)
  | @wrote _ _ _ _ numBytes calls zeroCopy foreign writable pos reach silent message
      isEvents isWritable sendCounter drained =>
      have fits := reach.le_reachable
      have inside := Nat.le_trans fits (reachable_le_contents _)
      have isWritten : outcome.events.flatMap Event.written =
          (contents (parcels half.socket.sendQueue.entryList)).take numBytes := by
        rw [isEvents, flatMap_cons, silent.written, append_nil, contents_parcels]
        rfl
      have isRecord : outcome.events.flatMap Event.record = [] := by
        rw [isEvents, flatMap_cons, silent.record]
        rfl
      have whole := take_append_consume inside
      refine ⟨sized, ?_, ?_⟩
      · intro _
        rw [written_observe, recorded_observe, isWritten, isRecord, append_nil,
          ← recording.up writable]
        change _ ++ contents (parcels outcome.socket.sendQueue.entryList) = _
        rw [drained.parcels recording.sized.measured fits, append_assoc, whole]
      · intro shut
        exact absurd (writable.symm.trans (isWritable.symm.trans shut)) (by decide)
  | removed found untouched reason silent message _ isWritable sendCounter entries =>
    cases reason with
    | expired isIndex deadline =>
      subst isIndex
      rcases preserves.2 _ found with noDeadline | inProgress
      · contradiction
      · exact absurd (untouched.symm.trans inProgress) (by decide)
    | cancelled isIndex =>
      subst isIndex
      exact absurd (untouched.symm.trans (preserves.2 _ found)) (by decide)
  | swept silent _ _ isWritable =>
    refine ⟨sized, ?_, ?_⟩
    · intro writable
      exact absurd (writable.symm.trans isWritable) (by decide)
    · intro _
      rw [Recorded, written_observe, recorded_observe, silent.written, silent.record,
        append_nil, append_nil]
      exact recording.isRecorded

theorem step_recording [DecidableEq Token] (half : SendHalf Token)
    (action : Action Token) (next : SendHalf Token) (recording : Recording half)
    (preserves : Preserves half action) (taken : half.step action = some next) :
    Recording next := by
  obtain ⟨_, isOutcome, rfl⟩ := step_cases taken
  have performs := perform_cases recording.sized.measured isOutcome
  exact recording.observe preserves performs.carries (performs.sized recording.sized)

theorem initial_sized : Sized ({} : SendHalf Token).socket.sendQueue := ⟨rfl, forall_mem_nil _⟩

/-- In every run that drops nothing, the bytes written are a prefix of the records. -/
theorem recorded_of_preserves [DecidableEq Token] (actions : List (StreamSocket.Action Token))
    (preserves : Run.Along step Preserves ({} : SendHalf Token) actions) :
    Run.Always step Recorded ({} : SendHalf Token) actions :=
  (Run.always_of_along step_recording ⟨initial_sized, fun _ => rfl, nofun⟩ preserves).mono
    fun _ recording => recording.isRecorded

def framing : PlugIns :=
  { encrypt := some fun data => some (23 :: data) }

def begunInTime : List (StreamSocket.Action Nat) :=
  [.send (.blob [1]) { deadline := some 5 } false framing (.sent 1 false),
    .send (.blob [2]) { deadline := some 5, token := some 7 } false framing .wouldBlock,
    .sendDeadline 0, .writable {} (fun _ => []) (.sent 2 false)]

theorem framing_exact {socket : StreamSocket Token} {hasCallback : Bool} {reply : Reply}
    {message : Message} : socket.PopsExactly (.send message options hasCallback framing reply) :=
  fun _ _ _ _ _ _ _ => ⟨_, rfl⟩

/-- Three bytes of the two records are written. -/
theorem begunInTime_recorded : Run.Always step Recorded ({} : SendHalf Nat) begunInTime ∧
      ∃ final, Run.run step ({} : SendHalf Nat) begunInTime = some final ∧
        final.written = [23, 1, 23] ∧ final.recorded = [23, 1, 23, 2] := by
  refine ⟨recorded_of_preserves begunInTime ?_, _, rfl, rfl, rfl⟩
  refine ⟨⟨framing_exact, nofun⟩, ⟨framing_exact, nofun⟩, ⟨trivial, ?_⟩, ⟨trivial, trivial⟩,
    trivial⟩
  intro _ found
  cases found
  exact .inl rfl

def expiredRecord : List (StreamSocket.Action Nat) :=
  [.send (.blob [1]) { deadline := some 5 } false framing .wouldBlock,
    .send (.blob [2]) {} false framing .wouldBlock,
    .sendDeadline 0, .writable {} (fun _ => []) (.sent 2 false)]

/-- The first record is dropped and the second one is written. -/
theorem expiredRecord_dropped : ¬ Run.Always step Recorded ({} : SendHalf Nat) expiredRecord ∧
      ∃ final, Run.run step ({} : SendHalf Nat) expiredRecord = some final ∧
        final.written = [23, 2] ∧ final.recorded = [23, 1, 23, 2] := by
  constructor
  · intro always
    obtain ⟨_, _, _, _, recorded⟩ := always
    obtain ⟨_, isRecorded⟩ := recorded
    cases isRecorded
  · exact ⟨_, rfl, rfl, rfl⟩

/-- No cancellation removes a message that is begun, and what is queued of a begun message
is what was not written of it. -/
def Spares [DecidableEq Token] (half : SendHalf Token) (action : StreamSocket.Action Token) :
    Prop :=
  half.socket.PopsExactly action ∧ match action with
  | .cancel token => ∀ entry,
      half.socket.sendQueue.entryList[half.socket.sendQueue.indexOfToken token]? = some entry ->
        entry.inProgress = false -> entry.id ∉ half.owners
  | _ => True

/-- The bytes written are a prefix of the messages accepted and not removed, in the
order of the sends, and of a message removed nothing is written. -/
structure Whole (half : SendHalf Token) : Prop where
  ordered : half.written <+: contents half.kept
  spared : ∀ counter ∈ half.removals, counter ∉ half.owners

structure Aligned (half : SendHalf Token) (finished : List (Nat × List UInt8))
    (part : List UInt8) : Prop where
  kept : loaded half.kept =
    finished ++ restore part (parcels half.socket.sendQueue.entryList)
  written : half.written = contents finished ++ part
  settled : parcels half.socket.sendQueue.entryList = [] -> part = []
  begun : part ≠ [] -> ∃ parcel rest, parcels half.socket.sendQueue.entryList = parcel :: rest ∧
    parcel.1 ∈ half.owners

/-- The counters of the messages accepted are in order, and below the next one; those of
messages begun and those of messages removed are among them, and no message is both. -/
structure Ledger (accepted owners removals : List Nat) (next : Nat) : Prop where
  counters : accepted.Pairwise (· < ·)
  below : ∀ counter ∈ accepted, counter < next
  owned : ∀ counter ∈ owners, counter ∈ accepted
  removed : ∀ counter ∈ removals, counter ∈ accepted
  spared : ∀ counter ∈ removals, counter ∉ owners

section

variable {accepted owners removals : List Nat} {next later : Nat}
  (ledger : Ledger accepted owners removals next)
include ledger

theorem Ledger.next_new : next ∉ accepted :=
  fun mem => Nat.lt_irrefl _ (ledger.below _ mem)

theorem Ledger.mono (isLater : next ≤ later) : Ledger accepted owners removals later :=
  { ledger with below := fun counter mem => Nat.lt_of_lt_of_le (ledger.below counter mem) isLater }

/-- A message is accepted with the next counter, and may be begun at once. -/
theorem Ledger.accept {begun : List Nat} (isLater : next < later)
    (isNext : ∀ counter ∈ begun, counter = next) :
    Ledger (accepted ++ [next]) (owners ++ begun) removals later where
  counters := by
    refine pairwise_append.mpr ⟨ledger.counters, pairwise_singleton _ _, ?_⟩
    intro counter mem _ isNew
    rw [mem_singleton.mp isNew]
    exact ledger.below counter mem
  below := by
    intro counter mem
    rcases mem_append.mp mem with before | isNew
    · exact Nat.lt_trans (ledger.below counter before) isLater
    · rw [mem_singleton.mp isNew]
      exact isLater
  owned := by
    intro counter isOwner
    rcases mem_append.mp isOwner with before | isBegun
    · exact mem_append_left _ (ledger.owned counter before)
    · exact mem_append_right _ (mem_singleton.mpr (isNext counter isBegun))
  removed := fun counter isRemoved => mem_append_left _ (ledger.removed counter isRemoved)
  spared := by
    intro counter isRemoved isOwner
    rcases mem_append.mp isOwner with before | isBegun
    · exact ledger.spared counter isRemoved before
    · exact ledger.next_new (isNext counter isBegun ▸ ledger.removed counter isRemoved)

theorem Ledger.write {touched : List Nat}
    (isKept : ∀ counter ∈ touched, counter ∈ accepted ∧ counter ∉ removals) :
    Ledger accepted (owners ++ touched) removals next :=
  { ledger with
    owned := fun counter isOwner => (mem_append.mp isOwner).elim (ledger.owned counter)
      fun isTouched => (isKept counter isTouched).1
    spared := fun counter isRemoved isOwner => (mem_append.mp isOwner).elim
      (ledger.spared counter isRemoved) fun isTouched => (isKept counter isTouched).2 isRemoved }

theorem Ledger.remove {counter : Nat} (isAccepted : counter ∈ accepted)
    (unbegun : counter ∉ owners) : Ledger accepted owners (removals ++ [counter]) next :=
  { ledger with
    removed := forall_mem_append.mpr ⟨ledger.removed, forall_mem_singleton.mpr isAccepted⟩
    spared := forall_mem_append.mpr ⟨ledger.spared, forall_mem_singleton.mpr unbegun⟩ }

end

/-- The invariant: the counters of the sends are in order, every entry with a deadline
is untouched, and what is kept is finished or queued. -/
structure Integral (half : SendHalf Token) : Prop where
  sized : Sized half.socket.sendQueue
  marks : ∀ entry ∈ half.socket.sendQueue.entryList, entry.data = none -> Mark entry
  ledger : Ledger (half.messages.map fst) half.owners half.removals half.socket.sendCounter
  timed : ∀ entry ∈ half.socket.sendQueue.entryList, entry.id ∈ half.owners ->
    entry.deadline = none
  up : half.socket.isWritable = true -> ∃ finished part, Aligned half finished part
  down : half.socket.isWritable = false -> half.socket.canSend = false ∧
    half.socket.sendQueue.entryList = [] ∧ half.written <+: contents half.kept

variable {finished : List (Nat × List UInt8)} {part : List UInt8}

theorem Aligned.ordered (aligned : Aligned half finished part) :
    half.written <+: contents half.kept := by
  rw [← contents_loaded, aligned.kept, contents_append,
    contents_restore aligned.settled, aligned.written, ← append_assoc]
  exact prefix_append _ _

/-- The messages on the queue are messages kept. -/
theorem Aligned.labels (aligned : Aligned half finished part) :
    ((parcels half.socket.sendQueue.entryList).map fst).Sublist (half.kept.map fst) := by
  have isSublist := loaded_labels_sublist half.kept
  rw [aligned.kept, map_append, restore_labels] at isSublist
  exact (sublist_append_right _ _).trans isSublist

theorem kept_sublist (half : SendHalf Token) : half.kept.Sublist half.messages := filter_sublist

namespace Integral

variable {half : SendHalf Token}

section

variable (integral : Integral half)
include integral

theorem isOrdered : half.written <+: contents half.kept := by
  cases isWritable : half.socket.isWritable with
  | true =>
    obtain ⟨_, _, aligned⟩ := integral.up isWritable
    exact aligned.ordered
  | false => exact (integral.down isWritable).2.2

theorem isWhole : Whole half := ⟨integral.isOrdered, integral.ledger.spared⟩

theorem labels_sublist : ((parcels half.socket.sendQueue.entryList).map fst).Sublist
      (half.kept.map fst) := by
  cases isWritable : half.socket.isWritable with
  | true =>
    obtain ⟨_, _, aligned⟩ := integral.up isWritable
    exact aligned.labels
  | false =>
    rw [(integral.down isWritable).2.1]
    exact nil_sublist _

variable {counter : Nat}

theorem labels_messages (isLabel : counter ∈ (parcels half.socket.sendQueue.entryList).map fst) :
    counter ∈ half.messages.map fst :=
  ((kept_sublist half).map fst).subset (integral.labels_sublist.subset isLabel)

theorem labels_nodup : ((parcels half.socket.sendQueue.entryList).map fst).Nodup := by
  have isSublist := integral.labels_sublist.trans ((kept_sublist half).map fst)
  exact (integral.ledger.counters.sublist isSublist).imp Nat.ne_of_lt

theorem label_not_removed (isLabel : counter ∈ (parcels half.socket.sendQueue.entryList).map fst) :
    counter ∉ half.removals := by
  obtain ⟨_, isMessage, rfl⟩ := mem_map.mp (integral.labels_sublist.subset isLabel)
  have isKept := (mem_filter.mp isMessage).2
  exact of_decide_eq_true isKept

end

end Integral

theorem kept_of_message {accepted : List (Nat × List UInt8)} (integral : Integral half)
    (isMessage : outcome.events.flatMap Event.message = accepted)
    (isNew : ∀ message ∈ accepted, message.1 = half.socket.sendCounter)
    (noRemoval : outcome.events.flatMap Event.removal = []) :
    (half.observe outcome).kept = half.kept ++ accepted := by
  have allKept : accepted.filter (fun message => message.1 ∉ half.removals) = accepted := by
    refine filter_eq_self.mpr ?_
    intro message isMem
    refine decide_eq_true ?_
    intro isRemoved
    rw [isNew message isMem] at isRemoved
    exact integral.ledger.next_new (integral.ledger.removed _ isRemoved)
  rw [kept, removals_observe, messages_observe, isMessage, noRemoval, append_nil,
    filter_append, allKept]
  rfl

theorem kept_of_removal (noMessage : outcome.events.flatMap Event.message = [])
    (isRemoval : outcome.events.flatMap Event.removal = [counter]) :
    (half.observe outcome).kept = without counter half.kept := by
  rw [kept, removals_observe, messages_observe, noMessage, isRemoval, append_nil,
    without, kept, filter_filter]
  refine filter_congr ?_
  intro _ _
  simp only [mem_append, mem_singleton, not_or, Bool.decide_and, Bool.and_comm]

/-- An outcome that carries no bytes, and may accept an empty message. -/
theorem Integral.quiet (integral : Integral half) (sized : Sized outcome.socket.sendQueue)
    (silent : Silent outcome.events) (message : outcome.events.flatMap Event.message = [] ∧
        half.socket.sendCounter ≤ outcome.socket.sendCounter ∨
      outcome.events.flatMap Event.message = [(half.socket.sendCounter, [])] ∧
        half.socket.sendCounter < outcome.socket.sendCounter)
    (isWritable : outcome.socket.isWritable = half.socket.isWritable)
    (isParcels : parcels outcome.socket.sendQueue.entryList =
      parcels half.socket.sendQueue.entryList)
    (entries : ∀ entry ∈ outcome.socket.sendQueue.entryList,
      entry ∈ half.socket.sendQueue.entryList ∨ Mark entry)
    (unmarked : half.socket.canSend = false -> outcome.socket.canSend = false ∧
      (half.socket.sendQueue.entryList = [] -> outcome.socket.sendQueue.entryList = [])) :
    Integral (half.observe outcome) := by
  have isWritten : (half.observe outcome).written = half.written := by
    rw [written_observe, silent.written, append_nil]
  have isOwners : (half.observe outcome).owners = half.owners := by
    rw [owners_observe, silent.owners, append_nil]
  have isRemovals : (half.observe outcome).removals = half.removals := by
    rw [removals_observe, silent.removal, append_nil]
  obtain ⟨accepted, isMessage, isNew, isEmpty⟩ :
      ∃ accepted, outcome.events.flatMap Event.message = accepted ∧
        (∀ message ∈ accepted, message.1 = half.socket.sendCounter) ∧ loaded accepted = [] := by
    rcases message with ⟨none, _⟩ | ⟨one, _⟩
    · exact ⟨[], none, nofun, rfl⟩
    · exact ⟨_, one, forall_mem_singleton.mpr rfl, rfl⟩
  have isKept := kept_of_message integral isMessage isNew silent.removal
  have isLoaded : loaded (half.observe outcome).kept = loaded half.kept := by
    rw [isKept, loaded_append, isEmpty, append_nil]
  constructor
  case sized => exact sized
  case marks =>
    intro entry mem noData
    rcases entries entry mem with inEntries | isMark
    · exact integral.marks entry inEntries noData
    · exact isMark
  case ledger =>
    rw [isOwners, isRemovals, messages_observe, map_append]
    rcases message with ⟨none, counted⟩ | ⟨one, counted⟩
    · rw [none, map_nil, append_nil]
      exact integral.ledger.mono counted
    · rw [one, ← append_nil half.owners]
      exact integral.ledger.accept counted (forall_mem_nil _)
  case timed =>
    rw [isOwners]
    intro entry mem isOwner
    rcases entries entry mem with inEntries | isMark
    · exact integral.timed entry inEntries isOwner
    · exact isMark.deadline
  case up =>
    intro writable
    obtain ⟨finished, part, aligned⟩ := integral.up (isWritable ▸ writable)
    refine ⟨finished, part, ?_, ?_, ?_, ?_⟩
    · rw [isLoaded, aligned.kept, ← isParcels]
      rfl
    · rw [isWritten, aligned.written]
    · intro isNil
      exact aligned.settled (isParcels ▸ isNil)
    · intro isPart
      rw [isOwners]
      obtain ⟨parcel, rest, isFront, isOwner⟩ := aligned.begun isPart
      exact ⟨parcel, rest, isParcels.trans isFront, isOwner⟩
  case down =>
    intro shut
    obtain ⟨canSend, isNil, isOrdered⟩ := integral.down (isWritable ▸ shut)
    refine ⟨(unmarked canSend).1, (unmarked canSend).2 isNil, ?_⟩
    rw [isWritten, ← contents_loaded, isLoaded, contents_loaded]
    exact isOrdered

/-- A message accepted is written, begun, or put at the end of the queue. -/
theorem Aligned.accept {data : List UInt8} (integral : Integral half)
    (aligned : Aligned half finished part)
    (accepts : Accepts half.socket.counted data half.socket.sendCounter options outcome numBytes
      (data.drop numBytes) queued) : ∃ finished' part', Aligned (half.observe outcome) finished' part' := by
  have isKept := kept_of_message integral accepts.message (by simp) accepts.removal
  have isParcels : parcels outcome.socket.sendQueue.entryList =
      parcels half.socket.sendQueue.entryList ++ parcels queued := by
    rw [accepts.entries, parcels_append]
    rfl
  have isWritten : (half.observe outcome).written = half.written ++ data.take numBytes := by
    rw [written_observe, accepts.written]
  have isLoaded : loaded (half.observe outcome).kept =
      loaded half.kept ++ loaded [(half.socket.sendCounter, data)] := by rw [isKept, loaded_append]
  by_cases isZero : numBytes = 0
  · -- Nothing is written: the message is behind the queue, or it is empty.
    have isQueued : parcels queued = loaded [(half.socket.sendCounter, data)] := by
      rw [accepts.parcels, isZero, drop_zero]
      by_cases isNil : data = []
      · simp [loaded, isNil]
      · simp [loaded, isNil, length_pos_iff]
    refine ⟨finished, part, ?_, ?_, ?_, ?_⟩
    · rw [isLoaded, aligned.kept, ← isQueued, append_assoc,
        ← restore_append aligned.settled, ← isParcels]
      rfl
    · rw [isWritten, isZero, take_zero, append_nil, aligned.written]
    · intro isNil
      refine aligned.settled ?_
      change parcels outcome.socket.sendQueue.entryList = [] at isNil
      rw [isParcels] at isNil
      exact (append_eq_nil_iff.mp isNil).1
    · intro isPart
      obtain ⟨parcel, rest, isFront, isOwner⟩ := aligned.begun isPart
      refine ⟨parcel, rest ++ parcels queued, ?_, ?_⟩
      · change parcels outcome.socket.sendQueue.entryList = _
        rw [isParcels, isFront, cons_append]
      · rw [owners_observe]
        exact mem_append_left _ isOwner
  · -- The queue was empty, so nothing was begun.
    have isEmpty : half.socket.sendQueue.entryList = [] := (accepts.empty isZero).1
    have noParcels : parcels half.socket.sendQueue.entryList = [] := by
      rw [isEmpty]
      rfl
    have isFinished : loaded half.kept = finished := by
      rw [aligned.kept, noParcels]
      exact append_nil _
    have wasWritten : half.written = contents finished := by
      rw [aligned.written, aligned.settled noParcels, append_nil]
    have hasData : data ≠ [] := by
      intro isNil
      have fits := accepts.fits
      rw [isNil] at fits
      exact isZero (Nat.le_zero.mp fits)
    have isLoad : loaded [(half.socket.sendCounter, data)] = [(half.socket.sendCounter, data)] := by
      simp [loaded, hasData]
    rw [noParcels, nil_append, accepts.parcels] at isParcels
    rw [isLoad, isFinished] at isLoaded
    split at isParcels
    · refine ⟨finished, data.take numBytes, ?_, ?_, ?_, ?_⟩
      · change _ = finished ++ restore _ (parcels outcome.socket.sendQueue.entryList)
        rw [isLoaded, isParcels, restore, take_append_drop]
      · rw [isWritten, wasWritten]
      · intro isNil
        change parcels outcome.socket.sendQueue.entryList = [] at isNil
        rw [isParcels] at isNil
        contradiction
      · intro _
        refine ⟨_, _, isParcels, ?_⟩
        rw [owners_observe, accepts.owners, if_neg isZero]
        exact mem_append_right _ mem_cons_self
    · refine ⟨finished ++ [(half.socket.sendCounter, data)], [], ?_, ?_, fun _ => rfl, ?_⟩
      · change _ = _ ++ restore _ (parcels outcome.socket.sendQueue.entryList)
        rw [isLoaded, isParcels]
        exact (append_nil _).symm
      · rw [isWritten, wasWritten, take_of_length_le (by omega), contents_append,
          append_nil, contents_cons, contents_nil, append_nil]
      · intro isPart
        contradiction

section

variable (integral : Integral half) (sized : Sized outcome.socket.sendQueue)
include integral sized

theorem Integral.accept
    (accepts : Accepts half.socket.counted data half.socket.sendCounter options outcome numBytes
      (data.drop numBytes) queued) : Integral (half.observe outcome) := by
  have isMessages : (half.observe outcome).messages.map fst =
      half.messages.map fst ++ [half.socket.sendCounter] := by
    rw [messages_observe, accepts.message, map_append]
    rfl
  have isOwners : (half.observe outcome).owners =
      half.owners ++ if numBytes = 0 then [] else [half.socket.sendCounter] := by
    rw [owners_observe, accepts.owners]
  have isRemovals : (half.observe outcome).removals = half.removals := by
    rw [removals_observe, accepts.removal, append_nil]
  have isEntries : outcome.socket.sendQueue.entryList =
      half.socket.sendQueue.entryList ++ queued := accepts.entries
  have isNext : ∀ counter ∈ if numBytes = 0 then [] else [half.socket.sendCounter],
      numBytes ≠ 0 ∧ counter = half.socket.sendCounter := by
    intro counter isNew
    split at isNew
    · contradiction
    · rename_i isNonzero
      exact ⟨isNonzero, mem_singleton.mp isNew⟩
  constructor
  case sized => exact sized
  case marks =>
    intro entry mem noData
    change entry ∈ outcome.socket.sendQueue.entryList at mem
    rw [isEntries] at mem
    rcases mem_append.mp mem with before | isQueued
    · exact integral.marks entry before noData
    · exact absurd noData (accepts.entry entry isQueued).1
  case ledger =>
    rw [isMessages, isOwners, isRemovals]
    exact integral.ledger.accept (Nat.lt_of_lt_of_eq (Nat.lt_succ_self _) accepts.sendCounter.symm)
      fun counter isNew => (isNext counter isNew).2
  case timed =>
    intro entry mem isOwner
    change entry ∈ outcome.socket.sendQueue.entryList at mem
    rw [isEntries] at mem
    rw [isOwners] at isOwner
    rcases mem_append.mp mem with before | isQueued
    · rcases mem_append.mp isOwner with wasOwner | isBegun
      · exact integral.timed entry before wasOwner
      · obtain ⟨_, isNew⟩ := isNext entry.id isBegun
        by_cases hasData : entry.data = none
        · exact (integral.marks entry before hasData).deadline
        · have isLabel := mem_parcels_labels before hasData
          exact absurd (isNew ▸ integral.labels_messages isLabel) integral.ledger.next_new
    · obtain ⟨_, isCounter, noDeadline⟩ := accepts.entry entry isQueued
      rcases mem_append.mp isOwner with wasOwner | isBegun
      · exact absurd (isCounter ▸ integral.ledger.owned _ wasOwner) integral.ledger.next_new
      · exact noDeadline (isNext entry.id isBegun).1
  case up =>
    intro writable
    obtain ⟨_, _, aligned⟩ := integral.up (accepts.isWritable ▸ writable)
    exact aligned.accept integral accepts
  case down =>
    intro shut
    have wasShut : half.socket.isWritable = false := accepts.isWritable ▸ shut
    exact absurd (integral.down wasShut).2.1 (accepts.attempted wasShut)

/-- A send whose direct attempt fails is not accepted. -/
theorem Integral.fail (empty : half.socket.sendQueue.entryList = [])
    (isEvents : outcome.events = [.handed counter data])
    (canSend : outcome.socket.canSend = half.socket.canSend)
    (isWritable : outcome.socket.isWritable = half.socket.isWritable)
    (sendCounter : outcome.socket.sendCounter = half.socket.sendCounter + 1)
    (entries : outcome.socket.sendQueue.entryList = []) : Integral (half.observe outcome) := by
  have isQuiet : ∀ {Item : Type} {observe : Event Token -> List Item},
      observe (.handed counter data) = [] -> (half.observe outcome).events.flatMap observe =
        half.events.flatMap observe := by
    intro _ observe isBlind
    change (half.events ++ outcome.events).flatMap observe = _
    rw [isEvents, flatMap_append, flatMap_cons, isBlind]
    exact append_nil _
  have isWritten : (half.observe outcome).written = half.written := isQuiet rfl
  have isOwners : (half.observe outcome).owners = half.owners := isQuiet rfl
  have isMessages : (half.observe outcome).messages = half.messages := isQuiet rfl
  have isRemovals : (half.observe outcome).removals = half.removals := isQuiet rfl
  have isKept : (half.observe outcome).kept = half.kept := by
    rw [kept, isMessages, isRemovals]
    rfl
  have isEntries : (half.observe outcome).socket.sendQueue.entryList =
      half.socket.sendQueue.entryList := entries.trans empty.symm
  constructor
  case sized => exact sized
  case marks => rw [isEntries]; exact integral.marks
  case ledger =>
    rw [isMessages, isOwners, isRemovals]
    exact integral.ledger.mono (sendCounter ▸ Nat.le_succ _)
  case timed => rw [isOwners, isEntries]; exact integral.timed
  case up =>
    intro writable
    obtain ⟨finished, part, aligned⟩ := integral.up (isWritable ▸ writable)
    refine ⟨finished, part, ?_, ?_, ?_, ?_⟩
    · rw [isKept, isEntries]
      exact aligned.kept
    · rw [isWritten]
      exact aligned.written
    · rw [isEntries]
      exact aligned.settled
    · rw [isEntries, isOwners]
      exact aligned.begun
  case down =>
    intro shut
    rw [isEntries, isWritten, isKept]
    obtain ⟨isDown, rest⟩ := integral.down (isWritable ▸ shut)
    exact ⟨canSend.trans isDown, rest⟩

end

variable {calls : List (Event Token)}

theorem Integral.write {zeroCopy : Bool} {foreign : Option Int}
    (integral : Integral half) (sized : Sized outcome.socket.sendQueue)
    (writable : half.socket.isWritable = true)
    (reach : Reach half.socket.sendQueue.entryList numBytes foreign)
    (silent : Silent calls) (message : calls.flatMap Event.message = [])
    (isEvents : outcome.events = .wrote (ownersOf half.socket.sendQueue.entryList numBytes)
        ((half.socket.sendQueue.entryList.flatMap SendQueueEntry.bytes).take numBytes) foreign
        zeroCopy :: calls) (isWritable : outcome.socket.isWritable = half.socket.isWritable)
    (sendCounter : outcome.socket.sendCounter = half.socket.sendCounter)
    (drained : Drained numBytes half.socket.sendQueue.entryList
      outcome.socket.sendQueue.entryList) : Integral (half.observe outcome) := by
  have fits := reach.le_reachable
  have inside := Nat.le_trans fits (reachable_le_contents _)
  have isTouched := ownersOf_eq_touched integral.sized.measured fits
  have isParcels := drained.parcels integral.sized.measured fits
  have isWritten : (half.observe outcome).written = half.written ++
      (contents (parcels half.socket.sendQueue.entryList)).take numBytes := by
    rw [written_observe, isEvents, flatMap_cons, silent.written, append_nil, contents_parcels]
    rfl
  have isOwners : (half.observe outcome).owners = half.owners ++
      touched numBytes (parcels half.socket.sendQueue.entryList) := by
    rw [owners_observe, isEvents, flatMap_cons, silent.owners, append_nil, ← isTouched]
    rfl
  have isMessages : (half.observe outcome).messages = half.messages := by
    rw [messages_observe, isEvents, flatMap_cons, message]
    exact append_nil _
  have isRemovals : (half.observe outcome).removals = half.removals := by
    rw [removals_observe, isEvents, flatMap_cons, silent.removal]
    exact append_nil _
  have isKept : (half.observe outcome).kept = half.kept := by
    rw [kept, isMessages, isRemovals]
    rfl
  have touchedLabel := touched_subset numBytes (parcels half.socket.sendQueue.entryList)
  constructor
  case sized => exact sized
  case marks =>
    intro entry mem noData
    rcases drained.origin entry mem with inEntries | ⟨whole, _, _, remains⟩
    · exact integral.marks entry inEntries noData
    · obtain ⟨_, _, isLeft⟩ := remains.data
      rw [noData] at isLeft
      contradiction
  case ledger =>
    rw [isMessages, isOwners, isRemovals]
    refine (integral.ledger.write ?_).mono (Nat.le_of_eq sendCounter.symm)
    intro counter isTouched
    have isLabel := touchedLabel counter isTouched
    exact ⟨integral.labels_messages isLabel, integral.label_not_removed isLabel⟩
  case timed =>
    rw [isOwners]
    intro entry mem isOwner
    rcases drained.origin entry mem with inEntries | ⟨_, _, _, remains⟩
    · by_cases hasData : entry.data = none
      · exact (integral.marks entry inEntries hasData).deadline
      · rcases mem_append.mp isOwner with before | isNew
        · exact integral.timed entry inEntries before
        · exact drained.deadline integral.sized.measured fits integral.labels_nodup entry mem
            hasData (isTouched ▸ isNew)
    · exact remains.deadline
  case up =>
    intro _
    obtain ⟨finished, _, aligned⟩ := integral.up writable
    obtain ⟨whole, part', isSplit, isPart, settled, begun⟩ := restore_consume aligned.settled inside
    refine ⟨finished ++ whole, part', ?_, ?_, ?_, ?_⟩
    · change _ = _ ++ restore _ (parcels outcome.socket.sendQueue.entryList)
      rw [isKept, aligned.kept, isSplit, isParcels, append_assoc]
    · rw [isWritten, aligned.written, contents_append, append_assoc, append_assoc, isPart]
    · intro isNil
      exact settled (isParcels ▸ isNil)
    · intro isBegun
      obtain ⟨parcel, rest, isFront, reason⟩ := begun isBegun
      refine ⟨parcel, rest, isParcels.trans isFront, ?_⟩
      rw [isOwners]
      rcases reason with isNew | ⟨wasBegun, isSame⟩
      · exact mem_append_right _ isNew
      · obtain ⟨_, _, wasFront, isOwner⟩ := aligned.begun wasBegun
        rw [isSame, wasFront, cons.injEq] at isFront
        exact mem_append_left _ (isFront.1 ▸ isOwner)
  case down =>
    intro shut
    exact absurd (writable.symm.trans (isWritable.symm.trans shut)) (by decide)

variable {entry : Entry Token}

theorem Integral.remove {index : Nat} (integral : Integral half)
    (sized : Sized outcome.socket.sendQueue)
    (found : half.socket.sendQueue.entryList[index]? = some entry)
    (hasData : entry.data ≠ none) (unbegun : entry.id ∉ half.owners)
    (silent : Silent calls) (message : calls.flatMap Event.message = [])
    (isEvents : outcome.events = .removed entry.id :: calls)
    (isWritable : outcome.socket.isWritable = half.socket.isWritable)
    (sendCounter : outcome.socket.sendCounter = half.socket.sendCounter)
    (entries : outcome.socket.sendQueue.entryList =
      half.socket.sendQueue.entryList.eraseIdx index) : Integral (half.observe outcome) := by
  have isMem := mem_of_getElem? found
  have isLabel := mem_parcels_labels isMem hasData
  have isWritten : (half.observe outcome).written = half.written := by
    rw [written_observe, isEvents, flatMap_cons, silent.written]
    exact append_nil _
  have isOwners : (half.observe outcome).owners = half.owners := by
    rw [owners_observe, isEvents, flatMap_cons, silent.owners]
    exact append_nil _
  have noMessage : outcome.events.flatMap Event.message = [] := by
    rw [isEvents, flatMap_cons, message]
    rfl
  have isRemoval : outcome.events.flatMap Event.removal = [entry.id] := by
    rw [isEvents, flatMap_cons, silent.removal]
    rfl
  have isMessages : (half.observe outcome).messages = half.messages := by
    rw [messages_observe, noMessage, append_nil]
  have isRemovals : (half.observe outcome).removals = half.removals ++ [entry.id] := by
    rw [removals_observe, isRemoval]
  have isKept : (half.observe outcome).kept = without entry.id half.kept :=
    kept_of_removal noMessage isRemoval
  have isParcels : parcels outcome.socket.sendQueue.entryList =
      without entry.id (parcels half.socket.sendQueue.entryList) := by
    rw [entries, parcels_eraseIdx found hasData integral.labels_nodup]
  have inQueue : ∀ other ∈ outcome.socket.sendQueue.entryList,
      other ∈ half.socket.sendQueue.entryList := by
    intro other mem
    rw [entries] at mem
    exact mem_of_mem_eraseIdx mem
  constructor
  case sized => exact sized
  case marks => exact fun other mem => integral.marks other (inQueue other mem)
  case ledger =>
    rw [isMessages, isOwners, isRemovals]
    exact (integral.ledger.remove (integral.labels_messages isLabel) unbegun).mono
      (Nat.le_of_eq sendCounter.symm)
  case timed =>
    rw [isOwners]
    exact fun other mem => integral.timed other (inQueue other mem)
  case up =>
    intro writable
    obtain ⟨finished, part, aligned⟩ := integral.up (isWritable ▸ writable)
    have untouched : part ≠ [] ->
        (parcels half.socket.sendQueue.entryList).head?.map fst ≠ some entry.id := by
      intro isBegun isHead
      obtain ⟨parcel, rest, isFront, isOwner⟩ := aligned.begun isBegun
      rw [isFront, head?_cons, Option.map_some, Option.some.injEq] at isHead
      exact unbegun (isHead ▸ isOwner)
    have notFinished : entry.id ∉ finished.map fst := by
      have distinct : ((loaded half.kept).map fst).Nodup := by
        have isSublist := (loaded_labels_sublist half.kept).trans ((kept_sublist half).map fst)
        exact (integral.ledger.counters.sublist isSublist).imp Nat.ne_of_lt
      rw [aligned.kept, map_append, restore_labels] at distinct
      intro isFinished
      exact (nodup_append'.mp distinct).2.2 isFinished isLabel
    refine ⟨finished, part, ?_, ?_, ?_, ?_⟩
    · change _ = _ ++ restore _ (parcels outcome.socket.sendQueue.entryList)
      rw [isKept, loaded_without, aligned.kept, without_append,
        without_of_absent notFinished, without_restore untouched, isParcels]
    · rw [isWritten]
      exact aligned.written
    · intro isNil
      by_contra isBegun
      obtain ⟨parcel, rest, isFront, isOwner⟩ := aligned.begun isBegun
      change parcels outcome.socket.sendQueue.entryList = [] at isNil
      have isOther : parcel.1 ≠ entry.id := fun isSame => unbegun (isSame ▸ isOwner)
      rw [isParcels, isFront, without_cons_of_ne isOther] at isNil
      contradiction
    · intro isBegun
      obtain ⟨parcel, rest, isFront, isOwner⟩ := aligned.begun isBegun
      have isOther : parcel.1 ≠ entry.id := fun isSame => unbegun (isSame ▸ isOwner)
      refine ⟨parcel, without entry.id rest, ?_, ?_⟩
      · change parcels outcome.socket.sendQueue.entryList = _
        rw [isParcels, isFront, without_cons_of_ne isOther]
      · rw [isOwners]
        exact isOwner
  case down =>
    intro shut
    rw [(integral.down (isWritable ▸ shut)).2.1] at isMem
    contradiction

theorem Integral.sweep (integral : Integral half) (sized : Sized outcome.socket.sendQueue)
    (silent : Silent outcome.events) (message : outcome.events.flatMap Event.message = [])
    (canSend : outcome.socket.canSend = false) (isWritable : outcome.socket.isWritable = false)
    (sendCounter : outcome.socket.sendCounter = half.socket.sendCounter)
    (entries : outcome.socket.sendQueue.entryList = []) : Integral (half.observe outcome) := by
  have isWritten : (half.observe outcome).written = half.written := by
    rw [written_observe, silent.written, append_nil]
  have isOwners : (half.observe outcome).owners = half.owners := by
    rw [owners_observe, silent.owners, append_nil]
  have isMessages : (half.observe outcome).messages = half.messages := by
    rw [messages_observe, message, append_nil]
  have isRemovals : (half.observe outcome).removals = half.removals := by
    rw [removals_observe, silent.removal, append_nil]
  have isKept : (half.observe outcome).kept = half.kept := by
    rw [kept, isMessages, isRemovals]
    rfl
  have isEntries : (half.observe outcome).socket.sendQueue.entryList = [] := entries
  constructor
  case sized => exact sized
  case marks => rw [isEntries]; exact forall_mem_nil _
  case ledger =>
    rw [isMessages, isOwners, isRemovals]
    exact integral.ledger.mono (Nat.le_of_eq sendCounter.symm)
  case timed => rw [isEntries]; exact forall_mem_nil _
  case up =>
    intro writable
    exact absurd (writable.symm.trans isWritable) (by decide)
  case down =>
    intro _
    rw [isWritten, isKept]
    exact ⟨canSend, isEntries, integral.isOrdered⟩

/-- A step under the condition keeps the invariant. -/
theorem step_integral [DecidableEq Token] (half : SendHalf Token) (action : Action Token)
    (next : SendHalf Token) (integral : Integral half) (spares : Spares half action)
    (taken : half.step action = some next) : Integral next := by
  obtain ⟨_, isOutcome, rfl⟩ := step_cases taken
  have performs := perform_cases integral.sized.measured isOutcome
  have sized := performs.sized integral.sized
  have carries := performs.carries
  cases carries with
  | quiet silent message isWritable isParcels entries unmarked =>
    exact integral.quiet sized silent message isWritable isParcels entries unmarked
  | failed _ empty _ isEvents canSend isWritable sendCounter entries =>
    exact integral.fail sized empty isEvents canSend isWritable sendCounter entries
  | accepts _ accepts isExact => exact integral.accept sized (accepts.exact (isExact spares.1))
  | wrote writable _ reach silent message isEvents isWritable sendCounter drained =>
    exact integral.write sized writable reach silent message isEvents isWritable sendCounter drained
  | @removed _ _ index entry calls found untouched reason silent message isEvents isWritable
      sendCounter entries =>
      have isMem := mem_of_getElem? found
      obtain ⟨hasData, unbegun⟩ : entry.data ≠ none ∧ entry.id ∉ half.owners := by
        cases reason with
        | expired _ deadline =>
          refine ⟨fun noData => ?_, fun isOwner => ?_⟩
          · exact deadline (integral.marks entry isMem noData).deadline
          · exact deadline (integral.timed entry isMem isOwner)
        | cancelled isIndex isToken =>
          refine ⟨fun noData => ?_, ?_⟩
          · rw [(integral.marks entry isMem noData).token] at isToken
            contradiction
          · subst isIndex
            exact spares.2 entry found untouched
      exact integral.remove sized found hasData unbegun silent message isEvents isWritable
        sendCounter entries
  | swept silent message canSend isWritable sendCounter entries =>
    exact integral.sweep sized silent message canSend isWritable sendCounter entries

theorem initial_integral : Integral ({} : SendHalf Token) where
  sized := initial_sized
  marks := forall_mem_nil _
  ledger := ⟨.nil, nofun, nofun, nofun, nofun⟩
  timed := forall_mem_nil _
  up := fun _ => ⟨[], [], rfl, rfl, fun _ => rfl, fun isPart => absurd rfl isPart⟩
  down := nofun

/-- The stream is whole messages throughout a run in which no cancellation removes a
message that is begun and no direct attempt drops bytes of an array of buffers. -/
theorem whole_of_spares [DecidableEq Token] (actions : List (StreamSocket.Action Token))
    (spares : Run.Along step Spares ({} : SendHalf Token) actions) :
    Run.Always step Whole ({} : SendHalf Token) actions :=
  (Run.always_of_along step_integral initial_integral spares).mono fun _ integral => integral.isWhole

def gatheredBegun : List (StreamSocket.Action Nat) :=
  [.send (.data [1, 2, 3, 4, 5] false ⟨[2, 3], false⟩) {} false {} (.sent 1 false),
    .send (.blob [6]) { token := some 7 } false {} .wouldBlock, .cancel 7,
    .writable {} (fun _ => []) (.sent 4 false)]

/-- The message of two buffers goes on where the direct attempt has left it. -/
theorem gatheredBegun_whole : Run.Always step Whole ({} : SendHalf Nat) gatheredBegun ∧
      (Run.run step ({} : SendHalf Nat) gatheredBegun).map written = some [1, 2, 3, 4, 5] := by
  refine ⟨whole_of_spares gatheredBegun ⟨⟨?_, trivial⟩, ⟨nofun, trivial⟩, ⟨trivial, ?_⟩,
    ⟨trivial, trivial⟩, trivial⟩, rfl⟩
  · intro _ _ _ isData isReply _ _
    cases isData
    cases isReply
    exact ⟨_, rfl⟩
  · intro _ found _
    cases found
    decide

def cancelledBegun : List (StreamSocket.Action Nat) :=
  [.send (.blob [1, 2]) { token := some 7 } false {} (.sent 1 false), .cancel 7,
    .send (.blob [3, 4]) {} false {} (.sent 2 false)]

/-- The bytes of the second message come inside of the first one. -/
theorem cancelledBegun_broken : ¬ Run.Always step Whole ({} : SendHalf Nat) cancelledBegun ∧
      ∃ final, Run.run step ({} : SendHalf Nat) cancelledBegun = some final ∧
        final.written = [1, 3, 4] ∧ final.messages = [(0, [1, 2]), (1, [3, 4])] := by
  constructor
  · intro always
    obtain ⟨_, _, _, whole⟩ := always
    exact whole.spared 0 (by decide) (by decide)
  · exact ⟨_, rfl, rfl, rfl⟩

end SendHalf

end NtfCore.Ntcr
