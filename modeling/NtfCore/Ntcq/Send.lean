import Mathlib.Algebra.GroupWithZero.Nat
import NtfCore.Foundation.Run
import Mathlib.Algebra.Order.BigOperators.Group.List
import Mathlib.Algebra.Order.Group.Nat

/-!
Contract: the send queue of a socket (`ntcq::SendQueue`).

Owns: the entries, the size, and `pushEntry`, `popEntry`, `popSize`, the
removal of an entry by identifier or by token and `removeAll`, as
`ntcq_send.h` computes them, where a failed assertion or an underflow is
`none`; and the accounting of sizes and of the bytes sent along every run.

The foreign handle, the zero-copy flag and whether the data is a file are read by the
socket, and by none of these operations. The endpoint and timestamp are left out.
-/

namespace NtfCore.Ntcq

open NtfCore.Foundation List Option

/-- The buffers of data that is an array of buffers, by value or by pointer: their
sizes. Data of every other kind has none. -/
structure Buffers where
  sizes : List Nat := []
  isPtrArray : Bool := false

namespace Buffers

/-- The loop of `pop` of an array. The number of bytes is not lowered when the buffer at
the front is dropped. An array by pointer keeps its number of buffers too, so that what it
holds afterwards is undefined, which is `none`. -/
def popLoop (isPtrArray : Bool) (numBytes : Nat) :
    List Nat -> List UInt8 -> Option (Buffers × List UInt8)
  | [], data => some ({}, data.drop numBytes)
  | size :: sizes, data =>
    if size < numBytes then
      if isPtrArray then none else popLoop isPtrArray numBytes sizes (data.drop size)
    else some (⟨(size - numBytes) :: sizes, isPtrArray⟩, data.drop numBytes)

/-- `ntsa::DataUtil::pop` of at most as many bytes as there are. -/
def pop (buffers : Buffers) (numBytes : Nat) (data : List UInt8) : Option (Buffers × List UInt8) :=
  popLoop buffers.isPtrArray numBytes buffers.sizes data

/-- `pop` takes the number of bytes asked for. -/
def Exact (buffers : Buffers) (numBytes : Nat) (data : List UInt8) : Prop :=
  ∃ rest, buffers.pop numBytes data = some (rest, data.drop numBytes)

variable {buffers rest : Buffers} {numBytes : Nat} {data left : List UInt8}

/-- More bytes may be taken than were asked for. -/
theorem drop_of_popLoop {isPtrArray : Bool} {sizes : List Nat}
    (popped : popLoop isPtrArray numBytes sizes data = some (rest, left)) :
    ∃ more, left = data.drop (numBytes + more) := by
  induction sizes generalizing data with
  | nil =>
    cases popped
    exact ⟨0, rfl⟩
  | cons size _ ih =>
    rw [popLoop] at popped
    split at popped
    · split at popped
      · contradiction
      · obtain ⟨more, isLeft⟩ := ih popped
        exact ⟨size + more, by rw [isLeft, drop_drop]; congr 1; omega⟩
    · cases popped
      exact ⟨0, rfl⟩

theorem eq_drop_of_pop (popped : buffers.pop numBytes data = some (rest, left))
    (sized : left.length = data.length - numBytes) : left = data.drop numBytes := by
  obtain ⟨more, isLeft⟩ := drop_of_popLoop popped
  rw [isLeft, length_drop] at sized
  by_cases noMore : more = 0
  · rw [isLeft, noMore, Nat.add_zero]
  · rw [isLeft, drop_eq_nil_of_le (by omega), drop_eq_nil_of_le (by omega)]

theorem exact_zero : buffers.Exact 0 data := by
  obtain ⟨sizes, isPtrArray⟩ := buffers
  cases sizes with
  | nil | cons _ _ => exact ⟨_, rfl⟩

theorem Exact.eq (isExact : buffers.Exact numBytes data)
    (popped : buffers.pop numBytes data = some (rest, left)) : left = data.drop numBytes := by
  obtain ⟨_, isPopped⟩ := isExact
  rw [isPopped] at popped
  cases popped
  rfl

end Buffers

/-- `ntcq::SendQueueEntry`. The data is what the container holds, and each entry
has a container of its own. The token is the one of the context. -/
structure SendQueueEntry (Token Context Callback : Type) where
  id : Nat := 0
  data : Option (List UInt8) := none
  layout : Buffers := {}
  length : Nat := 0
  deadline : Option Int := none
  timer : Option Nat := none
  token : Option Token := none
  context : Option Context := none
  callback : Option Callback := none
  inProgress : Bool := false
  foreignHandle : Option Int := none
  zeroCopy : Bool := false
  isFile : Bool := false

/-- `ntcq::SendQueue`. -/
structure SendQueue (Token Context Callback : Type) where
  entryList : List (SendQueueEntry Token Context Callback) := []
  size : Nat := 0

variable {Token Context Callback : Type}

namespace SendQueueEntry

/-- `SendQueueEntry::closeTimer`. -/
def closeTimer (entry : SendQueueEntry Token Context Callback) :
    SendQueueEntry Token Context Callback :=
  { entry with timer := none }

def measured (entry : SendQueueEntry Token Context Callback) : Bool :=
  match entry.data with
  | some data => 0 < entry.length && entry.length == data.length
  | none => true

def dataLength (entry : SendQueueEntry Token Context Callback) : Nat :=
  if entry.data.isSome then entry.length else 0

def bytes (entry : SendQueueEntry Token Context Callback) : List UInt8 :=
  entry.data.getD []

end SendQueueEntry

namespace SendQueue

def releaseSize (size : Nat) (entry : SendQueueEntry Token Context Callback) : Option Nat :=
  match entry.data with
  | some _ => if entry.measured ∧ entry.length ≤ size then some (size - entry.length) else none
  | none => some size

/-- `SendQueue::pushEntry`. -/
def pushEntry (queue : SendQueue Token Context Callback)
    (entry : SendQueueEntry Token Context Callback) :
    Option (Bool × SendQueue Token Context Callback) :=
  let entryList := queue.entryList ++ [entry]
  match entry.data with
  | some _ =>
    if entry.measured then
      some (entryList.length == 1, ⟨entryList, queue.size + entry.length⟩)
    else none
  | none => some (entryList.length == 1, ⟨entryList, queue.size⟩)

/-- `SendQueue::popEntry`. -/
def popEntry (queue : SendQueue Token Context Callback) :
    Option (Bool × SendQueue Token Context Callback) :=
  match queue.entryList with
  | [] => none
  | entry :: rest =>
    match releaseSize queue.size entry.closeTimer with
    | some size => some (rest.isEmpty, ⟨rest, size⟩)
    | none => none

/-- `SendQueue::popSize`. -/
def popSize (queue : SendQueue Token Context Callback) (numBytes : Nat) :
    Option (SendQueue Token Context Callback) :=
  match queue.entryList with
  | [] => none
  | entry :: rest =>
    match entry.data with
    | none => none
    | some data =>
      match entry.layout.pop numBytes data with
      | none => none
      | some (buffers, left) =>
        let popped := { entry.closeTimer with
          data := some left
          layout := buffers
          inProgress := true
          length := entry.length - numBytes }
        if data.length = entry.length ∧ numBytes ≤ entry.length ∧
            left.length = popped.length ∧ numBytes ≤ queue.size then
          some ⟨popped :: rest, queue.size - numBytes⟩
        else none

structure Removal (Token Context Callback : Type) where
  empty : Bool
  callback : Option Callback := none
  context : Option Context := none
  queue : SendQueue Token Context Callback

def removeAt (queue : SendQueue Token Context Callback)
    (removable : SendQueueEntry Token Context Callback -> Bool) (index : Nat) :
    Option (Removal Token Context Callback) :=
  match queue.entryList[index]? with
  | none => some { empty := queue.entryList.isEmpty, queue := queue }
  | some entry =>
    if removable entry then
      match releaseSize queue.size entry with
      | some size =>
        let entryList := queue.entryList.eraseIdx index
        some {
          empty := entryList.isEmpty
          callback := entry.callback
          context := entry.context
          queue := ⟨entryList, size⟩ }
      | none => none
    else some { empty := queue.entryList.isEmpty, queue := queue }

/-- Where `SendQueue::removeEntryId` leaves its loop. -/
def indexOfId (queue : SendQueue Token Context Callback) (id : Nat) : Nat :=
  queue.entryList.findIdx fun entry => entry.id == id

/-- `SendQueue::removeEntryId`. -/
def removeEntryId (queue : SendQueue Token Context Callback) (id : Nat) :
    Option (Removal Token Context Callback) :=
  queue.removeAt (fun entry => entry.deadline.isSome && !entry.inProgress) (queue.indexOfId id)

/-- Where `SendQueue::removeEntryToken` leaves its loop. -/
def indexOfToken [DecidableEq Token] (queue : SendQueue Token Context Callback)
    (token : Token) : Nat :=
  queue.entryList.findIdx fun entry => entry.token == some token

/-- `SendQueue::removeEntryToken`. -/
def removeEntryToken [DecidableEq Token] (queue : SendQueue Token Context Callback)
    (token : Token) : Option (Removal Token Context Callback) :=
  queue.removeAt (fun entry => !entry.inProgress) (queue.indexOfToken token)

/-- `SendQueue::removeAll`: whether there were entries, and their callbacks. -/
def removeAll (queue : SendQueue Token Context Callback) :
    Bool × List Callback × SendQueue Token Context Callback :=
  (!queue.entryList.isEmpty, queue.entryList.filterMap SendQueueEntry.callback, {})

end SendQueue

/-- A queue and the record of what went through it: the data of every entry ever
pushed; the data, when pushed, of the entries now on the queue and of those
popped since the last `removeAll`; the bytes sent since and before then; and
whether an assertion has failed. -/
structure SendSystem (Token Context Callback : Type) where
  queue : SendQueue Token Context Callback := {}
  pushed : List (List UInt8) := []
  sources : List (List UInt8) := []
  popped : List (List UInt8) := []
  sent : List UInt8 := []
  sentBefore : List UInt8 := []
  failed : Bool := false

inductive SendAction (Token Context Callback : Type) where
  | pushEntry (entry : SendQueueEntry Token Context Callback)
  | popEntry
  | popSize (numBytes : Nat)
  | removeEntryId (id : Nat)
  | removeEntryToken (token : Token)
  | removeAll

namespace SendSystem

def removed (system : SendSystem Token Context Callback) (index : Nat)
    (result : Option (SendQueue.Removal Token Context Callback)) :
    SendSystem Token Context Callback :=
  match result with
  | some removal =>
    { system with
      queue := removal.queue
      sources :=
        if removal.queue.entryList.length < system.queue.entryList.length then
          system.sources.eraseIdx index
        else system.sources }
  | none => { system with failed := true }

/-- One call. Refused are only calls outside of the contract of the queue: an
entry pushed in progress or with a length that is not the one of its data,
popping from an empty queue, and `popSize` of no proper prefix of the front. -/
def step [DecidableEq Token] (system : SendSystem Token Context Callback) :
    SendAction Token Context Callback -> Option (SendSystem Token Context Callback)
  | .pushEntry entry =>
    if entry.measured ∧ entry.inProgress = false then
      match system.queue.pushEntry entry with
      | some (_, queue) =>
        some { system with
          queue := queue
          pushed := system.pushed ++ [entry.bytes]
          sources := system.sources ++ [entry.bytes] }
      | none => some { system with failed := true }
    else none
  | .popEntry =>
    match system.queue.entryList with
    | [] => none
    | entry :: _ =>
      match system.queue.popEntry with
      | some (_, queue) =>
        some { system with
          queue := queue
          sources := system.sources.tail
          popped := system.popped ++ system.sources.head?.toList
          sent := system.sent ++ entry.bytes }
      | none => some { system with failed := true }
  | .popSize numBytes =>
    match system.queue.entryList with
    | [] => none
    | entry :: _ =>
      if entry.data.isSome ∧ numBytes < entry.length then
        match system.queue.popSize numBytes with
        | some queue =>
          some { system with
            queue := queue
            sent := system.sent ++ entry.bytes.take numBytes }
        | none => some { system with failed := true }
      else none
  | .removeEntryId id =>
    some (system.removed (system.queue.indexOfId id) (system.queue.removeEntryId id))
  | .removeEntryToken token =>
    some (system.removed (system.queue.indexOfToken token)
      (system.queue.removeEntryToken token))
  | .removeAll =>
    some { system with
      queue := system.queue.removeAll.2.2
      sources := []
      popped := []
      sent := []
      sentBefore := system.sentBefore ++ system.sent }

def FrontSent (system : SendSystem Token Context Callback) (part : List UInt8) : Prop :=
  part = [] ∨ ∃ front rest source others,
    system.queue.entryList = front :: rest ∧ system.sources = source :: others ∧
      front.inProgress = true ∧ source = part ++ front.bytes

structure Exact (system : SendSystem Token Context Callback) : Prop where
  size_eq : system.queue.size = (system.queue.entryList.map SendQueueEntry.dataLength).sum
  sound : system.failed = false

/-- The bytes sent since the last `removeAll` are whole entries, in order, and at
most one prefix of the entry at the front. -/
structure Accounted (system : SendSystem Token Context Callback) : Prop extends Exact system where
  whole : ∀ data ∈ system.popped, data ∈ system.pushed
  bytes : ∃ part, system.FrontSent part ∧ system.sent = system.popped.flatten ++ part

structure AlwaysWhole (system : SendSystem Token Context Callback) : Prop
    extends Exact system where
  bytes : ∃ whole part, (∀ data ∈ whole, data ∈ system.pushed) ∧ system.FrontSent part ∧
    system.sentBefore ++ system.sent = List.flatten whole ++ part

/-- `popSize` takes the number of bytes asked for from the entry in front. It takes more
when they are in more than one buffer of an array. -/
def PopsExactly (system : SendSystem Token Context Callback) :
    SendAction Token Context Callback -> Prop
  | .popSize numBytes => ∀ entry ∈ system.queue.entryList.head?, ∀ data ∈ entry.data,
      entry.layout.Exact numBytes data
  | _ => True

def KeepsInProgress [DecidableEq Token] (system : SendSystem Token Context Callback)
    (action : SendAction Token Context Callback) : Prop :=
  match action with
  | .removeEntryId _ | .removeEntryToken _ =>
    ∀ next, system.step action = some next ->
      (next.queue.entryList.filter fun entry => entry.inProgress) =
        system.queue.entryList.filter fun entry => entry.inProgress
  | _ => True

def Untouched (entries : List (SendQueueEntry Token Context Callback))
    (sources : List (List UInt8)) : Prop :=
  List.Forall₂ (fun entry source => source = entry.bytes ∧ entry.inProgress = false)
    entries sources

/-- The entries of a queue against the data they were pushed with, where `part`
has been sent of the first one. -/
inductive Aligned : List UInt8 -> List (SendQueueEntry Token Context Callback) ->
    List (List UInt8) -> Prop where
  | untouched {entries : List (SendQueueEntry Token Context Callback)}
      {sources : List (List UInt8)} (rest : Untouched entries sources) :
      Aligned [] entries sources
  | started {part : List UInt8} {front : SendQueueEntry Token Context Callback}
      {entries : List (SendQueueEntry Token Context Callback)} {sources : List (List UInt8)}
      (inProgress : front.inProgress = true) (rest : Untouched entries sources) :
      Aligned part (front :: entries) ((part ++ front.bytes) :: sources)

structure Invariant (system : SendSystem Token Context Callback) : Prop
    extends Exact system where
  measured : ∀ entry ∈ system.queue.entryList, entry.measured = true
  sources_pushed : ∀ data ∈ system.sources, data ∈ system.pushed
  popped_pushed : ∀ data ∈ system.popped, data ∈ system.pushed
  aligned : ∃ part, Aligned part system.queue.entryList system.sources ∧
    system.sent = system.popped.flatten ++ part

variable {system : SendSystem Token Context Callback} {part : List UInt8}

theorem Aligned.frontSent (aligned : Aligned part system.queue.entryList system.sources) :
    system.FrontSent part := by
  generalize entriesEq : system.queue.entryList = entries at aligned
  generalize sourcesEq : system.sources = sources at aligned
  cases aligned with
  | untouched => exact .inl rfl
  | started inProgress => exact .inr ⟨_, _, _, _, entriesEq, sourcesEq, inProgress, rfl⟩

theorem Invariant.accounted (holds : system.Invariant) : system.Accounted := { holds with
  whole := holds.popped_pushed
  bytes := by
    obtain ⟨part, aligned, sentEq⟩ := holds.aligned
    exact ⟨part, aligned.frontSent, sentEq⟩ }

variable {entry : SendQueueEntry Token Context Callback}
  {entries : List (SendQueueEntry Token Context Callback)}

theorem dataLength_le_sum (mem : entry ∈ entries) :
    entry.dataLength ≤ (entries.map SendQueueEntry.dataLength).sum :=
  le_sum_of_mem (mem_map_of_mem mem)

open SendQueueEntry

theorem releaseSize_eq {size : Nat}
    (measured : entry.measured = true) (contained : entry.dataLength ≤ size) :
    SendQueue.releaseSize size entry = some (size - entry.dataLength) := by
  unfold SendQueue.releaseSize
  unfold dataLength at contained ⊢
  cases data : entry.data with
  | none => simp
  | some =>
    simp only [data, isSome_some, ↓reduceIte] at contained ⊢
    rw [if_pos ⟨measured, contained⟩]

variable {index : Nat}

theorem sum_eraseIdx (found : entries[index]? = some entry) :
    ((entries.eraseIdx index).map dataLength).sum =
      (entries.map dataLength).sum - entry.dataLength := by
  induction entries generalizing index with
  | nil => simp at found
  | cons head rest ih =>
    cases index with
    | zero =>
      have isHead : head = entry := by simpa using found
      simp [isHead]
    | succ index =>
      have inRest : rest[index]? = some entry := by simpa using found
      have bound := dataLength_le_sum (mem_of_getElem? inRest)
      have restEq := ih inRest
      simp only [eraseIdx_cons_succ, map_cons, sum_cons, restEq]
      omega

theorem filter_eraseIdx_of_neg {α : Type} {test : α -> Bool} {items : List α} {item : α}
    (found : items[index]? = some item) (rejected : ¬ test item = true) :
    (items.eraseIdx index).filter test = items.filter test := by
  induction items generalizing index with
  | nil => simp at found
  | cons _ _ ih =>
    cases index with
    | zero =>
      rw [getElem?_cons_zero, some.injEq] at found
      rw [eraseIdx_cons_zero, filter_cons_of_neg (found ▸ rejected)]
    | succ => rw [eraseIdx_cons_succ, filter_cons, filter_cons, ih found]

variable {sources : List (List UInt8)}

theorem Untouched.eraseIdx (untouched : Untouched entries sources) (index : Nat) :
    Untouched (entries.eraseIdx index) (sources.eraseIdx index) := by
  induction untouched generalizing index with
  | nil => exact Forall₂.nil
  | cons head tail ih =>
    cases index with
    | zero => exact tail
    | succ index => exact Forall₂.cons head (ih index)

theorem Untouched.concat (untouched : Untouched entries sources)
    (fresh : entry.inProgress = false) :
    Untouched (entries ++ [entry]) (sources ++ [entry.bytes]) :=
  rel_append untouched (Forall₂.cons ⟨rfl, fresh⟩ .nil)

theorem Aligned.concat (aligned : Aligned part entries sources) (fresh : entry.inProgress = false) :
    Aligned part (entries ++ [entry]) (sources ++ [entry.bytes]) := by
  cases aligned with
  | untouched rest => exact .untouched (rest.concat fresh)
  | started inProgress rest => exact .started inProgress (rest.concat fresh)

/-- Removing an entry that is not in progress leaves the bytes sent as they are:
it is not the one at the front of which a part has been sent. -/
theorem Aligned.eraseIdx (aligned : Aligned part entries sources)
    (found : entries[index]? = some entry) (idle : entry.inProgress = false) :
    Aligned part (entries.eraseIdx index) (sources.eraseIdx index) := by
  cases aligned with
  | untouched rest => exact .untouched (rest.eraseIdx index)
  | started inProgress rest =>
    cases index with
    | zero =>
      rw [getElem?_cons_zero, some.injEq] at found
      rw [found, idle] at inProgress
      contradiction
    | succ index => exact .started inProgress (rest.eraseIdx index)

theorem Aligned.front {front : SendQueueEntry Token Context Callback}
    (aligned : Aligned part (front :: entries) sources) :
    ∃ others, sources = (part ++ front.bytes) :: others ∧ Untouched entries others := by
  cases aligned with
  | untouched rest =>
    obtain ⟨_, others, ⟨sourceEq, _⟩, restUntouched, split⟩ := forall₂_cons_left_iff.mp rest
    exact ⟨others, by rw [split, sourceEq, nil_append], restUntouched⟩
  | started _ rest => exact ⟨_, rfl, rest⟩

theorem start_invariant : ({} : SendSystem Token Context Callback).Invariant where
  size_eq := rfl
  sound := rfl
  measured := by simp
  sources_pushed := by simp
  popped_pushed := by simp
  aligned := ⟨[], .untouched .nil, rfl⟩

theorem Invariant.pushEntry (holds : system.Invariant) (measured : entry.measured = true)
    (fresh : entry.inProgress = false) : ({ system with
      queue := ⟨system.queue.entryList ++ [entry], system.queue.size + entry.dataLength⟩
      pushed := system.pushed ++ [entry.bytes]
      sources := system.sources ++ [entry.bytes] } :
        SendSystem Token Context Callback).Invariant := { holds with
  size_eq := by simp [holds.size_eq]
  measured := by
    intro other mem
    rcases mem_append.mp mem with earlier | newest
    · exact holds.measured other earlier
    · exact (mem_singleton.mp newest) ▸ measured
  sources_pushed := by
    intro data mem
    rcases mem_append.mp mem with earlier | newest
    · exact mem_append_left _ (holds.sources_pushed data earlier)
    · exact mem_append_right _ newest
  popped_pushed := fun data mem => mem_append_left _ (holds.popped_pushed data mem)
  aligned := by
    obtain ⟨part, aligned, sentEq⟩ := holds.aligned
    exact ⟨part, aligned.concat fresh, sentEq⟩ }

theorem pushEntry_eq {queue : SendQueue Token Context Callback} (measured : entry.measured = true) :
    queue.pushEntry entry = some ((queue.entryList ++ [entry]).length == 1,
      ⟨queue.entryList ++ [entry], queue.size + entry.dataLength⟩) := by
  unfold SendQueue.pushEntry dataLength
  cases data : entry.data with
  | none => simp
  | some => simp [measured]

theorem Invariant.front_le (holds : system.Invariant) (mem : entry ∈ system.queue.entryList) :
    entry.dataLength ≤ system.queue.size := by
  rw [holds.size_eq]
  exact dataLength_le_sum mem

variable {rest : List (SendQueueEntry Token Context Callback)}

section

variable (holds : system.Invariant)
include holds

theorem Invariant.popEntry (entriesEq : system.queue.entryList = entry :: rest) :
    system.queue.popEntry = some (rest.isEmpty, ⟨rest, system.queue.size - entry.dataLength⟩) ∧
      ({ system with
        queue := ⟨rest, system.queue.size - entry.dataLength⟩
        sources := system.sources.tail
        popped := system.popped ++ system.sources.head?.toList
        sent := system.sent ++ entry.bytes } : SendSystem Token Context Callback).Invariant := by
  have mem : entry ∈ system.queue.entryList := by simp [entriesEq]
  have measured : entry.closeTimer.measured = true := holds.measured entry mem
  have contained : entry.closeTimer.dataLength ≤ system.queue.size := by
    show entry.dataLength ≤ system.queue.size
    exact holds.front_le mem
  have released : SendQueue.releaseSize system.queue.size entry.closeTimer =
      some (system.queue.size - entry.dataLength) := releaseSize_eq measured contained
  obtain ⟨part, aligned, sentEq⟩ := holds.aligned
  rw [entriesEq] at aligned
  obtain ⟨others, sourcesEq, untouched⟩ := aligned.front
  have sourcePushed := holds.sources_pushed (part ++ entry.bytes) (by simp [sourcesEq])
  refine ⟨?_, ?_⟩
  · unfold SendQueue.popEntry
    simp only [entriesEq, released]
  · rw [sourcesEq]
    constructor
    case toExact =>
      have size := holds.size_eq
      rw [entriesEq, map_cons, sum_cons] at size
      refine ⟨?_, holds.sound⟩
      dsimp only
      omega
    case measured =>
      intro other inRest
      exact holds.measured other (by simp [entriesEq, show other ∈ rest from inRest])
    case sources_pushed =>
      intro data inOthers
      exact holds.sources_pushed data (by simp [sourcesEq, show data ∈ others from inOthers])
    case popped_pushed =>
      intro data inPopped
      rcases mem_append.mp inPopped with earlier | newest
      · exact holds.popped_pushed data earlier
      · have isSource : data = part ++ entry.bytes := by simpa using newest
        rw [isSource]
        exact sourcePushed
    case aligned =>
      refine ⟨[], .untouched untouched, ?_⟩
      rw [sentEq]
      simp

theorem Invariant.popSize {data : List UInt8} {numBytes : Nat}
    (entriesEq : system.queue.entryList = entry :: rest) (dataEq : entry.data = some data)
    (proper : numBytes < entry.length) (isExact : entry.layout.Exact numBytes data) :
    ∃ queue, system.queue.popSize numBytes = some queue ∧ ({ system with
        queue := queue
        sent := system.sent ++ entry.bytes.take numBytes } :
          SendSystem Token Context Callback).Invariant := by
  have mem : entry ∈ system.queue.entryList := by simp [entriesEq]
  have measured := holds.measured entry mem
  simp only [SendQueueEntry.measured, dataEq, Bool.and_eq_true, decide_eq_true_eq, beq_iff_eq]
    at measured
  have dataLengthEq : entry.dataLength = entry.length := by simp [dataLength, dataEq]
  have contained := holds.front_le mem
  have bytesEq : entry.bytes = data := by simp [bytes, dataEq]
  obtain ⟨part, aligned, sentEq⟩ := holds.aligned
  rw [entriesEq] at aligned
  obtain ⟨others, sourcesEq, untouched⟩ := aligned.front
  obtain ⟨buffers, popped⟩ := isExact
  refine ⟨⟨{ entry.closeTimer with
      data := some (data.drop numBytes)
      layout := buffers
      inProgress := true
      length := entry.length - numBytes } :: rest, system.queue.size - numBytes⟩, ?_, ?_⟩
  · unfold SendQueue.popSize
    simp only [entriesEq, dataEq, popped]
    rw [if_pos]
    refine ⟨measured.2.symm, Nat.le_of_lt proper, ?_, ?_⟩
    · rw [length_drop, measured.2]
    · omega
  · constructor
    case toExact =>
      have size := holds.size_eq
      rw [entriesEq, map_cons, sum_cons, dataLengthEq] at size
      refine ⟨?_, holds.sound⟩
      simp only [map_cons, sum_cons, dataLength, isSome_some, ↓reduceIte] at size ⊢
      omega
    case measured =>
      intro other inEntries
      rcases mem_cons.mp inEntries with isFront | inRest
      · rw [isFront]
        simp only [SendQueueEntry.measured, Bool.and_eq_true, decide_eq_true_eq, beq_iff_eq,
          length_drop]
        omega
      · exact holds.measured other (by simp [entriesEq, inRest])
    case sources_pushed => exact holds.sources_pushed
    case popped_pushed => exact holds.popped_pushed
    case aligned =>
      refine ⟨part ++ data.take numBytes, ?_, ?_⟩
      · have sourceSplit : system.sources =
            ((part ++ data.take numBytes) ++ data.drop numBytes) :: others := by
          rw [sourcesEq, bytesEq, append_assoc, take_append_drop]
        rw [sourceSplit]
        exact .started rfl untouched
      · dsimp only
        rw [sentEq, bytesEq, append_assoc]

/-- A removal either leaves the queue as it is, or takes out one entry that
meets the condition, and no assertion fails. -/
theorem Invariant.removeAt {removable : SendQueueEntry Token Context Callback -> Bool}
    (idle : ∀ entry, removable entry = true -> entry.inProgress = false) (index : Nat) :
    (system.removed index (system.queue.removeAt removable index)).Invariant ∧
      ((system.removed index (system.queue.removeAt removable index)).queue.entryList.filter
          fun entry => entry.inProgress) =
        system.queue.entryList.filter fun entry => entry.inProgress := by
  unfold SendQueue.removeAt
  cases found : system.queue.entryList[index]? with
  | none =>
    refine ⟨?_, rfl⟩
    simp only [removed, Nat.lt_irrefl, ↓reduceIte]
    exact holds
  | some entry =>
    by_cases allowed : removable entry = true
    · have mem := mem_of_getElem? found
      have released := releaseSize_eq (holds.measured entry mem) (holds.front_le mem)
      have bound : index < system.queue.entryList.length := (List.getElem?_eq_some_iff.mp found).1
      have shorter : (system.queue.entryList.eraseIdx index).length <
          system.queue.entryList.length := by
        rw [length_eraseIdx_of_lt bound]
        omega
      simp only [allowed, ↓reduceIte, released, removed, shorter]
      refine ⟨?_, ?_⟩
      · constructor
        case toExact =>
          refine ⟨?_, holds.sound⟩
          rw [sum_eraseIdx found, holds.size_eq]
        case measured =>
          intro other remaining
          exact holds.measured other (mem_of_mem_eraseIdx remaining)
        case sources_pushed =>
          intro data remaining
          exact holds.sources_pushed data (mem_of_mem_eraseIdx remaining)
        case popped_pushed => exact holds.popped_pushed
        case aligned =>
          obtain ⟨part, aligned, sentEq⟩ := holds.aligned
          exact ⟨part, aligned.eraseIdx found (idle entry allowed), sentEq⟩
      · exact filter_eraseIdx_of_neg found (by simp [idle entry allowed])
    · simp only [allowed, Bool.false_eq_true, ↓reduceIte, removed, Nat.lt_irrefl]
      exact ⟨holds, trivial⟩

theorem Invariant.removeAll : ({ system with
      queue := system.queue.removeAll.2.2
      sources := []
      popped := []
      sent := []
      sentBefore := system.sentBefore ++ system.sent } :
        SendSystem Token Context Callback).Invariant := { holds with
  size_eq := rfl
  measured := by simp [SendQueue.removeAll]
  sources_pushed := by simp
  popped_pushed := by simp
  aligned := ⟨[], .untouched .nil, rfl⟩ }

end

variable [DecidableEq Token] (system : SendSystem Token Context Callback)
  (action : SendAction Token Context Callback)

theorem step_invariant (next : SendSystem Token Context Callback)
    (holds : system.Invariant) (pops : system.PopsExactly action)
    (taken : system.step action = some next) : next.Invariant := by
  cases action with
  | pushEntry entry =>
    simp only [step] at taken
    split at taken
    · rename_i contract
      rw [pushEntry_eq contract.1] at taken
      cases taken
      exact holds.pushEntry contract.1 contract.2
    · contradiction
  | popEntry =>
    simp only [step] at taken
    split at taken
    · contradiction
    · rename_i entry rest entriesEq
      obtain ⟨popped, after⟩ := holds.popEntry entriesEq
      rw [popped] at taken
      cases taken
      exact after
  | popSize =>
    simp only [step] at taken
    split at taken
    · contradiction
    · rename_i _ _ entriesEq
      split at taken
      · rename_i contract
        obtain ⟨_, dataEq⟩ := isSome_iff_exists.mp contract.1
        obtain ⟨_, popped, after⟩ := holds.popSize entriesEq dataEq contract.2
          (pops _ (by simp [entriesEq]) _ dataEq)
        rw [popped] at taken
        cases taken
        exact after
      · contradiction
  | removeEntryId id | removeEntryToken _ =>
    cases taken
    exact (holds.removeAt (by simp) _).1
  | removeAll =>
    cases taken
    exact holds.removeAll

theorem step_keeps (holds : system.Invariant) : system.KeepsInProgress action := by
  cases action with
  | removeEntryId id | removeEntryToken _ =>
    intro next taken
    cases taken
    exact (holds.removeAt (by simp) _).2
  | pushEntry _ | popEntry | popSize _ | removeAll => trivial

end SendSystem

open SendSystem

/-- Along every run of a send queue in which `popSize` takes what it is asked for, the
size is exact, no assertion fails, no entry in progress is removed by identifier or token,
and the bytes sent since the last `removeAll` are whole entries and at most one prefix of
the front. -/
theorem send_queue_accounted [DecidableEq Token]
    (actions : List (SendAction Token Context Callback))
    (pops : Run.Along SendSystem.step SendSystem.PopsExactly {} actions) :
    Run.Always SendSystem.step SendSystem.Accounted {} actions ∧
      Run.Along SendSystem.step SendSystem.KeepsInProgress {} actions := by
  have always : Run.Always step Invariant ({} : SendSystem Token Context Callback) actions :=
    Run.always_of_along step_invariant start_invariant pops
  exact ⟨always.mono fun _ holds => holds.accounted, Run.along_of_always step_keeps always⟩

def gatheredPops : List (SendAction Nat Unit Unit) :=
  [.pushEntry { data := some [1, 2, 3, 4, 5], length := 5, layout := ⟨[2, 3], false⟩ },
    .pushEntry { data := some [6], length := 1, token := some 7 }, .popSize 2, .popSize 1,
    .removeEntryToken 7, .popEntry]

/-- The bytes of an array of two buffers, popped up to the end of the first one and on from
there, are sent in full. -/
theorem gatheredPops_accounted : (Run.Always SendSystem.step SendSystem.Accounted {} gatheredPops ∧
      Run.Along SendSystem.step SendSystem.KeepsInProgress {} gatheredPops) ∧
      (Run.run SendSystem.step {} gatheredPops).map SendSystem.sent = some [1, 2, 3, 4, 5] := by
  refine ⟨send_queue_accounted gatheredPops ⟨trivial, trivial, ?_, ?_, trivial, trivial, trivial⟩,
    rfl⟩
  · intro _ isFront _ isData
    cases isFront
    cases isData
    exact ⟨_, rfl⟩
  · intro _ isFront _ isData
    cases isFront
    cases isData
    exact ⟨_, rfl⟩

/-- `removeAll` discards an entry of which a part has been sent: the bytes sent
then end in a prefix of an entry that is no longer at the front. -/
theorem removeAll_discards_part :
    ¬ Run.Always SendSystem.step SendSystem.AlwaysWhole ({} : SendSystem Nat Unit Unit)
      [.pushEntry { data := some [1, 2], length := 2 }, .popSize 1, .removeAll] := by
  intro always
  have final := (Run.always_iff _ _).mp always _ [] _ (append_nil _) rfl
  obtain ⟨whole, part, pushed, frontSent, bytes⟩ := final.bytes
  have noPart : part = [] := by
    rcases frontSent with none | ⟨_, _, _, _, _, _⟩
    · exact none
    · contradiction
  have sentOne : ([1] : List UInt8) = flatten whole ++ part := bytes
  rw [noPart, append_nil] at sentOne
  cases whole with
  | nil => contradiction
  | cons first =>
    have isEntry : first = [1, 2] := mem_singleton.mp (pushed first (by simp))
    have length := congrArg length sentOne
    simp [isEntry] at length

end NtfCore.Ntcq
