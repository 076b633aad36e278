import Mathlib.Data.List.Flatten
import NtfCore.Foundation.Parcels
import NtfCore.Ntcr.StreamSocket.Soundness

/-!
Contract: the traffic of the sending half, read off the record of what is observed.

Owns: the bytes written and the sends they are of, the data handed to `privateSendRaw`,
the messages accepted and those removed; the queue as parcels labelled by their sends;
and what each kind of outcome adds to these.
-/

namespace NtfCore.Ntcr

open NtfCore.Foundation NtfCore.Ntcq List SendQueueEntry Parcels Bool
open Event

variable {Token : Type}

/-! ## What is observed -/

namespace Event

def written : Event Token -> List UInt8
  | .wrote _ data _ _ => data
  | _ => []

def owners : Event Token -> List Nat
  | .wrote owners _ _ _ => owners
  | _ => []

/-- The data handed to `privateSendRaw`. -/
def record : Event Token -> List UInt8
  | .handed _ data => data
  | _ => []

def message : Event Token -> List (Nat × List UInt8)
  | .accepted counter data _ _ => [(counter, data)]
  | _ => []

def removal : Event Token -> List Nat
  | .removed counter => [counter]
  | _ => []

end Event

/-- An observation that callbacks are not part of sees nothing of their invocation. -/
theorem flatMap_dispatch {Item : Type} {observe : Event Token -> List Item}
    (blind : ∀ callback type context, observe (.dispatched callback type context) = [])
    (type : SendEventType) (error : Option Error) (notices : List (Notice Token)) :
    (StreamSocket.dispatch type error notices).flatMap observe = [] := by
  rw [StreamSocket.dispatch, flatMap_map]
  exact flatMap_eq_nil_iff.mpr fun _ _ => blind _ _ _

section

variable (type : SendEventType)

section

variable (error : Option Error)

section

variable (notices : List (Notice Token))

@[simp] theorem written_dispatch :
    (StreamSocket.dispatch type error notices).flatMap written = [] :=
  flatMap_dispatch (fun _ _ _ => rfl) _ _ _

@[simp] theorem owners_dispatch : (StreamSocket.dispatch type error notices).flatMap owners = [] :=
  flatMap_dispatch (fun _ _ _ => rfl) _ _ _

@[simp] theorem record_dispatch : (StreamSocket.dispatch type error notices).flatMap record = [] :=
  flatMap_dispatch (fun _ _ _ => rfl) _ _ _

@[simp] theorem message_dispatch :
    (StreamSocket.dispatch type error notices).flatMap message = [] :=
  flatMap_dispatch (fun _ _ _ => rfl) _ _ _

@[simp] theorem removal_dispatch :
    (StreamSocket.dispatch type error notices).flatMap removal = [] :=
  flatMap_dispatch (fun _ _ _ => rfl) _ _ _

end

end

end

namespace StreamSocket

/-! ## The queue as parcels -/

def parcelOf (entry : Entry Token) : Option (Nat × List UInt8) :=
  entry.data.map fun data => (entry.id, data)

def parcels (entries : List (Entry Token)) : List (Nat × List UInt8) :=
  entries.filterMap parcelOf

theorem parcels_append (left right : List (Entry Token)) :
    parcels (left ++ right) = parcels left ++ parcels right :=
  filterMap_append

variable {entry : Entry Token} {data : List UInt8}

theorem parcels_cons_of_data (isData : entry.data = some data)
    (rest : List (Entry Token)) : parcels (entry :: rest) = (entry.id, data) :: parcels rest := by
  simp [parcels, parcelOf, isData]

theorem parcels_cons_of_none (noData : entry.data = none)
    (rest : List (Entry Token)) : parcels (entry :: rest) = parcels rest := by
  simp [parcels, parcelOf, noData]

theorem contents_parcels (entries : List (Entry Token)) :
    contents (parcels entries) = entries.flatMap bytes := by
  induction entries with
  | nil => rfl
  | cons entry _ ih =>
    rw [flatMap_cons, ← ih]
    cases isData : entry.data with
    | none =>
      rw [parcels_cons_of_none isData]
      simp [bytes, isData]
    | some =>
      rw [parcels_cons_of_data isData, contents_cons]
      simp [bytes, isData]

variable {entries : List (Entry Token)}

theorem mem_parcels_labels (mem : entry ∈ entries) (hasData : entry.data ≠ none) :
    entry.id ∈ (parcels entries).map Prod.fst := by
  obtain ⟨data, isData⟩ := Option.ne_none_iff_exists'.mp hasData
  refine mem_map.mpr ⟨(entry.id, data), ?_, rfl⟩
  exact mem_filterMap.mpr ⟨entry, mem, by simp [parcelOf, isData]⟩

def hasData (entry : Entry Token) : Bool :=
  entry.data.isSome

def reachable (entries : List (Entry Token)) : List UInt8 :=
  (entries.takeWhile hasData).flatMap SendQueueEntry.bytes

variable {numBytes : Nat} {foreign : Option Int}

/-- What a writable event writes is of entries with data. -/
theorem Reach.le_reachable (reach : Reach entries numBytes foreign) :
    numBytes ≤ (reachable entries).length := by
  cases reach with
  | batch fits =>
    refine Nat.le_trans fits ?_
    have longer : (entries.takeWhile isBatchable).Sublist (entries.takeWhile hasData) := by
      clear fits
      induction entries with
      | nil => exact Sublist.refl _
      | cons entry rest ih =>
        cases accepted : isBatchable entry with
        | false =>
          rw [takeWhile_cons_of_neg (by simp [accepted])]
          exact nil_sublist _
        | true =>
          have isSome : hasData entry = true := by
            rw [isBatchable, and_eq_true, and_eq_true] at accepted
            exact accepted.1.1
          rw [takeWhile_cons_of_pos accepted, takeWhile_cons_of_pos isSome]
          exact ih.cons_cons _
    exact (longer.flatMap bytes).length_le
  | @front entry _ isFront isSome =>
    have hasFront : hasData entry = true := isSome
    rw [isFront, reachable, takeWhile_cons_of_pos hasFront, flatMap_cons, length_append]
    omega

theorem bytes_length (measured : entry.measured = true)
    (isData : entry.data = some data) : entry.length = data.length ∧ entry.bytes = data := by
  rw [SendQueueEntry.measured, isData] at measured
  obtain ⟨_, sameLength⟩ := and_eq_true_iff.mp measured
  exact ⟨beq_iff_eq.mp sameLength, by simp [bytes, isData]⟩

theorem reachable_cons {rest : List (Entry Token)} (measured : entry.measured = true)
    (pos : 0 < numBytes) (fits : numBytes ≤ (reachable (entry :: rest)).length) :
    ∃ data, entry.data = some data ∧ entry.length = data.length ∧
      numBytes - entry.length ≤ (reachable rest).length := by
  cases isData : entry.data with
  | none =>
    rw [reachable, takeWhile_cons_of_neg (by simp [hasData, isData])] at fits
    simp at fits
    omega
  | some data =>
    obtain ⟨isLength, isBytes⟩ := bytes_length measured isData
    refine ⟨data, rfl, isLength, ?_⟩
    rw [reachable, takeWhile_cons_of_pos (by simp [hasData, isData]), flatMap_cons,
      length_append, isBytes] at fits
    rw [reachable, isLength]
    omega

variable {entries left : List (Entry Token)}

theorem Drained.parcels (drained : Drained numBytes entries left)
    (measured : ∀ entry ∈ entries, entry.measured = true)
    (fits : numBytes ≤ (reachable entries).length) :
    parcels left = consume numBytes (parcels entries) := by
  induction drained with
  | stop => rw [consume_zero]
  | @whole numBytes entry rest left pos emptied _ ih =>
    obtain ⟨data, isData, isLength, fitsRest⟩ :=
      reachable_cons (measured entry mem_cons_self) pos fits
    rw [ih (fun other mem => measured other (mem_cons_of_mem _ mem))
      fitsRest, parcels_cons_of_data isData, consume, if_neg (by omega),
      if_pos (isLength ▸ emptied), isLength]
  | @part _ entry _ _ pos _ remains =>
    obtain ⟨_, isData, _, _⟩ := reachable_cons (measured entry mem_cons_self) pos fits
    obtain ⟨_, isData', isLeft⟩ := remains.data
    rw [isData] at isData'
    cases isData'
    rw [parcels_cons_of_data isLeft, parcels_cons_of_data isData, consume,
      if_neg (by omega), if_neg (by dsimp only; omega), remains.id]

/-- The sends recorded for a writable event are the labels of the parcels touched. -/
theorem ownersOf_eq_touched (measured : ∀ entry ∈ entries, entry.measured = true)
    (fits : numBytes ≤ (reachable entries).length) :
    ownersOf entries numBytes = touched numBytes (parcels entries) := by
  induction entries generalizing numBytes with
  | nil => rfl
  | cons entry _ ih =>
    by_cases isZero : numBytes = 0
    · rw [isZero, touched_zero, ownersOf_zero]
    · obtain ⟨_, isData, isLength, fitsRest⟩ :=
        reachable_cons (measured entry mem_cons_self) (Nat.pos_of_ne_zero isZero) fits
      rw [ownersOf, if_neg isZero, parcels_cons_of_data isData, touched, if_neg isZero,
        ih (fun other mem => measured other (mem_cons_of_mem _ mem)) fitsRest, isLength]

theorem reachable_le_contents (entries : List (Entry Token)) :
    (reachable entries).length ≤ (contents (parcels entries)).length := by
  rw [contents_parcels, reachable]
  exact ((takeWhile_sublist _).flatMap _).length_le

section

variable (drained : Drained numBytes entries left)
include drained

theorem Drained.origin :
    ∀ entry ∈ left, entry ∈ entries ∨ ∃ whole ∈ entries, ∃ count, Remains count whole entry := by
  induction drained with
  | stop => exact fun entry mem => .inl mem
  | whole _ _ _ ih =>
    intro entry mem
    rcases ih entry mem with inRest | ⟨whole, inRest, count, remains⟩
    · exact .inl (mem_cons_of_mem _ inRest)
    · exact .inr ⟨whole, mem_cons_of_mem _ inRest, count, remains⟩
  | part _ _ remains =>
    intro _ mem
    rcases mem_cons.mp mem with isLeft | inRest
    · exact .inr ⟨_, mem_cons_self, _, isLeft ▸ remains⟩
    · exact .inl (mem_cons_of_mem _ inRest)

theorem Drained.label (mem : entry ∈ left) (hasData : entry.data ≠ none) :
    entry.id ∈ (StreamSocket.parcels entries).map Prod.fst := by
  rcases drained.origin entry mem with inEntries | ⟨_, inEntries, _, remains⟩
  · exact mem_parcels_labels inEntries hasData
  · obtain ⟨_, isData, _⟩ := remains.data
    rw [remains.id]
    exact mem_parcels_labels inEntries (by rw [isData]; nofun)

theorem Drained.deadline (measured : ∀ entry ∈ entries, entry.measured = true)
    (fits : numBytes ≤ (reachable entries).length)
    (distinct : ((StreamSocket.parcels entries).map Prod.fst).Nodup) :
    ∀ entry ∈ left, entry.data ≠ none -> entry.id ∈ ownersOf entries numBytes ->
      entry.deadline = none := by
  induction drained with
  | stop =>
    intro entry _ _ isOwner
    rw [ownersOf_zero] at isOwner
    contradiction
  | @whole numBytes first rest left pos _ later ih =>
    obtain ⟨data, isData, isLength, fitsRest⟩ :=
      reachable_cons (measured first mem_cons_self) pos fits
    rw [parcels_cons_of_data isData, map_cons, nodup_cons] at distinct
    intro entry mem hasData isOwner
    rw [ownersOf, if_neg (by omega)] at isOwner
    rcases mem_cons.mp isOwner with isFirst | isLater
    · exact absurd (isFirst ▸ later.label mem hasData) distinct.1
    · exact ih (fun other inRest => measured other (mem_cons_of_mem _ inRest)) fitsRest distinct.2
        entry mem hasData isLater
  | @part _ first _ _ pos inside remains =>
    obtain ⟨_, isData, _, _⟩ := reachable_cons (measured first mem_cons_self) pos fits
    rw [parcels_cons_of_data isData, map_cons, nodup_cons] at distinct
    intro _ mem hasData isOwner
    rcases mem_cons.mp mem with isLeft | inRest
    · rw [isLeft]
      exact remains.deadline
    · rw [ownersOf, if_neg (by omega), Nat.sub_eq_zero_of_le (Nat.le_of_lt inside), ownersOf_zero,
        mem_singleton] at isOwner
      exact absurd (isOwner ▸ mem_parcels_labels inRest hasData) distinct.1

end

/-- An entry that is taken out of the queue takes its parcel with it. -/
theorem parcels_eraseIdx {index : Nat}
    (found : entries[index]? = some entry) (hasData : entry.data ≠ none)
    (distinct : ((parcels entries).map Prod.fst).Nodup) :
    parcels (entries.eraseIdx index) = without entry.id (parcels entries) := by
  induction entries generalizing index with
  | nil => contradiction
  | cons first rest ih =>
    cases index with
    | zero =>
      cases found
      obtain ⟨data, isData⟩ := Option.ne_none_iff_exists'.mp hasData
      rw [parcels_cons_of_data isData, map_cons, nodup_cons] at distinct
      rw [eraseIdx_cons_zero, parcels_cons_of_data isData]
      exact ((filter_cons_of_neg (by simp)).trans (without_of_absent distinct.1)).symm
    | succ index =>
      have inRest : rest[index]? = some entry := found
      have isMem := mem_parcels_labels (mem_of_getElem? inRest) hasData
      rw [eraseIdx_cons_succ]
      cases isData : first.data with
      | none =>
        rw [parcels_cons_of_none isData] at distinct
        rw [parcels_cons_of_none isData, parcels_cons_of_none isData]
        exact ih inRest distinct
      | some =>
        rw [parcels_cons_of_data isData, map_cons, nodup_cons] at distinct
        have isOther : first.id ≠ entry.id := fun isSame => distinct.1 (isSame ▸ isMem)
        rw [parcels_cons_of_data isData, parcels_cons_of_data isData,
          without_cons_of_ne isOther, ih inRest distinct.2]

variable {socket : StreamSocket Token} {calls : List (Event Token)} {counter : Nat}

variable {zeroCopy : Bool}

/-- What the direct attempt adds: the first bytes of the data, and their send. -/
theorem Begun.traffic (begun : Begun socket counter data foreign numBytes zeroCopy calls) :
    calls.flatMap written = data.take numBytes ∧
      calls.flatMap owners = (if numBytes = 0 then [] else [counter]) ∧
      calls.flatMap record = [] ∧ calls.flatMap message = [] ∧ calls.flatMap removal = [] ∧
      (numBytes ≠ 0 -> socket.sendQueue.entryList = [] ∧ socket.isWritable = true) := by
  cases begun with
  | nothing =>
    refine ⟨?_, rfl, rfl, rfl, rfl, fun isNonzero => absurd rfl isNonzero⟩
    rfl
  | called empty writable =>
    refine ⟨?_, ?_, rfl, rfl, rfl, fun _ => ⟨empty, writable⟩⟩
    · exact append_nil _
    · exact append_nil _

/-- What `privateSendRaw` does to the queue, when it does not fail: the first bytes are
written, and an entry is made for what `pop` leaves if there is a rest. -/
structure Accepts (socket : StreamSocket Token) (data : List UInt8) (counter : Nat)
    (options : SendOptions Token) (outcome : Outcome Token) (numBytes : Nat)
    (left : List UInt8) (queued : List (Entry Token)) : Prop where
  fits : numBytes ≤ data.length
  empty : numBytes ≠ 0 -> socket.sendQueue.entryList = [] ∧ socket.isWritable = true
  attempted : socket.isWritable = false -> socket.sendQueue.entryList ≠ []
  written : outcome.events.flatMap written = data.take numBytes
  owners : outcome.events.flatMap owners = if numBytes = 0 then [] else [counter]
  record : outcome.events.flatMap record = data
  message : outcome.events.flatMap message = [(counter, data)]
  removal : outcome.events.flatMap removal = []
  isWritable : outcome.socket.isWritable = socket.isWritable
  sendCounter : outcome.socket.sendCounter = socket.sendCounter
  entries : outcome.socket.sendQueue.entryList = socket.sendQueue.entryList ++ queued
  parcels : StreamSocket.parcels queued = if numBytes < data.length then [(counter, left)] else []
  entry : ∀ entry ∈ queued, entry.data ≠ none ∧ entry.id = counter ∧
    (numBytes ≠ 0 -> entry.deadline = none)

variable {outcome : Outcome Token} {options : SendOptions Token} {left : List UInt8}

theorem Accepts.exact {queued : List (Entry Token)}
    (accepts : Accepts socket data counter options outcome numBytes left queued)
    (isExact : numBytes < data.length -> left = data.drop numBytes) :
    Accepts socket data counter options outcome numBytes (data.drop numBytes) queued :=
  { accepts with
    parcels := by
      rw [accepts.parcels]
      split
      · rename_i unfinished
        rw [isExact unfinished]
      · rfl }

/-- The direct attempt and what becomes of the rest make up what is accepted. -/
theorem Begun.accepts {queued : List (Entry Token)} {callback : Bool}
    (begun : Begun socket counter data options.foreignHandle numBytes zeroCopy calls)
    (attempted : socket.isWritable = false -> socket.sendQueue.entryList ≠ [])
    (isEvents : ∃ notices, outcome.events = .handed counter data :: calls ++
      [.accepted counter data options.foreignHandle callback] ++ dispatch .complete none notices)
    (isWritable : outcome.socket.isWritable = socket.isWritable)
    (sendCounter : outcome.socket.sendCounter = socket.sendCounter)
    (entries : outcome.socket.sendQueue.entryList = socket.sendQueue.entryList ++ queued)
    (isParcels : parcels queued = if numBytes < data.length then [(counter, left)] else [])
    (entry : ∀ entry ∈ queued, entry.data ≠ none ∧ entry.id = counter ∧
      (numBytes ≠ 0 -> entry.deadline = none)) :
    Accepts socket data counter options outcome numBytes left queued := by
  obtain ⟨isWritten, isOwners, isRecord, isMessage, isRemoval, isFirst⟩ := begun.traffic
  obtain ⟨_, isEvents⟩ := isEvents
  refine ⟨begun.fits, isFirst, attempted, ?_, ?_, ?_, ?_, ?_, isWritable, sendCounter, entries,
    isParcels, entry⟩
  · rw [isEvents]
    simpa [written] using isWritten
  · rw [isEvents]
    simpa [owners] using isOwners
  · rw [isEvents]
    simpa [record] using isRecord
  · rw [isEvents]
    simp [message, isMessage]
  · rw [isEvents]
    simpa [removal] using isRemoval

variable {reply : Reply}

/-- `privateSendRaw` fails at its only call of the system, or accepts the data. -/
theorem Raw.accepts {entryCallback : Bool -> Option Nat} {isFile : Bool} {buffers : Buffers}
    {context : SendContext Token} {callback : Option Nat}
    (raw : Raw entryCallback socket data isFile buffers counter options context callback reply outcome) :
    (∃ threshold, socket.sendQueue.entryList = [] ∧ (socket.isWritable = true -> reply = .failed) ∧
        outcome = { error := some .failed, socket := { socket with
                    zeroCopyThreshold := threshold },
                    events := [.handed counter data] }) ∨
      ∃ numBytes left queued, Accepts socket data counter options outcome numBytes left queued ∧
        (numBytes < data.length -> (numBytes ≠ 0 -> ∃ wanted, reply = .sent numBytes wanted) ∧
          ∃ rest, buffers.pop numBytes data = some (rest, left)) := by
  have noParcels : ([] : List (Nat × List UInt8)) =
      if data.length < data.length then [(counter, data)] else [] := by
    rw [if_neg (Nat.lt_irrefl _)]
  have noEntry : ∀ entry ∈ ([] : List (Entry Token)), entry.data ≠ none ∧ entry.id = counter ∧
      (data.length ≠ 0 -> entry.deadline = none) :=
    forall_mem_nil _
  cases raw with
  | failed threshold empty answered => exact .inl ⟨threshold, empty, answered, rfl⟩
  | @copied calls _ _ _ threshold begun isPushed =>
    have writable : socket.isWritable = true := by
      generalize data.length = length at begun
      cases begun with
      | called _ writable => exact writable
    exact .inr ⟨data.length, data, [], begun.accepts
      (fun shut => absurd (writable.symm.trans shut) (by decide))
      ⟨[], (append_nil _).symm⟩ rfl rfl (append_nil _).symm noParcels noEntry,
      fun unfinished => absurd unfinished (Nat.lt_irrefl _)⟩
  | written threshold begun attempted =>
    exact .inr ⟨data.length, data, [], begun.accepts attempted ⟨_, rfl⟩ rfl rfl
      (append_nil _).symm noParcels noEntry, fun unfinished => absurd unfinished (Nat.lt_irrefl _)⟩
  | @queued _ bytesSent popped zeroCopy rest _ _ begun attempted partly _ answered within
      isPopped =>
    have entry : ∀ entry ∈ [entryFor bytesSent zeroCopy (data.drop popped) rest isFile counter
        options context (entryCallback zeroCopy)], entry.data ≠ none ∧ entry.id = counter ∧
          (bytesSent ≠ 0 -> entry.deadline = none) := by
      intro entry isEntry
      rw [mem_singleton.mp isEntry]
      refine ⟨nofun, rfl, ?_⟩
      intro isNonzero
      simp [entryFor, isNonzero]
    have isParcels : parcels [entryFor bytesSent zeroCopy (data.drop popped) rest isFile counter
        options context (entryCallback zeroCopy)] =
          if bytesSent < data.length then [(counter, data.drop popped)] else [] := by
      rw [if_pos (Nat.lt_of_le_of_lt within partly)]
      rfl
    exact .inr ⟨bytesSent, _, _, begun.accepts attempted ⟨[], (append_nil _).symm⟩ rfl
      rfl rfl isParcels entry, fun _ => ⟨answered, rest, isPopped⟩⟩

structure Silent (events : List (Event Token)) : Prop where
  written : events.flatMap written = []
  owners : events.flatMap owners = []
  record : events.flatMap record = []
  removal : events.flatMap removal = []

theorem Silent.dispatch (type : SendEventType) (error : Option Error)
    (notices : List (Notice Token)) : Silent (dispatch type error notices) :=
  ⟨written_dispatch _ _ _, owners_dispatch _ _ _, record_dispatch _ _ _, removal_dispatch _ _ _⟩

structure Mark (entry : Entry Token) : Prop where
  data : entry.data = none
  deadline : entry.deadline = none
  token : entry.token = none
  callback : entry.callback = none

inductive Reason [DecidableEq Token] (socket : StreamSocket Token) (index : Nat)
    (entry : Entry Token) : Action Token -> Prop where
  | expired {entryId : Nat} (isIndex : index = socket.sendQueue.indexOfId entryId)
      (deadline : entry.deadline ≠ none) : Reason socket index entry (.sendDeadline entryId)
  | cancelled {token : Token} (isIndex : index = socket.sendQueue.indexOfToken token)
      (isToken : entry.token = some token) : Reason socket index entry (.cancel token)

/-- What a direct attempt has written is what `pop` takes from the data of the send. It
takes more from an array when more than one buffer was written in part or in full. -/
def PopsExactly (socket : StreamSocket Token) : Action Token -> Prop
  | .send message _ _ plugIns reply => ∀ data numBytes wanted,
      produce plugIns message.bytes = some data -> reply = .sent numBytes wanted ->
      socket.sendQueue.entryList = [] -> numBytes < data.length ->
      (gathered plugIns message).Exact numBytes data
  | _ => True

inductive Carries [DecidableEq Token] (socket : StreamSocket Token) :
    Action Token -> Outcome Token -> Prop where
  | quiet {action : Action Token} {outcome : Outcome Token}
      (silent : Silent outcome.events)
      (message : outcome.events.flatMap message = [] ∧
          socket.sendCounter ≤ outcome.socket.sendCounter ∨
        outcome.events.flatMap message = [(socket.sendCounter, [])] ∧
          socket.sendCounter < outcome.socket.sendCounter)
      (isWritable : outcome.socket.isWritable = socket.isWritable)
      (isParcels : parcels outcome.socket.sendQueue.entryList = parcels socket.sendQueue.entryList)
      (entries : ∀ entry ∈ outcome.socket.sendQueue.entryList,
        entry ∈ socket.sendQueue.entryList ∨ Mark entry)
      (unmarked : socket.canSend = false -> outcome.socket.canSend = false ∧
        (socket.sendQueue.entryList = [] -> outcome.socket.sendQueue.entryList = [])) :
      Carries socket action outcome
  | failed {action : Action Token} {outcome : Outcome Token} {reply : Reply} {counter : Nat}
      {data : List UInt8}
      (isAction : (∃ message options hasCallback plugIns,
          action = .send message options hasCallback plugIns reply) ∨
        ∃ cipherData, action = .sendCipherData cipherData reply)
      (empty : socket.sendQueue.entryList = [])
      (answered : socket.isWritable = true -> reply = .failed)
      (isEvents : outcome.events = [.handed counter data])
      (canSend : outcome.socket.canSend = socket.canSend)
      (isWritable : outcome.socket.isWritable = socket.isWritable)
      (sendCounter : outcome.socket.sendCounter = socket.sendCounter + 1)
      (entries : outcome.socket.sendQueue.entryList = []) :
      Carries socket action outcome
  | accepts {action : Action Token} {outcome : Outcome Token} {data : List UInt8}
      {options : SendOptions Token} {numBytes : Nat} {left : List UInt8}
      {queued : List (Entry Token)} (canSend : outcome.socket.canSend = socket.canSend)
      (accepts : Accepts socket.counted data socket.sendCounter options outcome numBytes left queued)
      (isExact : socket.PopsExactly action -> numBytes < data.length -> left = data.drop numBytes) :
      Carries socket action outcome
  | wrote {limits : Limits} {layout : Nat -> List Nat} {reply : Reply} {outcome : Outcome Token}
      {numBytes : Nat} {calls : List (Event Token)} {zeroCopy : Bool}
      {foreignHandle : Option Int}
      (writable : socket.isWritable = true) (positive : 0 < numBytes)
      (reach : Reach socket.sendQueue.entryList numBytes foreignHandle)
      (silent : Silent calls) (message : calls.flatMap message = [])
      (isEvents : outcome.events =
        .wrote (ownersOf socket.sendQueue.entryList numBytes)
          ((socket.sendQueue.entryList.flatMap SendQueueEntry.bytes).take numBytes) foreignHandle
          zeroCopy :: calls)
      (isWritable : outcome.socket.isWritable = socket.isWritable)
      (sendCounter : outcome.socket.sendCounter = socket.sendCounter)
      (drained : Drained numBytes socket.sendQueue.entryList outcome.socket.sendQueue.entryList) :
      Carries socket (.writable limits layout reply) outcome
  | removed {action : Action Token} {outcome : Outcome Token} {index : Nat} {entry : Entry Token}
      {calls : List (Event Token)}
      (found : socket.sendQueue.entryList[index]? = some entry)
      (untouched : entry.inProgress = false) (reason : Reason socket index entry action)
      (silent : Silent calls) (message : calls.flatMap message = [])
      (isEvents : outcome.events = .removed entry.id :: calls)
      (isWritable : outcome.socket.isWritable = socket.isWritable)
      (sendCounter : outcome.socket.sendCounter = socket.sendCounter)
      (entries : outcome.socket.sendQueue.entryList = socket.sendQueue.entryList.eraseIdx index) :
      Carries socket action outcome
  | swept {action : Action Token} {outcome : Outcome Token}
      (silent : Silent outcome.events) (message : outcome.events.flatMap message = [])
      (canSend : outcome.socket.canSend = false)
      (isWritable : outcome.socket.isWritable = false)
      (sendCounter : outcome.socket.sendCounter = socket.sendCounter)
      (entries : outcome.socket.sendQueue.entryList = []) :
      Carries socket action outcome

variable {action : Action Token} [DecidableEq Token]

theorem Carries.idle (silent : Silent outcome.events)
    (message : outcome.events.flatMap message = [])
    (sendCounter : socket.sendCounter ≤ outcome.socket.sendCounter)
    (isWritable : outcome.socket.isWritable = socket.isWritable)
    (canSend : socket.canSend = false -> outcome.socket.canSend = false)
    (entries : outcome.socket.sendQueue.entryList = socket.sendQueue.entryList) :
    Carries socket action outcome := by
  refine .quiet silent (.inl ⟨message, sendCounter⟩) isWritable (by rw [entries]) ?_ ?_
  · intro _ mem
    rw [entries] at mem
    exact .inl mem
  · intro down
    rw [entries]
    exact ⟨canSend down, fun empty => empty⟩

theorem Sending.carries {produced : Option (List UInt8)} {buffers : Buffers}
    (isAction : (∃ message options hasCallback plugIns,
        action = .send message options hasCallback plugIns reply) ∨
      ∃ cipherData, action = .sendCipherData cipherData reply)
    (pops : socket.PopsExactly action -> ∀ data numBytes wanted, produced = some data ->
      reply = .sent numBytes wanted -> socket.sendQueue.entryList = [] -> numBytes < data.length ->
      buffers.Exact numBytes data)
    (sending : Sending socket options produced buffers reply outcome) :
    Carries socket action outcome := by
  cases sending with
  | nothing same =>
    rcases same with rfl | rfl
    · exact .idle ⟨rfl, rfl, rfl, rfl⟩ rfl .refl rfl (fun down => down) rfl
    · exact .idle ⟨rfl, rfl, rfl, rfl⟩ rfl (Nat.le_succ _) rfl (fun down => down) rfl
  | raw isRecord _ own isRaw =>
    have canSend : outcome.socket.canSend = socket.canSend := by cases isRaw <;> rfl
    rcases isRaw.accepts with ⟨_, empty, answered, isOutcome⟩ | ⟨numBytes, _, _, accepts, popped⟩
    · exact .failed isAction empty answered (by rw [isOutcome]) canSend (by rw [isOutcome]; rfl)
        (by rw [isOutcome]; rfl) (by rw [isOutcome]; exact empty)
    · refine .accepts canSend accepts fun popsExactly unfinished => ?_
      obtain ⟨answered, _, isPopped⟩ := popped unfinished
      by_cases isZero : numBytes = 0
      · subst isZero
        exact Buffers.exact_zero.eq isPopped
      · obtain ⟨wanted, isReply⟩ := answered isZero
        exact (pops popsExactly _ _ wanted isRecord isReply (accepts.empty isZero).1 unfinished).eq
          isPopped
  | @silent callback context =>
    have spoken := Silent.dispatch (.complete) none
      (callback.toList.map fun callback => (some context, callback))
    refine .quiet ⟨spoken.written, spoken.owners, spoken.record, spoken.removal⟩
      (.inr ⟨?_, Nat.lt_succ_self _⟩) rfl rfl (fun _ mem => .inl mem) ?_
    · exact congrArg ((socket.sendCounter, []) :: ·) (message_dispatch _ _ _)
    · exact fun down => ⟨down, fun empty => empty⟩

theorem Writing.carries {limits : Limits}
    {layout : Nat -> List Nat} (writing : Writing socket outcome) : Carries socket
    (.writable limits layout reply) outcome := by
  cases writing with
  | idle isCalls =>
    rcases isCalls with noCalls | ⟨_, _, isCalls⟩
    · subst noCalls
      exact .idle ⟨rfl, rfl, rfl, rfl⟩ rfl .refl rfl (fun down => down) rfl
    · subst isCalls
      exact .idle ⟨rfl, rfl, rfl, rfl⟩ rfl .refl rfl (fun down => down) rfl
  | wrote writable pos reach writes =>
    exact .wrote writable pos reach (Silent.dispatch _ _ _) (message_dispatch _ _ _) rfl rfl
      rfl writes.drained
  | @ended _ _ isFront noData =>
    refine .quiet ⟨rfl, rfl, rfl, rfl⟩ (.inl ⟨rfl, .refl⟩) rfl ?_ ?_ ?_
    · rw [isFront, parcels_cons_of_none noData]
    · intro _ mem
      rw [isFront]
      exact .inl (mem_cons_of_mem _ mem)
    · intro _
      refine ⟨rfl, fun empty => ?_⟩
      rw [isFront] at empty
      contradiction

theorem Removing.carries {removable : Entry Token -> Bool} {index : Nat}
    (reason : ∀ entry, socket.sendQueue.entryList[index]? = some entry -> removable entry = true ->
      entry.inProgress = false ∧ Reason socket index entry action)
    (removing : Removing socket removable index outcome) : Carries socket action outcome := by
  cases removing with
  | kept => exact .idle ⟨rfl, rfl, rfl, rfl⟩ rfl .refl rfl (fun down => down) rfl
  | @removed entry _ _ found isRemovable =>
    obtain ⟨untouched, because⟩ := reason entry found isRemovable
    exact .removed found untouched because (Silent.dispatch _ _ _) (message_dispatch _ _ _) rfl rfl
      rfl rfl

theorem token_of_indexOfToken {token : Token}
    (found : socket.sendQueue.entryList[socket.sendQueue.indexOfToken token]? = some entry) :
    entry.token = some token := by
  obtain ⟨inside, isEntry⟩ := List.getElem?_eq_some_iff.mp found
  have isToken : (socket.sendQueue.entryList[socket.sendQueue.indexOfToken token]).token ==
      some token := findIdx_getElem (w := inside)
  rw [isEntry] at isToken
  exact beq_iff_eq.mp isToken

theorem Performs.carries (performs : Performs socket action outcome) :
    Carries socket action outcome := by
  cases performs with
  | send sending => exact sending.carries (.inl ⟨_, _, _, _, rfl⟩) id
  | sendCipherData sending =>
    exact sending.carries (.inr ⟨_, rfl⟩) fun _ _ _ _ _ _ _ _ => ⟨_, rfl⟩
  | writable writing => exact writing.carries
  | sendDeadline removing =>
    refine removing.carries ?_
    intro entry found isRemovable
    rw [and_eq_true, not_eq_true'] at isRemovable
    exact ⟨isRemovable.2, .expired rfl (Option.isSome_iff_ne_none.mp isRemovable.1)⟩
  | cancel removing =>
    refine removing.carries ?_
    intro _ found isRemovable
    rw [not_eq_true'] at isRemovable
    exact ⟨isRemovable, .cancelled rfl (token_of_indexOfToken found)⟩
  | zeroCopyUpdate =>
    exact .idle (Silent.dispatch _ _ _) (message_dispatch _ _ _) .refl rfl (fun down => down) rfl
  | setZeroCopyThreshold | setWriteQueueHighWatermark =>
    exact .idle ⟨rfl, rfl, rfl, rfl⟩ rfl .refl rfl (fun down => down) rfl
  | shutdown ending =>
    cases ending with
    | nothing => exact .idle ⟨rfl, rfl, rfl, rfl⟩ rfl .refl rfl (fun down => down) rfl
    | marked canSend =>
      refine .quiet ⟨rfl, rfl, rfl, rfl⟩ (.inl ⟨rfl, .refl⟩) rfl ?_ ?_ ?_
      · rw [parcels_append, parcels_cons_of_none rfl]
        exact append_nil _
      · intro _ mem
        rcases mem_append.mp mem with before | isMark
        · exact .inl before
        · rw [mem_singleton.mp isMark]
          exact .inr ⟨rfl, rfl, rfl, rfl⟩
      · intro down
        exact absurd (canSend.symm.trans down) (by decide)
    | begun => exact .idle ⟨rfl, rfl, rfl, rfl⟩ rfl .refl rfl (fun _ => rfl) rfl
  | shutdownSequenceComplete closing =>
    cases closing with
    | nothing => exact .idle ⟨rfl, rfl, rfl, rfl⟩ rfl .refl rfl (fun down => down) rfl
    | swept _ ended =>
      have spoken := Silent.dispatch .error (some .cancelled) socket.pendingNotices
      exact .swept ⟨spoken.written, spoken.owners, spoken.record, spoken.removal⟩
        (message_dispatch _ _ _) ended rfl rfl rfl

end StreamSocket

end NtfCore.Ntcr
