import NtfCore.Ntcr.StreamSocket.Stream

/-!
Contract: the foreign handles that a stream socket sends.

Owns: the handles given with accepted sends, those passed to a call of the system that
wrote bytes, and those on the queue; what each critical section does to them; and the
condition under which a handle is passed exactly once.
-/

namespace NtfCore.Ntcr

open NtfCore.Foundation NtfCore.Ntcq List Option

variable {Token : Type}

namespace Event

def passed : Event Token -> List (Nat × Int)
  | .wrote owners data (some handle) _ =>
    if data = [] then [] else owners.map fun owner => (owner, handle)
  | _ => []

def granted : Event Token -> List (Nat × Int)
  | .accepted counter _ (some handle) _ => [(counter, handle)]
  | _ => []

def lost : Event Token -> List Nat
  | .removed counter => [counter]
  | .shut discarded => discarded
  | _ => []

end Event

namespace StreamSocket

section

variable (type : SendEventType) (error : Option Error) (notices : List (Notice Token))

@[simp] theorem passed_dispatch : (dispatch type error notices).flatMap Event.passed = [] :=
  flatMap_dispatch (fun _ _ _ => rfl) _ _ _

@[simp] theorem granted_dispatch : (dispatch type error notices).flatMap Event.granted = [] :=
  flatMap_dispatch (fun _ _ _ => rfl) _ _ _

end

/-! ## Handles on the queue -/

def carrier (entry : Entry Token) : Option (Nat × Int) :=
  entry.data.bind fun _ => entry.foreignHandle.map fun handle => (entry.id, handle)

def carriers (entries : List (Entry Token)) : List (Nat × Int) :=
  entries.filterMap carrier

theorem carriers_append (left right : List (Entry Token)) :
    carriers (left ++ right) = carriers left ++ carriers right :=
  filterMap_append

theorem carriers_cons (entry : Entry Token) (rest : List (Entry Token)) :
    carriers (entry :: rest) = (carrier entry).toList ++ carriers rest := by
  cases isCarrier : carrier entry with
  | none | some _ => simp [carriers, isCarrier]

variable {entry : Entry Token}

theorem carrier_of_noHandle (noHandle : entry.foreignHandle = none) : carrier entry = none := by
  rw [carrier, noHandle]
  cases entry.data with
  | none | some _ => rfl

theorem carrier_of_noData (noData : entry.data = none) : carrier entry = none := by
  rw [carrier, noData]
  rfl

theorem carrier_of_data (hasData : entry.data.isSome = true) :
    carrier entry = entry.foreignHandle.map fun handle => (entry.id, handle) := by
  obtain ⟨_, isData⟩ := isSome_iff_exists.mp hasData
  rw [carrier, isData]
  rfl

variable {numBytes : Nat}

theorem Remains.carrier {entry left : Entry Token} (remains : Remains numBytes entry left) :
    carrier left = carrier entry := by
  obtain ⟨_, isData, isLeft⟩ := remains.data
  rw [StreamSocket.carrier, StreamSocket.carrier, isData, isLeft, remains.id, remains.foreignHandle]
  rfl

theorem mem_parcels_of_carriers {entries : List (Entry Token)} {pair : Nat × Int}
    (mem : pair ∈ carriers entries) : pair.1 ∈ (parcels entries).map Prod.fst := by
  obtain ⟨_, isEntry, isCarrier⟩ := mem_filterMap.mp mem
  obtain ⟨_, isData, isPair⟩ := bind_eq_some_iff.mp isCarrier
  obtain ⟨_, _, isPair⟩ := map_eq_some_iff.mp isPair
  rw [← isPair]
  exact mem_parcels_labels isEntry (by rw [isData]; nofun)

/-- An iteration over a batch leaves the handles: entries with a handle are not batched. -/
theorem Drained.carriers_of_batch {entries left : List (Entry Token)}
    (drained : Drained numBytes entries left) (measured : ∀ entry ∈ entries, entry.measured = true)
    (fits : numBytes ≤ (batchable entries).length) : carriers left = carriers entries := by
  induction drained with
  | stop => rfl
  | @whole _ entry _ _ pos _ _ ih =>
    cases accepted : isBatchable entry with
    | false =>
      rw [batchable, takeWhile_cons_of_neg (by simp [accepted])] at fits
      exact absurd fits (Nat.not_le_of_lt pos)
    | true =>
      have isAccepted := accepted
      rw [isBatchable, Bool.and_eq_true, Bool.and_eq_true] at isAccepted
      obtain ⟨_, isData⟩ := isSome_iff_exists.mp isAccepted.1.1
      obtain ⟨isLength, isBytes⟩ := bytes_length (measured entry mem_cons_self) isData
      rw [batchable, takeWhile_cons_of_pos accepted, flatMap_cons,
        length_append, isBytes, ← isLength] at fits
      rw [carriers_cons, carrier_of_noHandle (isNone_iff_eq_none.mp isAccepted.2)]
      refine ih (fun other inRest => measured other (mem_cons_of_mem _ inRest)) ?_
      rw [batchable]
      omega
  | part _ _ remains => rw [carriers_cons, carriers_cons, remains.carrier]

/-- An iteration over the entry in front takes its handle with it when it is written
whole. -/
theorem Drained.carriers_of_front {rest left : List (Entry Token)}
    (drained : Drained numBytes (entry :: rest) left)
    (pos : 0 < numBytes) (fits : numBytes ≤ entry.length) :
    carriers left = if numBytes = entry.length then carriers rest else carriers (entry :: rest)
 := by
  cases drained with
  | stop => omega
  | whole _ emptied later =>
    have isLength : numBytes = entry.length := Nat.le_antisymm fits emptied
    rw [if_pos isLength]
    rw [isLength, Nat.sub_self] at later
    cases later with
    | stop => rfl
    | whole pos _ _ | part pos _ _ => omega
  | part _ inside remains =>
    rw [if_neg (Nat.ne_of_lt inside), carriers_cons, carriers_cons, remains.carrier]

/-! ## What critical sections do to handles -/

structure Conveys (socket : StreamSocket Token) (outcome : Outcome Token) : Prop where
  balance : ∀ pair, (carriers outcome.socket.sendQueue.entryList).count pair +
      (outcome.events.flatMap Event.passed).count pair ≤
    (carriers socket.sendQueue.entryList).count pair +
      (outcome.events.flatMap Event.granted).count pair
  accounted : ∀ pair, pair ∈ carriers socket.sendQueue.entryList ∨
      pair ∈ outcome.events.flatMap Event.granted ->
    pair ∈ carriers outcome.socket.sendQueue.entryList ∨
      pair ∈ outcome.events.flatMap Event.passed ∨ pair.1 ∈ outcome.events.flatMap Event.lost
  counter : outcome.events.flatMap Event.granted = [] ∧
      socket.sendCounter ≤ outcome.socket.sendCounter ∨
    ∃ handle, outcome.events.flatMap Event.granted = [(socket.sendCounter, handle)] ∧
      socket.sendCounter < outcome.socket.sendCounter

variable {socket : StreamSocket Token} {outcome : Outcome Token}

/-- Outcomes that have nothing to do with handles. -/
theorem Conveys.idle (isPassed : outcome.events.flatMap Event.passed = [])
    (isGranted : outcome.events.flatMap Event.granted = [])
    (counted : socket.sendCounter ≤ outcome.socket.sendCounter)
    (isCarriers : carriers outcome.socket.sendQueue.entryList =
      carriers socket.sendQueue.entryList) : Conveys socket outcome where
  balance := fun pair => by rw [isPassed, isGranted, isCarriers]
  accounted := by
    intro _ held
    rw [isGranted] at held
    rcases held with before | absent
    · rw [isCarriers]
      exact .inl before
    · contradiction
  counter := .inl ⟨isGranted, counted⟩

theorem Conveys.grant (foreign : Option Int) (queued : List (Nat × Int))
    (isGranted : outcome.events.flatMap Event.granted =
      (foreign.map fun handle => (socket.sendCounter, handle)).toList)
    (counted : socket.sendCounter < outcome.socket.sendCounter)
    (isCarriers : carriers outcome.socket.sendQueue.entryList =
      carriers socket.sendQueue.entryList ++ queued)
    (isDivided : queued ++ outcome.events.flatMap Event.passed =
      (foreign.map fun handle => (socket.sendCounter, handle)).toList) :
    Conveys socket outcome where
  balance := by
    intro _
    rw [isCarriers, count_append, isGranted, ← isDivided, count_append, Nat.add_assoc]
  accounted := by
    intro _ held
    rw [isGranted, ← isDivided] at held
    rw [isCarriers]
    rcases held with before | isNew
    · exact .inl (mem_append_left _ before)
    · rcases mem_append.mp isNew with isQueued | isPassed
      · exact .inl (mem_append_right _ isQueued)
      · exact .inr (.inl isPassed)
  counter := by
    cases foreign with
    | none => exact .inl ⟨isGranted, Nat.le_of_lt counted⟩
    | some handle => exact .inr ⟨handle, isGranted, counted⟩

theorem Conveys.pass (pair : Nat × Int) (isPassed : outcome.events.flatMap Event.passed = [pair])
    (isGranted : outcome.events.flatMap Event.granted = [])
    (counted : socket.sendCounter ≤ outcome.socket.sendCounter)
    (isCarriers : carriers socket.sendQueue.entryList =
      pair :: carriers outcome.socket.sendQueue.entryList) : Conveys socket outcome where
  balance := by
    intro _
    rw [isPassed, isGranted, isCarriers, count_singleton, count_cons, count_nil]
    exact Nat.le_refl _
  accounted := by
    intro _ held
    rw [isGranted, isCarriers] at held
    rw [isPassed]
    rcases held with before | absent
    · rcases mem_cons.mp before with isPair | isLeft
      · exact .inr (.inl (mem_singleton.mpr isPair))
      · exact .inl isLeft
    · contradiction
  counter := .inl ⟨isGranted, counted⟩

theorem granted_accepted (counter : Nat) (data : List UInt8) (foreign : Option Int)
    (callback : Bool) : Event.granted (Event.accepted counter data foreign callback : Event Token) =
      (foreign.map fun handle => (counter, handle)).toList := by
  cases foreign with
  | none | some _ => rfl

variable {data : List UInt8} {foreign : Option Int} {calls : List (Event Token)}

variable {counter : Nat} {zeroCopy : Bool}

section

variable (begun : Begun socket counter data foreign numBytes zeroCopy calls)
include begun

theorem Begun.conveys :
    calls.flatMap Event.granted = [] ∧ calls.flatMap Event.passed = if numBytes = 0 then [] else
        (foreign.map fun handle => (counter, handle)).toList := by
  cases begun with
  | nothing => exact ⟨rfl, rfl⟩
  | called _ _ fits =>
    refine ⟨rfl, ?_⟩
    rw [flatMap_singleton]
    cases foreign with
    | none => exact (ite_self _).symm
    | some =>
      rw [Event.passed]
      by_cases isZero : numBytes = 0
      · rw [if_pos isZero, if_pos isZero, map_nil, ite_self]
      · have wrote : data.take numBytes ≠ [] := by
          rw [Ne, take_eq_nil_iff, not_or]
          refine ⟨isZero, fun noData => ?_⟩
          rw [noData] at fits
          exact isZero (Nat.le_zero.mp fits)
        rw [if_neg isZero, if_neg isZero, if_neg wrote]
        rfl

theorem Begun.conveys_accepted (callback : Bool) (notices : List (Notice Token)) :
    (Event.handed counter data :: calls ++ [Event.accepted counter data foreign callback] ++
        dispatch .complete none notices).flatMap Event.granted =
      (foreign.map fun handle => (counter, handle)).toList ∧
    (Event.handed counter data :: calls ++ [Event.accepted counter data foreign callback] ++
        dispatch .complete none notices).flatMap Event.passed =
      if numBytes = 0 then [] else (foreign.map fun handle => (counter, handle)).toList := by
  obtain ⟨isGranted, isPassed⟩ := begun.conveys
  constructor
  · rw [flatMap_append, granted_dispatch, append_nil, flatMap_append,
      flatMap_cons, isGranted, flatMap_singleton, granted_accepted]
    rfl
  · rw [flatMap_append, passed_dispatch, append_nil, flatMap_append, flatMap_cons, isPassed]
    exact append_nil _

end

variable {reply : Reply} {options : SendOptions Token}

/-- `privateSendRaw` of some data: their handle is passed with the first bytes. -/
theorem Raw.conveys {entryCallback : Bool -> Option Nat} {isFile : Bool} {buffers : Buffers}
    {context : SendContext Token} {callback : Option Nat}
    (raw : Raw entryCallback socket.counted data isFile buffers socket.sendCounter options context callback
      reply outcome) (loaded : options.foreignHandle ≠ none -> data ≠ []) :
    Conveys socket outcome := by
  have counted : socket.sendCounter < socket.counted.sendCounter := Nat.lt_succ_self _
  have whole : (if data.length = 0 then [] else
      (options.foreignHandle.map fun handle => (socket.sendCounter, handle)).toList) =
        (options.foreignHandle.map fun handle => (socket.sendCounter, handle)).toList := by
    by_cases isZero : data.length = 0
    · cases isHandle : options.foreignHandle with
      | none => exact ite_self _
      | some handle =>
        exact absurd (eq_nil_of_length_eq_zero isZero) (loaded (by rw [isHandle]; nofun))
    · rw [if_neg isZero]
  cases raw with
  | failed => exact .idle rfl rfl (Nat.le_of_lt counted) rfl
  | copied _ begun =>
    obtain ⟨isGranted, isPassed⟩ := begun.conveys_accepted callback.isSome []
    rw [show dispatch .complete none ([] : List (Notice Token)) = [] from rfl,
      append_nil] at isGranted isPassed
    exact .grant options.foreignHandle [] isGranted counted (append_nil _).symm
      (isPassed.trans whole)
  | written _ begun =>
    obtain ⟨isGranted, isPassed⟩ := begun.conveys_accepted callback.isSome
      (callback.toList.map fun callback => (some context, callback))
    exact .grant options.foreignHandle [] isGranted counted (append_nil _).symm
      (isPassed.trans whole)
  | @queued _ bytesSent popped zeroCopy rest _ _ begun =>
    obtain ⟨isGranted, isPassed⟩ := begun.conveys_accepted callback.isSome []
    rw [show dispatch .complete none ([] : List (Notice Token)) = [] from rfl,
      append_nil] at isGranted isPassed
    have isCarrier : carrier (entryFor bytesSent zeroCopy (data.drop popped) rest isFile
        socket.sendCounter options context (entryCallback zeroCopy)) =
        (if bytesSent = 0 then options.foreignHandle else none).map
          fun handle => (socket.sendCounter, handle) :=
      rfl
    refine .grant options.foreignHandle ((if bytesSent = 0 then options.foreignHandle else
      none).map fun handle => (socket.sendCounter, handle)).toList isGranted counted ?_ ?_
    · rw [carriers_append, carriers_cons, isCarrier]
      exact congrArg _ (append_nil _)
    · rw [isPassed]
      by_cases isZero : bytesSent = 0
      · rw [if_pos isZero, if_pos isZero, append_nil]
      · rw [if_neg isZero, if_neg isZero]
        rfl

theorem Sending.conveys {produced : Option (List UInt8)} {buffers : Buffers}
    (sending : Sending socket options produced buffers reply outcome)
    (loaded : options.foreignHandle ≠ none -> produced ≠ some []) : Conveys socket outcome := by
  cases sending with
  | nothing same =>
    rcases same with rfl | rfl
    · exact .idle rfl rfl .refl rfl
    · exact .idle rfl rfl (Nat.le_succ _) rfl
  | raw isRecord _ _ isRaw =>
    refine isRaw.conveys fun hasHandle noData => loaded hasHandle ?_
    rw [isRecord, noData]
  | silent isRecord =>
    have noHandle : options.foreignHandle = none := by
      by_contra hasHandle
      exact loaded hasHandle isRecord
    refine .idle ?_ ?_ (Nat.le_succ _) rfl
    · exact passed_dispatch _ _ _
    · dsimp only
      rw [flatMap_cons, granted_dispatch, granted_accepted, noHandle]
      rfl

theorem Writing.conveys (writing : Writing socket outcome)
    (measured : ∀ entry ∈ socket.sendQueue.entryList, entry.measured = true)
    (undivided : ∀ entry ∈ socket.sendQueue.entryList.head?, entry.foreignHandle ≠ none ->
      (outcome.events.flatMap Event.written).length = 0 ∨
        entry.length ≤ (outcome.events.flatMap Event.written).length) : Conveys socket outcome := by
  cases writing with
  | idle isCalls =>
    rcases isCalls with noCalls | ⟨foreign, zeroCopy, isCalls⟩
    · subst noCalls
      exact .idle rfl rfl .refl rfl
    · subst isCalls
      refine .idle ?_ rfl .refl rfl
      cases foreign with
      | none | some handle => rfl
  | @wrote threshold numBytes zeroCopy foreign queue zeroCopyQueue notices writable pos
      reach writes =>
      have isGranted : (Event.wrote (ownersOf socket.sendQueue.entryList numBytes)
          ((socket.sendQueue.entryList.flatMap SendQueueEntry.bytes).take numBytes) foreign
          zeroCopy :: dispatch .complete none notices).flatMap Event.granted = [] := by
        rw [flatMap_cons, granted_dispatch]
        rfl
      cases reach with
      | batch fits =>
        refine .idle ?_ isGranted .refl (writes.drained.carriers_of_batch measured fits)
        rw [flatMap_cons, passed_dispatch]
        rfl
      | @front entry _ isFront hasData fits =>
        have drained := writes.drained
        rw [isFront] at drained
        obtain ⟨_, isData⟩ := isSome_iff_exists.mp hasData
        obtain ⟨isLength, isBytes⟩ := bytes_length (measured entry (by simp [isFront])) isData
        rw [isBytes, ← isLength] at fits
        have isLeft := drained.carriers_of_front pos fits
        cases isHandle : entry.foreignHandle with
        | none =>
          refine .idle ?_ (isHandle ▸ isGranted) .refl ?_
          · dsimp only
            rw [flatMap_cons, passed_dispatch]
            rfl
          · dsimp only
            rw [isLeft, isFront, carriers_cons, carrier_of_noHandle isHandle]
            exact ite_self _
        | some handle =>
          have isWritten : ((socket.sendQueue.entryList.flatMap SendQueueEntry.bytes).take
              numBytes).length = numBytes := by
            rw [length_take, isFront, flatMap_cons, length_append, isBytes]
            omega
          have whole : numBytes = entry.length := by
            have isWhole := undivided entry (by simp [isFront]) (by rw [isHandle]; nofun)
            rw [flatMap_cons, written_dispatch, append_nil, Event.written, isWritten] at isWhole
            omega
          refine .pass (entry.id, handle) ?_ (isHandle ▸ isGranted) .refl ?_
          · dsimp only
            rw [flatMap_cons, passed_dispatch, append_nil, Event.passed, if_neg,
              isFront, ownersOf, if_neg (Nat.ne_of_gt pos), whole, Nat.sub_self,
              ownersOf_zero, map_singleton]
            intro nothing
            rw [nothing] at isWritten
            exact absurd isWritten (Nat.ne_of_lt pos)
          · dsimp only
            rw [isLeft, if_pos whole, isFront, carriers_cons, carrier_of_data hasData, isHandle]
            rfl
  | ended isFront noData =>
    refine .idle rfl rfl .refl ?_
    rw [isFront, carriers_cons, carrier_of_noData noData]
    rfl

theorem Conveys.lose (isPassed : outcome.events.flatMap Event.passed = [])
    (isGranted : outcome.events.flatMap Event.granted = [])
    (counted : socket.sendCounter ≤ outcome.socket.sendCounter)
    (fewer : outcome.socket.sendQueue.entryList.Sublist socket.sendQueue.entryList)
    (isLost : ∀ entry ∈ socket.sendQueue.entryList, entry ∈ outcome.socket.sendQueue.entryList ∨
        entry.id ∈ outcome.events.flatMap Event.lost) : Conveys socket outcome where
  balance := by
    intro pair
    rw [isPassed, isGranted]
    exact Nat.add_le_add_right ((fewer.filterMap carrier).count_le pair) _
  accounted := by
    intro _ held
    rw [isGranted] at held
    rcases held with before | absent
    · obtain ⟨entry, isEntry, isCarrier⟩ := mem_filterMap.mp before
      rcases isLost entry isEntry with isLeft | isLost
      · exact .inl (mem_filterMap.mpr ⟨entry, isLeft, isCarrier⟩)
      · obtain ⟨_, _, isPair⟩ := bind_eq_some_iff.mp isCarrier
        obtain ⟨_, _, isPair⟩ := map_eq_some_iff.mp isPair
        refine .inr (.inr ?_)
        rw [← isPair]
        exact isLost
    · contradiction
  counter := .inl ⟨isGranted, counted⟩

theorem mem_eraseIdx_or {Item : Type} {items : List Item} {index : Nat} {item other : Item}
    (found : items[index]? = some item) (mem : other ∈ items) :
    other ∈ items.eraseIdx index ∨ other = item := by
  induction items generalizing index with
  | nil => contradiction
  | cons _ _ ih =>
    cases index with
    | zero =>
      cases found
      rcases mem_cons.mp mem with isFirst | inRest
      · exact .inr isFirst
      · exact .inl inRest
    | succ =>
      rcases mem_cons.mp mem with isFirst | inRest
      · exact .inl (isFirst ▸ mem_cons_self)
      · rcases ih found inRest with isLeft | isItem
        · exact .inl (mem_cons_of_mem _ isLeft)
        · exact .inr isItem

theorem Removing.conveys {removable : Entry Token -> Bool} {index : Nat}
    (removing : Removing socket removable index outcome) : Conveys socket outcome := by
  cases removing with
  | kept => exact .idle rfl rfl .refl rfl
  | @removed _ _ _ found =>
    refine .lose ?_ ?_ .refl (eraseIdx_sublist _ _) ?_
    · exact passed_dispatch _ _ _
    · exact granted_dispatch _ _ _
    · intro _ mem
      rcases mem_eraseIdx_or found mem with isLeft | isEntry
      · exact .inl isLeft
      · rw [isEntry]
        exact .inr mem_cons_self

theorem Closing.conveys (closing : Closing socket outcome) : Conveys socket outcome := by
  cases closing with
  | nothing => exact .idle rfl rfl .refl rfl
  | swept =>
    refine .lose ?_ ?_ .refl (nil_sublist _) ?_
    · exact passed_dispatch _ _ _
    · exact granted_dispatch _ _ _
    · intro _ mem
      refine .inr (mem_append_left _ ?_)
      exact mem_map_of_mem mem

/-! ## Parts of entries with a handle -/

variable {rest : List (Entry Token)}

theorem batchNext_of_handle {queue : SendQueue Token (SendContext Token) Nat}
    (isFront : queue.entryList = entry :: rest)
    (hasHandle : entry.foreignHandle ≠ none) (limits : Limits) (layout : Nat -> List Nat) :
    batchNext queue limits layout = none := by
  have refused : ¬ isBatchable entry = true := by
    rw [isBatchable, Bool.and_eq_true, isNone_iff_eq_none]
    exact fun accepted => hasHandle accepted.2
  unfold batchNext
  split
  · rfl
  · rw [isFront, batchEntries, if_neg refused]

theorem privateEnqueueSendBuffer_written (socket : StreamSocket Token) (data : List UInt8)
    (isFile : Bool) (foreign : Option Int) (owners : Nat -> List Nat) (reply : Reply) :
    (socket.privateEnqueueSendBuffer data isFile foreign owners reply).events.flatMap
        Event.written = [] ∨
      socket.isWritable = true ∧ ∃ numBytes zeroCopy, reply = .sent numBytes zeroCopy ∧
        (socket.privateEnqueueSendBuffer data isFile foreign owners reply).events.flatMap
          Event.written = data.take (min numBytes data.length) := by
  unfold privateEnqueueSendBuffer
  split
  · rename_i writable
    cases reply with
    | failed | wouldBlock => exact .inl rfl
    | sent numBytes zeroCopy => exact .inr ⟨writable, numBytes, zeroCopy, rfl, append_nil _⟩
  · exact .inl rfl

theorem writableIterationFront_written (isFront : socket.sendQueue.entryList = entry :: rest)
    (isData : entry.data = some data)
    (taken : socket.privateSocketWritableIterationFront reply = some outcome) :
    outcome.events.flatMap Event.written =
      (socket.privateEnqueueSendBuffer data entry.isFile entry.foreignHandle (ownersOf [entry])
        reply).events.flatMap Event.written := by
  unfold privateSocketWritableIterationFront at taken
  rw [isFront] at taken
  dsimp only at taken
  rw [isData] at taken
  dsimp only at taken
  split at taken
  · rw [← some.inj taken]
  · obtain ⟨_, _, taken⟩ := bind_eq_some_iff.mp taken
    split at taken
    · obtain ⟨_, _, taken⟩ := bind_eq_some_iff.mp taken
      obtain ⟨_, _, taken⟩ := bind_eq_some_iff.mp taken
      rw [← some.inj taken]
      rw [flatMap_append, written_dispatch, append_nil]
    · obtain ⟨_, _, taken⟩ := bind_eq_some_iff.mp taken
      rw [← some.inj taken]

def Undivided (socket : StreamSocket Token) : Action Token -> Prop
  | .send message options _ plugIns _ =>
    options.foreignHandle ≠ none -> produce plugIns message.bytes ≠ some []
  | .writable _ _ (.sent numBytes _) =>
    socket.canSend = true -> socket.isWritable = true ->
      ∀ entry ∈ socket.sendQueue.entryList.head?, entry.foreignHandle ≠ none ->
        numBytes = 0 ∨ entry.length ≤ numBytes
  | _ => True

theorem Undivided.written {limits : Limits}
    {layout : Nat -> List Nat} (undivided : socket.Undivided (.writable limits layout reply))
    (measured : ∀ entry ∈ socket.sendQueue.entryList, entry.measured = true)
    (taken : socket.processSocketWritable limits layout reply = some outcome) :
    ∀ entry ∈ socket.sendQueue.entryList.head?, entry.foreignHandle ≠ none ->
      (outcome.events.flatMap Event.written).length = 0 ∨
        entry.length ≤ (outcome.events.flatMap Event.written).length := by
  intro entry isHead hasHandle
  obtain ⟨_, isFront⟩ := head?_eq_some_iff.mp isHead
  unfold processSocketWritable at taken
  by_cases canSend : socket.canSend = true
  · rw [if_pos canSend, privateSocketWritableIteration, isFront, isEmpty_cons,
      if_neg (by decide), batchNext_of_handle isFront hasHandle] at taken
    cases isData : entry.data with
    | none =>
      unfold privateSocketWritableIterationFront at taken
      rw [isFront] at taken
      dsimp only at taken
      rw [isData] at taken
      obtain ⟨_, _, taken⟩ := bind_eq_some_iff.mp taken
      cases taken
      exact .inl rfl
    | some data =>
      obtain ⟨isLength, _⟩ := bytes_length (measured entry (by simp [isFront])) isData
      rw [writableIterationFront_written isFront isData taken]
      rcases socket.privateEnqueueSendBuffer_written data entry.isFile entry.foreignHandle
        (ownersOf [entry]) reply with nothing | ⟨writable, numBytes, zeroCopy, isReply, isWritten⟩
      · rw [nothing]
        exact .inl rfl
      · subst isReply
        rw [isWritten, length_take, isLength]
        have whole := undivided canSend writable entry isHead hasHandle
        omega
  · rw [if_neg canSend] at taken
    cases taken
    exact .inl rfl

theorem Performs.conveys [DecidableEq Token] {action : Action Token}
    (performs : Performs socket action outcome)
    (measured : ∀ entry ∈ socket.sendQueue.entryList, entry.measured = true)
    (undivided : socket.Undivided action) (taken : socket.perform action = some outcome) :
    Conveys socket outcome := by
  cases performs with
  | send sending => exact sending.conveys undivided
  | sendCipherData sending => exact sending.conveys fun hasHandle => absurd rfl hasHandle
  | writable writing => exact writing.conveys measured (undivided.written measured taken)
  | sendDeadline removing | cancel removing => exact removing.conveys
  | zeroCopyUpdate => exact .idle (passed_dispatch _ _ _) (granted_dispatch _ _ _) .refl rfl
  | setZeroCopyThreshold | setWriteQueueHighWatermark => exact .idle rfl rfl .refl rfl
  | shutdown ending =>
    cases ending with
    | nothing => exact .idle rfl rfl .refl rfl
    | marked =>
      refine .idle rfl rfl .refl ?_
      rw [carriers_append]
      exact append_nil _
    | begun => exact .idle rfl rfl .refl rfl
  | shutdownSequenceComplete closing => exact closing.conveys

end StreamSocket

namespace SendHalf

open StreamSocket

def passed (half : SendHalf Token) : List (Nat × Int) :=
  half.events.flatMap Event.passed

def granted (half : SendHalf Token) : List (Nat × Int) :=
  half.events.flatMap Event.granted

def lost (half : SendHalf Token) : List Nat :=
  half.events.flatMap Event.lost

/-- A handle is passed only for the send it was given with, and to one call at most; and
when the send is neither on the queue nor taken off it unsent, to one call exactly. -/
structure PassedOnce (half : SendHalf Token) : Prop where
  granted : ∀ pair ∈ half.passed, pair ∈ half.granted
  once : ∀ pair ∈ half.granted, half.passed.count pair ≤ 1
  settled : ∀ pair ∈ half.granted,
    pair.1 ∉ (parcels half.socket.sendQueue.entryList).map Prod.fst -> pair.1 ∉ half.lost ->
      half.passed.count pair = 1

structure Conveyed (half : SendHalf Token) : Prop where
  sized : Sized half.socket.sendQueue
  balance : ∀ pair, (carriers half.socket.sendQueue.entryList).count pair +
    half.passed.count pair ≤ half.granted.count pair
  accounted : ∀ pair ∈ half.granted, pair ∈ carriers half.socket.sendQueue.entryList ∨
    pair ∈ half.passed ∨ pair.1 ∈ half.lost
  distinct : half.granted.Nodup
  below : ∀ pair ∈ half.granted, pair.1 < half.socket.sendCounter

theorem Conveyed.passedOnce {half : SendHalf Token} (conveyed : Conveyed half) :
    PassedOnce half := by
  have atMost := nodup_iff_count_le_one.mp conveyed.distinct
  constructor
  case granted =>
    intro pair isPassed
    have pos := count_pos_iff.mpr isPassed
    have balance := conveyed.balance pair
    exact count_pos_iff.mp (by omega)
  case once =>
    intro pair _
    have balance := conveyed.balance pair
    have single := atMost pair
    omega
  case settled =>
    intro pair isGranted notQueued _
    have balance := conveyed.balance pair
    have single := atMost pair
    rcases conveyed.accounted pair isGranted with isCarried | isPassed | _
    · exact absurd (mem_parcels_of_carriers isCarried) notQueued
    · have pos := count_pos_iff.mpr isPassed
      omega
    · contradiction

def Undivided (half : SendHalf Token) (action : StreamSocket.Action Token) : Prop :=
  half.socket.Undivided action

theorem step_conveyed [DecidableEq Token] (half : SendHalf Token)
    (action : Action Token) (next : SendHalf Token) (conveyed : Conveyed half)
    (undivided : half.Undivided action) (taken : half.step action = some next) : Conveyed next := by
  obtain ⟨_, isOutcome, isNext⟩ := step_cases taken
  have performs := perform_cases conveyed.sized.measured isOutcome
  have conveys := performs.conveys conveyed.sized.measured undivided isOutcome
  subst isNext
  constructor
  case sized => exact performs.sized conveyed.sized
  case balance =>
    intro pair
    have before := conveyed.balance pair
    have moved := conveys.balance pair
    simp only [passed, granted, observe, flatMap_append, count_append] at before ⊢
    omega
  case accounted =>
    intro pair isGranted
    simp only [passed, granted, lost, observe, flatMap_append, mem_append] at isGranted ⊢
    rcases isGranted with before | isNew
    · rcases conveyed.accounted pair before with isCarried | isPassed | isLost
      · rcases conveys.accounted pair (.inl isCarried) with isLeft | isPassed | isLost
        · exact .inl isLeft
        · exact .inr (.inl (.inr isPassed))
        · exact .inr (.inr (.inr isLost))
      · exact .inr (.inl (.inl isPassed))
      · exact .inr (.inr (.inl isLost))
    · rcases conveys.accounted pair (.inr isNew) with isLeft | isPassed | isLost
      · exact .inl isLeft
      · exact .inr (.inl (.inr isPassed))
      · exact .inr (.inr (.inr isLost))
  case distinct =>
    rw [granted, observe, flatMap_append]
    rcases conveys.counter with ⟨none, _⟩ | ⟨handle, one, _⟩
    · rw [none, append_nil]
      exact conveyed.distinct
    · rw [one]
      refine nodup_append.mpr ⟨conveyed.distinct, nodup_singleton _, ?_⟩
      intro pair isGranted _ isNew isSame
      rw [isSame, mem_singleton.mp isNew] at isGranted
      exact absurd (conveyed.below _ isGranted) (Nat.lt_irrefl _)
  case below =>
    intro pair isGranted
    rw [granted, observe, flatMap_append] at isGranted
    rcases conveys.counter with ⟨none, counted⟩ | ⟨_, one, counted⟩
    · rw [none, append_nil] at isGranted
      exact Nat.lt_of_lt_of_le (conveyed.below pair isGranted) counted
    · rw [one] at isGranted
      rcases mem_append.mp isGranted with before | isNew
      · exact Nat.lt_trans (conveyed.below pair before) counted
      · rw [mem_singleton.mp isNew]
        exact counted

theorem initial_conveyed : Conveyed ({} : SendHalf Token) where
  sized := initial_sized
  balance := fun _ => .refl
  accounted := forall_mem_nil _
  distinct := nodup_nil
  below := forall_mem_nil _

theorem always_passedOnce [DecidableEq Token] {actions : List (Action Token)}
    (undivided : Run.Along step Undivided ({} : SendHalf Token) actions) :
    Run.Always step PassedOnce ({} : SendHalf Token) actions :=
  (Run.always_of_along step_conveyed initial_conveyed undivided).mono
    fun _ conveyed => conveyed.passedOnce

end SendHalf

end NtfCore.Ntcr
