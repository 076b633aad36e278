import NtfCore.Ntcq.ZeroCopy.Custody
import NtfCore.Ntcr.StreamSocket.Traffic

/-!
Contract: the callback of an accepted send is invoked once.

Owns: where the callback of a send is between its acceptance and its invocation (in an
entry of the send queue or in the zero-copy queue), that each outcome of the socket
moves callbacks and neither copies nor loses one, and the theorem about whole runs.

An entry that was begun with zero-copy has its callback in the zero-copy queue. The
version of `privateSendRaw` for `ntsa::Data` leaves a copy of it in the entry of the
send queue. The iterations never read the copy; a removal and the shutdown do.
-/

namespace NtfCore.Ntcr

open NtfCore.Foundation NtfCore.Ntcq List Event Option
open ZeroCopyQueue

variable {Token : Type}

namespace Event

def told : Event Token -> List Nat
  | .dispatched callback _ _ => [callback]
  | _ => []

def promised : Event Token -> List Nat
  | .accepted counter _ _ true => [counter]
  | _ => []

end Event

section

variable (type : SendEventType) (error : Option Error) (notices : List (Notice Token))

@[simp] theorem promised_dispatch :
    (StreamSocket.dispatch type error notices).flatMap promised = [] :=
  flatMap_dispatch (fun _ _ _ => rfl) _ _ _

@[simp] theorem told_dispatch :
    (StreamSocket.dispatch type error notices).flatMap told = notices.map Prod.snd := by
  induction notices with
  | nil => rfl
  | cons _ _ ih =>
    rw [map_cons, ← ih]
    rfl

end

namespace StreamSocket

def own (entry : Entry Token) : List Nat :=
  if entry.zeroCopy then [] else entry.callback.toList

def held (socket : StreamSocket Token) : List Nat :=
  socket.zeroCopyQueue.callbacks ++ socket.sendQueue.entryList.flatMap own

def Accounts (socket : StreamSocket Token) (outcome : Outcome Token) : Prop :=
  ∀ callback, (outcome.events.flatMap Event.told).count callback +
      outcome.socket.held.count callback =
    socket.held.count callback + (outcome.events.flatMap Event.promised).count callback

def Sole (entry : Entry Token) : Prop :=
  entry.zeroCopy = false ∨ entry.callback = none

variable {entry : Entry Token}

theorem Sole.own_eq (sole : Sole entry) : own entry = entry.callback.toList := by
  unfold own
  rcases sole with plain | noCallback
  · rw [plain, if_neg (by decide)]
  · rw [noCallback]
    split
    · rfl
    · rfl

variable {socket : StreamSocket Token} {data : List UInt8} {counter : Nat}
  {foreign : Option Int} {zeroCopy : Bool}

variable {calls : List (Event Token)} {numBytes : Nat}

theorem Begun.callbacks (begun : Begun socket counter data foreign numBytes zeroCopy calls) :
    calls.flatMap told = [] ∧ calls.flatMap promised = [] := by
  cases begun with
  | nothing | called => exact ⟨rfl, rfl⟩

variable {callback : Option Nat}

theorem promised_accepted (own : ∀ other ∈ callback, other = counter) :
    (accepted counter data foreign callback.isSome : Event Token).promised = callback.toList := by
  cases callback with
  | none => rfl
  | some other =>
    rw [own other rfl]
    rfl

theorem Begun.promised {events calls : List (Event Token)} (notices : List (Notice Token))
    (begun : Begun socket counter data foreign numBytes zeroCopy calls)
    (isOwn : ∀ other ∈ callback, other = counter)
    (isEvents : events = .handed counter data :: calls ++
      [.accepted counter data foreign callback.isSome] ++ dispatch .complete none notices) :
    events.flatMap told = notices.map Prod.snd ∧ events.flatMap promised = callback.toList := by
  constructor
  · rw [isEvents, flatMap_append, flatMap_append, flatMap_cons, begun.callbacks.1, told_dispatch]
    rfl
  · rw [isEvents, flatMap_append, flatMap_append, flatMap_cons, begun.callbacks.2,
      promised_dispatch, flatMap_singleton, promised_accepted isOwn]
    exact append_nil _

variable {outcome : Outcome Token}

theorem Begun.accounts (notices : List (Notice Token))
    (begun : Begun socket counter data foreign numBytes zeroCopy calls)
    (isOwn : ∀ other ∈ callback, other = counter)
    (isEvents : outcome.events = .handed counter data :: calls ++
      [.accepted counter data foreign callback.isSome] ++ dispatch .complete none notices)
    (balance : ∀ other, (notices.map Prod.snd).count other + outcome.socket.held.count other =
      socket.held.count other + callback.toList.count other) : Accounts socket outcome := by
  obtain ⟨isTold, isPromised⟩ := begun.promised notices isOwn isEvents
  intro other
  rw [isTold, isPromised]
  exact balance other

theorem told_callback (context : SendContext Token) (callback : Option Nat) :
    (callback.toList.map fun callback => (some context, callback)).map
      (Prod.snd : Notice Token -> Nat) = callback.toList := by
  cases callback <;> rfl

variable {options : SendOptions Token} {entryCallback : Bool -> Option Nat} {reply : Reply}

variable {context : SendContext Token} {isFile : Bool} {buffers : Buffers}

theorem Raw.accounts (assigns : Assigns entryCallback callback)
    (isOwn : ∀ other ∈ callback, other = counter)
    (raw : Raw entryCallback socket data isFile buffers counter options context callback reply outcome) :
    Accounts socket outcome := by
  cases raw with
  | failed => exact fun other => Nat.add_comm _ _
  | @copied calls number pushed _ threshold begun isPushed isFramed =>
    refine begun.accounts [] isOwn (append_nil _).symm ?_
    intro other
    have isHeld := (frame_callbacks isFramed).count_eq other
    rw [push_callbacks isPushed, count_append] at isHeld
    simp only [held, count_append, map_nil, count_nil]
    omega
  | written threshold begun attempted =>
    refine begun.accounts _ isOwn rfl ?_
    intro other
    rw [told_callback]
    exact Nat.add_comm _ _
  | @queued _ bytesSent popped zeroCopy rest zeroCopyQueue _ begun _ _ isPushed =>
    refine begun.accounts [] isOwn (append_nil _).symm ?_
    intro other
    have isHeld : zeroCopyQueue.callbacks ++ own (entryFor bytesSent zeroCopy (data.drop popped)
        rest isFile counter options context (entryCallback zeroCopy)) =
          socket.zeroCopyQueue.callbacks ++ callback.toList := by
      cases zeroCopy with
      | false =>
        rw [← some.inj isPushed, assigns.plain]
        rfl
      | true =>
        obtain ⟨⟨_, _⟩, taken, rfl⟩ := map_eq_some_iff.mp isPushed
        rw [push_callbacks taken]
        exact append_nil _
    have counts := congrArg (count other) isHeld
    rw [count_append, count_append] at counts
    simp only [held, flatMap_append, flatMap_cons, flatMap_nil, append_nil,
      count_append, map_nil, count_nil]
    omega

variable {produced : Option (List UInt8)} {buffers : Buffers}

theorem Sending.accounts (sending : Sending socket options produced buffers reply outcome) :
    Accounts socket outcome := by
  cases sending with
  | nothing same =>
    intro _
    rcases same with rfl | rfl
    · exact Nat.add_comm _ _
    · exact Nat.add_comm _ _
  | raw _ assigns own isRaw =>
    have accounts : Accounts socket.counted outcome := isRaw.accounts assigns own
    exact accounts
  | @silent _ _ _ own =>
    intro _
    simp only [flatMap_cons, told, promised_accepted own, nil_append,
      append_nil, told_dispatch, promised_dispatch, told_callback, held, counted]
    omega

theorem beginEntry_accounts {before begun : ZeroCopies Token} {entry started : Entry Token}
    (taken : beginEntry before entry zeroCopy = some (begun, started)) (callback : Nat) :
    begun.callbacks.count callback + (own started).count callback =
      before.callbacks.count callback + (own entry).count callback := by
  obtain ⟨_, _, _, rfl, cases⟩ := beginEntry_cases taken
  rcases cases with ⟨_, isSame, isKept, isFlag⟩ | ⟨_, isFlagged, isKept, isFlag, number, extended⟩ |
    ⟨_, isPlain, isKept, isFlag, number, pushed⟩
  · rw [isSame, isKept, isFlag]
    rfl
  · rw [extend_callbacks extended, isFlag]
    simp only [own, isFlagged, if_true]
  · rw [push_callbacks pushed, isFlag]
    simp only [own, isPlain, count_append]
    rfl

theorem finishEntry_accounts {begun finished : ZeroCopies Token} {notice : Option (Notice Token)}
    (taken : finishEntry begun entry = some (finished, notice)) (callback : Nat) :
    (notice.toList.map Prod.snd).count callback + finished.callbacks.count callback =
      begun.callbacks.count callback + (own entry).count callback := by
  unfold finishEntry at taken
  cases isFlag : entry.zeroCopy with
  | true =>
    rw [isFlag, if_pos rfl] at taken
    obtain ⟨framed, isFramed, isResult⟩ := map_eq_some_iff.mp taken
    have same := (frame_callbacks isFramed).count_eq callback
    have noOwn : own entry = [] := by
      unfold own
      rw [isFlag, if_pos rfl]
    rw [noOwn, ← same]
    split at isResult
    · cases isResult
      exact Nat.add_comm _ _
    · cases isResult
      have popped := congrArg (count callback) (pop_callbacks framed)
      rw [count_append] at popped
      exact popped
  | false =>
    rw [isFlag, if_neg (by decide)] at taken
    cases taken
    have isOwn : own entry = entry.callback.toList := Sole.own_eq (.inl isFlag)
    rw [isOwn]
    cases entry.callback with
    | none | some _ => exact Nat.add_comm _ _

theorem Writes.accounts {entries : List (Entry Token)} {size numBytes : Nat}
    {before after : ZeroCopies Token} {queue : SendQueue Token (SendContext Token) Nat}
    {notices : List (Notice Token)}
    (writes : Writes zeroCopy entries size numBytes before queue after notices) (callback : Nat) :
    (notices.map Prod.snd).count callback + (after.callbacks.count callback +
        (queue.entryList.flatMap own).count callback) =
      before.callbacks.count callback + (entries.flatMap own).count callback := by
  induction writes with
  | stop => simp
  | whole _ isBegun _ isFinished =>
    have begins := beginEntry_accounts isBegun callback
    have finishes := finishEntry_accounts isFinished callback
    rw [map_append, count_append, flatMap_cons, count_append]
    omega
  | @part _ started rest _ _ _ _ queue _ isBegun _ isPopped =>
    have begins := beginEntry_accounts isBegun callback
    obtain ⟨_, _, _, _, _, _, isQueue⟩ := popSize_cases isPopped
    have sameOwn : queue.entryList.flatMap own = own started ++ rest.flatMap own := by
      rw [isQueue]
      rfl
    rw [sameOwn, flatMap_cons, count_append, count_append, map_nil, count_nil]
    omega

theorem Writing.accounts
    (bare : ∀ entry ∈ socket.sendQueue.entryList, entry.data = none -> entry.callback = none)
    (writing : Writing socket outcome) : Accounts socket outcome := by
  intro callback
  cases writing with
  | idle isCalls =>
    rcases isCalls with noCalls | ⟨_, _, isCalls⟩
    · subst noCalls
      exact Nat.add_comm _ _
    · subst isCalls
      exact Nat.add_comm _ _
  | wrote _ _ _ writes =>
    have moved := writes.accounts callback
    simp only [flatMap_cons, told, promised, nil_append, told_dispatch,
      promised_dispatch, held, count_append, count_nil]
    omega
  | @ended entry _ isFront noData =>
    have noCallback := bare entry (by rw [isFront]; exact mem_cons_self) noData
    have noOwn : own entry = [] := by
      rw [Sole.own_eq (.inr noCallback), noCallback]
      rfl
    simp only [held, isFront, flatMap_cons, noOwn, nil_append]
    exact Nat.add_comm _ _

/-! ## Removal, notifications and shutdown -/

variable {index : Nat}

theorem count_flatMap_eraseIdx {Item Result : Type} [DecidableEq Result] {items : List Item}
    {item : Item} (found : items[index]? = some item) (result : Item -> List Result)
    (value : Result) : (items.flatMap result).count value =
      (result item).count value + ((items.eraseIdx index).flatMap result).count value := by
  obtain ⟨inside, isItem⟩ := List.getElem?_eq_some_iff.mp found
  have isPerm : items.Perm (item :: items.eraseIdx index) := by
    rw [← isItem]
    exact (getElem_cons_eraseIdx_perm inside).symm
  rw [(isPerm.flatMap_right result).count_eq value, flatMap_cons, count_append]

variable {removable : Entry Token -> Bool}

theorem Removing.accounts
    (sole : ∀ entry, socket.sendQueue.entryList[index]? = some entry -> removable entry = true ->
      Sole entry)
    (removing : Removing socket removable index outcome) : Accounts socket outcome := by
  intro callback
  cases removing with
  | kept => exact Nat.add_comm _ _
  | @removed entry _ _ found isRemovable =>
    have isOwn := (sole entry found isRemovable).own_eq
    have removed := count_flatMap_eraseIdx found own callback
    have isTold : (entry.callback.toList.map fun callback => (entry.context, callback)).map
        (Prod.snd : Notice Token -> Nat) = entry.callback.toList := by cases entry.callback <;> rfl
    rw [isOwn] at removed
    simp only [flatMap_cons, told, promised, nil_append, told_dispatch,
      promised_dispatch, isTold, held, count_append, count_nil]
    omega

theorem update_accounts (socket : StreamSocket Token) (zeroCopy : ZeroCopy) (avoided : Bool) :
    Accounts socket (socket.privateZeroCopyUpdate zeroCopy avoided) := by
  intro callback
  have same := (update_callbacks socket.zeroCopyQueue zeroCopy).count_eq callback
  simp only [callbacks, callbacksOf_append, count_append] at same
  simp only [privateZeroCopyUpdate, told_dispatch, promised_dispatch, held,
    callbacks, callbacksOf_append, count_append,
    callbacksOf_eq_notifications, count_nil]
  have none : (callbacksOf
      ([] : List (ZeroCopyEntry (List UInt8) (SendContext Token) Nat))).count callback = 0 := rfl
  omega

/-- What a sweep tells is what is held, if no entry has a copy. -/
theorem pendingNotices_held (sole : ∀ entry ∈ socket.sendQueue.entryList, Sole entry) :
    socket.pendingNotices.map Prod.snd = socket.held := by
  have isQueue : (socket.sendQueue.entryList.filterMap fun entry =>
      entry.callback.map fun callback => (entry.context, callback)).map
        (Prod.snd : Notice Token -> Nat) = socket.sendQueue.entryList.flatMap own := by
    generalize socket.sendQueue.entryList = entries at sole
    induction entries with
    | nil => rfl
    | cons entry _ ih =>
      rw [flatMap_cons, (sole entry mem_cons_self).own_eq, ← ih
        fun other mem => sole other (mem_cons_of_mem _ mem)]
      cases isCallback : entry.callback with
      | none | some _ => simp [isCallback]
  rw [pendingNotices, held, map_append, isQueue, callbacks, callbacksOf_eq_notifications]

theorem Closing.accounts (sole : socket.canSend = false -> socket.isWritable = true ->
      ∀ entry ∈ socket.sendQueue.entryList, Sole entry)
    (closing : Closing socket outcome) : Accounts socket outcome := by
  intro _
  cases closing with
  | nothing => exact Nat.add_comm _ _
  | swept _ ended writable =>
    have isTold := pendingNotices_held (sole ended writable)
    simp only [flatMap_cons, told, promised, nil_append, told_dispatch, promised_dispatch, isTold]
    rfl

def Clears [DecidableEq Token] (socket : StreamSocket Token) : Action Token -> Prop
  | .sendDeadline entryId => ∀ entry,
      socket.sendQueue.entryList[socket.sendQueue.indexOfId entryId]? = some entry ->
        entry.deadline ≠ none -> entry.inProgress = false -> Sole entry
  | .cancel token => ∀ entry,
      socket.sendQueue.entryList[socket.sendQueue.indexOfToken token]? = some entry ->
        entry.inProgress = false -> Sole entry
  | .shutdownSequenceComplete _ =>
    socket.canSend = false -> socket.isWritable = true ->
      ∀ entry ∈ socket.sendQueue.entryList, Sole entry
  | _ => True

variable {action : Action Token}

theorem Performs.accounts [DecidableEq Token]
    (bare : ∀ entry ∈ socket.sendQueue.entryList, entry.data = none -> entry.callback = none)
    (clears : Clears socket action) (performs : Performs socket action outcome) :
    Accounts socket outcome := by
  cases performs with
  | send sending | sendCipherData sending => exact sending.accounts
  | writable writing => exact writing.accounts bare
  | sendDeadline removing =>
    refine removing.accounts ?_
    intro entry found isRemovable
    rw [Bool.and_eq_true, Bool.not_eq_true'] at isRemovable
    exact clears entry found (isSome_iff_ne_none.mp isRemovable.1) isRemovable.2
  | cancel removing =>
    refine removing.accounts ?_
    intro entry found isRemovable
    rw [Bool.not_eq_true'] at isRemovable
    exact clears entry found isRemovable
  | zeroCopyUpdate => exact update_accounts _ _ _
  | setZeroCopyThreshold | setWriteQueueHighWatermark => exact fun _ => Nat.add_comm _ _
  | shutdown ending =>
    cases ending with
    | nothing => exact fun _ => Nat.add_comm _ _
    | marked =>
      intro _
      simp only [held, flatMap_append, flatMap_cons, flatMap_nil, append_nil, count_append]
      exact Nat.add_comm _ _
    | begun => exact fun _ => Nat.add_comm _ _
  | shutdownSequenceComplete closing => exact closing.accounts clears

theorem Performs.bare [DecidableEq Token]
    (bare : ∀ entry ∈ socket.sendQueue.entryList, entry.data = none -> entry.callback = none)
    (performs : Performs socket action outcome) :
    ∀ entry ∈ outcome.socket.sendQueue.entryList, entry.data = none -> entry.callback = none := by
  have carries := performs.carries
  intro entry mem noData
  cases carries with
  | quiet _ _ _ _ entries =>
    rcases entries entry mem with before | isMark
    · exact bare entry before noData
    · exact isMark.callback
  | failed _ _ _ _ _ _ _ entries =>
    rw [entries] at mem
    contradiction
  | accepts _ accepts =>
    rw [accepts.entries] at mem
    rcases mem_append.mp mem with before | isQueued
    · exact bare entry before noData
    · exact absurd noData (accepts.entry entry isQueued).1
  | wrote _ _ _ _ _ _ _ _ drained =>
    rcases drained.origin entry mem with before | ⟨_, _, _, remains⟩
    · exact bare entry before noData
    · obtain ⟨_, _, isLeft⟩ := remains.data
      rw [noData] at isLeft
      contradiction
  | removed _ _ _ _ _ _ _ _ entries =>
    rw [entries] at mem
    exact bare entry (mem_of_mem_eraseIdx mem) noData
  | swept _ _ _ _ _ entries =>
    rw [entries] at mem
    contradiction

theorem toList_of_own (isOwn : ∀ other ∈ callback, other = counter) :
    callback.toList = [] ∨ callback.toList = [counter] := by
  cases callback with
  | none => exact .inl rfl
  | some other => exact .inr (congrArg (fun value => [value]) (isOwn other rfl))

theorem Raw.promises (isOwn : ∀ other ∈ callback, other = counter)
    (raw : Raw entryCallback socket data isFile buffers counter options context callback reply outcome) :
    (outcome.events.flatMap promised = [] ∨ outcome.events.flatMap promised = [counter]) ∧
      outcome.socket.sendCounter = socket.sendCounter := by
  cases raw with
  | failed => exact ⟨.inl rfl, rfl⟩
  | copied threshold begun isPushed =>
    have isPromised := (begun.promised [] isOwn (append_nil _).symm).2
    rw [isPromised]
    exact ⟨toList_of_own isOwn, rfl⟩
  | written threshold begun attempted =>
    have isPromised := (begun.promised
      (callback.toList.map fun callback => (some context, callback)) isOwn rfl).2
    rw [isPromised]
    exact ⟨toList_of_own isOwn, rfl⟩
  | queued _ begun =>
    have isPromised := (begun.promised [] isOwn (append_nil _).symm).2
    rw [isPromised]
    exact ⟨toList_of_own isOwn, rfl⟩

def Promises (socket : StreamSocket Token) (outcome : Outcome Token) : Prop :=
  (outcome.events.flatMap Event.promised = [] ∧
      socket.sendCounter ≤ outcome.socket.sendCounter) ∨
    (outcome.events.flatMap Event.promised = [socket.sendCounter] ∧
      socket.sendCounter < outcome.socket.sendCounter)

theorem Sending.promises (sending : Sending socket options produced buffers reply outcome) :
    Promises socket outcome := by
  cases sending with
  | nothing same =>
    rcases same with rfl | rfl
    · exact .inl ⟨rfl, .refl⟩
    · exact .inl ⟨rfl, Nat.le_succ _⟩
  | raw _ _ own isRaw =>
    obtain ⟨isPromised, isCounter⟩ := isRaw.promises own
    have isNext : outcome.socket.sendCounter = socket.sendCounter + 1 := isCounter
    rcases isPromised with none | one
    · exact .inl ⟨none, by omega⟩
    · exact .inr ⟨one, by omega⟩
  | @silent callback context _ own =>
    have isPromised : (accepted socket.sendCounter [] options.foreignHandle
        callback.isSome :: dispatch .complete none (callback.toList.map fun callback =>
          (some context, callback))).flatMap promised = callback.toList := by
      rw [flatMap_cons, promised_dispatch, append_nil, promised_accepted own]
    rcases toList_of_own own with none | one
    · exact .inl ⟨isPromised.trans none, Nat.le_succ _⟩
    · exact .inr ⟨isPromised.trans one, Nat.lt_succ_self _⟩

theorem Performs.promises [DecidableEq Token] (performs : Performs socket action outcome) :
    Promises socket outcome := by
  cases performs with
  | send sending | sendCipherData sending => exact sending.promises
  | writable writing =>
    cases writing with
    | idle isCalls =>
      rcases isCalls with noCalls | ⟨_, _, isCalls⟩
      · subst noCalls
        exact .inl ⟨rfl, .refl⟩
      · subst isCalls
        exact .inl ⟨rfl, .refl⟩
    | wrote => exact .inl ⟨promised_dispatch _ _ _, .refl⟩
    | ended => exact .inl ⟨rfl, .refl⟩
  | sendDeadline removing | cancel removing =>
    cases removing with
    | kept => exact .inl ⟨rfl, .refl⟩
    | removed => exact .inl ⟨promised_dispatch _ _ _, .refl⟩
  | zeroCopyUpdate => exact .inl ⟨promised_dispatch _ _ _, .refl⟩
  | setZeroCopyThreshold | setWriteQueueHighWatermark => exact .inl ⟨rfl, .refl⟩
  | shutdown ending =>
    cases ending with
    | nothing | marked | begun => exact .inl ⟨rfl, .refl⟩
  | shutdownSequenceComplete closing =>
    cases closing with
    | nothing => exact .inl ⟨rfl, .refl⟩
    | swept => exact .inl ⟨promised_dispatch _ _ _, .refl⟩

structure Down (socket : StreamSocket Token) : Prop where
  canSend : socket.canSend = false
  entries : socket.sendQueue.entryList = []
  callbacks : socket.zeroCopyQueue.callbacks = []

theorem Down.held (down : Down socket) : socket.held = [] := by
  rw [StreamSocket.held, down.callbacks, down.entries]
  rfl

theorem Raw.down (shut : socket.isWritable = false) (down : Down socket)
    (raw : Raw entryCallback socket data isFile buffers counter options context callback reply outcome) :
    Down outcome.socket := by
  cases raw with
  | failed => exact ⟨down.canSend, down.entries, down.callbacks⟩
  | copied threshold begun isPushed =>
    generalize data.length = length at begun
    cases begun with
    | called _ writable => exact absurd (writable.symm.trans shut) (by decide)
  | written threshold begun attempted
  | queued _ _ attempted => exact absurd down.entries (attempted shut)

theorem Sending.down (shut : socket.isWritable = false) (down : Down socket)
    (sending : Sending socket options produced buffers reply outcome) : Down outcome.socket := by
  cases sending with
  | nothing same =>
    rcases same with rfl | rfl
    · exact down
    · exact ⟨down.canSend, down.entries, down.callbacks⟩
  | raw _ _ _ isRaw =>
    have isShut : socket.counted.isWritable = false := shut
    exact isRaw.down isShut ⟨down.canSend, down.entries, down.callbacks⟩
  | silent => exact ⟨down.canSend, down.entries, down.callbacks⟩

theorem Removing.down (down : Down socket)
    (removing : Removing socket removable index outcome) : Down outcome.socket := by
  cases removing with
  | kept => exact down
  | removed _ found =>
    rw [down.entries] at found
    contradiction

theorem Performs.down [DecidableEq Token] (shut : socket.isWritable = false) (down : Down socket)
    (performs : Performs socket action outcome) : Down outcome.socket := by
  cases performs with
  | send sending | sendCipherData sending => exact sending.down shut down
  | writable writing =>
    cases writing with
    | idle => exact ⟨down.canSend, down.entries, down.callbacks⟩
    | wrote writable => exact absurd (writable.symm.trans shut) (by decide)
    | ended isFront => exact absurd (down.entries.symm.trans isFront) (by simp)
  | sendDeadline removing | cancel removing => exact removing.down down
  | zeroCopyUpdate =>
    have updated := update_callbacks socket.zeroCopyQueue ‹ZeroCopy›
    rw [down.callbacks, perm_nil, callbacks, callbacksOf_append] at updated
    exact ⟨down.canSend, down.entries, (append_eq_nil_iff.mp updated).2⟩
  | setZeroCopyThreshold
  | setWriteQueueHighWatermark => exact ⟨down.canSend, down.entries, down.callbacks⟩
  | shutdown ending =>
    cases ending with
    | nothing => exact down
    | marked canSend => exact absurd (canSend.symm.trans down.canSend) (by decide)
    | begun => exact ⟨rfl, down.entries, down.callbacks⟩
  | shutdownSequenceComplete closing =>
    cases closing with
    | nothing => exact ⟨down.canSend, down.entries, down.callbacks⟩
    | swept _ _ writable => exact absurd (writable.symm.trans shut) (by decide)

/-- The send direction goes down only with the queues. -/
theorem Performs.goes_down [DecidableEq Token] (up : socket.isWritable = true)
    (shut : outcome.socket.isWritable = false) (performs : Performs socket action outcome) :
    Down outcome.socket := by
  have notSame : outcome.socket.isWritable ≠ socket.isWritable :=
    fun isSame => absurd (shut.symm.trans (isSame.trans up)) (by decide)
  rcases performs.isWritable with isSame | ⟨_, isAction, _⟩
  · contradiction
  · subst isAction
    cases performs with
    | shutdownSequenceComplete closing =>
      cases closing with
      | nothing => contradiction
      | swept _ ended => exact ⟨ended, rfl, rfl⟩

end StreamSocket

namespace SendHalf

open StreamSocket

def told (half : SendHalf Token) : List Nat :=
  half.events.flatMap Event.told

def promised (half : SendHalf Token) : List Nat :=
  half.events.flatMap Event.promised

structure Told (half : SendHalf Token) : Prop where
  once : ∀ callback, half.told.count callback ≤ 1
  completed : half.socket.isWritable = false ->
    ∀ callback ∈ half.promised, half.told.count callback = 1

structure Balanced (half : SendHalf Token) : Prop where
  sized : Sized half.socket.sendQueue
  bare : ∀ entry ∈ half.socket.sendQueue.entryList, entry.data = none -> entry.callback = none
  balance : ∀ callback, half.told.count callback + half.socket.held.count callback =
    half.promised.count callback
  counters : half.promised.Pairwise (· < ·)
  below : ∀ callback ∈ half.promised, callback < half.socket.sendCounter
  down : half.socket.isWritable = false -> Down half.socket

theorem Balanced.isTold {half : SendHalf Token} (balanced : Balanced half) : Told half := by
  have distinct : half.promised.Nodup := balanced.counters.imp Nat.ne_of_lt
  constructor
  · intro callback
    have balance := balanced.balance callback
    have atMost := nodup_iff_count_le_one.mp distinct callback
    omega
  · intro shut callback isPromised
    have balance := balanced.balance callback
    rw [(balanced.down shut).held, count_nil, Nat.add_zero] at balance
    rw [balance]
    exact count_eq_one_of_mem distinct isPromised

def Clears [DecidableEq Token] (half : SendHalf Token) (action : StreamSocket.Action Token) :
    Prop :=
  StreamSocket.Clears half.socket action

theorem step_balanced [DecidableEq Token] (half : SendHalf Token)
    (action : Action Token) (next : SendHalf Token) (balanced : Balanced half)
    (clears : Clears half action) (taken : half.step action = some next) : Balanced next := by
  obtain ⟨_, isOutcome, isNext⟩ := map_eq_some_iff.mp taken
  have performs := perform_cases balanced.sized.measured isOutcome
  subst isNext
  constructor
  case sized => exact performs.sized balanced.sized
  case bare => exact performs.bare balanced.bare
  case balance =>
    intro callback
    have before := balanced.balance callback
    have moved := performs.accounts balanced.bare clears callback
    simp only [told, promised, flatMap_append, count_append] at before ⊢
    omega
  case counters =>
    rw [promised, flatMap_append]
    rcases performs.promises with ⟨none, _⟩ | ⟨one, _⟩
    · rw [none, append_nil]
      exact balanced.counters
    · rw [one]
      refine pairwise_append.mpr ⟨balanced.counters, pairwise_singleton _ _, ?_⟩
      intro callback isPromised _ isNew
      rw [mem_singleton.mp isNew]
      exact balanced.below callback isPromised
  case below =>
    intro callback isPromised
    rw [promised, flatMap_append] at isPromised
    rcases performs.promises with ⟨none, counted⟩ | ⟨one, counted⟩
    · rw [none, append_nil] at isPromised
      exact Nat.lt_of_lt_of_le (balanced.below callback isPromised) counted
    · rw [one] at isPromised
      rcases mem_append.mp isPromised with before | isNew
      · exact Nat.lt_trans (balanced.below callback before) counted
      · rw [mem_singleton.mp isNew]
        exact counted
  case down =>
    intro shut
    cases isWritable : half.socket.isWritable with
    | false => exact performs.down isWritable (balanced.down isWritable)
    | true => exact performs.goes_down isWritable shut

theorem initial_balanced : Balanced ({} : SendHalf Token) where
  sized := ⟨rfl, forall_mem_nil _⟩
  bare := forall_mem_nil _
  balance := fun _ => rfl
  counters := Pairwise.nil
  below := forall_mem_nil _
  down := nofun

/-- In every run in which no removal and no shutdown finds a copy of a callback, each
callback is invoked once. -/
theorem told_of_clears [DecidableEq Token] (actions : List (StreamSocket.Action Token))
    (clears : Run.Along step Clears ({} : SendHalf Token) actions) :
    Run.Always step Told ({} : SendHalf Token) actions :=
  (Run.always_of_along step_balanced initial_balanced clears).mono fun _ balanced => balanced.isTold

def completedAndCancelled : List (StreamSocket.Action Nat) :=
  [.setZeroCopyThreshold (some 1), .send (.data [1, 2] false {}) {} true {} (.sent 1 true),
    .writable {} (fun _ => []) (.sent 1 true), .zeroCopyUpdate ⟨0, 1, by decide, by decide⟩ true,
    .send (.blob [3]) {} true {} .wouldBlock, .shutdown false, .shutdownSequenceComplete true]

/-- The first callback is told of the completion, the second one of the cancellation. -/
theorem completedAndCancelled_told :
    Run.Always step Told ({} : SendHalf Nat) completedAndCancelled ∧
      ∃ final, Run.run step ({} : SendHalf Nat) completedAndCancelled = some final ∧
        final.told = [0, 1] := by
  refine ⟨told_of_clears completedAndCancelled ?_, _, rfl, rfl⟩
  refine ⟨trivial, trivial, trivial, trivial, trivial, trivial, ?_, trivial⟩
  intro _ _ _ mem
  cases mem_singleton.mp mem
  exact .inl rfl

def shutBegun : List (StreamSocket.Action Nat) :=
  [.setZeroCopyThreshold (some 1), .send (.data [1, 2] false {}) {} true {} (.sent 1 true),
    .shutdown false, .shutdownSequenceComplete true]

/-- The callback is invoked twice. -/
theorem shutBegun_told_twice : ¬ Run.Always step Told ({} : SendHalf Nat) shutBegun ∧
      ∃ final, Run.run step ({} : SendHalf Nat) shutBegun = some final ∧ final.told = [0, 0] := by
  constructor
  · intro always
    obtain ⟨_, _, _, _, told⟩ := always
    exact absurd (told.once 0) (by decide)
  · exact ⟨_, rfl, rfl⟩

end SendHalf

end NtfCore.Ntcr
