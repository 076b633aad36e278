import NtfCore.Ntcr.StreamSocket.Model

/-!
Contract: what each critical section of the sending half can do.

Owns: for each operation, the list of its outcomes in terms of the queues and of what
is observed; the batch of a writable event as a prefix of the queued data; and the
entries that a writable event leaves.
-/

namespace NtfCore.Ntcr.StreamSocket

open NtfCore.Ntcq List Option SendQueueEntry SendQueue

variable {Token : Type}

/-- What a call of the system can do: nothing, or write some bytes. Only the threshold
of the socket changes. -/
theorem privateEnqueueSendBuffer_cases (socket : StreamSocket Token) (data : List UInt8)
    (isFile : Bool) (foreign : Option Int) (owners : Nat -> List Nat) (reply : Reply) :
    ∃ error bytesSent zeroCopy threshold events,
      socket.privateEnqueueSendBuffer data isFile foreign owners reply =
        { error := error, bytesSent := bytesSent, zeroCopy := zeroCopy,
          socket := { socket with zeroCopyThreshold := threshold }, events := events } ∧
      (((error = some .failed ∧ (socket.isWritable = true -> reply = .failed) ∨
          error = some .wouldBlock ∧ socket.isWritable = true) ∧
          bytesSent = 0 ∧ zeroCopy = false ∧ events = []) ∨
        (socket.isWritable = true ∧ bytesSent ≤ data.length ∧
          error = (if bytesSent = 0 ∧ data ≠ [] then some .wouldBlock else none) ∧
          events = [.wrote (owners bytesSent) (data.take bytesSent) foreign zeroCopy] ∧
          ∃ numBytes wanted, reply = .sent numBytes wanted ∧ bytesSent = min numBytes data.length)) :=
    by
  unfold privateEnqueueSendBuffer
  split
  · rename_i writable
    cases reply with
    | failed => exact ⟨_, _, _, _, _, rfl, .inl ⟨.inl ⟨rfl, fun _ => rfl⟩, rfl, rfl, rfl⟩⟩
    | wouldBlock => exact ⟨_, _, _, _, _, rfl, .inl ⟨.inr ⟨rfl, writable⟩, rfl, rfl, rfl⟩⟩
    | sent numBytes =>
      exact ⟨_, _, _, _, _, rfl, .inr ⟨writable, Nat.min_le_right numBytes data.length, rfl, rfl,
        _, _, rfl, rfl⟩⟩
  · rename_i writable
    exact ⟨_, _, _, _, _, rfl, .inl ⟨.inl ⟨rfl, fun isWritable => absurd isWritable writable⟩,
      rfl, rfl, rfl⟩⟩

/-- What the direct attempt has done when it is not an error: nothing, or one call of
the system that began the data while the queue was empty. -/
inductive Begun (socket : StreamSocket Token) (counter : Nat) (data : List UInt8)
    (foreignHandle : Option Int) : Nat -> Bool -> List (Event Token) -> Prop where
  | nothing : Begun socket counter data foreignHandle 0 false []
  | called {numBytes : Nat} {zeroCopy : Bool} (empty : socket.sendQueue.entryList = [])
      (writable : socket.isWritable = true) (fits : numBytes ≤ data.length) :
      Begun socket counter data foreignHandle numBytes zeroCopy
        [.wrote (if numBytes = 0 then [] else [counter]) (data.take numBytes) foreignHandle zeroCopy]

theorem attemptSend_cases (socket : StreamSocket Token) (data : List UInt8) (isFile : Bool)
    (counter : Nat) (foreign : Option Int) (reply : Reply) :
    ∃ error bytesSent zeroCopy threshold events,
      socket.attemptSend data isFile counter foreign reply =
        { error := error, bytesSent := bytesSent, zeroCopy := zeroCopy,
          socket := { socket with zeroCopyThreshold := threshold }, events := events } ∧
      ((error = some .failed ∧ socket.sendQueue.entryList = [] ∧ events = [] ∧
          (socket.isWritable = true -> reply = .failed)) ∨
        (error ≠ some .failed ∧ (socket.isWritable = false -> socket.sendQueue.entryList ≠ []) ∧
          (bytesSent ≠ 0 -> ∃ numBytes wanted, reply = .sent numBytes wanted ∧
            bytesSent = min numBytes data.length) ∧
          Begun socket counter data foreign bytesSent zeroCopy events)) := by
  unfold attemptSend
  cases isEntries : socket.sendQueue.entryList with
  | nil =>
    obtain ⟨error, bytesSent, zeroCopy, threshold, events, isAttempt, cases⟩ :=
      socket.privateEnqueueSendBuffer_cases data isFile foreign
        (fun numBytes => if numBytes = 0 then [] else [counter]) reply
    refine ⟨error, bytesSent, zeroCopy, threshold, events, isAttempt, ?_⟩
    rcases cases with ⟨errors, isZero, isCopy, noEvents⟩ |
      ⟨writable, fits, isError, isEvents, answered⟩
    · rcases errors with ⟨isFailed, answered⟩ | ⟨isBlocked, writable⟩
      · exact .inl ⟨isFailed, rfl, noEvents, answered⟩
      · refine .inr ⟨by rw [isBlocked]; simp, fun shut => ?_, fun sent => absurd isZero sent, ?_⟩
        · rw [writable] at shut
          contradiction
        · rw [isZero, isCopy, noEvents]
          exact Begun.nothing
    · refine .inr ⟨?_, fun shut => ?_, fun _ => answered, ?_⟩
      · rw [isError]
        split
        · simp
        · simp
      · rw [writable] at shut
        contradiction
      · rw [isEvents]
        exact Begun.called isEntries writable fits
  | cons =>
    rw [isEmpty_cons, if_neg (by decide)]
    exact ⟨_, _, _, socket.zeroCopyThreshold, _, rfl,
      .inr ⟨nofun, fun _ => cons_ne_nil _ _, fun sent => absurd rfl sent, Begun.nothing⟩⟩

variable {data : List UInt8}

theorem entryFor_measured {popped : Nat} (partly : popped < data.length) (bytesSent : Nat)
    (zeroCopy : Bool) (buffers : Buffers) (isFile : Bool) (counter : Nat)
    (options : SendOptions Token) (context : SendContext Token) (callback : Option Nat) :
    (entryFor bytesSent zeroCopy (data.drop popped) buffers isFile counter options context
      callback).measured = true := by
  have remaining : 0 < (data.drop popped).length := by
    rw [length_drop]
    omega
  simp only [entryFor, measured, beq_self_eq_true, Bool.and_true]
  exact decide_eq_true remaining

/-- What `privateSendRaw` can do: fail, write all of the data, or put what is left of
them on the queue. It may drop more of an array of buffers than was sent. -/
inductive Raw (entryCallback : Bool -> Option Nat) (socket : StreamSocket Token) (data : List UInt8)
    (isFile : Bool) (buffers : Buffers) (counter : Nat) (options : SendOptions Token) (context : SendContext Token)
    (callback : Option Nat) (reply : Reply) : Outcome Token -> Prop where
  | failed (threshold : Option Nat) (empty : socket.sendQueue.entryList = [])
      (answered : socket.isWritable = true -> reply = .failed) :
      Raw entryCallback socket data isFile buffers counter options context callback reply
        { error := some .failed, socket := { socket with
          zeroCopyThreshold := threshold },
          events := [.handed counter data] }
  | copied {calls : List (Event Token)} {number : Nat} {pushed framed : ZeroCopies Token}
      (threshold : Option Nat)
      (begun : Begun socket counter data options.foreignHandle data.length true calls)
      (isPushed : socket.zeroCopyQueue.push counter data (some context) callback =
        some (number, pushed))
      (isFramed : pushed.frame counter = some framed) :
      Raw entryCallback socket data isFile buffers counter options context callback reply
        { socket := { socket with
          zeroCopyThreshold := threshold, zeroCopyQueue := framed },
          events := .handed counter data :: calls ++
            [.accepted counter data options.foreignHandle callback.isSome] }
  | written {calls : List (Event Token)} (threshold : Option Nat)
      (begun : Begun socket counter data options.foreignHandle data.length false calls)
      (attempted : socket.isWritable = false -> socket.sendQueue.entryList ≠ []) :
      Raw entryCallback socket data isFile buffers counter options context callback reply
        { socket := { socket with
          zeroCopyThreshold := threshold },
          events := .handed counter data :: calls ++
            [.accepted counter data options.foreignHandle callback.isSome] ++
            dispatch .complete none (callback.toList.map fun callback => (some context, callback)) }
  | queued {calls : List (Event Token)} {bytesSent popped : Nat} {zeroCopy : Bool}
      {rest : Buffers} {zeroCopyQueue : ZeroCopies Token} (threshold : Option Nat)
      (begun : Begun socket counter data options.foreignHandle bytesSent zeroCopy calls)
      (attempted : socket.isWritable = false -> socket.sendQueue.entryList ≠ [])
      (partly : popped < data.length)
      (isPushed : pushRemainder socket.zeroCopyQueue zeroCopy counter (data.drop popped) context
        callback = some zeroCopyQueue)
      (answered : bytesSent ≠ 0 -> ∃ wanted, reply = .sent bytesSent wanted)
      (within : bytesSent ≤ popped)
      (isPopped : buffers.pop bytesSent data = some (rest, data.drop popped)) :
      Raw entryCallback socket data isFile buffers counter options context callback reply
        { socket := { socket with
            zeroCopyThreshold := threshold, zeroCopyQueue := zeroCopyQueue
            sendQueue := ⟨socket.sendQueue.entryList ++ [entryFor bytesSent zeroCopy
              (data.drop popped) rest isFile counter options context (entryCallback zeroCopy)],
              socket.sendQueue.size + (data.drop popped).length⟩ }
          events := .handed counter data :: calls ++
            [.accepted counter data options.foreignHandle callback.isSome] }

variable {socket : StreamSocket Token} {zeroCopy : Bool} {counter numBytes : Nat}

theorem Begun.fits {foreign : Option Int} {calls : List (Event Token)}
    (begun : Begun socket counter data foreign numBytes zeroCopy calls) :
    numBytes ≤ data.length := by
  cases begun with
  | nothing => exact Nat.zero_le _
  | called _ _ fits => exact fits

variable {outcome : Outcome Token} {options : SendOptions Token} {reply : Reply}

variable {context : SendContext Token} {callback : Option Nat}

theorem privateSendRaw_cases {entryCallback : Bool -> Option Nat} {isFile : Bool}
    {buffers : Buffers} (taken : privateSendRaw entryCallback socket data isFile buffers counter
      options context callback reply = some outcome) :
    Raw entryCallback socket data isFile buffers counter options context callback reply outcome := by
  obtain ⟨_, bytesSent, zeroCopy, threshold, _, isAttempt, cases⟩ :=
    socket.attemptSend_cases data isFile counter options.foreignHandle reply
  unfold privateSendRaw at taken
  rw [isAttempt] at taken
  dsimp only at taken
  rcases cases with ⟨isFailed, empty, noCalls, answered⟩ | ⟨notFailed, attempted, answered, begun⟩
  · rw [if_pos isFailed, noCalls] at taken
    cases taken
    exact .failed threshold empty answered
  · rw [if_neg notFailed] at taken
    split at taken
    · rename_i whole
      rw [whole] at begun
      cases zeroCopy with
      | true =>
        obtain ⟨⟨_, _⟩, isPushed, taken⟩ := bind_eq_some_iff.mp taken
        obtain ⟨_, isFramed, taken⟩ := bind_eq_some_iff.mp taken
        cases taken
        exact .copied threshold begun isPushed isFramed
      | false =>
        rw [if_neg (by decide)] at taken
        cases taken
        exact .written threshold begun attempted
    · rename_i whole
      obtain ⟨⟨_, _⟩, isPopped, taken⟩ := bind_eq_some_iff.mp taken
      obtain ⟨more, isLeft⟩ := Buffers.drop_of_popLoop isPopped
      subst isLeft
      obtain ⟨_, isPushed, taken⟩ := bind_eq_some_iff.mp taken
      obtain ⟨⟨_, _⟩, isQueue, taken⟩ := bind_eq_some_iff.mp taken
      have partly : bytesSent + more < data.length := by
        by_contra exceeds
        rw [drop_eq_nil_of_le (Nat.le_of_not_lt exceeds)] at isQueue
        contradiction
      rw [SendSystem.pushEntry_eq (entryFor_measured partly _ _ _ _ _ _ _ _), some.injEq,
        Prod.mk.injEq] at isQueue
      rw [← some.inj taken, ← isQueue.2]
      refine .queued threshold begun attempted partly isPushed ?_ (Nat.le_add_right _ _) isPopped
      intro sent
      obtain ⟨numBytes, wanted, isReply, isCount⟩ := answered sent
      exact ⟨wanted, by rw [isReply, show numBytes = bytesSent by omega]⟩

def counted (socket : StreamSocket Token) : StreamSocket Token :=
  { socket with sendCounter := socket.sendCounter + 1 }

structure Assigns (entryCallback : Bool -> Option Nat) (callback : Option Nat) : Prop where
  plain : entryCallback false = callback
  copied : entryCallback true = callback ∨ entryCallback true = none

/-- The buffers of the data handed to `privateSendRaw`. What a plug-in produces is a
blob. -/
def gathered (plugIns : PlugIns) (message : Message) : Buffers :=
  match plugIns.deflate, plugIns.encrypt with
  | none, none => message.buffers
  | _, _ => {}

def produce (plugIns : PlugIns) (data : List UInt8) : Option (List UInt8) :=
  match plugIns.deflate with
  | none =>
    match plugIns.encrypt with
    | none => some data
    | some encrypt => encrypt data
  | some deflate =>
    match deflate data with
    | none => none
    | some deflatedData =>
      match plugIns.encrypt with
      | none => some deflatedData
      | some encrypt => encrypt deflatedData

/-- What a send can do, its own and that of the encryption session: nothing, hand what
is produced of its data to `privateSendRaw`, or complete when that is nothing. -/
inductive Sending (socket : StreamSocket Token) (options : SendOptions Token)
    (produced : Option (List UInt8)) (buffers : Buffers) (reply : Reply) : Outcome Token -> Prop where
  | nothing {error : Option Error} {next : StreamSocket Token}
      (same : next = socket ∨ next = socket.counted) :
      Sending socket options produced buffers reply { error := error, socket := next }
  | raw {entryCallback : Bool -> Option Nat} {callback : Option Nat} {record : List UInt8}
      {isFile : Bool} {context : SendContext Token} {outcome : Outcome Token}
      (isRecord : produced = some record) (assigns : Assigns entryCallback callback)
      (own : ∀ counter ∈ callback, counter = socket.sendCounter)
      (isRaw : Raw entryCallback socket.counted record isFile buffers socket.sendCounter options
        context callback reply outcome) :
      Sending socket options produced buffers reply outcome
  | silent {callback : Option Nat} {context : SendContext Token} (isRecord : produced = some [])
      (own : ∀ counter ∈ callback, counter = socket.sendCounter) :
      Sending socket options produced buffers reply
        { socket := socket.counted
          events := Event.accepted socket.sendCounter [] options.foreignHandle callback.isSome ::
            dispatch .complete none (callback.toList.map fun callback => (some context, callback)) }

theorem privateSendRawBlob_cases (own : ∀ counter ∈ callback, counter = socket.sendCounter)
    (taken : socket.counted.privateSendRawBlob data socket.sendCounter options context callback
      reply = some outcome) : Sending socket options (some data) {} reply outcome :=
  .raw rfl ⟨rfl, .inr rfl⟩ own (privateSendRaw_cases taken)

theorem privateSendEncrypted_cases {cipherData : Option (List UInt8)}
    (own : ∀ counter ∈ callback, counter = socket.sendCounter)
    (taken : socket.counted.privateSendEncrypted cipherData socket.sendCounter options context
      callback reply = some outcome) : Sending socket options cipherData {} reply outcome := by
  unfold privateSendEncrypted at taken
  cases cipherData with
  | none =>
    cases taken
    exact .nothing (.inr rfl)
  | some cipherData =>
    dsimp only at taken
    split at taken
    · exact privateSendRawBlob_cases own taken
    · rename_i noCipherData
      have isEmpty : cipherData = [] := eq_nil_of_length_eq_zero (by omega)
      cases taken
      exact .silent (congrArg some isEmpty) own

theorem send_cases {message : Message} {hasCallback : Bool} {plugIns : PlugIns}
    (taken : socket.send message options hasCallback plugIns reply = some outcome) :
    Sending socket options (produce plugIns message.bytes) (gathered plugIns message) reply outcome
    := by
  have own : ∀ counter ∈ (if hasCallback then some socket.sendCounter else none),
      counter = socket.sendCounter := by
    intro counter mem
    split at mem
    · exact (some.inj mem).symm
    · contradiction
  unfold send at taken
  dsimp only at taken
  split at taken
  · cases taken
    exact .nothing (.inr rfl)
  · split at taken
    · cases taken
      exact .nothing (.inr rfl)
    · unfold produce gathered
      cases isDeflate : plugIns.deflate with
      | none =>
        rw [isDeflate] at taken
        cases isEncrypt : plugIns.encrypt with
        | none =>
          rw [isEncrypt] at taken
          cases message with
          | blob bytes => exact privateSendRawBlob_cases own taken
          | data => exact .raw rfl ⟨rfl, .inl rfl⟩ own (privateSendRaw_cases taken)
        | some encrypt =>
          rw [isEncrypt] at taken
          exact privateSendEncrypted_cases own taken
      | some deflate =>
        rw [isDeflate] at taken
        dsimp only at taken ⊢
        cases isDeflated : deflate message.bytes with
        | none =>
          rw [isDeflated] at taken
          cases taken
          exact .nothing (.inr rfl)
        | some =>
          rw [isDeflated] at taken
          cases isEncrypt : plugIns.encrypt with
          | none =>
            rw [isEncrypt] at taken
            exact privateSendRawBlob_cases own taken
          | some =>
            rw [isEncrypt] at taken
            exact privateSendEncrypted_cases own taken

theorem sendCipherData_cases {cipherData : List UInt8}
    (taken : socket.sendCipherData cipherData reply = some outcome) :
    Sending socket {} (some cipherData) {} reply outcome := by
  unfold sendCipherData at taken
  split at taken
  · exact privateSendRawBlob_cases (by simp) taken
  · cases taken
    exact .nothing (.inl rfl)

/-! ## Batches -/

theorem buffersOf_flatten (sizes : List Nat) (data : List UInt8) :
    (buffersOf sizes data).flatten = data := by
  induction sizes generalizing data with
  | nil =>
    cases data with
    | nil => rfl
    | cons => simp [buffersOf]
  | cons _ _ ih => rw [buffersOf, flatten_cons, ih, take_append_drop]

theorem batchBuffers_spec (limits : Limits) (buffers batch : List (List UInt8)) :
    ∃ taken rest, buffers = taken ++ rest ∧ (batchBuffers limits buffers batch).1 = batch ++ taken ∧
      ((batchBuffers limits buffers batch).2 = true -> rest = []) := by
  induction buffers generalizing batch with
  | nil => exact ⟨[], [], rfl, (append_nil _).symm, fun _ => rfl⟩
  | cons buffer buffers ih =>
    rw [batchBuffers]
    split
    · exact ⟨[], buffer :: buffers, rfl, (append_nil _).symm, nofun⟩
    · split
      · exact ⟨[], buffer :: buffers, rfl, (append_nil _).symm, nofun⟩
      · obtain ⟨taken, rest, isBuffers, isBatch, complete⟩ := ih (batch ++ [buffer])
        refine ⟨buffer :: taken, rest, by rw [isBuffers]; rfl, ?_, complete⟩
        rw [isBatch, append_assoc, singleton_append]

def batchable (entries : List (Entry Token)) : List UInt8 :=
  (entries.takeWhile isBatchable).flatMap SendQueueEntry.bytes

theorem batchEntries_initial (limits : Limits) (layout : Nat -> List Nat)
    (entries : List (Entry Token)) (batch : List (List UInt8)) :
    (batchEntries limits layout entries batch).flatten <+: batch.flatten ++ batchable entries := by
  unfold batchable
  induction entries generalizing batch with
  | nil => simp [batchEntries]
  | cons entry _ ih =>
    rw [batchEntries]
    split
    · rename_i accepted
      obtain ⟨taken, later, isBuffers, isBatch, complete⟩ :=
        batchBuffers_spec limits (buffersOf (layout entry.id) entry.bytes) batch
      have isBytes : entry.bytes = taken.flatten ++ later.flatten := by
        rw [← flatten_append, ← isBuffers, buffersOf_flatten]
      rw [takeWhile_cons_of_pos accepted, flatMap_cons]
      split
      · rename_i more isMore
        rw [isMore] at isBatch complete
        have next := ih more
        rw [show more = batch ++ taken from isBatch, flatten_append] at next
        rw [isBytes, complete rfl, flatten_nil, append_nil, ← append_assoc,
          show more = batch ++ taken from isBatch]
        exact next
      · rename_i more isMore
        rw [isMore] at isBatch
        rw [show more = batch ++ taken from isBatch, isBytes, flatten_append,
          append_assoc taken.flatten, ← append_assoc batch.flatten]
        exact prefix_append _ _
    · exact prefix_append _ _

variable {queue : SendQueue Token (SendContext Token) Nat} {layout : Nat -> List Nat}

variable {batch : List UInt8}

theorem batchNext_initial {limits : Limits}
    (taken : batchNext queue limits layout = some batch) : batch <+: batchable queue.entryList := by
  unfold batchNext at taken
  split at taken
  · contradiction
  · have isPrefix := batchEntries_initial limits layout queue.entryList []
    split at taken
    · contradiction
    · rename_i isBatch
      rw [isBatch] at isPrefix
      cases taken
      exact isPrefix

theorem batchable_initial (entries : List (Entry Token)) :
    batchable entries <+: entries.flatMap bytes := by
  have isSplit := takeWhile_append_dropWhile (p := isBatchable) (l := entries)
  conv => rhs; rw [← isSplit]
  rw [flatMap_append]
  exact prefix_append _ _

/-! ## Entries that are written -/

structure Remains (numBytes : Nat) (entry left : Entry Token) : Prop where
  id : left.id = entry.id
  data : ∃ data, entry.data = some data ∧ left.data = some (data.drop numBytes)
  length : left.length = entry.length - numBytes
  token : left.token = entry.token
  foreignHandle : left.foreignHandle = entry.foreignHandle
  deadline : left.deadline = none
  inProgress : left.inProgress = true

inductive Drained : Nat -> List (Entry Token) -> List (Entry Token) -> Prop where
  | stop (entries : List (Entry Token)) : Drained 0 entries entries
  | whole {numBytes : Nat} {entry : Entry Token} {rest left : List (Entry Token)}
      (positive : 0 < numBytes) (fits : entry.length ≤ numBytes)
      (later : Drained (numBytes - entry.length) rest left) : Drained numBytes (entry :: rest) left
  | part {numBytes : Nat} {entry left : Entry Token} {rest : List (Entry Token)}
      (positive : 0 < numBytes) (inside : numBytes < entry.length)
      (remains : Remains numBytes entry left) : Drained numBytes (entry :: rest) (left :: rest)

variable {zeroCopyQueue next : ZeroCopies Token} {entry started : Entry Token}

/-- `beginEntry` touches the deadline, the callback and the zero-copy flag only. -/
theorem beginEntry_cases (taken : beginEntry zeroCopyQueue entry zeroCopy = some (next, started)) :
    ∃ timer callback flag, started = { entry with
      deadline := none, timer := timer, callback := callback, zeroCopy := flag } ∧
      ((zeroCopy = false ∧ next = zeroCopyQueue ∧ callback = entry.callback ∧
          flag = entry.zeroCopy) ∨
        (zeroCopy = true ∧ entry.zeroCopy = true ∧ callback = entry.callback ∧ flag = true ∧
          ∃ number, zeroCopyQueue.extend entry.id = some (number, next)) ∨
        (zeroCopy = true ∧ entry.zeroCopy = false ∧ callback = none ∧ flag = true ∧
          ∃ number, zeroCopyQueue.push entry.id entry.bytes entry.context entry.callback =
            some (number, next))) := by
  unfold beginEntry at taken
  have isStarted : ∃ timer, (if entry.deadline.isSome then
      { entry.closeTimer with deadline := none } else entry) =
        { entry with deadline := none, timer := timer } := by
    cases isDeadline : entry.deadline with
    | none =>
      refine ⟨entry.timer, ?_⟩
      cases entry
      subst isDeadline
      rfl
    | some => exact ⟨none, rfl⟩
  obtain ⟨timer, isStarted⟩ := isStarted
  rw [isStarted] at taken
  cases zeroCopy with
  | false =>
    rw [if_neg (by decide), some.injEq, Prod.mk.injEq] at taken
    exact ⟨timer, _, _, taken.2.symm, .inl ⟨rfl, taken.1.symm, rfl, rfl⟩⟩
  | true =>
    rw [if_pos rfl] at taken
    cases isFlag : entry.zeroCopy with
    | true =>
      rw [isFlag, if_pos rfl, map_eq_some_iff] at taken
      obtain ⟨⟨number, _⟩, isExtended, isNext⟩ := taken
      rw [Prod.mk.injEq] at isNext
      refine ⟨timer, entry.callback, true, ?_, .inr (.inl ⟨rfl, rfl, rfl, rfl, number, ?_⟩)⟩
      · rw [← isNext.2, ← isFlag]
      · rw [isExtended, ← isNext.1]
    | false =>
      rw [isFlag, if_neg (by decide), map_eq_some_iff] at taken
      obtain ⟨⟨number, _⟩, isPushed, isNext⟩ := taken
      rw [Prod.mk.injEq] at isNext
      refine ⟨timer, none, true, ?_, .inr (.inr ⟨rfl, rfl, rfl, rfl, number, ?_⟩)⟩
      · rw [← isNext.2]
      · rw [← isNext.1]
        exact isPushed

inductive Writes (zeroCopy : Bool) : List (Entry Token) -> Nat -> Nat -> ZeroCopies Token ->
    SendQueue Token (SendContext Token) Nat -> ZeroCopies Token -> List (Notice Token) -> Prop where
  | stop (entries : List (Entry Token)) (size : Nat) (zeroCopyQueue : ZeroCopies Token) :
      Writes zeroCopy entries size 0 zeroCopyQueue ⟨entries, size⟩ zeroCopyQueue []
  | whole {entry started : Entry Token} {rest : List (Entry Token)}
      {size numBytes released : Nat} {before begun finished after : ZeroCopies Token}
      {queue : SendQueue Token (SendContext Token) Nat} {notice : Option (Notice Token)}
      {notices : List (Notice Token)} (positive : 0 < numBytes)
      (isBegun : beginEntry before entry zeroCopy = some (begun, started))
      (fits : entry.length ≤ numBytes)
      (isFinished : finishEntry begun started = some (finished, notice))
      (isReleased : SendQueue.releaseSize size started = some released)
      (later : Writes zeroCopy rest released (numBytes - entry.length) finished queue after notices) :
      Writes zeroCopy (entry :: rest) size numBytes before queue after (notice.toList ++ notices)
  | part {entry started : Entry Token} {rest : List (Entry Token)} {size numBytes : Nat}
      {before begun : ZeroCopies Token} {queue : SendQueue Token (SendContext Token) Nat}
      (positive : 0 < numBytes)
      (isBegun : beginEntry before entry zeroCopy = some (begun, started))
      (inside : numBytes < entry.length)
      (isPopped : SendQueue.popSize ⟨started :: rest, size⟩ numBytes = some queue) :
      Writes zeroCopy (entry :: rest) size numBytes before queue begun []

theorem beginEntry_length (taken : beginEntry zeroCopyQueue entry zeroCopy = some (next, started)) :
    started.length = entry.length := by
  obtain ⟨_, _, _, isStarted, _⟩ := beginEntry_cases taken
  rw [isStarted]

variable {entry : Entry Token} {rest : List (Entry Token)}

theorem popEntry_cases {size : Nat} {result : Bool × SendQueue Token (SendContext Token) Nat}
    (taken : popEntry ⟨entry :: rest, size⟩ = some result) :
    ∃ released, releaseSize size entry = some released ∧ result.2 = ⟨rest, released⟩ := by
  unfold popEntry at taken
  dsimp only at taken
  split at taken
  · rename_i released isReleased
    refine ⟨released, isReleased, ?_⟩
    rw [← some.inj taken]
  · contradiction

variable {before after : ZeroCopies Token} {size numBytes : Nat} {notices : List (Notice Token)}
  {entries : List (Entry Token)}

theorem batchLoop_writes
    (taken : batchLoop zeroCopy entries size numBytes before = some (queue, after, notices)) :
    Writes zeroCopy entries size numBytes before queue after notices := by
  induction entries generalizing size numBytes before queue after notices with
  | nil =>
    rw [batchLoop] at taken
    split at taken
    · rename_i isZero
      rw [some.injEq, Prod.mk.injEq, Prod.mk.injEq] at taken
      obtain ⟨isQueue, isAfter, isNotices⟩ := taken
      rw [isZero, ← isQueue, ← isAfter, ← isNotices]
      exact .stop [] size before
    · contradiction
  | cons _ _ ih =>
    rw [batchLoop] at taken
    split at taken
    · rename_i isZero
      rw [some.injEq, Prod.mk.injEq, Prod.mk.injEq] at taken
      obtain ⟨isQueue, isAfter, isNotices⟩ := taken
      rw [isZero, ← isQueue, ← isAfter, ← isNotices]
      exact .stop _ size before
    · rename_i notZero
      have pos : 0 < numBytes := Nat.pos_of_ne_zero notZero
      obtain ⟨⟨_, _⟩, isBegun, taken⟩ := bind_eq_some_iff.mp taken
      have sameLength := beginEntry_length isBegun
      dsimp only at taken
      split at taken
      · rename_i fits
        rw [sameLength] at fits
        obtain ⟨⟨_, _⟩, isFinished, taken⟩ := bind_eq_some_iff.mp taken
        obtain ⟨_, isPopped, taken⟩ := bind_eq_some_iff.mp taken
        obtain ⟨_, isReleased, isQueue⟩ := popEntry_cases isPopped
        obtain ⟨⟨left, _, _⟩, isLoop, taken⟩ := bind_eq_some_iff.mp taken
        rw [isQueue, sameLength] at isLoop
        rw [some.injEq, Prod.mk.injEq, Prod.mk.injEq] at taken
        obtain ⟨isLeft, isLast, isNotices⟩ := taken
        rw [← isLeft, ← isLast, ← isNotices]
        exact .whole pos isBegun fits isFinished isReleased (ih isLoop)
      · rename_i exceeds
        rw [sameLength] at exceeds
        obtain ⟨_, isPopped, taken⟩ := bind_eq_some_iff.mp taken
        rw [some.injEq, Prod.mk.injEq, Prod.mk.injEq] at taken
        obtain ⟨isLeft, isLast, isNotices⟩ := taken
        rw [← isLeft, ← isLast, ← isNotices]
        exact .part pos isBegun (Nat.lt_of_not_le exceeds) isPopped

theorem batchLoop_zero (zeroCopy : Bool) (entries : List (Entry Token)) (size : Nat)
    (zeroCopyQueue : ZeroCopies Token) :
    batchLoop zeroCopy entries size 0 zeroCopyQueue = some (⟨entries, size⟩, zeroCopyQueue, [])
    := by
  cases entries with
  | nil | cons _ _ => rw [batchLoop, if_pos rfl]

theorem popSize_cases (taken : popSize ⟨entry :: rest, size⟩ numBytes = some queue) :
    ∃ data buffers, entry.data = some data ∧ data.length = entry.length ∧
      numBytes ≤ entry.length ∧ numBytes ≤ size ∧ queue = ⟨{ entry.closeTimer with
        data := some (data.drop numBytes)
        layout := buffers
        inProgress := true
        length := entry.length - numBytes } :: rest, size - numBytes⟩ := by
  unfold popSize at taken
  dsimp only at taken
  split at taken
  · contradiction
  · rename_i data isData
    split at taken
    · contradiction
    · rename_i buffers left isPopped
      split at taken
      · rename_i conditions
        have isLeft : left = data.drop numBytes :=
          Buffers.eq_drop_of_pop isPopped (conditions.1.symm ▸ conditions.2.2.1)
        subst isLeft
        exact ⟨data, buffers, isData, conditions.1, conditions.2.1, conditions.2.2.2,
          (some.inj taken).symm⟩
      · contradiction

theorem Writes.drained (writes : Writes zeroCopy entries size numBytes before queue after notices) :
    Drained numBytes entries queue.entryList := by
  induction writes with
  | stop entries => exact .stop entries
  | whole pos _ fits _ _ _ ih => exact .whole pos fits ih
  | part pos isBegun inside isPopped =>
    obtain ⟨_, _, _, isStarted, _⟩ := beginEntry_cases isBegun
    obtain ⟨data, _, isData, _, _, _, isQueue⟩ := popSize_cases isPopped
    rw [isStarted] at isData isQueue
    rw [isQueue]
    exact .part pos inside ⟨rfl, ⟨data, isData, rfl⟩, rfl, rfl, rfl, rfl, rfl⟩

/-- The bytes that a writable event may write with one call of the system: of the
entries that are batched, without a handle, or of the entry in front, with its
handle. -/
inductive Reach (entries : List (Entry Token)) (numBytes : Nat) : Option Int -> Prop where
  | batch (fits : numBytes ≤ (batchable entries).length) : Reach entries numBytes none
  | front {entry : Entry Token} {rest : List (Entry Token)} (isFront : entries = entry :: rest)
      (hasData : entry.data.isSome = true) (fits : numBytes ≤ entry.bytes.length) :
      Reach entries numBytes entry.foreignHandle

inductive Writing (socket : StreamSocket Token) : Outcome Token -> Prop where
  | idle {error : Option Error} {threshold : Option Nat} {calls : List (Event Token)}
      (isCalls : calls = [] ∨ ∃ foreignHandle zeroCopy,
        calls = [.wrote [] [] foreignHandle zeroCopy]) :
      Writing socket
        { error := error, socket := { socket with zeroCopyThreshold := threshold }, events := calls }
  | wrote {threshold : Option Nat} {numBytes : Nat} {zeroCopy : Bool} {foreignHandle : Option Int}
      {queue : SendQueue Token (SendContext Token) Nat} {zeroCopyQueue : ZeroCopies Token}
      {notices : List (Notice Token)} (writable : socket.isWritable = true)
      (positive : 0 < numBytes)
      (reach : Reach socket.sendQueue.entryList numBytes foreignHandle)
      (writes : Writes zeroCopy socket.sendQueue.entryList socket.sendQueue.size numBytes
        socket.zeroCopyQueue queue zeroCopyQueue notices) :
      Writing socket
        { socket := { socket with
            zeroCopyThreshold := threshold, sendQueue := queue, zeroCopyQueue := zeroCopyQueue }
          events := .wrote (ownersOf socket.sendQueue.entryList numBytes)
              ((socket.sendQueue.entryList.flatMap SendQueueEntry.bytes).take numBytes) foreignHandle
              zeroCopy ::
            dispatch .complete none notices }
  | ended {entry : Entry Token} {rest : List (Entry Token)}
      (isFront : socket.sendQueue.entryList = entry :: rest) (noData : entry.data = none) :
      Writing socket
        { socket := { socket with
            sendQueue := ⟨rest, socket.sendQueue.size⟩, canSend := false } }

theorem ownersOf_zero (entries : List (Entry Token)) : ownersOf entries 0 = [] := by
  cases entries with
  | nil | cons _ _ => rfl

theorem ownersOf_front (inside : numBytes ≤ entry.length)
    (rest : List (Entry Token)) : ownersOf (entry :: rest) numBytes = ownersOf [entry]
    numBytes := by
  rw [ownersOf, ownersOf]
  split
  · rfl
  · rw [Nat.sub_eq_zero_of_le inside, ownersOf_zero, ownersOf_zero]

theorem take_of_initial {Item : Type} {part whole : List Item} (isPrefix : part <+: whole)
    {count : Nat} (fits : count ≤ part.length) : whole.take count = part.take count := by
  obtain ⟨_, isWhole⟩ := isPrefix
  rw [← isWhole, take_append_of_le_length fits]

open Writing

theorem writableIterationBatch_cases (isBatch : batch <+: batchable socket.sendQueue.entryList)
    (taken : socket.privateSocketWritableIterationBatch batch reply = some outcome) :
    Writing socket outcome := by
  obtain ⟨error, bytesSent, zeroCopy, _, _, isAttempt, cases⟩ :=
    socket.privateEnqueueSendBuffer_cases batch false none (ownersOf socket.sendQueue.entryList) reply
  unfold privateSocketWritableIterationBatch at taken
  rw [isAttempt] at taken
  dsimp only at taken
  rcases cases with ⟨errors, _, _, noCalls⟩ | ⟨writable, fits, isError, isCalls, _⟩
  · have isSome : error.isSome = true := by
      rcases errors with ⟨rfl, _⟩ | ⟨rfl, _⟩
      · rfl
      · rfl
    rw [if_pos isSome] at taken
    cases taken
    exact idle (.inl noCalls)
  · rw [isCalls] at taken
    by_cases isZero : bytesSent = 0
    · have noBytes : [Event.wrote (ownersOf socket.sendQueue.entryList bytesSent)
          (batch.take bytesSent) (none : Option Int) zeroCopy] =
            [(.wrote [] [] none zeroCopy : Event Token)] := by
        rw [isZero, ownersOf_zero, take_zero]
      rw [noBytes] at taken
      split at taken
      · cases taken
        exact idle (.inr ⟨none, zeroCopy, rfl⟩)
      · obtain ⟨⟨queue, zeroCopyQueue, notices⟩, isLoop, taken⟩ := bind_eq_some_iff.mp taken
        rw [isZero, batchLoop_zero, some.injEq, Prod.mk.injEq, Prod.mk.injEq] at isLoop
        obtain ⟨isQueue, isAfter, isNotices⟩ := isLoop
        rw [← some.inj taken, ← isQueue, ← isAfter, ← isNotices]
        exact idle (.inr ⟨none, zeroCopy, rfl⟩)
    · rw [if_neg (fun both => isZero both.1)] at isError
      rw [isError, if_neg (by decide)] at taken
      obtain ⟨⟨_, _, _⟩, isLoop, taken⟩ := bind_eq_some_iff.mp taken
      have sameBytes : batch.take bytesSent =
          (socket.sendQueue.entryList.flatMap bytes).take bytesSent :=
        (take_of_initial (isBatch.trans (batchable_initial _)) fits).symm
      rw [← some.inj taken, sameBytes]
      exact wrote writable (Nat.pos_of_ne_zero isZero)
        (Reach.batch (Nat.le_trans fits isBatch.length_le)) (batchLoop_writes isLoop)

section

variable (measured : ∀ entry ∈ socket.sendQueue.entryList, entry.measured = true)
include measured

theorem writableIterationFront_cases
    (taken : socket.privateSocketWritableIterationFront reply = some outcome) :
    Writing socket outcome := by
  unfold privateSocketWritableIterationFront at taken
  cases isEntries : socket.sendQueue.entryList with
  | nil =>
    rw [isEntries] at taken
    contradiction
  | cons entry rest =>
    rw [isEntries] at taken
    dsimp only at taken
    cases isData : entry.data with
    | none =>
      rw [isData] at taken
      obtain ⟨popped, isPopped, taken⟩ := bind_eq_some_iff.mp taken
      have isQueue : socket.sendQueue = ⟨entry :: rest, socket.sendQueue.size⟩ := by
        rw [← isEntries]
      rw [isQueue] at isPopped
      obtain ⟨released, isReleased, isRest⟩ := popEntry_cases isPopped
      have sameSize : socket.sendQueue.size = released := by
        unfold releaseSize at isReleased
        rw [isData] at isReleased
        exact some.inj isReleased
      rw [← some.inj taken, isRest, ← sameSize]
      exact ended isEntries isData
    | some data =>
      rw [isData] at taken
      dsimp only at taken
      obtain ⟨error, bytesSent, zeroCopy, _, calls, isAttempt, cases⟩ :=
        socket.privateEnqueueSendBuffer_cases data entry.isFile entry.foreignHandle
          (ownersOf [entry]) reply
      have isMeasured := measured entry (by rw [isEntries]; exact mem_cons_self)
      unfold SendQueueEntry.measured at isMeasured
      rw [isData] at isMeasured
      obtain ⟨ne, sameLength⟩ := Bool.and_eq_true_iff.mp isMeasured
      have isLength : entry.length = data.length := beq_iff_eq.mp sameLength
      have hasData : data ≠ [] := by
        intro isNil
        have pos := of_decide_eq_true ne
        rw [isLength, isNil] at pos
        contradiction
      rw [isAttempt] at taken
      dsimp only at taken
      rcases cases with ⟨errors, _, _, noCalls⟩ | ⟨writable, fits, isError, isCalls, _⟩
      · have isSome : error.isSome = true := by
          rcases errors with ⟨rfl, _⟩ | ⟨rfl, _⟩
          · rfl
          · rfl
        rw [if_pos isSome] at taken
        cases taken
        exact idle (Or.inl noCalls)
      · by_cases isZero : bytesSent = 0
        · rw [if_pos ⟨isZero, hasData⟩] at isError
          rw [isError, if_pos (by rfl)] at taken
          rw [← some.inj taken, isCalls, isZero, ownersOf_zero, take_zero]
          exact idle (Or.inr ⟨_, _, rfl⟩)
        · rw [if_neg (fun both => isZero both.1)] at isError
          rw [isError, if_neg (by decide)] at taken
          have pos := Nat.pos_of_ne_zero isZero
          have inside : bytesSent ≤ entry.length := isLength ▸ fits
          have isBytes : entry.bytes = data := by
            unfold bytes
            rw [isData]
            rfl
          have sameCalls : calls = [.wrote (ownersOf socket.sendQueue.entryList bytesSent)
              ((socket.sendQueue.entryList.flatMap bytes).take bytesSent)
              entry.foreignHandle zeroCopy] := by
            rw [isCalls, isEntries, ownersOf_front inside rest, flatMap_cons, isBytes,
              take_append_of_le_length fits]
          have reach : Reach socket.sendQueue.entryList bytesSent entry.foreignHandle :=
            Reach.front isEntries (by rw [isData]; rfl) (by rw [isBytes]; exact fits)
          obtain ⟨⟨begun, _⟩, isBegun, taken⟩ := bind_eq_some_iff.mp taken
          have startedLength := beginEntry_length isBegun
          rw [startedLength] at taken
          split at taken
          · rename_i whole
            obtain ⟨⟨finished, notice⟩, isFinished, taken⟩ := bind_eq_some_iff.mp taken
            obtain ⟨_, isPopped, taken⟩ := bind_eq_some_iff.mp taken
            obtain ⟨released, isReleased, isQueue⟩ := popEntry_cases isPopped
            have writes : Writes zeroCopy socket.sendQueue.entryList socket.sendQueue.size
                bytesSent socket.zeroCopyQueue ⟨rest, released⟩ finished notice.toList := by
              have stop : Writes zeroCopy rest released 0 finished ⟨rest, released⟩ finished [] :=
                Writes.stop rest released finished
              have none := Nat.sub_eq_zero_of_le (Nat.le_of_eq whole)
              rw [← none] at stop
              have turn := Writes.whole pos isBegun (Nat.le_of_eq whole.symm) isFinished
                isReleased stop
              rw [isEntries]
              rwa [append_nil] at turn
            rw [← some.inj taken, sameCalls, isQueue]
            exact wrote writable pos reach writes
          · rename_i notWhole
            obtain ⟨left, isPopped, taken⟩ := bind_eq_some_iff.mp taken
            have writes : Writes zeroCopy socket.sendQueue.entryList socket.sendQueue.size
                bytesSent socket.zeroCopyQueue left begun [] := by
              rw [isEntries]
              exact Writes.part pos isBegun (Nat.lt_of_le_of_ne inside notWhole) isPopped
            rw [← some.inj taken, sameCalls]
            exact wrote writable pos reach writes

theorem processSocketWritable_cases {limits : Limits}
    (taken : socket.processSocketWritable limits layout reply = some outcome) :
    Writing socket outcome := by
  unfold processSocketWritable at taken
  split at taken
  · unfold privateSocketWritableIteration at taken
    split at taken
    · cases taken
      exact idle (.inl rfl)
    · split at taken
      · rename_i isBatch
        exact writableIterationBatch_cases (batchNext_initial isBatch) taken
      · exact writableIterationFront_cases measured taken
  · cases taken
    exact idle (.inl rfl)

end

inductive Removing (socket : StreamSocket Token) (removable : Entry Token -> Bool) (index : Nat) :
    Outcome Token -> Prop where
  | kept : Removing socket removable index { socket := socket }
  | removed {entry : Entry Token} {released : Nat} (error : Error)
      (found : socket.sendQueue.entryList[index]? = some entry)
      (isRemovable : removable entry = true)
      (isReleased : SendQueue.releaseSize socket.sendQueue.size entry = some released) :
      Removing socket removable index
        { socket := { socket with
            sendQueue := ⟨socket.sendQueue.entryList.eraseIdx index, released⟩ }
          events := .removed entry.id :: dispatch .error (some error)
            (entry.callback.toList.map fun callback => (entry.context, callback)) }

variable {removable : Entry Token -> Bool}

theorem Removing.canSend {index : Nat} (removing : Removing socket removable index outcome) :
    outcome.socket.canSend = socket.canSend := by
  cases removing with
  | kept | removed => rfl

theorem removeEntry_cases {index : Nat} {error : Error}
    (taken : socket.removeEntry index error (socket.sendQueue.removeAt removable index) =
      some outcome) : Removing socket removable index outcome := by
  unfold removeAt at taken
  cases found : socket.sendQueue.entryList[index]? with
  | none =>
    rw [found] at taken
    unfold removeEntry at taken
    dsimp only at taken
    rw [if_neg (Nat.lt_irrefl _)] at taken
    cases taken
    exact Removing.kept
  | some entry =>
    rw [found] at taken
    dsimp only at taken
    split at taken
    · rename_i isRemovable
      cases isReleased : releaseSize socket.sendQueue.size entry with
      | none =>
        rw [isReleased] at taken
        contradiction
      | some =>
        rw [isReleased] at taken
        unfold removeEntry at taken
        dsimp only at taken
        obtain ⟨inside, _⟩ := List.getElem?_eq_some_iff.mp found
        have shorter : (socket.sendQueue.entryList.eraseIdx index).length <
            socket.sendQueue.entryList.length := by
          rw [length_eraseIdx_of_lt inside]
          omega
        rw [if_pos shorter, found] at taken
        cases taken
        exact Removing.removed error found isRemovable isReleased
    · unfold removeEntry at taken
      dsimp only at taken
      rw [if_neg (Nat.lt_irrefl _)] at taken
      cases taken
      exact Removing.kept

theorem processSendDeadlineTimer_cases {entryId : Nat}
    (taken : socket.processSendDeadlineTimer entryId = some outcome) :
    Removing socket (fun entry => entry.deadline.isSome && !entry.inProgress)
      (socket.sendQueue.indexOfId entryId) outcome :=
  removeEntry_cases taken

theorem cancel_cases [DecidableEq Token] {token : Token}
    (taken : socket.cancel token = some outcome) :
    Removing socket (fun entry => !entry.inProgress) (socket.sendQueue.indexOfToken token)
    outcome :=
  removeEntry_cases taken

inductive Ending (socket : StreamSocket Token) : Outcome Token -> Prop where
  | nothing : Ending socket { socket := socket }
  | marked (canSend : socket.canSend = true) : Ending socket
      { socket := { socket with
          nextEntryId := socket.nextEntryId + 1
          sendQueue := ⟨socket.sendQueue.entryList ++ [{ id := socket.nextEntryId + 1 }],
            socket.sendQueue.size⟩ } }
  | begun : Ending socket { socket := { socket with canSend := false } }

theorem privateShutdown_cases {graceful : Bool}
    (taken : socket.privateShutdown graceful = some outcome) : Ending socket outcome := by
  unfold privateShutdown at taken
  split at taken
  · rename_i canSend
    split at taken
    · obtain ⟨_, isPushed, taken⟩ := bind_eq_some_iff.mp taken
      rw [← some.inj taken, ← some.inj isPushed]
      exact Ending.marked canSend
    · cases taken
      exact Ending.begun
  · cases taken
    exact Ending.nothing

inductive Closing (socket : StreamSocket Token) : Outcome Token -> Prop where
  | nothing (isOpen : Bool) : Closing socket { socket := { socket with isOpen := isOpen } }
  | swept (isOpen : Bool) (ended : socket.canSend = false) (writable : socket.isWritable = true) :
      Closing socket
        { socket := { socket with
            isOpen := isOpen
            isWritable := false
            sendQueue := {}
            zeroCopyQueue := { socket.zeroCopyQueue with waitList := [], doneList := [] } }
          events := .shut (socket.sendQueue.entryList.map SendQueueEntry.id) ::
            dispatch .error (some .cancelled) socket.pendingNotices }

theorem privateShutdownSequenceComplete_cases (socket : StreamSocket Token) (closes : Bool) :
    Closing socket (socket.privateShutdownSequenceComplete closes) := by
  unfold privateShutdownSequenceComplete
  split
  · exact Closing.nothing socket.isOpen
  · rename_i sending
    split
    · rename_i writable
      exact Closing.swept _ (Bool.not_eq_true _ ▸ sending) writable
    · exact Closing.nothing _

inductive Performs [DecidableEq Token] (socket : StreamSocket Token) :
    Action Token -> Outcome Token -> Prop where
  | send {message : Message} {options : SendOptions Token} {hasCallback : Bool} {plugIns : PlugIns}
      {reply : Reply} {outcome : Outcome Token}
      (sending : Sending socket options (produce plugIns message.bytes) (gathered plugIns message)
        reply outcome) :
      Performs socket (.send message options hasCallback plugIns reply) outcome
  | sendCipherData {cipherData : List UInt8} {reply : Reply} {outcome : Outcome Token}
      (sending : Sending socket {} (some cipherData) {} reply outcome) :
      Performs socket (.sendCipherData cipherData reply) outcome
  | writable {limits : Limits} {layout : Nat -> List Nat} {reply : Reply} {outcome : Outcome Token}
      (writing : Writing socket outcome) : Performs socket (.writable limits layout reply) outcome
  | sendDeadline {entryId : Nat} {outcome : Outcome Token}
      (removing : Removing socket (fun entry => entry.deadline.isSome && !entry.inProgress)
        (socket.sendQueue.indexOfId entryId) outcome) :
      Performs socket (.sendDeadline entryId) outcome
  | cancel {token : Token} {outcome : Outcome Token}
      (removing : Removing socket (fun entry => !entry.inProgress)
        (socket.sendQueue.indexOfToken token) outcome) :
      Performs socket (.cancel token) outcome
  | zeroCopyUpdate {zeroCopy : ZeroCopy} {avoided : Bool} :
      Performs socket (.zeroCopyUpdate zeroCopy avoided)
        (socket.privateZeroCopyUpdate zeroCopy avoided)
  | setZeroCopyThreshold {threshold : Option Nat} :
      Performs socket (.setZeroCopyThreshold threshold)
        { socket := { socket with zeroCopyThreshold := threshold } }
  | setWriteQueueHighWatermark {highWatermark : Nat} :
      Performs socket (.setWriteQueueHighWatermark highWatermark)
        { socket := { socket with highWatermark := highWatermark } }
  | shutdown {graceful : Bool} {outcome : Outcome Token} (ending : Ending socket outcome) :
      Performs socket (.shutdown graceful) outcome
  | shutdownSequenceComplete {closes : Bool} {outcome : Outcome Token}
      (closing : Closing socket outcome) :
      Performs socket (.shutdownSequenceComplete closes) outcome

variable {action : Action Token}

theorem perform_cases [DecidableEq Token]
    (measured : ∀ entry ∈ socket.sendQueue.entryList, entry.measured = true)
    (taken : socket.perform action = some outcome) : Performs socket action outcome := by
  cases action with
  | send _ _ _ _ reply => exact .send (send_cases taken)
  | sendCipherData _ reply => exact .sendCipherData (sendCipherData_cases taken)
  | writable => exact .writable (processSocketWritable_cases measured taken)
  | sendDeadline => exact .sendDeadline (processSendDeadlineTimer_cases taken)
  | cancel => exact .cancel (cancel_cases taken)
  | zeroCopyUpdate =>
    cases taken
    exact .zeroCopyUpdate
  | setZeroCopyThreshold =>
    cases taken
    exact .setZeroCopyThreshold
  | setWriteQueueHighWatermark =>
    cases taken
    exact .setWriteQueueHighWatermark
  | shutdown => exact .shutdown (privateShutdown_cases taken)
  | shutdownSequenceComplete closes =>
    cases taken
    exact .shutdownSequenceComplete (privateShutdownSequenceComplete_cases socket closes)

theorem Sending.isWritable {produced : Option (List UInt8)} {buffers : Buffers}
    (sending : Sending socket options produced buffers reply outcome) :
    outcome.socket.isWritable = socket.isWritable := by
  cases sending with
  | nothing same =>
    rcases same with isSame | isCounted
    · rw [isSame]
    · rw [isCounted]
      rfl
  | raw _ _ _ isRaw => cases isRaw <;> rfl
  | silent => rfl

variable [DecidableEq Token] (performs : Performs socket action outcome)
include performs

/-- The send direction goes down only at the end of the shutdown sequence. -/
theorem Performs.isWritable : outcome.socket.isWritable = socket.isWritable ∨
      ∃ closes, action = .shutdownSequenceComplete closes ∧ socket.canSend = false ∧
        outcome.socket.isWritable = false := by
  cases performs with
  | send sending | sendCipherData sending => exact .inl sending.isWritable
  | writable writing =>
    cases writing with
    | idle | wrote | ended => exact .inl rfl
  | sendDeadline removing | cancel removing =>
    cases removing with
    | kept | removed => exact .inl rfl
  | zeroCopyUpdate | setZeroCopyThreshold | setWriteQueueHighWatermark => exact .inl rfl
  | shutdown ending =>
    cases ending with
    | nothing | marked | begun => exact .inl rfl
  | shutdownSequenceComplete closing =>
    cases closing with
    | nothing => exact .inl rfl
    | swept _ ended => exact .inr ⟨_, rfl, ended, rfl⟩

theorem Performs.isWritable_of_outcome
    (writable : outcome.socket.isWritable = true) : socket.isWritable = true := by
  rcases performs.isWritable with isSame | ⟨_, _, _, isDown⟩
  · exact isSame ▸ writable
  · rw [isDown] at writable
    contradiction

end NtfCore.Ntcr.StreamSocket
