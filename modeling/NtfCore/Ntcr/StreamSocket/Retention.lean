import NtfCore.Ntcr.StreamSocket.Acknowledgement

/-!
Contract: the memory of data that the kernel still reads is kept.

Owns: the containers of the data of sends, which the send queue and the zero-copy queue
share; the ranges of bytes submitted in zero-copy calls; and the condition under which
each range stays in a container that an entry of the zero-copy queue refers to until its
call is acknowledged.

A send has one container at most. An entry of the send queue and the entry of the same
send on the zero-copy queue refer to the same one, and bytes popped for the former are
gone for the latter.
-/

namespace NtfCore.Ntcr

open NtfCore.Foundation NtfCore.Ntcq NtfCore.Ntcr.StreamSocket List Option Event Transmission

variable {Token : Type}

/-- The `ntsa::Data` of a send: its bytes from `start` on. -/
structure Container where
  start : Nat := 0
  content : List UInt8 := []

namespace Container

/-- `ntsa::DataUtil::pop`. -/
def pop (container : Container) (numBytes : Nat) : Container where
  start := container.start + numBytes
  content := container.content.drop numBytes

/-- The bytes of the send from `start` on are still in the container. -/
def Includes (container : Container) (start : Nat) (bytes : List UInt8) : Prop :=
  container.start ≤ start ∧ bytes <+: container.content.drop (start - container.start)

instance (container : Container) (start : Nat) (bytes : List UInt8) :
    Decidable (container.Includes start bytes) :=
  inferInstanceAs (Decidable (_ ∧ _))

variable (container : Container)

theorem includes_self : container.Includes container.start container.content := by
  have isWhole : container.content.drop (container.start - container.start) = container.content := by
    rw [Nat.sub_self, drop_zero]
  exact ⟨.refl, ⟨[], (append_nil _).trans isWhole.symm⟩⟩

/-- Popping down to a length leaves what dropping bytes does. -/
theorem pop_content (count : Nat) :
    (container.pop (container.content.length - (container.content.drop count).length)).content =
      container.content.drop count := by
  unfold pop
  rw [length_drop]
  by_cases inside : count ≤ container.content.length
  · rw [Nat.sub_sub_self inside]
  · rw [Nat.sub_eq_zero_of_le (Nat.le_of_not_le inside), Nat.sub_zero, drop_length,
      drop_eq_nil_of_le (Nat.le_of_not_le inside)]

end Container

structure Submission where
  call : Nat
  send : Nat
  start : Nat
  bytes : List UInt8

def partsOf (call : Nat) (containers : Nat -> Container) : List (Entry Token) -> Nat -> List Submission
  | [], _ => []
  | entry :: rest, numBytes =>
    if numBytes = 0 then []
    else
      ⟨call, entry.id, (containers entry.id).start, entry.bytes.take numBytes⟩ ::
        partsOf call containers rest (numBytes - entry.length)

def Event.submissions (call : Nat) (containers : Nat -> Container) (entries : List (Entry Token)) :
    Event Token -> List Submission
  | .wrote owners data _ true =>
    match entries with
    | [] => owners.map fun send => ⟨call, send, 0, data⟩
    | entry :: rest => partsOf call containers (entry :: rest) data.length
  | _ => []

/-- The data that a send hands to `privateSendRaw`. -/
def Event.handedBy (send : Nat) : Event Token -> Option (List UInt8)
  | .handed counter data => if counter = send then some data else none
  | _ => none

structure Retention (Token : Type) where
  transmission : Transmission Token := {}
  containers : Nat -> Container := fun _ => {}
  submitted : List Submission := []

namespace Retention

def socket (retention : Retention Token) : StreamSocket Token :=
  retention.transmission.half.socket

def origin (containers : Nat -> Container) (events : List (Event Token)) (send : Nat) : Container :=
  match events.findSome? (Event.handedBy send) with
  | some record => ⟨0, record⟩
  | none => containers send

/-- The containers after a step. From the container of a send on the send queue all
bytes are popped that are not left of its entry; that of a send which is no longer on the
queue stays as it is. -/
def share (containers : Nat -> Container) (events : List (Event Token))
    (entries : List (Entry Token)) (send : Nat) : Container :=
  let container := origin containers events send
  match entries.find? fun entry => entry.data.isSome && entry.id == send with
  | some entry => container.pop (container.content.length - entry.bytes.length)
  | none => container

def step [DecidableEq Token] (retention : Retention Token) (action : Transmission.Action Token) :
    Option (Retention Token) :=
  (retention.transmission.step action).map fun next =>
    let events := next.half.events.drop retention.transmission.half.events.length
    { transmission := next
      containers := share retention.containers events next.half.socket.sendQueue.entryList
      submitted := retention.submitted ++ events.flatMap
        (Event.submissions retention.transmission.calls.length retention.containers
          retention.socket.sendQueue.entryList) }

def Retains (retention : Retention Token) : Prop :=
  ∀ submission ∈ retention.submitted, ¬ retention.transmission.Acknowledged submission.call ->
    ∃ entry ∈ retention.socket.zeroCopyQueue.waitList ++ retention.socket.zeroCopyQueue.doneList,
      entry.group = submission.send ∧
        (retention.containers entry.group).Includes submission.start submission.bytes

end Retention

namespace StreamSocket

def sendsFile (plugIns : PlugIns) (message : Message) : Bool :=
  match plugIns.deflate, plugIns.encrypt, message with
  | none, none, .data _ isFile _ => isFile
  | _, _, _ => false

def Entire (socket : StreamSocket Token) : Action Token -> Prop
  | .send message _ _ plugIns (.sent numBytes true) =>
    socket.sendQueue.entryList = [] -> socket.isWritable = true ->
      ∀ record ∈ produce plugIns message.bytes,
        socket.wantsZeroCopy record (sendsFile plugIns message) = true ->
          numBytes = 0 ∨ record.length ≤ numBytes
  | .sendCipherData cipherData (.sent numBytes true) =>
    socket.sendQueue.entryList = [] -> socket.isWritable = true ->
      socket.wantsZeroCopy cipherData false = true -> numBytes = 0 ∨ cipherData.length ≤ numBytes
  | .writable limits layout (.sent numBytes true) =>
    socket.canSend = true -> socket.isWritable = true ->
      ∀ entry ∈ socket.sendQueue.entryList.head?,
        match batchNext socket.sendQueue limits layout with
        | some batch => socket.wantsZeroCopy batch false = true ->
            entry.length ≤ min numBytes batch.length
        | none => ∀ data ∈ entry.data, socket.wantsZeroCopy data entry.isFile = true ->
            entry.length ≤ numBytes
  | _ => True

variable {socket : StreamSocket Token} {outcome : Outcome Token} {options : SendOptions Token}
  {written : List UInt8} {entryCallback : Bool -> Option Nat} {context : SendContext Token}
  {data : List UInt8} {passed : Option Int} {reply : Reply} {owners : List Nat}
  {callback : Option Nat} {counter : Nat}

variable {isFile : Bool} {buffers : Buffers}

theorem privateSendRaw_zeroCopied
    (taken : privateSendRaw entryCallback socket data isFile buffers counter options context callback
      reply = some outcome) (isCall : wrote owners written passed true ∈ outcome.events) :
    socket.sendQueue.entryList = [] ∧ socket.isWritable = true ∧
      socket.wantsZeroCopy data isFile = true ∧ ∃ numBytes, reply = .sent numBytes true ∧
        written.length = min numBytes data.length := by
  unfold privateSendRaw at taken
  have inAttempt : wrote owners written passed true ∈
      (socket.attemptSend data isFile counter options.foreignHandle reply).events := by
    generalize socket.attemptSend data isFile counter options.foreignHandle reply = attempt at taken ⊢
    have inHanded : ∀ events : List (Event Token),
        wrote owners written passed true ∈ handed counter data :: attempt.events ++
          [.accepted counter data options.foreignHandle callback.isSome] ++ events ->
        (wrote owners written passed true ∈ events -> False) ->
        wrote owners written passed true ∈ attempt.events := by
      intro _ isMem notLater
      rcases mem_append.mp isMem with isEarlier | isLater
      · rcases mem_append.mp isEarlier with isFirst | isAccepted
        · rcases mem_cons.mp isFirst with isHanded | isAttempt
          · contradiction
          · exact isAttempt
        · have isEvent := mem_singleton.mp isAccepted
          contradiction
      · exact (notLater isLater).elim
    by_cases isFailed : attempt.error = some .failed
    · rw [if_pos isFailed] at taken
      rw [← some.inj taken] at isCall
      rcases mem_cons.mp isCall with _ | isAttempt
      · contradiction
      · exact isAttempt
    · rw [if_neg isFailed] at taken
      split at taken
      · split at taken
        · obtain ⟨pushed, _, taken⟩ := bind_eq_some_iff.mp taken
          obtain ⟨_, _, taken⟩ := bind_eq_some_iff.mp taken
          rw [← some.inj taken] at isCall
          exact inHanded [] ((append_nil _).symm ▸ isCall) (fun mem => by contradiction)
        · rw [← some.inj taken] at isCall
          exact inHanded _ isCall not_mem_dispatch
      · obtain ⟨_, _, taken⟩ := bind_eq_some_iff.mp taken
        obtain ⟨_, _, taken⟩ := bind_eq_some_iff.mp taken
        obtain ⟨_, _, taken⟩ := bind_eq_some_iff.mp taken
        rw [← some.inj taken] at isCall
        exact inHanded [] ((append_nil _).symm ▸ isCall) (fun _ => by contradiction)
  unfold attemptSend at inAttempt
  split at inAttempt
  · rename_i isEmpty
    obtain ⟨writable, isWanted, numBytes, isReply, isLength⟩ :=
      privateEnqueueSendBuffer_zeroCopied inAttempt
    exact ⟨isEmpty_iff.mp isEmpty, writable, isWanted, numBytes, isReply, isLength⟩
  · contradiction

theorem privateSendEncrypted_zeroCopied {cipherData : Option (List UInt8)}
    (taken : socket.privateSendEncrypted cipherData counter options context callback reply =
      some outcome) (isCall : wrote owners written passed true ∈ outcome.events) :
    ∃ record, cipherData = some record ∧ socket.sendQueue.entryList = [] ∧
      socket.isWritable = true ∧ socket.wantsZeroCopy record false = true ∧
      ∃ numBytes, reply = .sent numBytes true ∧ written.length = min numBytes record.length := by
  unfold privateSendEncrypted at taken
  cases cipherData with
  | none =>
    rw [← some.inj taken] at isCall
    contradiction
  | some record =>
    dsimp only at taken
    split at taken
    · exact ⟨record, rfl, privateSendRaw_zeroCopied taken isCall⟩
    · rw [← some.inj taken] at isCall
      rcases mem_cons.mp isCall with _ | isDispatch
      · contradiction
      · exact (not_mem_dispatch isDispatch).elim

theorem send_zeroCopied {message : Message} {hasCallback : Bool} {plugIns : PlugIns}
    (taken : socket.send message options hasCallback plugIns reply = some outcome)
    (isCall : wrote owners written passed true ∈ outcome.events) :
    ∃ record, produce plugIns message.bytes = some record ∧ socket.sendQueue.entryList = [] ∧
      socket.isWritable = true ∧ socket.wantsZeroCopy record (sendsFile plugIns message) = true ∧
      ∃ numBytes, reply = .sent numBytes true ∧ written.length = min numBytes record.length := by
  unfold send at taken
  dsimp only at taken
  split at taken
  · rw [← some.inj taken] at isCall
    contradiction
  · split at taken
    · rw [← some.inj taken] at isCall
      contradiction
    · unfold produce sendsFile
      cases isDeflate : plugIns.deflate with
      | none =>
        rw [isDeflate] at taken
        cases isEncrypt : plugIns.encrypt with
        | none =>
          rw [isEncrypt] at taken
          cases message with
          | blob data | data data _ _ =>
            have zeroCopied := privateSendRaw_zeroCopied taken isCall
            exact ⟨data, rfl, zeroCopied⟩
        | some encrypt =>
          rw [isEncrypt] at taken
          have zeroCopied := privateSendEncrypted_zeroCopied taken isCall
          exact zeroCopied
      | some deflate =>
        rw [isDeflate] at taken
        dsimp only at taken ⊢
        cases isDeflated : deflate message.bytes with
        | none =>
          rw [isDeflated] at taken
          rw [← some.inj taken] at isCall
          contradiction
        | some deflated =>
          rw [isDeflated] at taken
          cases isEncrypt : plugIns.encrypt with
          | none =>
            rw [isEncrypt] at taken
            have zeroCopied := privateSendRaw_zeroCopied taken isCall
            exact ⟨deflated, rfl, zeroCopied⟩
          | some =>
            rw [isEncrypt] at taken
            have zeroCopied := privateSendEncrypted_zeroCopied taken isCall
            exact zeroCopied

theorem Entire.call {limits : Limits} {layout : Nat -> List Nat}
    (single : socket.Single (.writable limits layout reply))
    (entire : socket.Entire (.writable limits layout reply))
    (measured : ∀ entry ∈ socket.sendQueue.entryList, entry.measured = true)
    (taken : socket.processSocketWritable limits layout reply = some outcome)
    (isCall : wrote owners written passed true ∈ outcome.events) :
    ∃ entry rest, socket.sendQueue.entryList = entry :: rest ∧ written.length = entry.length := by
  obtain ⟨_, within⟩ := single.call measured taken isCall
  obtain ⟨canSend, writable, entry, rest, _, isEntries, isReply, isAsked⟩ :=
    processSocketWritable_zeroCopied taken isCall
  subst isReply
  have isHead : entry ∈ socket.sendQueue.entryList.head? := by
    rw [isEntries]
    rfl
  have atMost := within entry isHead
  have atLeast := entire canSend writable entry isHead
  refine ⟨entry, rest, isEntries, ?_⟩
  cases isBatch : batchNext socket.sendQueue limits layout with
  | some =>
    rw [isBatch] at atLeast isAsked
    have bound := atLeast isAsked.1
    omega
  | none =>
    rw [isBatch] at atLeast isAsked
    obtain ⟨data, isData, isWanted, _⟩ := isAsked
    have bound := atLeast data isData isWanted
    have isMeasured := measured entry (by rw [isEntries]; exact mem_cons_self)
    obtain ⟨_, _⟩ := bytes_length isMeasured isData
    omega

/-! ## What critical sections do to containers -/

def queuedSends (entries : List (Entry Token)) : List Nat :=
  (tags entries).map Prod.fst

variable {entries : List (Entry Token)}

theorem mem_queuedSends {send : Nat} :
    send ∈ queuedSends entries ↔ ∃ entry ∈ entries, entry.data.isSome = true ∧ entry.id = send := by
  constructor
  · intro mem
    obtain ⟨_, isPair, isSend⟩ := mem_map.mp mem
    obtain ⟨entry, isEntry, isTag⟩ := mem_filterMap.mp isPair
    obtain ⟨data, isData, isResult⟩ := map_eq_some_iff.mp isTag
    refine ⟨entry, isEntry, by rw [isData]; rfl, ?_⟩
    rw [← isSend, ← isResult]
  · rintro ⟨entry, isEntry, hasData, isSend⟩
    obtain ⟨_, isData⟩ := isSome_iff_exists.mp hasData
    refine mem_map.mpr ⟨(entry.id, entry.zeroCopy), ?_, isSend⟩
    exact mem_filterMap.mpr ⟨entry, isEntry, by rw [tag, isData]; rfl⟩

inductive Source (socket : StreamSocket Token) (outcome : Outcome Token) (send : Nat)
    (data : List UInt8) : Prop where
  | entry {entry : Entry Token} {whole : List UInt8} (count : Nat)
      (member : entry ∈ socket.sendQueue.entryList) (isSend : entry.id = send)
      (isWhole : entry.data = some whole) (isData : data = whole.drop count) :
      Source socket outcome send data
  | handed {record : List UInt8} (count : Nat) (isSend : send = socket.sendCounter)
      (isHanded : outcome.events.findSome? (Event.handedBy send) = some record)
      (isData : data = record.drop count) : Source socket outcome send data

inductive Submits (socket : StreamSocket Token) (containers : Nat -> Container)
    (outcome : Outcome Token) (submission : Submission) : Prop where
  | handed (isSend : submission.send = socket.sendCounter) (isStart : submission.start = 0)
      (isHanded : outcome.events.findSome? (Event.handedBy submission.send) =
        some submission.bytes) : Submits socket containers outcome submission
  | entry {entry : Entry Token} (member : entry ∈ socket.sendQueue.entryList)
      (isSend : entry.id = submission.send) (isData : entry.data = some submission.bytes)
      (isStart : submission.start = (containers submission.send).start) :
      Submits socket containers outcome submission

structure Conserves (socket : StreamSocket Token) (containers : Nat -> Container) (call : Nat)
    (outcome : Outcome Token) : Prop where
  counter : socket.sendCounter ≤ outcome.socket.sendCounter
  handed : ∀ send record, Event.handed send record ∈ outcome.events ->
    send = socket.sendCounter ∧ socket.sendCounter < outcome.socket.sendCounter
  source : ∀ entry ∈ outcome.socket.sendQueue.entryList, ∀ data, entry.data = some data ->
    Source socket outcome entry.id data
  submits : ∀ submission ∈ outcome.events.flatMap
      (Event.submissions call containers socket.sendQueue.entryList),
    submission.call = call ∧ (∃ owners ∈ outcome.calls, submission.send ∈ owners) ∧
      submission.send ∉ queuedSends outcome.socket.sendQueue.entryList ∧
      submission.send < outcome.socket.sendCounter ∧ outcome.socket.isWritable = true ∧
      Submits socket containers outcome submission

/-- A range that is submitted is of a zero-copy call. -/
theorem mem_submissions {call : Nat} {containers : Nat -> Container}
    {events : List (Event Token)} {submission : Submission}
    (mem : submission ∈ events.flatMap (submissions call containers entries)) :
    ∃ owners written passed, wrote owners written passed true ∈ events ∧ submission ∈
    (wrote owners written passed true).submissions call containers entries := by
  obtain ⟨event, isEvent, inEvent⟩ := mem_flatMap.mp mem
  cases event with
  | wrote owners written passed zeroCopy =>
    cases zeroCopy with
    | true => exact ⟨owners, written, passed, isEvent, inEvent⟩
    | false => contradiction
  | handed | accepted | dispatched | removed | shut => contradiction

theorem mem_calls (isCall : wrote owners written passed true ∈ outcome.events) :
    owners ∈ outcome.calls :=
  mem_filterMap.mpr ⟨_, isCall, rfl⟩

theorem Conserves.idle {containers : Nat -> Container} {call : Nat}
    (counter : socket.sendCounter ≤ outcome.socket.sendCounter)
    (notHanded : ∀ send record, Event.handed send record ∉ outcome.events)
    (noCalls : outcome.calls = [])
    (source : ∀ entry ∈ outcome.socket.sendQueue.entryList, ∀ data, entry.data = some data ->
      Source socket outcome entry.id data) : Conserves socket containers call outcome where
  counter := counter
  handed := fun send record isHanded => absurd isHanded (notHanded send record)
  source := source
  submits := by
    intro _ mem
    obtain ⟨_, _, _, isCall, _⟩ := mem_submissions mem
    have isMem := mem_calls isCall
    rw [noCalls] at isMem
    contradiction

variable {entry : Entry Token}

theorem Source.same (mem : entry ∈ socket.sendQueue.entryList)
    (isData : entry.data = some data) : Source socket outcome entry.id data :=
  .entry 0 mem rfl isData rfl

theorem not_mem_handed_dispatch {send : Nat} {record : List UInt8} {type : SendEventType}
    {error : Option Error} {notices : List (Notice Token)} :
    handed send record ∉ dispatch type error notices := by
  intro mem
  obtain ⟨_, _, _⟩ := mem_map.mp mem
  contradiction

variable {foreign : Option Int}

theorem mem_accepted {callback : Bool} {calls later : List (Event Token)} {event : Event Token}
    (mem : event ∈ handed counter data :: calls ++
      [.accepted counter data foreign callback] ++ later) :
    event = .handed counter data ∨ event ∈ calls ∨
      event = .accepted counter data foreign callback ∨ event ∈ later := by
  rcases mem_append.mp mem with isEarlier | isLater
  · rcases mem_append.mp isEarlier with isFirst | isAccepted
    · rcases mem_cons.mp isFirst with isHanded | isCall
      · exact .inl isHanded
      · exact .inr (.inl isCall)
    · exact .inr (.inr (.inl (mem_singleton.mp isAccepted)))
  · exact .inr (.inr (.inr isLater))

theorem Begun.not_handed {numBytes : Nat} {zeroCopy : Bool} {calls : List (Event Token)}
    (begun : Begun socket counter data foreign numBytes zeroCopy calls) (send : Nat)
    (record : List UInt8) : handed send record ∉ calls := by
  intro mem
  cases begun with
  | nothing => contradiction
  | called => contradiction

section

variable (raw : Raw entryCallback socket data isFile buffers counter options context callback reply outcome)
include raw

theorem Raw.handed : outcome.events.findSome? (handedBy counter) = some data ∧
      ∀ send record, Event.handed send record ∈ outcome.events -> send = counter := by
  have isFirst : ∀ later : List (Event Token),
      (Event.handed counter data :: later).findSome? (Event.handedBy counter) = some data := by
    intro later
    simp [Event.handedBy]
  have inCalls : ∀ {numBytes : Nat} {zeroCopy : Bool} {calls later : List (Event Token)},
      Begun socket counter data options.foreignHandle numBytes zeroCopy calls ->
      (∀ send record, Event.handed send record ∉ later) -> ∀ send record,
      Event.handed send record ∈ Event.handed counter data :: calls ++
        [.accepted counter data options.foreignHandle callback.isSome] ++ later ->
      send = counter := by
    intro _ _ _ _ begun notLater send record mem
    rcases mem_accepted mem with isHanded | isCall | _ | isLater
    · cases isHanded
      rfl
    · exact absurd isCall (begun.not_handed send record)
    · contradiction
    · exact absurd isLater (notLater send record)
  cases raw with
  | failed =>
    refine ⟨isFirst _, ?_⟩
    intro send record mem
    cases mem_singleton.mp mem
    rfl
  | copied _ begun =>
    refine ⟨isFirst _, ?_⟩
    intro send record mem
    exact inCalls begun (fun _ _ => not_mem_nil) send record ((append_nil _).symm ▸ mem)
  | written _ begun =>
    refine ⟨isFirst _, ?_⟩
    exact inCalls begun fun _ _ => not_mem_handed_dispatch
  | queued _ begun =>
    refine ⟨isFirst _, ?_⟩
    intro send record mem
    exact inCalls begun (fun _ _ => not_mem_nil) send record ((append_nil _).symm ▸ mem)

/-- A zero-copy call of a send is of its first bytes, and no others are on the queue. -/
theorem Raw.call (isCall : Event.wrote owners written passed true ∈ outcome.events) :
    socket.sendQueue.entryList = [] ∧ socket.isWritable = true ∧
      owners = (if written.length = 0 then [] else [counter]) ∧ written <+: data ∧
      (written.length = data.length -> outcome.socket.sendQueue.entryList = []) := by
  have begunCall : ∀ {numBytes : Nat} {zeroCopy : Bool} {calls : List (Event Token)},
      Begun socket counter data options.foreignHandle numBytes zeroCopy calls ->
      wrote owners written passed true ∈ calls ->
      zeroCopy = true ∧ socket.sendQueue.entryList = [] ∧ socket.isWritable = true ∧
        written.length = numBytes ∧ owners = (if numBytes = 0 then [] else [counter]) ∧
        written <+: data := by
    intro _ _ calls begun mem
    cases begun with
    | nothing => contradiction
    | called empty writable fits =>
      cases mem_singleton.mp mem
      exact ⟨rfl, empty, writable, length_take_of_le fits, rfl, take_prefix _ _⟩
  have inCalls : ∀ {calls later : List (Event Token)}, wrote owners written passed true ∉ later ->
      Event.wrote owners written passed true ∈ Event.handed counter data :: calls ++
        [.accepted counter data options.foreignHandle callback.isSome] ++ later ->
      wrote owners written passed true ∈ calls := by
    intro _ _ notLater mem
    rcases mem_accepted mem with _ | inCalls | _ | isLater
    · contradiction
    · exact inCalls
    · contradiction
    · contradiction
  cases raw with
  | failed => contradiction
  | copied _ begun =>
    obtain ⟨_, empty, writable, isLength, isOwners, isFirst⟩ :=
      begunCall begun (inCalls not_mem_nil ((append_nil _).symm ▸ isCall))
    rw [← isLength] at isOwners
    exact ⟨empty, writable, isOwners, isFirst, fun _ => empty⟩
  | written _ begun =>
    obtain ⟨_, _⟩ := begunCall begun (inCalls not_mem_dispatch isCall)
    contradiction
  | queued _ begun =>
    obtain ⟨_, empty, writable, isLength, isOwners, isFirst⟩ :=
      begunCall begun (inCalls not_mem_nil ((append_nil _).symm ▸ isCall))
    rw [← isLength] at isOwners
    refine ⟨empty, writable, isOwners, isFirst, fun _ => ?_⟩
    omega

theorem Raw.frame : outcome.socket.sendCounter = socket.sendCounter ∧
      outcome.socket.isWritable = socket.isWritable := by
  cases raw with
  | failed | copied | written | queued => exact ⟨rfl, rfl⟩

end

theorem Raw.conserves
    (raw : Raw entryCallback socket.counted data isFile buffers socket.sendCounter options context callback
      reply outcome) (containers : Nat -> Container) (call : Nat)
    (entire : ∀ owners written passed, wrote owners written passed true ∈ outcome.events ->
      written.length = 0 ∨ written.length = data.length) :
    Conserves socket containers call outcome := by
  obtain ⟨isFound, isCounter⟩ := raw.handed
  obtain ⟨counter, isWritable⟩ := raw.frame
  constructor
  case counter => exact counter ▸ Nat.le_succ _
  case handed =>
    intro send record isHanded
    exact ⟨isCounter send record isHanded, counter ▸ Nat.lt_succ_self _⟩
  case source =>
    cases raw with
    | failed | copied | written => exact fun entry mem data isData => .same mem isData
    | @queued _ _ popped =>
      intro _ mem data isData
      rcases mem_append.mp mem with isOld | isNew
      · exact .same isOld isData
      · cases mem_singleton.mp isNew
        exact .handed popped rfl isFound (some.inj isData).symm
  case submits =>
    intro _ mem
    obtain ⟨owners, written, passed, isCall, inCall⟩ := mem_submissions mem
    obtain ⟨empty, writable, isOwners, isFirst, emptied⟩ := raw.call isCall
    rw [show socket.sendQueue.entryList = [] from empty] at inCall
    obtain ⟨send, isOwner, isSubmission⟩ := mem_map.mp inCall
    have isSend : send = socket.sendCounter := by
      rw [isOwners] at isOwner
      exact owner_of_mem send isOwner
    have isWhole : written.length = data.length := by
      rcases entire owners written passed isCall with isNothing | isWhole
      · rw [isOwners, if_pos isNothing] at isOwner
        contradiction
      · exact isWhole
    have isData : written = data := isFirst.eq_of_length isWhole
    subst isSubmission
    refine ⟨rfl, ⟨owners, mem_calls isCall, isOwner⟩, ?_, ?_, isWritable.trans writable, ?_⟩
    · rw [emptied isWhole]
      exact not_mem_nil
    · rw [counter, isSend]
      exact Nat.lt_succ_self _
    · refine .handed isSend rfl ?_
      rw [isSend, isData, isFound]

theorem Sending.conserves {produced : Option (List UInt8)} {buffers : Buffers}
    (sending : Sending socket options produced buffers reply outcome) (containers : Nat -> Container)
    (call : Nat)
    (entire : ∀ owners written passed, Event.wrote owners written passed true ∈ outcome.events ->
      ∃ record, produced = some record ∧ (written.length = 0 ∨ written.length = record.length)) :
    Conserves socket containers call outcome := by
  cases sending with
  | nothing same =>
    rcases same with rfl | rfl
    · exact .idle .refl (fun _ _ => not_mem_nil) rfl fun entry mem data isData => .same mem isData
    · exact .idle (Nat.le_succ _) (fun _ _ => not_mem_nil) rfl
        fun entry mem data isData => .same mem isData
  | raw isRecord _ _ isRaw =>
    refine isRaw.conserves containers call fun owners written passed isCall => ?_
    obtain ⟨record, isProduced, isLength⟩ := entire owners written passed isCall
    rw [isRecord] at isProduced
    rw [some.inj isProduced]
    exact isLength
  | silent =>
    refine .idle (Nat.le_succ _) ?_ (zeroCopied_dispatch _ _ _)
      fun _ mem _ isData => .same mem isData
    intro _ _ mem
    rcases mem_cons.mp mem with _ | isDispatched
    · contradiction
    · exact not_mem_handed_dispatch isDispatched

theorem partsOf_zero (call : Nat) (containers : Nat -> Container) (entries : List (Entry Token)) :
    partsOf call containers entries 0 = [] := by
  cases entries with
  | nil | cons _ _ => rfl

/-- A call that writes the entry in front leaves those behind it. -/
theorem Drained.front {rest left : List (Entry Token)}
    (pos : 0 < entry.length) (drained : Drained entry.length (entry :: rest) left) :
    left = rest := by
  generalize isEntries : entry :: rest = entries at drained
  generalize isLength : entry.length = numBytes at drained pos
  cases drained with
  | stop => contradiction
  | whole _ _ later =>
    cases isEntries
    rw [isLength, Nat.sub_self] at later
    cases later with
    | stop => rfl
    | whole pos _ _ | part _ _ _ => omega
  | part =>
    cases isEntries
    omega

variable {groups : List Nat}

theorem Lined.not_queued {rest : List (Entry Token)}
    (lined : Lined groups (tags (entry :: rest)) counter)
    (isData : entry.data = some data) : entry.id < counter ∧ entry.id ∉ queuedSends rest := by
  rw [tags_cons_of_data isData] at lined
  refine ⟨lined.tagsBelow _ mem_cons_self, ?_⟩
  intro mem
  have increasing := lined.increasing
  exact Nat.lt_irrefl _ (rel_of_pairwise_cons increasing mem)

theorem Writing.conserves (writing : Writing socket outcome) (containers : Nat -> Container)
    (call : Nat) (measured : ∀ entry ∈ socket.sendQueue.entryList, entry.measured = true)
    (lined : Lined groups (tags socket.sendQueue.entryList) socket.sendCounter)
    (front : ∀ owners written passed, Event.wrote owners written passed true ∈ outcome.events ->
      ∃ entry rest, socket.sendQueue.entryList = entry :: rest ∧ 0 < entry.length ∧
        written.length = entry.length) : Conserves socket containers call outcome := by
  cases writing with
  | @idle _ _ _ isCalls =>
    have isSource : ∀ entry ∈ socket.sendQueue.entryList, ∀ data, entry.data = some data ->
        ∀ outcome, Source socket outcome entry.id data :=
      fun entry mem data isData _ => .same mem isData
    rcases isCalls with noCalls | ⟨foreign, zeroCopy, isCalls⟩
    · subst noCalls
      exact .idle .refl (fun _ _ => not_mem_nil) rfl
        fun entry mem data isData => isSource entry mem data isData _
    · subst isCalls
      have notHanded : ∀ send record, (handed send record : Event Token) ∉
          [.wrote [] [] foreign zeroCopy] := by
        intro send record mem
        have isEvent := mem_singleton.mp mem
        contradiction
      cases zeroCopy with
      | false =>
        exact .idle .refl notHanded rfl
          fun entry mem data isData => isSource entry mem data isData _
      | true =>
        obtain ⟨entry, rest, _, pos, isLength⟩ := front [] [] foreign mem_cons_self
        exact absurd isLength (Nat.ne_of_lt pos)
  | @wrote threshold numBytes zeroCopy foreign queue zeroCopyQueue notices writable pos
      reach writes =>
      have drained := writes.drained
      have notHanded : ∀ send record, (handed send record : Event Token) ∉
          .wrote (ownersOf socket.sendQueue.entryList numBytes)
              ((socket.sendQueue.entryList.flatMap SendQueueEntry.bytes).take numBytes) foreign
              zeroCopy :: dispatch .complete none notices := by
        intro send record mem
        rcases mem_cons.mp mem with isWrote | isDispatched
        · contradiction
        · exact not_mem_handed_dispatch isDispatched
      constructor
      case counter => exact Nat.le_refl _
      case handed => exact fun send record isHanded => absurd isHanded (notHanded send record)
      case source =>
        intro entry mem data isData
        rcases drained.origin entry mem with isOld | ⟨_, isWhole, count, remains⟩
        · exact .same isOld isData
        · obtain ⟨_, isWholeData, isLeft⟩ := remains.data
          rw [isLeft] at isData
          exact .entry count isWhole remains.id.symm isWholeData (some.inj isData).symm
      case submits =>
        intro submission mem
        obtain ⟨owners, written, passed, isCall, inCall⟩ := mem_submissions mem
        obtain ⟨entry, rest, isEntries, ne, isLength⟩ := front owners written passed isCall
        have isEvent : (Event.wrote owners written passed true : Event Token) =
            .wrote (ownersOf socket.sendQueue.entryList numBytes)
              ((socket.sendQueue.entryList.flatMap SendQueueEntry.bytes).take numBytes) foreign
              zeroCopy := by
          rcases mem_cons.mp isCall with isWrote | isDispatched
          · exact isWrote
          · exact (not_mem_dispatch isDispatched).elim
        injection isEvent with isOwners isWritten
        have fits := reach.le_reachable
        have contained := reachable_le_contents socket.sendQueue.entryList
        rw [contents_parcels] at contained
        have isCount : numBytes = entry.length := by
          rw [← isLength, isWritten, length_take_of_le (Nat.le_trans fits contained)]
        have isMeasured := measured entry (by rw [isEntries]; exact mem_cons_self)
        rw [isEntries] at fits inCall lined isOwners drained
        obtain ⟨data, isData, _, _⟩ := reachable_cons isMeasured pos fits
        obtain ⟨sameLength, isBytes⟩ := bytes_length isMeasured isData
        obtain ⟨below, notQueued⟩ := lined.not_queued isData
        have inParts : submission ∈ partsOf call containers (entry :: rest) written.length := inCall
        rw [partsOf, isLength, if_neg (Nat.ne_of_gt ne), Nat.sub_self, partsOf_zero,
          isBytes, sameLength, take_length] at inParts
        cases mem_singleton.mp inParts
        rw [isCount] at drained
        refine ⟨rfl, ⟨owners, mem_calls isCall, ?_⟩, ?_, below, writable, ?_⟩
        · rw [isOwners, ownersOf, if_neg (Nat.ne_of_gt pos)]
          exact mem_cons_self
        · rw [drained.front ne]
          exact notQueued
        · have isMem : entry ∈ socket.sendQueue.entryList := by
            rw [isEntries]
            exact mem_cons_self
          exact .entry isMem rfl isData rfl
  | @ended _ _ isFront =>
    refine .idle .refl (fun _ _ => not_mem_nil) rfl ?_
    intro _ mem _ isData
    refine .same ?_ isData
    rw [isFront]
    exact mem_cons_of_mem _ mem

/-! ### All sections -/

theorem Entire.send {message : Message} {hasCallback : Bool} {plugIns : PlugIns}
    (entire : socket.Entire (.send message options hasCallback plugIns reply))
    (taken : socket.send message options hasCallback plugIns reply = some outcome)
    (isCall : wrote owners written passed true ∈ outcome.events) :
    ∃ record, produce plugIns message.bytes = some record ∧
      (written.length = 0 ∨ written.length = record.length) := by
  obtain ⟨record, isRecord, empty, writable, isWanted, _, isReply, _⟩ :=
    send_zeroCopied taken isCall
  subst isReply
  have isAll := entire empty writable record isRecord isWanted
  exact ⟨record, isRecord, by omega⟩

theorem Entire.sendCipherData {cipherData : List UInt8}
    (entire : socket.Entire (.sendCipherData cipherData reply))
    (taken : socket.sendCipherData cipherData reply = some outcome)
    (isCall : wrote owners written passed true ∈ outcome.events) :
    written.length = 0 ∨ written.length = cipherData.length := by
  unfold StreamSocket.sendCipherData at taken
  split at taken
  · obtain ⟨empty, writable, isWanted, _, isReply, _⟩ := privateSendRaw_zeroCopied taken isCall
    subst isReply
    have isAll := entire empty writable isWanted
    omega
  · rw [← some.inj taken] at isCall
    contradiction

theorem Removing.conserves {removable : Entry Token -> Bool}
    {index : Nat} (removing : Removing socket removable index outcome)
    (containers : Nat -> Container) (call : Nat) : Conserves socket containers call outcome := by
  cases removing with
  | kept =>
    exact .idle .refl (fun _ _ => not_mem_nil) rfl fun entry mem data isData => .same mem isData
  | removed =>
    refine .idle .refl ?_ (zeroCopied_dispatch _ _ _)
      fun _ mem _ isData => .same (mem_of_mem_eraseIdx mem) isData
    intro _ _ mem
    rcases mem_cons.mp mem with _ | isDispatched
    · contradiction
    · exact not_mem_handed_dispatch isDispatched

theorem Closing.conserves (closing : Closing socket outcome) (containers : Nat -> Container)
    (call : Nat) : Conserves socket containers call outcome := by
  cases closing with
  | nothing =>
    exact .idle .refl (fun _ _ => not_mem_nil) rfl fun entry mem _ isData => .same mem isData
  | swept =>
    refine .idle .refl ?_ (zeroCopied_dispatch _ _ _) (forall_mem_nil _)
    intro _ _ mem
    rcases mem_cons.mp mem with _ | isDispatched
    · contradiction
    · exact not_mem_handed_dispatch isDispatched

theorem Ending.conserves (ending : Ending socket outcome) (containers : Nat -> Container)
    (call : Nat) : Conserves socket containers call outcome := by
  refine .idle ?_ ?_ ?_ ?_
  · cases ending <;> exact Nat.le_refl _
  · cases ending <;> exact fun _ _ => not_mem_nil
  · cases ending <;> rfl
  · cases ending with
    | nothing => exact fun entry mem data isData => .same mem isData
    | marked =>
      intro _ mem _ isData
      rcases mem_append.mp mem with isOld | isMark
      · exact .same isOld isData
      · cases mem_singleton.mp isMark
        contradiction
    | begun => exact fun _ mem _ isData => .same mem isData

/-- All sections under the condition conserve the containers of what they submit. -/
theorem Performs.conserves [DecidableEq Token] {action : Action Token}
    (performs : Performs socket action outcome) (containers : Nat -> Container) (call : Nat)
    (measured : ∀ entry ∈ socket.sendQueue.entryList, entry.measured = true)
    (taken : socket.perform action = some outcome)
    (lined : Lined groups (tags socket.sendQueue.entryList) socket.sendCounter)
    (single : socket.Single action) (entire : socket.Entire action) :
    Conserves socket containers call outcome := by
  cases performs with
  | send sending =>
    exact sending.conserves containers call fun _ _ _ isCall => entire.send taken isCall
  | sendCipherData sending =>
    exact sending.conserves containers call fun _ _ _ isCall =>
      ⟨_, rfl, entire.sendCipherData taken isCall⟩
  | writable writing =>
    refine writing.conserves containers call measured lined ?_
    intro _ _ _ isCall
    obtain ⟨pos, _⟩ := single.call measured taken isCall
    obtain ⟨entry, rest, isEntries, isLength⟩ := entire.call single measured taken isCall
    exact ⟨entry, rest, isEntries, isLength ▸ pos, isLength⟩
  | sendDeadline removing | cancel removing => exact removing.conserves containers call
  | zeroCopyUpdate =>
    exact .idle .refl (fun _ _ => not_mem_handed_dispatch) (zeroCopied_dispatch _ _ _)
      fun entry mem data isData => .same mem isData
  | setZeroCopyThreshold | setWriteQueueHighWatermark =>
    exact .idle .refl (fun _ _ => not_mem_nil) rfl fun _ mem _ isData => .same mem isData
  | shutdown ending => exact ending.conserves containers call
  | shutdownSequenceComplete closing => exact closing.conserves containers call

theorem find_entry (increasing : (queuedSends entries).Pairwise (· < ·)) (mem : entry ∈ entries)
    (hasData : entry.data.isSome = true) :
    entries.find? (fun other => other.data.isSome && other.id == entry.id) = some entry := by
  induction entries with
  | nil => contradiction
  | cons first rest ih =>
    have later : (queuedSends rest).Sublist (queuedSends (first :: rest)) :=
      (tags_cons_sublist first rest).map Prod.fst
    rcases mem_cons.mp mem with isFirst | inRest
    · rw [← isFirst]
      exact find?_cons_of_pos (by rw [hasData, beq_self_eq_true, Bool.and_true])
    · rw [find?_cons_of_neg]
      · exact ih (increasing.sublist later) inRest
      · intro isOther
        obtain ⟨firstData, sameId⟩ := Bool.and_eq_true_iff.mp isOther
        obtain ⟨_, isData⟩ := isSome_iff_exists.mp firstData
        rw [queuedSends, tags_cons_of_data isData, map_cons] at increasing
        have isLess := rel_of_pairwise_cons increasing
          (mem_queuedSends.mpr ⟨entry, inRest, hasData, rfl⟩)
        rw [beq_iff_eq.mp sameId] at isLess
        exact Nat.lt_irrefl _ isLess

theorem find_none {send : Nat} (absent : send ∉ queuedSends entries) :
    entries.find? (fun other => other.data.isSome && other.id == send) = none := by
  refine find?_eq_none.mpr fun entry mem isEntry => ?_
  obtain ⟨hasData, isSend⟩ := Bool.and_eq_true_iff.mp isEntry
  exact absent (mem_queuedSends.mpr ⟨entry, mem, hasData, beq_iff_eq.mp isSend⟩)

end StreamSocket

namespace Retention

/-- Socket and kernel keep agreeing on numbers, a zero-copy call writes all of what it is
given, and the shutdown sequence is not completed before all that was submitted is
acknowledged. -/
def Guarded (retention : Retention Token) : Transmission.Action Token -> Prop
  | .socket action =>
    retention.transmission.Exact (.socket action) ∧ retention.socket.Entire action ∧
      ∀ closes, action = .shutdownSequenceComplete closes -> retention.socket.canSend = false ->
        ∀ submission ∈ retention.submitted,
          retention.transmission.Acknowledged submission.call
  | .acknowledge first thru avoided =>
    retention.transmission.Exact (.acknowledge first thru avoided)

structure Settled (retention : Retention Token) (submission : Submission) : Prop where
  kept : (retention.containers submission.send).Includes submission.start submission.bytes
  popped : submission.send ∉ queuedSends retention.socket.sendQueue.entryList
  below : submission.send < retention.socket.sendCounter
  called : ∃ owners, retention.transmission.calls[submission.call]? = some owners ∧
    submission.send ∈ owners
  down : retention.socket.isWritable = false ->
    retention.transmission.Acknowledged submission.call

structure Retained (retention : Retention Token) : Prop where
  synchronized : Transmission.Synchronized retention.transmission
  shared : ∀ entry ∈ retention.socket.sendQueue.entryList, ∀ data, entry.data = some data ->
    (retention.containers entry.id).content = data
  settled : ∀ submission ∈ retention.submitted, Settled retention submission

variable {retention : Retention Token}

theorem Retained.retains (retained : Retained retention) : Retains retention := by
  intro submission mem unacknowledged
  have settled := retained.settled submission mem
  obtain ⟨owners, isCall, isOwner⟩ := settled.called
  have writable : retention.socket.isWritable = true := by
    cases isWritable : retention.socket.isWritable with
    | true => rfl
    | false => exact absurd (settled.down isWritable) unacknowledged
  obtain ⟨entry, isEntry, isGroup, _⟩ := retained.synchronized.agrees.covers writable
    submission.call owners isCall unacknowledged submission.send isOwner
  refine ⟨entry, mem_append_left _ isEntry, isGroup, ?_⟩
  rw [isGroup]
  exact settled.kept

variable {containers : Nat -> Container} {events : List (Event Token)}

theorem origin_of_old {send counter : Nat}
    (handed : ∀ other record, handed other record ∈ events -> other = counter)
    (isOld : send < counter) : origin containers events send = containers send := by
  have notFound : events.findSome? (handedBy send) = none := by
    refine findSome?_eq_none_iff.mpr fun event mem => ?_
    cases event with
    | handed other record =>
      have isCounter := handed other record mem
      exact if_neg (by omega)
    | accepted | wrote | dispatched | removed | shut => rfl
  rw [origin, notFound]

theorem origin_of_handed {send : Nat}
    {record : List UInt8} (isHanded : events.findSome? (handedBy send) = some record) :
    origin containers events send = ⟨0, record⟩ := by
  rw [origin, isHanded]

variable {entries : List (Entry Token)}

theorem share_of_absent {send : Nat} (absent : send ∉ queuedSends entries) :
    share containers events entries send = origin containers events send := by
  rw [share, find_none absent]

theorem share_of_entry {entry : Entry Token} {data : List UInt8} (count : Nat)
    (increasing : (queuedSends entries).Pairwise (· < ·)) (mem : entry ∈ entries)
    (isData : entry.data = some data)
    (isRest : data = (origin containers events entry.id).content.drop count) :
    (share containers events entries entry.id).content = data := by
  have isBytes : entry.bytes = data := by
    rw [SendQueueEntry.bytes, isData]
    rfl
  rw [share, find_entry increasing mem (by rw [isData]; rfl)]
  dsimp only
  rw [isBytes, isRest]
  exact Container.pop_content _ count

theorem Settled.not_queued {submission : Submission}
    (settled : Settled retention submission) {outcome : Outcome Token}
    (source : ∀ entry ∈ outcome.socket.sendQueue.entryList, ∀ data, entry.data = some data ->
      Source retention.socket outcome entry.id data) :
    submission.send ∉ queuedSends outcome.socket.sendQueue.entryList := by
  intro mem
  obtain ⟨entry, isEntry, hasData, isSend⟩ := mem_queuedSends.mp mem
  obtain ⟨data, isData⟩ := isSome_iff_exists.mp hasData
  cases source entry isEntry data isData with
  | @entry whole _ _ isWhole sameSend isWholeData =>
    refine settled.popped (mem_queuedSends.mpr ⟨whole, isWhole, ?_, sameSend.trans isSend⟩)
    rw [isWholeData]
    rfl
  | handed =>
    have below := settled.below
    omega

/-- The state after a critical section, in which the kernel may have acknowledged more. -/
theorem Retained.observe (retained : Retained retention)
    {outcome : Outcome Token} {acknowledged : List ZeroCopyRange}
    (synchronized : Synchronized ⟨retention.transmission.half.observe outcome, acknowledged⟩)
    (conserves : Conserves retention.socket retention.containers retention.transmission.calls.length
      outcome) (few : outcome.calls.length ≤ 1)
    (more : ∀ range ∈ retention.transmission.acknowledged, range ∈ acknowledged)
    (down : outcome.socket.isWritable = false -> retention.socket.isWritable = true ->
      ∀ submission ∈ retention.submitted, retention.transmission.Acknowledged submission.call) :
    Retained
    { transmission := ⟨retention.transmission.half.observe outcome, acknowledged⟩
      containers := share retention.containers outcome.events outcome.socket.sendQueue.entryList
      submitted := retention.submitted ++ outcome.events.flatMap
        (submissions retention.transmission.calls.length retention.containers
          retention.socket.sendQueue.entryList) } := by
  have isCalls : calls ⟨retention.transmission.half.observe outcome, acknowledged⟩ =
      retention.transmission.calls ++ outcome.calls := filterMap_append
  have linedBefore := retained.synchronized.numbered.lined
  have linedAfter := synchronized.numbered.lined
  have isCounter : ∀ send record, handed send record ∈ outcome.events ->
      send = retention.socket.sendCounter :=
    fun send record isHanded => (conserves.handed send record isHanded).1
  have entryBelow : ∀ entry ∈ retention.socket.sendQueue.entryList, ∀ data,
      entry.data = some data -> entry.id < retention.socket.sendCounter := by
    intro entry mem data isData
    refine linedBefore.tagsBelow (entry.id, entry.zeroCopy) ?_
    exact mem_filterMap.mpr ⟨entry, mem, by rw [tag, isData]; rfl⟩
  constructor
  case synchronized => exact synchronized
  case shared =>
    intro entry mem data isData
    cases conserves.source entry mem data isData with
    | @entry whole wholeData count isWhole sameSend isWholeData isRest =>
      refine share_of_entry count linedAfter.increasing mem isData ?_
      rw [← sameSend, origin_of_old isCounter (entryBelow whole isWhole wholeData isWholeData),
        retained.shared whole isWhole wholeData isWholeData]
      exact isRest
    | handed count _ isHanded isRest =>
      refine share_of_entry count linedAfter.increasing mem isData ?_
      rw [origin_of_handed isHanded]
      exact isRest
  case settled =>
    intro submission mem
    rcases mem_append.mp mem with isOld | isNew
    · have settled := retained.settled submission isOld
      have absent := settled.not_queued conserves.source
      constructor
      case kept =>
        dsimp only
        rw [share_of_absent absent, origin_of_old isCounter settled.below]
        exact settled.kept
      case popped => exact absent
      case below => exact Nat.lt_of_lt_of_le settled.below conserves.counter
      case called =>
        obtain ⟨owners, isCall, isOwner⟩ := settled.called
        refine ⟨owners, ?_, isOwner⟩
        rw [isCalls, List.getElem?_append_left (List.getElem?_eq_some_iff.mp isCall).1]
        exact isCall
      case down =>
        intro shut
        have before : retention.transmission.Acknowledged submission.call := by
          cases isWritable : retention.socket.isWritable with
          | true => exact down shut isWritable submission isOld
          | false => exact settled.down isWritable
        obtain ⟨range, isRange, inside⟩ := before
        exact ⟨range, more range isRange, inside⟩
    · obtain ⟨isNumber, ⟨owners, isCall, isOwner⟩, absent, below, writable, submits⟩ :=
        conserves.submits submission isNew
      constructor
      case kept =>
        dsimp only
        rw [share_of_absent absent]
        cases submits with
        | handed isSend isStart isHanded =>
          rw [origin_of_handed isHanded, isStart]
          exact Container.includes_self ⟨0, submission.bytes⟩
        | @entry entry isEntry isSend isData isStart =>
          rw [origin_of_old isCounter (isSend ▸ entryBelow entry isEntry _ isData), isStart]
          have isContent := retained.shared entry isEntry _ isData
          rw [isSend] at isContent
          conv => rhs; rw [← isContent]
          exact Container.includes_self _
      case popped => exact absent
      case below => exact below
      case called =>
        refine ⟨owners, ?_, isOwner⟩
        have isOnly : outcome.calls = [owners] := by
          obtain ⟨only, isOnly⟩ := length_eq_one_iff.mp (few.antisymm (length_pos_of_mem isCall))
          rw [isOnly] at isCall ⊢
          rw [mem_singleton.mp isCall]
        rw [isCalls, isNumber, isOnly, getElem?_append_right .refl, Nat.sub_self]
        rfl
      case down =>
        intro shut
        exact absurd (shut.symm.trans writable) (by decide)

variable {action : StreamSocket.Action Token}

theorem Retained.perform [DecidableEq Token] (retained : Retained retention)
    {outcome : Outcome Token} (taken : retention.socket.perform action = some outcome)
    (single : retention.socket.Single action) (entire : retention.socket.Entire action) :
    Conserves retention.socket retention.containers retention.transmission.calls.length outcome :=
  (perform_cases retained.synchronized.sized.measured taken).conserves _ _
    retained.synchronized.sized.measured taken retained.synchronized.numbered.lined single entire

variable {retention next : Retention Token}

section

variable [DecidableEq Token]

theorem Retained.socket
    (retained : Retained retention) (guarded : retention.Guarded (.socket action))
    (taken : retention.step (.socket action) = some next) : Retained next := by
  obtain ⟨⟨single, bound⟩, entire, finished⟩ := guarded
  obtain ⟨_, isStep, isNext⟩ := map_eq_some_iff.mp taken
  obtain ⟨isSocket, _, isHalf, isTransmission⟩ := step_socket isStep
  obtain ⟨outcome, isOutcome, isObserved⟩ := SendHalf.step_cases isHalf
  have sized := retained.synchronized.sized
  have performs := perform_cases sized.measured isOutcome
  have advances := performs.advances sized.measured isOutcome retained.synchronized.numbered
    (retained.synchronized.next ▸ bound) single isSocket
  have synchronized := retained.synchronized.socket single bound isSocket isHalf
  subst isNext isTransmission isObserved
  have isEvents : (retention.transmission.half.observe outcome).events.drop
      retention.transmission.half.events.length = outcome.events := drop_left
  rw [isEvents]
  refine retained.observe synchronized (retained.perform isOutcome single entire) advances.few
    (fun _ mem => mem) ?_
  intro shut writable
  rcases performs.isWritable with isSame | ⟨closes, isAction, ended, _⟩
  · exact absurd (shut.symm.trans (isSame.trans writable)) (by decide)
  · exact finished closes isAction ended

theorem Retained.acknowledge (retained : Retained retention) {first thru : Nat} {avoided : Bool}
    (guarded : retention.Guarded (.acknowledge first thru avoided))
    (taken : retention.step (.acknowledge first thru avoided) = some next) : Retained next := by
  obtain ⟨_, isStep, isNext⟩ := map_eq_some_iff.mp taken
  have synchronized := step_synchronized _ (.acknowledge first thru avoided) _
    retained.synchronized guarded isStep
  unfold Transmission.step at isStep
  dsimp only at isStep
  split at isStep
  · obtain ⟨_, isHalf, isTransmission⟩ := map_eq_some_iff.mp isStep
    obtain ⟨outcome, isOutcome, isObserved⟩ := SendHalf.step_cases isHalf
    subst isNext isTransmission isObserved
    have isEvents : (retention.transmission.half.observe outcome).events.drop
        retention.transmission.half.events.length = outcome.events := drop_left
    have isUpdate : outcome = retention.socket.privateZeroCopyUpdate
        (report first thru) avoided := (some.inj isOutcome).symm
    rw [isEvents]
    refine retained.observe synchronized (retained.perform isOutcome trivial trivial) ?_
      (fun _ mem => mem_append_left _ mem) ?_
    · rw [isUpdate, Outcome.calls, privateZeroCopyUpdate, zeroCopied_dispatch]
      exact Nat.zero_le _
    · intro shut writable
      rw [isUpdate] at shut
      exact absurd (shut.symm.trans writable) (by decide)
  · contradiction

theorem step_retained (retention : Retention Token)
    (action : Transmission.Action Token) (next : Retention Token) (retained : Retained retention)
    (guarded : retention.Guarded action) (taken : retention.step action = some next) :
    Retained next := by
  cases action with
  | socket => exact retained.socket guarded taken
  | acknowledge => exact retained.acknowledge guarded taken

end

theorem initial_retained : Retained ({} : Retention Token) where
  synchronized := initial_synchronized
  shared := forall_mem_nil _
  settled := forall_mem_nil _

/-- In every run in which each zero-copy call writes all of what it is given, and the
socket is shut down behind its acknowledgements, what is in flight is kept. -/
theorem retains_of_guarded [DecidableEq Token] (actions : List (Transmission.Action Token))
    (guarded : Run.Along step Guarded ({} : Retention Token) actions) :
    Run.Always step Retains ({} : Retention Token) actions :=
  (Run.always_of_along step_retained initial_retained guarded).mono
    fun _ retained => retained.retains

def finishedWhole : List (Transmission.Action Nat) :=
  [.socket (.send (.blob [1, 2, 3]) {} true {} (.sent 1 false)),
    .socket (.setZeroCopyThreshold (some 1)),
    .socket (.writable {} (fun _ => []) (.sent 2 true)),
    .acknowledge 0 0 true]

/-- The bytes in flight are those behind the first one, which are all that the container
holds. -/
theorem finishedWhole_retained : Run.Always step Retains ({} : Retention Nat) finishedWhole ∧
      ∃ final, Run.run step ({} : Retention Nat) finishedWhole = some final ∧
        final.submitted = [⟨0, 0, 1, [2, 3]⟩] ∧ final.containers 0 = ⟨1, [2, 3]⟩ := by
  refine ⟨retains_of_guarded finishedWhole ?_, _, rfl, rfl, rfl⟩
  refine ⟨⟨⟨trivial, by decide⟩, trivial, nofun⟩, ⟨⟨trivial, by decide⟩, trivial, nofun⟩,
    ⟨⟨?_, by decide⟩, ?_, nofun⟩, rfl, trivial⟩
  · intro _ _ _ isHead _ _ _
    exact Nat.two_pos
  · intro _ _ _ isHead _ _ _
    cases isHead
    exact Nat.le_refl _

def begunInFlight : List (Transmission.Action Nat) :=
  [.socket (.setZeroCopyThreshold (some 1)),
    .socket (.send (.blob [1, 2]) {} true {} (.sent 1 true))]

/-- The container that the zero-copy queue refers to begins behind the byte that is in
flight. -/
theorem begunInFlight_released : ¬ Run.Always step Retains ({} : Retention Nat) begunInFlight ∧
      ∃ final, Run.run step ({} : Retention Nat) begunInFlight = some final ∧
        final.submitted = [⟨0, 0, 0, [1]⟩] ∧ final.transmission.acknowledged = [] ∧
        final.socket.zeroCopyQueue.waitList.map ZeroCopyEntry.group = [0] ∧
        final.containers 0 = ⟨1, [2]⟩ := by
  constructor
  · intro always
    obtain ⟨_, _, retains⟩ := always
    obtain ⟨_, _, isSend, included⟩ := retains ⟨0, 0, 0, [1]⟩ mem_cons_self
      (fun ⟨_, mem, _⟩ => absurd mem not_mem_nil)
    rw [isSend] at included
    contradiction
  · exact ⟨_, rfl, rfl, rfl, rfl, rfl⟩

end Retention

end NtfCore.Ntcr
