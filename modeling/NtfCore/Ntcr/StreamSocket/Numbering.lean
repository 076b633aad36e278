import NtfCore.Ntcq.ZeroCopy.Numbering
import NtfCore.Ntcr.StreamSocket.Stream

/-!
Contract: the numbers of the zero-copy calls of a stream socket are those of the kernel.

Owns: the zero-copy calls observed of a socket; the kernel that numbers them and
acknowledges them in any order; what each critical section does to the zero-copy queue;
and the condition under which the counters of the queue are the numbers of the calls, so
that no entry is completed before its own calls are acknowledged.
-/

namespace NtfCore.Ntcr

open NtfCore.Foundation NtfCore.Ntcq NtfCore.Ntcq.ZeroCopyQueue List Option Sublist

variable {Token : Type}

def Event.zeroCopied : Event Token -> Option (List Nat)
  | .wrote owners _ _ true => some owners
  | _ => none

@[simp] theorem zeroCopied_dispatch (type : SendEventType) (error : Option Error)
    (notices : List (Notice Token)) :
    (StreamSocket.dispatch type error notices).filterMap Event.zeroCopied = [] := by
  rw [StreamSocket.dispatch, filterMap_map]
  exact filterMap_eq_nil_iff.mpr fun _ _ => rfl

namespace StreamSocket

/-! ## The order of sends -/

def groups (zeroCopyQueue : ZeroCopies Token) : List Nat :=
  zeroCopyQueue.waitList.map ZeroCopyEntry.group

def tag (entry : Entry Token) : Option (Nat × Bool) :=
  entry.data.map fun _ => (entry.id, entry.zeroCopy)

def tags (entries : List (Entry Token)) : List (Nat × Bool) :=
  entries.filterMap tag

variable {entry : Entry Token} {data : List UInt8}

theorem tags_cons_of_data (isData : entry.data = some data)
    (rest : List (Entry Token)) : tags (entry :: rest) = (entry.id, entry.zeroCopy) ::
    tags rest := by
  simp [tags, tag, isData]

theorem tags_cons_of_none (noData : entry.data = none)
    (rest : List (Entry Token)) : tags (entry :: rest) = tags rest := by
  simp [tags, tag, noData]

theorem tags_cons_sublist (entry : Entry Token) (rest : List (Entry Token)) :
    (tags rest).Sublist (tags (entry :: rest)) :=
  (sublist_cons_self entry rest).filterMap tag

/-- The entries of the send queue are in the order of their sends, and those of the
zero-copy queue are of sends before them, or of one that is also on the send queue. -/
structure Lined (groups : List Nat) (tags : List (Nat × Bool)) (counter : Nat) : Prop where
  increasing : (tags.map Prod.fst).Pairwise (· < ·)
  tagsBelow : ∀ tag ∈ tags, tag.1 < counter
  groupsBelow : ∀ group ∈ groups, group < counter
  apart : ∀ group ∈ groups, ∀ tag ∈ tags, group < tag.1 ∨ group = tag.1 ∧ tag.2 = true

theorem Lined.sublist {groups fewerGroups : List Nat} {tags fewerTags : List (Nat × Bool)}
    {counter later : Nat} (lined : Lined groups tags counter)
    (isGroups : fewerGroups.Sublist groups) (isTags : fewerTags.Sublist tags)
    (isLater : counter ≤ later) : Lined fewerGroups fewerTags later where
  increasing := lined.increasing.sublist (isTags.map Prod.fst)
  tagsBelow := fun tag mem =>
    Nat.lt_of_lt_of_le (lined.tagsBelow tag (isTags.subset mem)) isLater
  groupsBelow := fun group mem =>
    Nat.lt_of_lt_of_le (lined.groupsBelow group (isGroups.subset mem)) isLater
  apart := fun group isGroup tag isTag =>
    lined.apart group (isGroups.subset isGroup) tag (isTags.subset isTag)

variable {counter : Nat}

section

variable {groups : List Nat} {tags : List (Nat × Bool)}

theorem Lined.queue (lined : Lined groups tags counter) (flag : Bool) :
    Lined groups (tags ++ [(counter, flag)]) (counter + 1) where
  increasing := by
    rw [map_append, map_singleton]
    refine pairwise_append.mpr ⟨lined.increasing, pairwise_singleton _ _, ?_⟩
    intro _ mem _ isNew
    obtain ⟨tag, isTag, isId⟩ := mem_map.mp mem
    rw [mem_singleton.mp isNew, ← isId]
    exact lined.tagsBelow tag isTag
  tagsBelow := by
    intro tag mem
    rcases mem_append.mp mem with before | isNew
    · exact Nat.lt_succ_of_lt (lined.tagsBelow tag before)
    · rw [mem_singleton.mp isNew]
      exact Nat.lt_succ_self _
  groupsBelow := fun group mem => Nat.lt_succ_of_lt (lined.groupsBelow group mem)
  apart := by
    intro group isGroup tag mem
    rcases mem_append.mp mem with before | isNew
    · exact lined.apart group isGroup tag before
    · rw [mem_singleton.mp isNew]
      exact .inl (lined.groupsBelow group isGroup)

/-- The next send is put on the zero-copy queue, while the send queue is empty. -/
theorem Lined.push (lined : Lined groups [] counter) :
    Lined (groups ++ [counter]) [] (counter + 1) where
  increasing := Pairwise.nil
  tagsBelow := by simp
  groupsBelow := by
    intro group mem
    rcases mem_append.mp mem with before | isNew
    · exact Nat.lt_succ_of_lt (lined.groupsBelow group before)
    · rw [mem_singleton.mp isNew]
      exact Nat.lt_succ_self _
  apart := fun _ _ _ mem => absurd mem not_mem_nil

/-- The next send is put on both queues, while the send queue is empty. -/
theorem Lined.pushQueue (lined : Lined groups [] counter) :
    Lined (groups ++ [counter]) [(counter, true)] (counter + 1) := { lined.push with
  increasing := pairwise_singleton _ _
  tagsBelow := by
    intro tag mem
    rw [mem_singleton.mp mem]
    exact Nat.lt_succ_self _
  apart := by
    intro group isGroup _ mem
    rw [mem_singleton.mp mem]
    rcases mem_append.mp isGroup with before | isNew
    · exact .inl (lined.groupsBelow group before)
    · exact .inr ⟨mem_singleton.mp isNew, rfl⟩ }

/-- The send in front of the send queue is put on the zero-copy queue. -/
theorem Lined.begin {counter id : Nat} (lined : Lined groups ((id, false) :: tags) counter) :
    (∀ group ∈ groups, group < id) ∧ Lined (groups ++ [id]) ((id, true) :: tags) counter := by
  have above : ∀ group ∈ groups, group < id := by
    intro group isGroup
    rcases lined.apart group isGroup _ mem_cons_self with isLess | ⟨_, _⟩
    · exact isLess
    · contradiction
  have isBelow : id < counter := lined.tagsBelow _ mem_cons_self
  refine ⟨above, ?_⟩
  constructor
  case increasing => exact lined.increasing
  case tagsBelow =>
    intro tag mem
    rcases mem_cons.mp mem with isFirst | inRest
    · rw [isFirst]
      exact isBelow
    · exact lined.tagsBelow tag (mem_cons_of_mem _ inRest)
  case groupsBelow =>
    intro group mem
    rcases mem_append.mp mem with before | isNew
    · exact lined.groupsBelow group before
    · rw [mem_singleton.mp isNew]
      exact isBelow
  case apart =>
    intro group isGroup tag mem
    rcases mem_cons.mp mem with isFirst | inRest
    · rw [isFirst]
      rcases mem_append.mp isGroup with before | isNew
      · exact .inl (above group before)
      · exact .inr ⟨mem_singleton.mp isNew, rfl⟩
    · have isAfter : id < tag.1 := rel_of_pairwise_cons lined.increasing (mem_map_of_mem inRest)
      rcases mem_append.mp isGroup with before | isNew
      · exact .inl (Nat.lt_trans (above group before) isAfter)
      · rw [mem_singleton.mp isNew]
        exact .inl isAfter

end

/-! ## Entries that are written -/

variable {awaits : Nat -> Nat -> Prop} {before begun : ZeroCopies Token} {entry started : Entry Token}

theorem beginEntry_covered {rest : List (Nat × Bool)} (covered : Covered before awaits)
    (bound : before.generator.next + 1 < uint64Modulus)
    (lined : Lined (groups before) ((entry.id, entry.zeroCopy) :: rest) counter)
    (taken : beginEntry before entry true = some (begun, started)) :
    begun.generator.next = before.generator.next + 1 ∧ (Covered begun fun send number =>
        awaits send number ∨ send = entry.id ∧ number = before.generator.next) ∧
      Lined (groups begun) ((entry.id, true) :: rest) counter ∧
      started.id = entry.id ∧ started.zeroCopy = true ∧ started.data = entry.data := by
  obtain ⟨_, _, _, isStarted, cases⟩ := beginEntry_cases taken
  rcases cases with ⟨_, _⟩ | ⟨_, isFlagged, _, isFlag, number, extended⟩ |
    ⟨_, isPlain, _, isFlag, number, pushed⟩
  · contradiction
  · obtain ⟨isNext, sameGroups, isCovered⟩ := covered.extend bound extended
    rw [isStarted]
    refine ⟨isNext, isCovered, ?_, rfl, isFlag, rfl⟩
    rw [isFlagged] at lined
    rw [groups, sameGroups]
    exact lined
  · rw [isPlain] at lined
    obtain ⟨above, linedBegun⟩ := lined.begin
    obtain ⟨isNext, moreGroups, isCovered⟩ := covered.push bound above pushed
    rw [isStarted]
    refine ⟨isNext, isCovered, ?_, rfl, isFlag, rfl⟩
    rw [groups, moreGroups]
    exact linedBegun

variable {begun finished : ZeroCopies Token} {notice : Option (Notice Token)}

theorem finishEntry_covered (covered : Covered begun awaits)
    (taken : finishEntry begun entry = some (finished, notice)) :
    finished.generator = begun.generator ∧ (groups finished).Sublist (groups begun) ∧
      Covered finished awaits := by
  unfold finishEntry at taken
  cases isFlag : entry.zeroCopy with
  | true =>
    rw [isFlag, if_pos rfl] at taken
    obtain ⟨_, isFramed, isResult⟩ := map_eq_some_iff.mp taken
    obtain ⟨sameGenerator, fewer, isCovered⟩ := covered.frame isFramed
    split at isResult
    · cases isResult
      exact ⟨sameGenerator, fewer, isCovered⟩
    · cases isResult
      exact ⟨sameGenerator, fewer, isCovered.of_eq rfl rfl⟩
  | false =>
    rw [isFlag, if_neg (by decide)] at taken
    cases taken
    exact ⟨rfl, refl _, covered⟩

variable {queue : SendQueue Token (SendContext Token) Nat}

variable {size numBytes : Nat} {rest : List (Entry Token)}

theorem popSize_tags (isPopped : SendQueue.popSize ⟨entry :: rest, size⟩ numBytes = some queue) :
    tags queue.entryList = (entry.id, entry.zeroCopy) :: tags rest ∧ entry.data.isSome = true := by
  obtain ⟨_, _, isData, _, _, _, isQueue⟩ := popSize_cases isPopped
  rw [isQueue]
  exact ⟨tags_cons_of_data rfl rest, by rw [isData]; rfl⟩

variable {notices : List (Notice Token)}

variable {before after : ZeroCopies Token} {entries : List (Entry Token)}

/-- The turns of the loop for a call without zero-copy. -/
theorem Writes.copies (writes : Writes false entries size numBytes before queue after notices)
    (covered : Covered before awaits) (lined : Lined (groups before) (tags entries) counter) :
    after.generator = before.generator ∧ Covered after awaits ∧
      Lined (groups after) (tags queue.entryList) counter := by
  have begins : ∀ {before begun : ZeroCopies Token} {entry started : Entry Token},
      beginEntry before entry false = some (begun, started) ->
        begun = before ∧ started.id = entry.id ∧ started.zeroCopy = entry.zeroCopy ∧
          started.data = entry.data := by
    intro _ _ _ _ isBegun
    obtain ⟨_, _, _, isStarted, cases⟩ := beginEntry_cases isBegun
    rcases cases with ⟨_, isSame, _, isFlag⟩ | ⟨isTrue, _⟩ | ⟨_, _⟩
    · rw [isStarted]
      exact ⟨isSame, rfl, isFlag, rfl⟩
    · contradiction
    · contradiction
  induction writes with
  | stop => exact ⟨rfl, covered, lined⟩
  | whole _ isBegun _ isFinished _ _ ih =>
    obtain ⟨isSame, _⟩ := begins isBegun
    rw [isSame] at isFinished
    obtain ⟨sameGenerator, fewer, isCovered⟩ := finishEntry_covered covered isFinished
    obtain ⟨laterGenerator, laterCovered, laterLined⟩ := ih isCovered
      (lined.sublist fewer (tags_cons_sublist _ _) .refl)
    exact ⟨laterGenerator.trans sameGenerator, laterCovered, laterLined⟩
  | part _ isBegun _ isPopped =>
    obtain ⟨isSame, isId, isFlag, sameData⟩ := begins isBegun
    obtain ⟨isTags, hasData⟩ := popSize_tags isPopped
    rw [sameData] at hasData
    obtain ⟨_, isData⟩ := isSome_iff_exists.mp hasData
    rw [isSame, isTags, isId, isFlag, ← tags_cons_of_data isData]
    exact ⟨rfl, covered, lined⟩

/-- The turns of the loop for a zero-copy call that ends within the entry in front. -/
theorem Writes.single
    (writes : Writes true (entry :: rest) size numBytes before queue after notices)
    (covered : Covered before awaits) (bound : before.generator.next + 1 < uint64Modulus)
    (lined : Lined (groups before) (tags (entry :: rest)) counter)
    (hasData : entry.data.isSome = true) (pos : 0 < numBytes) (within : numBytes ≤ entry.length) :
    after.generator.next = before.generator.next + 1 ∧ (Covered after fun send number =>
        awaits send number ∨ send = entry.id ∧ number = before.generator.next) ∧
      Lined (groups after) (tags queue.entryList) counter := by
  obtain ⟨_, isData⟩ := isSome_iff_exists.mp hasData
  rw [tags_cons_of_data isData] at lined
  cases writes with
  | stop => omega
  | whole _ isBegun _ isFinished _ later =>
    obtain ⟨isNext, isCovered, isLined, _⟩ := beginEntry_covered covered bound lined isBegun
    obtain ⟨sameGenerator, fewer, finishedCovered⟩ := finishEntry_covered isCovered isFinished
    have finishedLined := isLined.sublist fewer (sublist_cons_self _ _) .refl
    have isZero : numBytes - entry.length = 0 := Nat.sub_eq_zero_of_le within
    rw [isZero] at later
    cases later with
    | stop => exact ⟨by rw [sameGenerator, isNext], finishedCovered, finishedLined⟩
    | whole isPos | part isPos => omega
  | part _ isBegun _ isPopped =>
    obtain ⟨isNext, isCovered, isLined, isId, isFlag, _⟩ :=
      beginEntry_covered covered bound lined isBegun
    obtain ⟨isTags, _⟩ := popSize_tags isPopped
    rw [isTags, isId, isFlag]
    exact ⟨isNext, isCovered, isLined⟩

structure Numbered (socket : StreamSocket Token) (awaits : Nat -> Nat -> Prop) : Prop extends
    Covered socket.zeroCopyQueue awaits where
  lined : Lined (groups socket.zeroCopyQueue) (tags socket.sendQueue.entryList) socket.sendCounter

variable {socket : StreamSocket Token}

theorem Numbered.mono {more fewer : Nat -> Nat -> Prop} (numbered : Numbered socket more)
    (implies : ∀ send number, fewer send number -> more send number) : Numbered socket fewer :=
  ⟨numbered.toCovered.mono implies, numbered.lined⟩

def Outcome.calls (outcome : Outcome Token) : List (List Nat) :=
  outcome.events.filterMap Event.zeroCopied

def Awaited (socket : StreamSocket Token) (awaits : Nat -> Nat -> Prop) (outcome : Outcome Token)
    (send number : Nat) : Prop :=
  awaits send number ∨
    ∃ owners ∈ outcome.calls, send ∈ owners ∧ number = socket.zeroCopyQueue.generator.next

/-- Each zero-copy call of an outcome, of which there is one at most, takes one counter,
which its sends then await. Nothing is awaited once the send direction is down. -/
structure Advances (socket : StreamSocket Token) (awaits : Nat -> Nat -> Prop)
    (outcome : Outcome Token) : Prop where
  few : outcome.calls.length ≤ 1
  next : outcome.socket.zeroCopyQueue.generator.next =
    socket.zeroCopyQueue.generator.next + outcome.calls.length
  offset : outcome.socket.zeroCopyQueue.generator.bias = socket.zeroCopyQueue.generator.bias ∧
    outcome.socket.zeroCopyQueue.generator.generation = socket.zeroCopyQueue.generator.generation
  numbered : outcome.socket.isWritable = true ->
    Numbered outcome.socket (Awaited socket awaits outcome)
  down : Numbered outcome.socket fun _ _ => False

variable {outcome : Outcome Token}

theorem Advances.idle (noCalls : outcome.calls = [])
    (sameGenerator : outcome.socket.zeroCopyQueue.generator = socket.zeroCopyQueue.generator)
    (numbered : Numbered outcome.socket awaits) : Advances socket awaits outcome where
  few := by rw [noCalls]; exact Nat.zero_le _
  next := by rw [noCalls, sameGenerator]; rfl
  offset := by rw [sameGenerator]; exact ⟨rfl, rfl⟩
  numbered := by
    intro _
    refine numbered.mono ?_
    rintro _ _ (awaited | ⟨_, isCall, _⟩)
    · exact awaited
    · rw [noCalls] at isCall
      contradiction
  down := numbered.mono fun _ _ => False.elim

variable {owners : List Nat}

theorem Advances.called {send : Nat} (isCall : outcome.calls = [owners])
    (isOwner : ∀ owner ∈ owners, owner = send)
    (isNext : outcome.socket.zeroCopyQueue.generator.next = socket.zeroCopyQueue.generator.next + 1)
    (offset : outcome.socket.zeroCopyQueue.generator.bias = socket.zeroCopyQueue.generator.bias ∧
      outcome.socket.zeroCopyQueue.generator.generation = socket.zeroCopyQueue.generator.generation)
    (numbered : Numbered outcome.socket fun other number =>
      awaits other number ∨ other = send ∧ number = socket.zeroCopyQueue.generator.next) :
    Advances socket awaits outcome where
  few := by rw [isCall]; exact Nat.le_refl _
  next := by rw [isCall, isNext]; rfl
  offset := offset
  numbered := by
    intro _
    refine numbered.mono ?_
    rintro other _ (awaited | ⟨_, isCalled, isMem, isNumber⟩)
    · exact .inl awaited
    · rw [isCall, mem_singleton] at isCalled
      exact .inr ⟨isOwner other (isCalled ▸ isMem), isNumber⟩
  down := numbered.mono fun _ _ => False.elim

variable {zeroCopy : Bool} {foreign : Option Int} {numBytes : Nat}

theorem Begun.calls {calls : List (Event Token)}
    (begun : Begun socket counter data foreign numBytes zeroCopy calls) :
    (zeroCopy = false -> calls.filterMap Event.zeroCopied = []) ∧
      (zeroCopy = true -> socket.sendQueue.entryList = [] ∧
        calls.filterMap Event.zeroCopied = [if numBytes = 0 then [] else [counter]]) := by
  cases begun with
  | nothing => exact ⟨fun _ => rfl, nofun⟩
  | called empty =>
    constructor
    · intro isFalse
      rw [isFalse]
      rfl
    · intro isTrue
      rw [isTrue]
      exact ⟨empty, rfl⟩

theorem calls_accepted (counter : Nat) (data : List UInt8) (foreign : Option Int)
    (callback : Bool) (calls : List (Event Token)) (notices : List (Notice Token)) :
    (Event.handed counter data :: calls ++ [Event.accepted counter data foreign callback] ++
        dispatch .complete none notices).filterMap Event.zeroCopied =
      calls.filterMap Event.zeroCopied := by
  rw [filterMap_append, zeroCopied_dispatch, append_nil, filterMap_append]
  exact append_nil _

theorem owner_of_mem {counter : Nat} :
    ∀ owner ∈ (if numBytes = 0 then [] else [counter]), owner = counter := by
  intro _ mem
  split at mem
  · contradiction
  · exact mem_singleton.mp mem

theorem issue_offset (generator : ZeroCopyCounterGenerator) :
    generator.issue.2.bias = generator.bias ∧ generator.issue.2.generation = generator.generation :=
  ⟨rfl, rfl⟩

variable {reply : Reply} {options : SendOptions Token} {isFile : Bool} {buffers : Buffers}

theorem Raw.advances {entryCallback : Bool -> Option Nat}
    {context : SendContext Token} {callback : Option Nat}
    (raw : Raw entryCallback socket.counted data isFile buffers socket.sendCounter options context callback
      reply outcome) (numbered : Numbered socket awaits)
    (bound : socket.zeroCopyQueue.generator.next + 1 < uint64Modulus) :
    Advances socket awaits outcome := by
  have later : socket.sendCounter ≤ socket.counted.sendCounter := Nat.le_succ _
  cases raw with
  | failed =>
    exact .idle rfl rfl ⟨numbered.toCovered.of_eq rfl rfl,
      numbered.lined.sublist (refl _) (refl _) later⟩
  | @copied calls number pushed _ _ begun isPushed isFramed =>
    obtain ⟨empty, isCall⟩ := begun.calls.2 rfl
    have isEvents := calls_accepted socket.sendCounter data options.foreignHandle callback.isSome
      calls []
    rw [isCall, show dispatch .complete none ([] : List (Notice Token)) = [] from rfl,
      append_nil] at isEvents
    have lined := numbered.lined
    rw [show socket.sendQueue.entryList = [] from empty] at lined
    obtain ⟨isNext, moreGroups, pushedCovered⟩ :=
      numbered.toCovered.push bound lined.groupsBelow isPushed
    obtain ⟨sameGenerator, fewer, framedCovered⟩ := pushedCovered.frame isFramed
    refine .called isEvents owner_of_mem ?_ ?_ ⟨framedCovered, ?_⟩
    · rw [← isNext, ← sameGenerator]
    · dsimp only
      rw [sameGenerator, push_cases isPushed]
      exact issue_offset _
    · refine lined.push.sublist ?_ ?_ .refl
      · rw [← show pushed.waitList.map ZeroCopyEntry.group =
          groups socket.zeroCopyQueue ++ [socket.sendCounter] from moreGroups]
        exact fewer
      · rw [show socket.counted.sendQueue.entryList = [] from empty]
        exact refl _
  | @written calls _ begun =>
    refine .idle ?_ rfl ⟨numbered.toCovered.of_eq rfl rfl,
      numbered.lined.sublist (refl _) (refl _) later⟩
    exact (calls_accepted _ _ _ _ _ _).trans (begun.calls.1 rfl)
  | @queued calls bytesSent popped zeroCopy rest _ _ begun _ _ isPushed =>
    have isEvents := calls_accepted socket.sendCounter data options.foreignHandle callback.isSome
      calls []
    rw [show dispatch .complete none ([] : List (Notice Token)) = [] from rfl,
      append_nil] at isEvents
    have isTags : tags (socket.counted.sendQueue.entryList ++
        [entryFor bytesSent zeroCopy (data.drop popped) rest isFile socket.sendCounter options
          context (entryCallback zeroCopy)]) =
        tags socket.sendQueue.entryList ++ [(socket.sendCounter, zeroCopy)] := by
      rw [tags, filterMap_append]
      rfl
    cases zeroCopy with
    | false =>
      cases isPushed
      refine .idle (isEvents.trans (begun.calls.1 rfl)) rfl ⟨numbered.toCovered.of_eq rfl rfl, ?_⟩
      rw [isTags]
      exact numbered.lined.queue false
    | true =>
      obtain ⟨empty, isCall⟩ := begun.calls.2 rfl
      have lined := numbered.lined
      rw [show socket.sendQueue.entryList = [] from empty] at lined
      obtain ⟨⟨_, _⟩, taken, isResult⟩ := map_eq_some_iff.mp isPushed
      cases isResult
      obtain ⟨isNext, moreGroups, pushedCovered⟩ :=
        numbered.toCovered.push bound lined.groupsBelow taken
      refine .called (isEvents.trans isCall) owner_of_mem isNext ?_ ⟨pushedCovered, ?_⟩
      · dsimp only
        rw [push_cases taken]
        exact issue_offset _
      · rw [isTags, show socket.sendQueue.entryList = [] from empty, groups, moreGroups]
        exact lined.pushQueue

theorem Sending.advances {produced : Option (List UInt8)} {buffers : Buffers}
    (sending : Sending socket options produced buffers reply outcome)
    (numbered : Numbered socket awaits)
    (bound : socket.zeroCopyQueue.generator.next + 1 < uint64Modulus) :
    Advances socket awaits outcome := by
  have counted : Numbered socket.counted awaits :=
    ⟨numbered.toCovered, numbered.lined.sublist (refl _) (refl _) (Nat.le_succ _)⟩
  cases sending with
  | nothing same =>
    rcases same with isSame | isCounted
    · subst isSame
      exact .idle rfl rfl numbered
    · subst isCounted
      exact .idle rfl rfl counted
  | raw _ _ _ isRaw => exact isRaw.advances numbered bound
  | silent => exact .idle (zeroCopied_dispatch _ _ _) rfl counted

def Single (socket : StreamSocket Token) : Action Token -> Prop
  | .writable limits layout (.sent numBytes true) =>
    socket.canSend = true -> socket.isWritable = true ->
      ∀ entry ∈ socket.sendQueue.entryList.head?,
        match batchNext socket.sendQueue limits layout with
        | some batch => socket.wantsZeroCopy batch false = true ->
            0 < min numBytes batch.length ∧ min numBytes batch.length ≤ entry.length
        | none => ∀ data ∈ entry.data, socket.wantsZeroCopy data entry.isFile = true -> 0 < numBytes
  | _ => True

theorem privateEnqueueSendBuffer_zeroCopied {data written : List UInt8}
    {passed : Option Int} {owners : Nat -> List Nat} {called : List Nat}
    (isCall : Event.wrote called written passed true ∈
      (socket.privateEnqueueSendBuffer data isFile foreign owners reply).events) :
    socket.isWritable = true ∧ socket.wantsZeroCopy data isFile = true ∧
      ∃ numBytes, reply = .sent numBytes true ∧ written.length = min numBytes data.length := by
  unfold privateEnqueueSendBuffer at isCall
  split at isCall
  · rename_i writable
    cases reply with
    | failed | wouldBlock => contradiction
    | sent numBytes =>
      have isEvent := mem_singleton.mp isCall
      rw [Event.wrote.injEq] at isEvent
      obtain ⟨_, isWritten, _, isUsed⟩ := isEvent
      obtain ⟨isWanted, isZeroCopy⟩ := Bool.and_eq_true_iff.mp isUsed.symm
      refine ⟨writable, isWanted, numBytes, by rw [isZeroCopy], ?_⟩
      rw [isWritten, length_take]
      omega
  · contradiction

variable {written : List UInt8} {passed : Option Int}

theorem not_mem_dispatch {type : SendEventType} {error : Option Error}
    (isCall : Event.wrote owners written passed zeroCopy ∈ dispatch type error notices) :
    False := by
  obtain ⟨_, _, _⟩ := mem_map.mp isCall
  contradiction

theorem writableIterationBatch_events {batch : List UInt8}
    (taken : socket.privateSocketWritableIterationBatch batch reply = some outcome)
    (isCall : Event.wrote owners written passed zeroCopy ∈ outcome.events) :
    Event.wrote owners written passed zeroCopy ∈ (socket.privateEnqueueSendBuffer batch false none
      (ownersOf socket.sendQueue.entryList) reply).events := by
  unfold privateSocketWritableIterationBatch at taken
  generalize socket.privateEnqueueSendBuffer batch false none
    (ownersOf socket.sendQueue.entryList) reply = attempt at taken ⊢
  by_cases isError : attempt.error.isSome = true
  · rw [if_pos isError] at taken
    rw [← some.inj taken] at isCall
    exact isCall
  · rw [if_neg isError] at taken
    obtain ⟨_, _, taken⟩ := bind_eq_some_iff.mp taken
    rw [← some.inj taken] at isCall
    rcases mem_append.mp isCall with isAttempt | isDispatch
    · exact isAttempt
    · exact (not_mem_dispatch isDispatch).elim

theorem writableIterationFront_events (isFront : socket.sendQueue.entryList = entry :: rest)
    (taken : socket.privateSocketWritableIterationFront reply = some outcome)
    (isCall : Event.wrote owners written passed zeroCopy ∈ outcome.events) :
    ∃ data, entry.data = some data ∧ Event.wrote owners written passed zeroCopy ∈
      (socket.privateEnqueueSendBuffer data entry.isFile entry.foreignHandle (ownersOf [entry])
        reply).events := by
  unfold privateSocketWritableIterationFront at taken
  rw [isFront] at taken
  dsimp only at taken
  cases isData : entry.data with
  | none =>
    rw [isData] at taken
    obtain ⟨popped, _, taken⟩ := bind_eq_some_iff.mp taken
    rw [← some.inj taken] at isCall
    contradiction
  | some data =>
    rw [isData] at taken
    dsimp only at taken
    refine ⟨data, rfl, ?_⟩
    generalize socket.privateEnqueueSendBuffer data entry.isFile entry.foreignHandle
      (ownersOf [entry]) reply = attempt at taken ⊢
    split at taken
    · rw [← some.inj taken] at isCall
      exact isCall
    · obtain ⟨begun, _, taken⟩ := bind_eq_some_iff.mp taken
      split at taken
      · obtain ⟨_, _, taken⟩ := bind_eq_some_iff.mp taken
        obtain ⟨_, _, taken⟩ := bind_eq_some_iff.mp taken
        rw [← some.inj taken] at isCall
        rcases mem_append.mp isCall with isAttempt | isDispatch
        · exact isAttempt
        · exact (not_mem_dispatch isDispatch).elim
      · obtain ⟨_, _, taken⟩ := bind_eq_some_iff.mp taken
        rw [← some.inj taken] at isCall
        exact isCall

variable {layout : Nat -> List Nat} {limits : Limits}

theorem processSocketWritable_zeroCopied
    (taken : socket.processSocketWritable limits layout reply = some outcome)
    (isCall : Event.wrote owners written passed true ∈ outcome.events) :
    socket.canSend = true ∧ socket.isWritable = true ∧ ∃ entry rest numBytes,
      socket.sendQueue.entryList = entry :: rest ∧ reply = .sent numBytes true ∧
        match batchNext socket.sendQueue limits layout with
        | some batch => socket.wantsZeroCopy batch false = true ∧
            written.length = min numBytes batch.length
        | none => ∃ data, entry.data = some data ∧ socket.wantsZeroCopy data entry.isFile = true ∧
            written.length = min numBytes data.length := by
  unfold processSocketWritable at taken
  split at taken
  · rename_i canSend
    rw [privateSocketWritableIteration] at taken
    cases isEntries : socket.sendQueue.entryList with
    | nil =>
      rw [isEntries, isEmpty_nil, if_pos rfl] at taken
      rw [← some.inj taken] at isCall
      contradiction
    | cons entry rest =>
      rw [isEntries, isEmpty_cons, if_neg (by decide)] at taken
      cases isBatch : batchNext socket.sendQueue limits layout with
      | some =>
        rw [isBatch] at taken
        obtain ⟨writable, isWanted, numBytes, isReply, isLength⟩ :=
          privateEnqueueSendBuffer_zeroCopied (writableIterationBatch_events taken isCall)
        exact ⟨canSend, writable, entry, rest, numBytes, rfl, isReply, isWanted, isLength⟩
      | none =>
        rw [isBatch] at taken
        obtain ⟨data, isData, isAttempt⟩ := writableIterationFront_events isEntries taken isCall
        obtain ⟨writable, isWanted, numBytes, isReply, isLength⟩ :=
          privateEnqueueSendBuffer_zeroCopied isAttempt
        exact ⟨canSend, writable, entry, rest, numBytes, rfl, isReply, data, isData, isWanted,
          isLength⟩
  · rw [← some.inj taken] at isCall
    contradiction

theorem length_pos_of_measured (measured : entry.measured = true) (isData : entry.data = some data)
    : 0 < entry.length := by
  rw [SendQueueEntry.measured, isData] at measured
  exact of_decide_eq_true (Bool.and_eq_true_iff.mp measured).1

/-- What the condition on a writable event says of its zero-copy call. -/
theorem Single.call (single : socket.Single (.writable limits layout reply))
    (measured : ∀ entry ∈ socket.sendQueue.entryList, entry.measured = true)
    (taken : socket.processSocketWritable limits layout reply = some outcome)
    (isCall : Event.wrote owners written passed true ∈ outcome.events) : 0 < written.length ∧
      ∀ entry ∈ socket.sendQueue.entryList.head?, written.length ≤ entry.length := by
  obtain ⟨canSend, writable, entry, _, _, isEntries, isReply, isAsked⟩ :=
    processSocketWritable_zeroCopied taken isCall
  subst isReply
  have within := single canSend writable entry (by rw [isEntries]; rfl)
  have isMeasured := measured entry (by rw [isEntries]; exact mem_cons_self)
  have bounds : 0 < written.length ∧ written.length ≤ entry.length := by
    cases isBatch : batchNext socket.sendQueue limits layout with
    | some =>
      rw [isBatch] at within isAsked
      rw [isAsked.2]
      exact within isAsked.1
    | none =>
      rw [isBatch] at within isAsked
      obtain ⟨data, isData, isWanted, _⟩ := isAsked
      have pos := within data isData isWanted
      have ne := length_pos_of_measured isMeasured isData
      obtain ⟨_, _⟩ := bytes_length isMeasured isData
      omega
  refine ⟨bounds.1, ?_⟩
  intro _ isOther
  rw [isEntries] at isOther
  cases isOther
  exact bounds.2

theorem beginEntry_offset (taken : beginEntry before entry zeroCopy = some (begun, started)) :
    begun.generator.bias = before.generator.bias ∧
      begun.generator.generation = before.generator.generation := by
  obtain ⟨_, _, _, _, cases⟩ := beginEntry_cases taken
  rcases cases with ⟨_, isSame, _⟩ | ⟨_, _, _, _, number, extended⟩ | ⟨_, _, _, _, _, pushed⟩
  · rw [isSame]
    exact ⟨rfl, rfl⟩
  · unfold extend at extended
    split at extended
    · split at extended
      · rw [← (Prod.mk.inj (some.inj extended)).2]
        exact ⟨rfl, rfl⟩
      · contradiction
    · contradiction
  · rw [push_cases pushed]
    exact ⟨rfl, rfl⟩

theorem finishEntry_offset (taken : finishEntry begun entry = some (finished, notice)) :
    finished.generator = begun.generator := by
  unfold finishEntry at taken
  split at taken
  · obtain ⟨framed, isFramed, isResult⟩ := map_eq_some_iff.mp taken
    have sameGenerator : framed.generator = begun.generator := by
      unfold frame at isFramed
      split at isFramed
      · split at isFramed
        · dsimp only at isFramed
          split at isFramed
          · rw [← some.inj isFramed]
          · rw [← some.inj isFramed]
        · contradiction
      · contradiction
    split at isResult
    · cases isResult
      exact sameGenerator
    · cases isResult
      exact sameGenerator
  · cases taken
    rfl

theorem Writes.offset (writes : Writes zeroCopy entries size numBytes before queue after notices) :
    after.generator.bias = before.generator.bias ∧
      after.generator.generation = before.generator.generation := by
  induction writes with
  | stop => exact ⟨rfl, rfl⟩
  | whole _ isBegun _ isFinished _ _ ih =>
    have begun := beginEntry_offset isBegun
    rw [← finishEntry_offset isFinished] at begun
    exact ⟨ih.1.trans begun.1, ih.2.trans begun.2⟩
  | part _ isBegun => exact beginEntry_offset isBegun

theorem Writing.advances (writing : Writing socket outcome)
    (measured : ∀ entry ∈ socket.sendQueue.entryList, entry.measured = true)
    (numbered : Numbered socket awaits)
    (bound : socket.zeroCopyQueue.generator.next + 1 < uint64Modulus)
    (single : ∀ owners written passed, Event.wrote owners written passed true ∈ outcome.events ->
      0 < written.length ∧
        ∀ entry ∈ socket.sendQueue.entryList.head?, written.length ≤ entry.length) :
    Advances socket awaits outcome := by
  cases writing with
  | @idle _ _ _ isCalls =>
    have same : Numbered socket awaits := numbered
    rcases isCalls with noCalls | ⟨foreign, zeroCopy, isCalls⟩
    · subst noCalls
      exact .idle rfl rfl ⟨same.toCovered, same.lined⟩
    · subst isCalls
      cases zeroCopy with
      | false => exact .idle rfl rfl ⟨same.toCovered, same.lined⟩
      | true =>
        have wrote := (single [] [] foreign mem_cons_self).1
        contradiction
  | @wrote threshold numBytes zeroCopy foreign queue zeroCopyQueue notices writable pos
      reach writes =>
      cases zeroCopy with
      | false =>
        obtain ⟨sameGenerator, isCovered, isLined⟩ :=
          writes.copies numbered.toCovered numbered.lined
        refine .idle ?_ sameGenerator ⟨isCovered, isLined⟩
        exact zeroCopied_dispatch _ _ _
      | true =>
        obtain ⟨_, within⟩ := single _ _ foreign mem_cons_self
        have fits := reach.le_reachable
        have contained := reachable_le_contents socket.sendQueue.entryList
        rw [contents_parcels] at contained
        rw [length_take, Nat.min_eq_left (Nat.le_trans fits contained)] at within
        have offset := writes.offset
        have lined := numbered.lined
        cases isEntries : socket.sendQueue.entryList with
        | nil =>
          rw [isEntries] at fits
          exact absurd fits (Nat.not_le_of_lt pos)
        | cons entry rest =>
          rw [isEntries] at fits writes lined
          have inside := within entry (by rw [isEntries]; rfl)
          obtain ⟨_, isData, _⟩ := reachable_cons
            (measured entry (by rw [isEntries]; exact mem_cons_self)) pos fits
          obtain ⟨isNext, isCovered, isLined⟩ := writes.single numbered.toCovered bound lined
            (by rw [isData]; rfl) pos inside
          have isOwners : ownersOf (entry :: rest) numBytes = [entry.id] := by
            rw [ownersOf, if_neg (Nat.ne_of_gt pos), Nat.sub_eq_zero_of_le inside, ownersOf_zero]
          refine .called ?_ (fun _ mem => mem_singleton.mp (isOwners ▸ mem)) isNext
            offset ⟨isCovered, isLined⟩
          exact congrArg _ (zeroCopied_dispatch _ _ _)
  | @ended _ _ isFront noData =>
    refine .idle rfl rfl ⟨numbered.toCovered, ?_⟩
    have lined := numbered.lined
    rw [isFront, tags_cons_of_none noData] at lined
    exact lined

theorem Removing.advances {removable : Entry Token -> Bool}
    {index : Nat} (removing : Removing socket removable index outcome)
    (numbered : Numbered socket awaits) : Advances socket awaits outcome := by
  cases removing with
  | kept => exact .idle rfl rfl numbered
  | removed =>
    refine .idle (zeroCopied_dispatch _ _ _) rfl ⟨numbered.toCovered, ?_⟩
    exact numbered.lined.sublist (refl _) ((eraseIdx_sublist _ _).filterMap tag) .refl

theorem Closing.advances (closing : Closing socket outcome) (numbered : Numbered socket awaits) :
    Advances socket awaits outcome := by
  cases closing with
  | nothing => exact .idle rfl rfl ⟨numbered.toCovered, numbered.lined⟩
  | swept isOpen =>
    have noCalls : Outcome.calls
        { socket := { socket with
            isOpen := isOpen
            isWritable := false
            sendQueue := {}
            zeroCopyQueue := { socket.zeroCopyQueue with waitList := [], doneList := [] } }
          events := .shut (socket.sendQueue.entryList.map SendQueueEntry.id) ::
            dispatch .error (some .cancelled) socket.pendingNotices } = [] :=
      zeroCopied_dispatch _ _ _
    constructor
    case few =>
      rw [noCalls]
      exact Nat.zero_le _
    case next => rw [noCalls]; rfl
    case offset => exact ⟨rfl, rfl⟩
    case numbered => exact nofun
    case down =>
      constructor
      · constructor
        case wellFormed => exact by simp
        case below => exact by simp
        case covers => exact fun _ _ absurd => absurd.elim
        case increasing => exact Pairwise.nil
      · exact numbered.lined.sublist (nil_sublist _) (nil_sublist _) .refl

theorem Performs.advances [DecidableEq Token] {action : Action Token}
    (performs : Performs socket action outcome)
    (measured : ∀ entry ∈ socket.sendQueue.entryList, entry.measured = true)
    (taken : socket.perform action = some outcome) (numbered : Numbered socket awaits)
    (bound : socket.zeroCopyQueue.generator.next + 1 < uint64Modulus)
    (single : socket.Single action)
    (isSocket : ∀ zeroCopy avoided, action ≠ .zeroCopyUpdate zeroCopy avoided) :
    Advances socket awaits outcome := by
  cases performs with
  | send sending | sendCipherData sending => exact sending.advances numbered bound
  | writable writing =>
    refine writing.advances measured numbered bound ?_
    intro _ _ _ isCall
    exact single.call measured taken isCall
  | sendDeadline removing | cancel removing => exact removing.advances numbered
  | zeroCopyUpdate => exact absurd rfl (isSocket _ _)
  | setZeroCopyThreshold
  | setWriteQueueHighWatermark => exact .idle rfl rfl ⟨numbered.toCovered, numbered.lined⟩
  | shutdown ending =>
    cases ending with
    | nothing => exact .idle rfl rfl numbered
    | marked =>
      refine .idle rfl rfl ⟨numbered.toCovered, ?_⟩
      rw [tags, filterMap_append]
      exact (append_nil (tags socket.sendQueue.entryList)).symm ▸ numbered.lined
    | begun => exact .idle rfl rfl ⟨numbered.toCovered, numbered.lined⟩
  | shutdownSequenceComplete closing => exact closing.advances numbered

theorem Numbered.update (numbered : Numbered socket awaits) {zeroCopy : ZeroCopy} (avoided : Bool)
    (proper : (socket.zeroCopyQueue.generator.update zeroCopy).1.Proper) :
    Numbered (socket.privateZeroCopyUpdate zeroCopy avoided).socket fun send number =>
      awaits send number ∧ ¬
    (socket.zeroCopyQueue.generator.update zeroCopy).1.Contains number := by
  obtain ⟨_, fewer, isCovered⟩ := numbered.toCovered.update proper
  exact ⟨isCovered.of_eq rfl rfl, numbered.lined.sublist fewer (refl _) .refl⟩

end StreamSocket

end NtfCore.Ntcr
