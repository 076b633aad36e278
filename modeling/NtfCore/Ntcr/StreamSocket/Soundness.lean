import NtfCore.Ntcr.StreamSocket.Steps

/-!
Contract: the size of the send queue is exact in every critical section.

Owns: that the size is the sum of the lengths of the entries, each of which is the length of
its data; that every event keeps this.
-/

namespace NtfCore.Ntcr.StreamSocket

open NtfCore.Foundation NtfCore.Ntcq List SendQueueEntry SendSystem

variable {Token : Type}

/-! ## Sizes -/

structure Sized (queue : SendQueue Token (SendContext Token) Nat) : Prop where
  size_eq : queue.size = (queue.entryList.map SendQueueEntry.dataLength).sum
  measured : ∀ entry ∈ queue.entryList, entry.measured = true

variable {entry : Entry Token}

theorem releaseSize_of_measured {size : Nat} (measured : entry.measured = true)
    (contained : entry.dataLength ≤ size) :
    SendQueue.releaseSize size entry = some (size - entry.dataLength) :=
  releaseSize_eq measured contained

variable {queue : SendQueue Token (SendContext Token) Nat}

theorem Sized.concat (sized : Sized queue) (measured : entry.measured = true) :
    Sized ⟨queue.entryList ++ [entry], queue.size + entry.dataLength⟩ where
  size_eq := by
    rw [map_append, sum_append, ← sized.size_eq, map_singleton, sum_singleton]
  measured := by
    intro other mem
    rcases mem_append.mp mem with before | isLast
    · exact sized.measured other before
    · rw [mem_singleton.mp isLast]
      exact measured

variable {index : Nat}

theorem Sized.eraseIdx (sized : Sized queue)
    {released : Nat} (found : queue.entryList[index]? = some entry)
    (isReleased : SendQueue.releaseSize queue.size entry = some released) :
    Sized ⟨queue.entryList.eraseIdx index, released⟩ where
  size_eq := by
    have mem := mem_of_getElem? found
    have contained : entry.dataLength ≤ queue.size := by
      rw [sized.size_eq]
      exact dataLength_le_sum mem
    rw [releaseSize_of_measured (sized.measured entry mem) contained, Option.some.injEq]
      at isReleased
    rw [← isReleased, sized.size_eq]
    exact (sum_eraseIdx found).symm
  measured := fun other mem => sized.measured other (mem_of_mem_eraseIdx mem)

variable {zeroCopy : Bool}

theorem beginEntry_data {zeroCopyQueue next : ZeroCopies Token} {entry started : Entry Token}
    (taken : beginEntry zeroCopyQueue entry zeroCopy = some (next, started)) :
    started.measured = entry.measured ∧ started.dataLength = entry.dataLength := by
  obtain ⟨_, _, _, isStarted, _⟩ := beginEntry_cases taken
  rw [isStarted]
  exact ⟨rfl, rfl⟩

theorem Writes.sized {entries : List (Entry Token)} {size numBytes : Nat}
    {before after : ZeroCopies Token} {notices : List (Notice Token)}
    (writes : Writes zeroCopy entries size numBytes before queue after notices)
    (sized : Sized ⟨entries, size⟩) : Sized queue := by
  induction writes with
  | stop entries size => exact sized
  | @whole entry started rest size _ released _ _ _ _ _ _ _ _ isBegun _ _ isReleased _ ih =>
      obtain ⟨sameMeasure, sameLength⟩ := beginEntry_data isBegun
      have measured : started.measured = true := by
        rw [sameMeasure]
        exact sized.measured entry mem_cons_self
      have isSize := sized.size_eq
      rw [map_cons, sum_cons] at isSize
      dsimp only at isSize
      rw [releaseSize_of_measured measured (by omega), Option.some.injEq] at isReleased
      apply ih
      refine ⟨?_, fun other mem => sized.measured other (mem_cons_of_mem _ mem)⟩
      dsimp only
      omega
  | @part entry started rest size numBytes _ _ _ pos isBegun inside isPopped =>
    obtain ⟨sameMeasure, sameLength⟩ := beginEntry_data isBegun
    have startedLength := beginEntry_length isBegun
    obtain ⟨data, _, isData, isLength, _, _, isQueue⟩ := popSize_cases isPopped
    have isSize := sized.size_eq
    rw [map_cons, sum_cons, ← sameLength] at isSize
    unfold dataLength at isSize
    rw [isData] at isSize
    dsimp only [Option.isSome_some] at isSize
    rw [if_pos rfl] at isSize
    rw [isQueue]
    refine ⟨?_, ?_⟩
    · rw [map_cons, sum_cons]
      unfold dataLength
      dsimp only [Option.isSome_some]
      rw [if_pos rfl]
      omega
    · intro other mem
      rcases mem_cons.mp mem with isLeft | inRest
      · rw [isLeft]
        unfold measured
        dsimp only
        rw [length_drop, isLength, Bool.and_eq_true, decide_eq_true_iff, beq_iff_eq]
        exact ⟨by omega, rfl⟩
      · exact sized.measured other (mem_cons_of_mem _ inRest)

variable {socket : StreamSocket Token} {outcome : Outcome Token}

/-- An entry that may be removed is, and its callback is dispatched. -/
theorem removeEntry_removed (removable : Entry Token -> Bool) (error : Error)
    (sized : Sized socket.sendQueue) (found : socket.sendQueue.entryList[index]? = some entry)
    (isRemovable : removable entry = true) :
    ∃ removal outcome, socket.sendQueue.removeAt removable index = some removal ∧
      removal.callback = entry.callback ∧
      socket.removeEntry index error (some removal) = some outcome ∧
      outcome.socket.sendQueue.entryList = socket.sendQueue.entryList.eraseIdx index ∧
      outcome.socket.sendQueue.size + entry.dataLength = socket.sendQueue.size ∧
      outcome.events = .removed entry.id :: dispatch .error (some error)
        (entry.callback.toList.map fun callback => (entry.context, callback)) := by
  have mem := mem_of_getElem? found
  have contained : entry.dataLength ≤ socket.sendQueue.size := by
    rw [sized.size_eq]
    exact dataLength_le_sum mem
  have shorter : (socket.sendQueue.entryList.eraseIdx index).length <
      socket.sendQueue.entryList.length := by
    rw [List.length_eraseIdx_of_lt (List.getElem?_eq_some_iff.mp found).1]
    have := List.length_pos_of_mem mem
    omega
  rw [SendQueue.removeAt, found]
  dsimp only
  rw [if_pos isRemovable, releaseSize_of_measured (sized.measured entry mem) contained]
  refine ⟨_, _, rfl, rfl, rfl, rfl, Nat.sub_add_cancel contained, ?_⟩
  rw [if_pos shorter, found]
  rfl

theorem Sending.sized {options : SendOptions Token}
    {produced : Option (List UInt8)} {buffers : Buffers} {reply : Reply}
    (sending : Sending socket options produced buffers reply outcome) (sized : Sized socket.sendQueue) :
    Sized outcome.socket.sendQueue := by
  cases sending with
  | nothing same =>
    rcases same with isSame | isCounted
    · rw [isSame]
      exact sized
    · rw [isCounted]
      exact sized
  | raw _ _ _ isRaw =>
    cases isRaw with
    | failed | copied | written => exact sized
    | queued _ _ _ partly => exact sized.concat (entryFor_measured partly _ _ _ _ _ _ _ _)
  | silent => exact sized

theorem dataLength_of_none (noData : entry.data = none) : entry.dataLength = 0 := by
  unfold dataLength
  rw [noData]
  rfl

theorem Writing.sized (writing : Writing socket outcome) (sized : Sized socket.sendQueue) :
    Sized outcome.socket.sendQueue := by
  cases writing with
  | idle => exact sized
  | wrote _ _ _ writes => exact writes.sized sized
  | ended isFront noData =>
    refine ⟨?_, fun other mem => sized.measured other ?_⟩
    · have isSize := sized.size_eq
      rw [isFront, map_cons, sum_cons, dataLength_of_none noData, Nat.zero_add] at isSize
      exact isSize
    · rw [isFront]
      exact mem_cons_of_mem _ mem

theorem Removing.sized {removable : Entry Token -> Bool}
    (removing : Removing socket removable index outcome)
    (sized : Sized socket.sendQueue) : Sized outcome.socket.sendQueue := by
  cases removing with
  | kept => exact sized
  | removed _ found _ isReleased => exact sized.eraseIdx found isReleased

theorem Closing.sized (closing : Closing socket outcome) (sized : Sized socket.sendQueue) :
    Sized outcome.socket.sendQueue := by
  cases closing with
  | nothing => exact sized
  | swept => exact ⟨rfl, forall_mem_nil _⟩

theorem Performs.sized [DecidableEq Token] {action : Action Token}
    (performs : Performs socket action outcome)
    (sized : Sized socket.sendQueue) : Sized outcome.socket.sendQueue := by
  cases performs with
  | send sending | sendCipherData sending => exact sending.sized sized
  | writable writing => exact writing.sized sized
  | sendDeadline removing | cancel removing => exact removing.sized sized
  | zeroCopyUpdate | setZeroCopyThreshold | setWriteQueueHighWatermark => exact sized
  | shutdown ending =>
    cases ending with
    | nothing => exact sized
    | marked => exact sized.concat rfl
    | begun => exact sized
  | shutdownSequenceComplete closing => exact closing.sized sized

end NtfCore.Ntcr.StreamSocket
