import NtfCore.Ntcq.Receive

/-!
Contract: upgrading a stream socket that has received data
(`ntcr::StreamSocket::privateUpgrade`).

Owns: the answers of the encryption plug-in, the steps of `privateUpgrade` on the
receive queue, where a failed assertion is `none`, and when the queue is still
accounted for afterwards.
-/

namespace NtfCore.Ntcr

open NtfCore.Ntcq ReceiveQueue List

/-- What the plug-in answers: whether `initiateHandshake` and `pushIncomingCipherText`
fail, the plain text of each `popIncomingPlainText`, whether the last of them
fails, and whether the outgoing cipher text fails. -/
structure Encryption where
  handshakeError : Bool := false
  pushError : Bool := false
  incoming : List (List UInt8) := []
  popError : Bool := false
  outgoingError : Bool := false

structure Upgraded (Token : Type) where
  queue : ReceiveQueue Token
  /-- The cipher text pushed into the session. -/
  pushed : List UInt8 := []
  error : Bool

namespace Upgraded

variable {Token : Type}

/-- The loop that pops plain text into the data of the queue. -/
def popPlainText : List (List UInt8) -> List UInt8 -> List UInt8
  | [], data => data
  | plainText :: rest, data => popPlainText rest (data ++ plainText)

/-- The loop that pops all entries, the first of which is given. -/
def popEntries (queue : ReceiveQueue Token) (entry : ReceiveQueueEntry) :
    List ReceiveQueueEntry -> Option (ReceiveQueue Token)
  | [] => queue.popEntry entry []
  | next :: rest =>
    match queue.popEntry entry (next :: rest) with
    | none => none
    | some popped => popEntries popped next rest

/-- `StreamSocket::privateUpgrade`. -/
def privateUpgrade (queue : ReceiveQueue Token) (encryption : Encryption) :
    Option (Upgraded Token) :=
  if encryption.handshakeError then some { queue, error := true }
  else match queue.entryList with
  | [] => some { queue, error := encryption.outgoingError }
  | entry :: rest =>
    let pushed := queue.data
    if encryption.pushError then some { queue, pushed, error := true }
    else
      let refilled := { queue with data := popPlainText encryption.incoming [] }
      if encryption.popError then some { queue := refilled, pushed, error := true }
      else match popEntries refilled entry rest with
      | none => none
      | some popped =>
        match popped.pushEntry { length := popped.data.length } with
        | none => none
        | some formed =>
          if formed.size = formed.data.length then
            some { queue := formed, pushed, error := encryption.outgoingError }
          else none

/-! ## What is left of the queue -/

variable {queue : ReceiveQueue Token} {entry : ReceiveQueueEntry} {rest : List ReceiveQueueEntry}

theorem popPlainText_eq (incoming : List (List UInt8)) (data : List UInt8) :
    popPlainText incoming data = data ++ incoming.flatten := by
  induction incoming generalizing data with
  | nil => exact (append_nil data).symm
  | cons plainText rest ih => rw [popPlainText, ih, flatten_cons, append_assoc]

theorem popEntries_spec (holds : Holds (entry :: rest) queue) :
    ∃ popped, popEntries queue entry rest = some popped ∧ popped.entryList = [] ∧
      popped.size = 0 ∧ popped.data = queue.data := by
  induction rest generalizing queue entry with
  | nil =>
    obtain ⟨popped, isPopped, shrinks, none, isRest⟩ := popEntry_spec holds
    exact ⟨popped, isPopped, isRest, none.size, shrinks.data⟩
  | cons next rest ih =>
    obtain ⟨popped, isPopped, shrinks, others, _⟩ := popEntry_spec holds
    obtain ⟨final, isFinal, empty, noBytes, isData⟩ := ih others
    refine ⟨final, ?_, empty, noBytes, isData.trans shrinks.data⟩
    rw [popEntries, isPopped]
    exact isFinal

def KeepsHandles (queue next : ReceiveQueue Token) : Prop :=
  ∀ entry ∈ queue.entryList, entry.foreignHandle.isSome ->
    ∃ kept ∈ next.entryList, kept.foreignHandle = entry.foreignHandle

theorem keepsHandles_of_eq {next : ReceiveQueue Token} (same : next.entryList = queue.entryList) :
    KeepsHandles queue next :=
  fun entry mem _ => ⟨entry, same ▸ mem, rfl⟩

/-- The session is handed the unconsumed bytes, unless the handshake fails, the queue
is accounted for, and no foreign handle is lost. -/
def Sound (queue : ReceiveQueue Token) (encryption : Encryption) : Prop :=
  ∃ upgraded, privateUpgrade queue encryption = some upgraded ∧
    upgraded.pushed = (if encryption.handshakeError then [] else queue.data) ∧
    Accounted upgraded.queue ∧ KeepsHandles queue upgraded.queue

/-- The queue is left sound exactly when it had no entry, the session refused its bytes, or
the plain text takes their place: all of it, when the session fails later, and some of it
in place of entries without a foreign handle, when it does not. -/
theorem privateUpgrade_sound_iff (queue : { queue : ReceiveQueue Token // Accounted queue })
    (encryption : Encryption) : Sound queue.1 encryption ↔
      queue.1.entryList = [] ∨ encryption.handshakeError = true ∨ encryption.pushError = true ∨
        if encryption.popError then encryption.incoming.flatten.length = queue.1.size
        else encryption.incoming.flatten ≠ [] ∧
          ∀ entry ∈ queue.1.entryList, entry.foreignHandle = none := by
  obtain ⟨queue, accounted⟩ := queue
  have kept : KeepsHandles queue queue := keepsHandles_of_eq rfl
  unfold Sound privateUpgrade
  by_cases handshake : encryption.handshakeError = true
  · simp [handshake, accounted, kept]
  simp only [handshake, Bool.false_eq_true, if_false, false_or]
  cases shape : queue.entryList with
  | nil =>
    have noBytes := accounted.entries
    rw [shape, map_nil, sum_nil, accounted.data, length_eq_zero_iff] at noBytes
    simp [noBytes, accounted, kept]
  | cons entry rest =>
    by_cases push : encryption.pushError = true
    · simp [push, accounted, kept]
    simp only [push, Bool.false_eq_true, if_false, false_or, reduceCtorEq, popPlainText_eq,
      nil_append]
    have holds : Holds (entry :: rest) queue :=
      ⟨shape ▸ accounted.entries, shape ▸ accounted.positive⟩
    by_cases pop : encryption.popError = true
    · simp only [pop, if_true, Option.some.injEq, exists_eq_left', true_and]
      constructor
      · intro sound
        exact sound.1.data.symm
      · intro same
        exact ⟨⟨holds.size, same.symm, holds.positive⟩, keepsHandles_of_eq shape.symm⟩
    · obtain ⟨popped, isPopped, empty, noBytes, isData⟩ := @popEntries_spec _
          { queue with entryList := entry :: rest, data := encryption.incoming.flatten } entry rest
          ⟨holds.size, holds.positive⟩
      simp only [pop, isPopped, pushEntry, isData, empty, noBytes, Bool.false_eq_true, if_false,
        nil_append, Nat.zero_add]
      by_cases nothing : encryption.incoming.flatten = []
      · simp [nothing]
      have pos := length_pos_iff.mpr nothing
      simp only [if_pos pos, if_true, Option.some.injEq, exists_eq_left', true_and]
      constructor
      · intro sound
        refine ⟨nothing, fun replaced mem => ?_⟩
        by_contra hasHandle
        obtain ⟨formed, isFormed, same⟩ :=
          sound.2 replaced (shape ▸ mem) (Option.isSome_iff_ne_none.mpr hasHandle)
        rw [mem_singleton.mp isFormed] at same
        exact hasHandle same.symm
      · intro replaces
        refine ⟨⟨rfl, rfl, fun _ mem => ?_⟩, fun replaced mem hasHandle => ?_⟩
        · exact mem_singleton.mp mem ▸ pos
        · rw [replaces.2 replaced (shape ▸ mem)] at hasHandle
          contradiction

/-- A handshake that yields no plain text yet leaves no entry to form. -/
theorem privateUpgrade_unsound : let queue : { queue : ReceiveQueue Unit // Accounted queue } :=
      ⟨{ entryList := [{ length := 1 }], data := [22], size := 1 }, rfl, rfl, forall_mem_singleton.mpr Nat.one_pos⟩
    ¬ Sound queue.1 {} := by
  rintro _ ⟨_, isUpgraded, _⟩
  contradiction

end Upgraded

end NtfCore.Ntcr
