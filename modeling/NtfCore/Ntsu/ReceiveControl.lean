import Mathlib.Data.List.Pairwise
import Mathlib.Data.List.Nodup

/-!
Contract: the control data of a received message (`ntsu::SocketUtil`).

Owns: the control messages the operating system delivers, the loop of
`ReceiveControl::decode` over them with the descriptors it closes, and when no
descriptor is left behind.
-/

namespace NtfCore.Ntsu

open List Function

/-! ## Control messages -/

def sizeofHandle : Nat := 4

/-- `sizeof(TimestampUtil::Timespec)`. -/
def sizeofTimespec : Nat := 16

/-- `sizeof(TimestampUtil::ScmTimestamping)`. -/
def sizeofScmTimestamping : Nat := 3 * sizeofTimespec

/-- `CMSG_LEN`, after a header of 16 bytes. -/
def cmsgLen (length : Nat) : Nat := 16 + length

/-- `TimestampUtil::Timespec`. -/
structure Timespec where
  seconds : Int
  nanoseconds : Int
deriving DecidableEq

/-- `bsls::TimeInterval`, as seconds and nanoseconds. -/
abbrev TimeInterval := Int × Int

/-- The timestamp to set, unless it is zero: the nanoseconds are cast to `int`. -/
def Timespec.interval (ts : Timespec) : Option TimeInterval :=
  if ts.seconds ≠ 0 ∨ ts.nanoseconds ≠ 0 then some (ts.seconds, ts.nanoseconds.bmod 4294967296)
  else none

/-- A `cmsghdr` with its data. A message of another level or type is `other`. -/
inductive ControlMessage where
  | rights (handles : List Nat)
  | timestamping (length : Nat) (softwareTs hardwareTs : Timespec)
  | timestampNs (length : Nat) (ts : Timespec)
  | other
deriving DecidableEq

def ControlMessage.carried : ControlMessage -> List Nat
  | rights handles => handles
  | _ => []

/-- A control buffer: the descriptors in it are all open, so no two are the same. -/
structure ControlBuffer where
  messages : List ControlMessage
  distinct : (messages.flatMap ControlMessage.carried).Nodup

def ControlBuffer.handles (buffer : ControlBuffer) : List Nat :=
  buffer.messages.flatMap ControlMessage.carried

/-- The fields of `ntsa::ReceiveContext` that `decode` sets. Each receive resets them. -/
structure ReceiveContext where
  softwareTimestamp : Option TimeInterval := none
  hardwareTimestamp : Option TimeInterval := none
  foreignHandle : Option Nat := none

/-- The context with the descriptors passed to `close`, in order. -/
structure Decoding extends ReceiveContext where
  closed : List Nat := []

/-- One iteration of the loop of `ReceiveControl::decode`. -/
def decodeMessage (wantForeignHandles : Bool) (decoding : Decoding) : ControlMessage -> Decoding
  | .rights handles =>
    if cmsgLen (sizeofHandle * handles.length) ≠ cmsgLen sizeofHandle then decoding
    else if wantForeignHandles then
      { decoding with foreignHandle := handles.head? }
    else { decoding with closed := decoding.closed ++ handles.take 1 }
  | .timestamping length softwareTs hardwareTs =>
    if length ≠ cmsgLen sizeofScmTimestamping then decoding
    else
      { decoding with
        softwareTimestamp := softwareTs.interval.or decoding.softwareTimestamp
        hardwareTimestamp := hardwareTs.interval.or decoding.hardwareTimestamp }
  | .timestampNs length ts =>
    if length ≠ cmsgLen sizeofTimespec then decoding
    else { decoding with softwareTimestamp := ts.interval.or decoding.softwareTimestamp }
  | .other => decoding

/-- `ReceiveControl::decode`. -/
def decode (wantForeignHandles : Bool) (decoding : Decoding) : List ControlMessage -> Decoding
  | [] => decoding
  | message :: rest =>
    decode wantForeignHandles (decodeMessage wantForeignHandles decoding message) rest

/-! ## What a buffer decodes to -/

namespace ControlMessage

/-- The descriptor of a message that carries one. -/
def single (message : ControlMessage) : Option Nat :=
  match message.carried with
  | [fd] => some fd
  | _ => none

/-- The software timestamp in a message of the expected size. -/
def software : ControlMessage -> Option TimeInterval
  | timestamping length ts _ => if length = cmsgLen sizeofScmTimestamping then ts.interval else none
  | timestampNs length ts => if length = cmsgLen sizeofTimespec then ts.interval else none
  | _ => none

def hardware : ControlMessage -> Option TimeInterval
  | timestamping length _ ts => if length = cmsgLen sizeofScmTimestamping then ts.interval else none
  | _ => none

end ControlMessage

open ControlMessage

variable {wantForeignHandles : Bool} {message : ControlMessage} {messages : List ControlMessage}
  {fd : Nat}

theorem decodeMessage_spec (decoding : Decoding) :
    decodeMessage wantForeignHandles decoding message =
      { softwareTimestamp := message.software.or decoding.softwareTimestamp
        hardwareTimestamp := message.hardware.or decoding.hardwareTimestamp
        foreignHandle :=
          (if wantForeignHandles then message.single else none).or decoding.foreignHandle
        closed :=
          decoding.closed ++ (if wantForeignHandles then none else message.single).toList } := by
  cases message with
  | rights handles =>
    match handles with
    | [] => simp [decodeMessage, cmsgLen, sizeofHandle, software, hardware, single, carried]
    | first :: second :: rest =>
      have skipped : cmsgLen (sizeofHandle * (rest.length + 1 + 1)) ≠ cmsgLen sizeofHandle := by
        unfold cmsgLen sizeofHandle
        omega
      simp [decodeMessage, skipped, software, hardware, single, carried]
    | [fd] =>
      cases wantForeignHandles <;> simp [decodeMessage, software, hardware, single, carried]
  | timestamping length _ _ | timestampNs length _ =>
    simp only [decodeMessage, software, hardware, single, carried]
    split <;> simp_all
  | other => simp [decodeMessage, software, hardware, single, carried]

/-- The last timestamps, and the last descriptor, are in the context. -/
theorem decode_spec (decoding : Decoding) : decode wantForeignHandles decoding messages =
      { softwareTimestamp := (messages.reverse.findSome? software).or decoding.softwareTimestamp
        hardwareTimestamp := (messages.reverse.findSome? hardware).or decoding.hardwareTimestamp
        foreignHandle := (messages.reverse.findSome? fun message =>
          if wantForeignHandles then message.single else none).or decoding.foreignHandle
        closed := decoding.closed ++ messages.filterMap fun message =>
          if wantForeignHandles then none else message.single } := by
  induction messages generalizing decoding with
  | nil => simp [decode]
  | cons message rest ih =>
    rw [decode, ih, decodeMessage_spec]
    simp only [reverse_cons, findSome?_append, findSome?_singleton, Option.or_assoc,
      append_assoc, filterMap_cons]
    cases (if wantForeignHandles then none else message.single) <;> rfl

theorem single_eq_some_iff : message.single = some fd ↔ message.carried = [fd] := by
  unfold single
  split <;> simp_all

theorem single_sublist : messages.filterMap single <+ messages.flatMap carried := by
  induction messages with
  | nil => exact .slnil
  | cons message rest ih =>
    rw [filterMap_cons, flatMap_cons]
    split
    · exact ih.trans (sublist_append_right _ _)
    · rename_i isSingle
      rw [single_eq_some_iff.mp isSingle]
      exact ih.cons_cons _

/-- Every descriptor is the only one of its message exactly when no message carries two. -/
theorem all_single_iff (distinct : (messages.flatMap carried).Nodup) :
    (∀ fd ∈ messages.flatMap carried, fd ∈ messages.filterMap single) ↔
      ∀ message ∈ messages, message.carried.length ≤ 1 := by
  have : Std.Symm (Disjoint on carried) := ⟨fun _ _ apart _ right left => apart left right⟩
  have disjoint := (nodup_flatMap.mp distinct).2.forall
  constructor
  · intro all message isMessage
    cases handles : message.carried with
    | nil => exact Nat.zero_le 1
    | cons fd =>
      have inMessage : fd ∈ message.carried := handles ▸ mem_cons_self
      obtain ⟨source, isSource, isSingle⟩ :=
        mem_filterMap.mp (all fd (mem_flatMap.mpr ⟨message, isMessage, inMessage⟩))
      rw [single_eq_some_iff] at isSingle
      by_cases same : source = message
      · rw [← handles, ← same, isSingle]
        exact .refl
      · have inSource : fd ∈ source.carried := isSingle ▸ mem_singleton_self fd
        exact absurd inMessage (disjoint isSource isMessage same inSource)
  · intro small fd mem
    obtain ⟨message, isMessage, inMessage⟩ := mem_flatMap.mp mem
    refine mem_filterMap.mpr ⟨message, isMessage, single_eq_some_iff.mpr ?_⟩
    have ne := length_pos_of_mem inMessage
    obtain ⟨only, isOnly⟩ := length_eq_one_iff.mp (Nat.le_antisymm (small message isMessage) ne)
    rw [isOnly] at inMessage ⊢
    rw [mem_singleton.mp inMessage]

/-! ## No leaked descriptor -/

/-- Each received descriptor is kept, if it is wanted, or closed once, and the
last timestamps are in the context. -/
structure Settled (wantForeignHandles : Bool) (buffer : ControlBuffer) (decoding : Decoding) :
    Prop where
  handles : ∀ fd ∈ buffer.handles,
    (wantForeignHandles = true ∧ decoding.foreignHandle = some fd ∧ fd ∉ decoding.closed) ∨
      (decoding.foreignHandle ≠ some fd ∧ decoding.closed.count fd = 1)
  softwareTimestamp :
    decoding.softwareTimestamp = buffer.messages.reverse.findSome? software
  hardwareTimestamp :
    decoding.hardwareTimestamp = buffer.messages.reverse.findSome? hardware

/-- No descriptor is left behind exactly when no message carries two of them,
and, with foreign handles wanted, no two messages carry one. -/
theorem decode_settled_iff (wantForeignHandles : Bool) (buffer : ControlBuffer) :
    Settled wantForeignHandles buffer (decode wantForeignHandles {} buffer.messages) ↔
      if wantForeignHandles then buffer.handles.length ≤ 1
      else ∀ message ∈ buffer.messages, message.carried.length ≤ 1 := by
  have distinct := buffer.distinct
  have sub : buffer.messages.filterMap single <+ buffer.handles := single_sublist
  rw [decode_spec]
  cases wantForeignHandles with
  | false =>
    rw [← all_single_iff distinct]
    constructor
    · intro settled fd mem
      rcases settled.handles fd mem with ⟨wanted, _⟩ | ⟨_, once⟩
      · contradiction
      · exact count_pos_iff.mp (once ▸ Nat.one_pos)
    · intro all
      refine ⟨fun fd mem => .inr ⟨?_, ?_⟩, Option.or_none, Option.or_none⟩
      · simp [findSome?_eq_none_iff.mpr]
      · exact count_eq_one_of_mem (distinct.sublist sub) (all fd mem)
  | true =>
    simp only [if_true, Option.or_none]
    constructor
    · intro settled
      have same : ∀ fd ∈ buffer.handles, buffer.messages.reverse.findSome? single = some fd := by
        intro fd mem
        rcases settled.handles fd mem with ⟨_, isLast, _⟩ | ⟨_, once⟩
        · exact isLast
        · simp at once
      match shape : buffer.handles with
      | [] | [_] => simp
      | first :: second :: _ =>
        have isFirst := same first (by simp [shape])
        have isSecond := same second (by simp [shape])
        rw [isFirst] at isSecond
        unfold ControlBuffer.handles at shape
        rw [shape] at distinct
        simp_all
    · intro small
      refine ⟨fun fd mem => .inl ⟨rfl, ?_, by simp⟩, rfl, rfl⟩
      have each : ∀ message ∈ buffer.messages, message.carried.length ≤ 1 :=
        fun message isMessage =>
          Nat.le_trans (sublist_flatten_of_mem (mem_map_of_mem isMessage)).length_le small
      have inSingle := (all_single_iff distinct).mpr each fd mem
      obtain ⟨only, isOnly⟩ := length_eq_one_iff.mp
        (Nat.le_antisymm (Nat.le_trans sub.length_le small) (length_pos_of_mem inSingle))
      change buffer.messages.reverse.findSome? single = some fd
      rw [← head?_filterMap, filterMap_reverse, head?_reverse]
      rw [isOnly] at inSingle ⊢
      rw [mem_singleton.mp inSingle]
      rfl

/-- Two descriptors in one message are neither kept nor closed. -/
theorem decode_leaks :
    ¬ Settled true ⟨[.rights [3, 4]], by decide⟩ (decode true {} [.rights [3, 4]]) := by
  intro settled
  have := settled.handles 3 (by decide)
  revert this
  decide

end NtfCore.Ntsu
