import NtfCore.Ntcdns.Elements
import NtfCore.Ntcdns.Protocol

/-!
Contract: the bytes of a message.

Owns: the bytes of headers, questions, records and messages, in the order in which
they are written; and that encoding writes these bytes when it succeeds.
-/

namespace NtfCore.Ntcdns

open NtfCore.Foundation List

section Bytes

variable (tokenizer : Tokenizer)

def uint16Bytes (value : UInt16) : List UInt8 := Bytes.storeBigEndian 2 value.toNat

def uint32Bytes (value : UInt32) : List UInt8 := Bytes.storeBigEndian 4 value.toNat

def nameBytes (name : List UInt8) : List UInt8 := labelsBytes (tokenizer.tokens name)

def Header.bytes (header : Header) : List UInt8 :=
  uint16Bytes header.id ++ (header.flags.toBytes ++ (uint16Bytes header.qdcount ++
    (uint16Bytes header.ancount ++ (uint16Bytes header.nscount ++ uint16Bytes header.arcount))))

def Question.bytes (question : Question) : List UInt8 :=
  nameBytes tokenizer question.name ++ (uint16Bytes (UInt16.ofNat question.type.toInt) ++
    uint16Bytes (UInt16.ofNat question.classification.toInt))

def ResourceRecordData.bytes : ResourceRecordData -> List UInt8
  | .undefined => []
  | .ipv4 address => ResourceRecord.addressBytes address
  | .ipv6 address0 address1 address2 address3 =>
    ResourceRecord.addressBytes address0 ++ ResourceRecord.addressBytes address1 ++
      ResourceRecord.addressBytes address2 ++ ResourceRecord.addressBytes address3
  | .nameServer nsdname => nameBytes tokenizer nsdname
  | .canonicalName cname => nameBytes tokenizer cname
  | .pointer ptrdname => nameBytes tokenizer ptrdname
  | .zoneAuthority value =>
    nameBytes tokenizer value.mname ++ (nameBytes tokenizer value.rname ++
      (uint32Bytes value.serial ++ (uint32Bytes value.refresh ++ (uint32Bytes value.retry ++
        (uint32Bytes value.expire ++ uint32Bytes value.minimum)))))
  | .wellKnownService value => ResourceRecord.addressBytes value.address ++
      ([value.protocol] ++ PortSet.ofPorts value.port)
  | .hostInfo cpu os => characterStringBytes cpu ++ characterStringBytes os
  | .mailExchange preference exchange => uint16Bytes preference ++ nameBytes tokenizer exchange
  | .text strings => strings.flatMap characterStringBytes
  | .server _ => []
  | .raw data => data

def ResourceRecord.headBytes (record : ResourceRecord) : List UInt8 :=
  nameBytes tokenizer record.name ++ (uint16Bytes (UInt16.ofNat record.type.toInt) ++
    (uint16Bytes (if record.type ≠ .opt then UInt16.ofNat record.classification.toInt
      else record.optSize) ++
      uint32Bytes (if record.type ≠ .opt then record.ttl else record.optFlags)))

def ResourceRecord.bytes (record : ResourceRecord) : List UInt8 :=
  record.headBytes tokenizer ++
    (uint16Bytes (UInt16.ofNat (record.rdata.bytes tokenizer).length) ++
      record.rdata.bytes tokenizer)

def Message.bytes (message : Message) : List UInt8 :=
  message.header.bytes ++ (message.qd.flatMap (Question.bytes tokenizer) ++
    (message.an.flatMap (ResourceRecord.bytes tokenizer) ++
      (message.ns.flatMap (ResourceRecord.bytes tokenizer) ++
        message.ar.flatMap (ResourceRecord.bytes tokenizer))))

end Bytes

section Writing

variable (tokenizer : Tokenizer)

theorem encodeUint16_writes (value : UInt16) : Writes (·.encodeUint16 value) (uint16Bytes value) :=
  encodeRaw_writes _

theorem encodeUint32_writes (value : UInt32) : Writes (·.encodeUint32 value) (uint32Bytes value) :=
  encodeRaw_writes _

theorem encodeName_writes (name : List UInt8) :
    Writes (MemoryEncoder.encodeDomainName tokenizer name) (nameBytes tokenizer name) :=
  encodeDomainName_writes tokenizer name

theorem Header.encode_writes (header : Header) : Writes header.encode header.bytes := by
  apply (encodeUint16_writes header.id).bind
  apply (encodeRaw_writes header.flags.toBytes).bind
  apply (encodeUint16_writes header.qdcount).bind
  apply (encodeUint16_writes header.ancount).bind
  apply (encodeUint16_writes header.nscount).bind
  exact encodeUint16_writes header.arcount

theorem Question.encode_writes (question : Question) :
    Writes (Question.encode tokenizer · question) (question.bytes tokenizer) := by
  apply (encodeName_writes tokenizer question.name).bind
  apply (encodeUint16_writes (UInt16.ofNat question.type.toInt)).bind
  exact encodeUint16_writes (UInt16.ofNat question.classification.toInt)

theorem ResourceRecord.encodeData_writes (data : ResourceRecordData) :
    Writes (ResourceRecord.encodeData tokenizer data) (data.bytes tokenizer) := by
  cases data with
  | undefined => exact writes_nothing
  | ipv4 address | ipv6 _ _ _ _ => exact encodeRaw_writes _
  | nameServer nsdname => exact encodeName_writes tokenizer nsdname
  | canonicalName cname => exact encodeName_writes tokenizer cname
  | pointer ptrdname => exact encodeName_writes tokenizer ptrdname
  | zoneAuthority value =>
    apply (encodeName_writes tokenizer value.mname).bind
    apply (encodeName_writes tokenizer value.rname).bind
    apply (encodeUint32_writes value.serial).bind
    apply (encodeUint32_writes value.refresh).bind
    apply (encodeUint32_writes value.retry).bind
    apply (encodeUint32_writes value.expire).bind
    exact encodeUint32_writes value.minimum
  | wellKnownService value =>
    apply (encodeRaw_writes (ResourceRecord.addressBytes value.address)).bind
    apply (encodeRaw_writes [value.protocol]).bind
    exact encodeRaw_writes (PortSet.ofPorts value.port)
  | hostInfo cpu os =>
    exact (encodeCharacterString_writes cpu).bind (encodeCharacterString_writes os)
  | mailExchange preference exchange =>
    exact (encodeUint16_writes preference).bind (encodeName_writes tokenizer exchange)
  | text strings => exact foldlM_writes strings fun string _ => encodeCharacterString_writes string
  | server =>
    intro _ _ _ _
    contradiction
  | raw data => exact encodeRaw_writes data

theorem ResourceRecord.encodeHead_writes (record : ResourceRecord) :
    Writes (ResourceRecord.encodeHead tokenizer record) (record.headBytes tokenizer) := by
  apply (encodeName_writes tokenizer record.name).bind
  apply (encodeUint16_writes (UInt16.ofNat record.type.toInt)).bind
  apply (encodeUint16_writes _).bind
  exact encodeUint32_writes _

/-- The length that is written at last stands before the data. -/
theorem ResourceRecord.encodeSized_writes (data : ResourceRecordData) :
    Writes (ResourceRecord.encodeSized tokenizer data)
      (uint16Bytes (UInt16.ofNat (data.bytes tokenizer).length) ++ data.bytes tokenizer) := by
  intro start _ within succeeded
  obtain ⟨kept, isKept, dataWritten⟩ := bind_eq_ok.mp succeeded
  obtain ⟨written, isWritten, sought⟩ := bind_eq_ok.mp dataWritten
  obtain ⟨returned, isReturned, rewritten⟩ := bind_eq_ok.mp sought
  obtain ⟨_, isPatched, isAfter⟩ := bind_eq_ok.mp rewritten
  have wroteKept := encodeUint16_writes 0 start kept within isKept
  have wroteData := encodeData_writes tokenizer data kept written wroteKept.within isWritten
  have wroteBoth := (encodeUint16_writes 0).bind (encodeData_writes tokenizer data) start written
    within (bind_eq_ok.mpr ⟨kept, isKept, isWritten⟩)
  have isReturn : returned = { written with current := start.current } := by
    unfold MemoryEncoder.seek at isReturned
    split at isReturned
    · contradiction
    · cases isReturned
      rfl
  have isLength : written.current - kept.current = (data.bytes tokenizer).length := by
    rw [wroteData.current]
    omega
  rw [isReturn, isLength] at isPatched
  exact wroteBoth.patch within rfl isPatched isAfter

theorem ResourceRecord.encode_writes (record : ResourceRecord) :
    Writes (ResourceRecord.encode tokenizer · record) (record.bytes tokenizer) :=
  (encodeHead_writes tokenizer record).bind (encodeSized_writes tokenizer record.rdata)

theorem Message.encode_writes {msg : Message} (counted : msg.Counted) :
    Writes (Message.encode tokenizer msg) (msg.bytes tokenizer) := by
  unfold Message.encode
  rw [take_of_length_le (Nat.le_of_eq counted.qd), take_of_length_le (Nat.le_of_eq counted.an),
    take_of_length_le (Nat.le_of_eq counted.ns),
    take_of_length_le (Nat.le_of_eq counted.ar)]
  apply (Header.encode_writes msg.header).bind
  apply (foldlM_writes msg.qd fun question _ => Question.encode_writes tokenizer question).bind
  apply (foldlM_writes msg.an fun record _ => ResourceRecord.encode_writes tokenizer record).bind
  apply (foldlM_writes msg.ns fun record _ => ResourceRecord.encode_writes tokenizer record).bind
  exact foldlM_writes msg.ar fun record _ => ResourceRecord.encode_writes tokenizer record

/-! ## What was written -/

def ResourceRecordData.Short : ResourceRecordData -> Prop
  | .hostInfo cpu os =>
    cpu.length ≤ maxCharacterStringLength ∧ os.length ≤ maxCharacterStringLength
  | .text strings => ∀ string ∈ strings, string.length ≤ maxCharacterStringLength
  | _ => True

variable {before after : MemoryEncoder}

theorem mem_of_foldlM_ok {α : Type} {op : MemoryEncoder -> α -> Except Fault MemoryEncoder}
    {items : List α} (succeeded : items.foldlM op before = .ok after) {item : α}
    (mem : item ∈ items) : ∃ start finish, op start item = .ok finish := by
  induction items generalizing before with
  | nil => contradiction
  | cons _ _ ih =>
    obtain ⟨middle, isMiddle, isAfter⟩ := bind_eq_ok.mp succeeded
    rcases mem_cons.mp mem with isFirst | inRest
    · rw [isFirst]
      exact ⟨before, middle, isMiddle⟩
    · exact ih isAfter inRest

theorem ResourceRecord.encodeData_short {data : ResourceRecordData}
    (succeeded : ResourceRecord.encodeData tokenizer data before = .ok after) : data.Short := by
  cases data with
  | hostInfo =>
    obtain ⟨_, isMiddle, isAfter⟩ := bind_eq_ok.mp succeeded
    exact ⟨encodeCharacterString_length isMiddle, encodeCharacterString_length isAfter⟩
  | text =>
    intro _ mem
    obtain ⟨_, _, isFinish⟩ := mem_of_foldlM_ok succeeded mem
    exact encodeCharacterString_length isFinish
  | _ => trivial

theorem ResourceRecord.encode_short {record : ResourceRecord}
    (succeeded : ResourceRecord.encode tokenizer before record = .ok after) :
    record.rdata.Short := by
  obtain ⟨_, _, sized⟩ := bind_eq_ok.mp succeeded
  obtain ⟨_, _, dataWritten⟩ := bind_eq_ok.mp sized
  obtain ⟨_, isWritten, _⟩ := bind_eq_ok.mp dataWritten
  exact encodeData_short tokenizer isWritten

def Message.records (message : Message) : List ResourceRecord :=
  message.an ++ (message.ns ++ message.ar)

theorem Message.encode_short {msg : Message} (counted : msg.Counted)
    (succeeded : msg.encode tokenizer before = .ok after) :
    ∀ record ∈ msg.records, record.rdata.Short := by
  unfold Message.encode at succeeded
  rw [take_of_length_le (Nat.le_of_eq counted.an), take_of_length_le (Nat.le_of_eq counted.ns),
    take_of_length_le (Nat.le_of_eq counted.ar)] at succeeded
  obtain ⟨_, _, afterHeader⟩ := bind_eq_ok.mp succeeded
  obtain ⟨_, _, afterQuestions⟩ := bind_eq_ok.mp afterHeader
  obtain ⟨_, isAn, afterAn⟩ := bind_eq_ok.mp afterQuestions
  obtain ⟨_, isNs, isAr⟩ := bind_eq_ok.mp afterAn
  intro record mem
  have encoded : ∃ start finish, ResourceRecord.encode tokenizer start record = .ok finish := by
    rcases mem_append.mp mem with inAn | inOthers
    · exact mem_of_foldlM_ok isAn inAn
    · rcases mem_append.mp inOthers with inNs | inAr
      · exact mem_of_foldlM_ok isNs inNs
      · exact mem_of_foldlM_ok isAr inAr
  obtain ⟨_, _, isFinish⟩ := encoded
  exact ResourceRecord.encode_short tokenizer isFinish

end Writing

end NtfCore.Ntcdns
