import NtfCore.Ntcdns.Wire

/-!
Contract: when a resource record is encoded, and the length that is written before its data.

The length goes back to the place that was kept for it, as far as 16 bits hold it.

Owns: the exact condition under which each operation of the encoder succeeds, which is that
the names and strings are not too long and that there is room; and when the length that is
written is the number of bytes that follow it.
-/

namespace NtfCore.Ntcdns

open NtfCore.Foundation List MemoryEncoder Bytes
open ResourceRecord

theorem MemoryEncoder.seek_eq_ok {encoder after : MemoryEncoder} {pos : Nat} :
    encoder.seek pos = .ok after ↔
      pos ≤ encoder.data.length ∧ after = { encoder with current := pos } := by
  unfold seek
  split
  · rename_i outside
    exact ⟨nofun, fun inside => absurd inside.1 (Nat.not_le_of_lt outside)⟩
  · rename_i inside
    constructor
    · intro isAfter
      cases isAfter
      exact ⟨Nat.not_lt.mp inside, rfl⟩
    · rintro ⟨_, isAfter⟩
      rw [isAfter]

/-! ## Success -/

structure Takes (operation : MemoryEncoder -> Except Fault MemoryEncoder) (bytes : List UInt8)
    (allowed : Prop) : Prop where
  writes : Writes operation bytes
  sameLength : ∀ before after, before.current ≤ before.data.length ->
    operation before = .ok after -> after.data.length = before.data.length
  succeeds : ∀ before, before.current ≤ before.data.length ->
    ((∃ after, operation before = .ok after) ↔
      allowed ∧ before.current + bytes.length ≤ before.data.length)

namespace Takes

variable {first second : MemoryEncoder -> Except Fault MemoryEncoder} {front back : List UInt8}
  {allowed allowedBack : Prop}

theorem congr {other : Prop} (takes : Takes first front allowed) (same : allowed ↔ other) :
    Takes first front other := { takes with
  succeeds := fun before within => by rw [takes.succeeds before within, same] }

theorem nothing : Takes (fun encoder => .ok encoder) [] True where
  writes := writes_nothing
  sameLength := by
    intro before _ _ succeeded
    cases succeeded
    rfl
  succeeds := fun before within => ⟨fun _ => ⟨trivial, within⟩, fun _ => ⟨before, rfl⟩⟩

theorem bind (takesFront : Takes first front allowed) (takesBack : Takes second back allowedBack) :
    Takes (fun encoder => first encoder >>= second) (front ++ back) (allowed ∧ allowedBack) where
  writes := takesFront.writes.bind takesBack.writes
  sameLength := by
    intro before after within succeeded
    obtain ⟨middle, isMiddle, isAfter⟩ := bind_eq_ok.mp succeeded
    have wrote := takesFront.writes before middle within isMiddle
    rw [takesBack.sameLength middle after wrote.within isAfter,
      takesFront.sameLength before middle within isMiddle]
  succeeds := by
    intro before within
    rw [length_append]
    constructor
    · rintro ⟨after, succeeded⟩
      obtain ⟨middle, isMiddle, isAfter⟩ := bind_eq_ok.mp succeeded
      have wrote := takesFront.writes before middle within isMiddle
      obtain ⟨allowedFirst, _⟩ := (takesFront.succeeds before within).mp ⟨middle, isMiddle⟩
      obtain ⟨allowedSecond, room⟩ := (takesBack.succeeds middle wrote.within).mp ⟨after, isAfter⟩
      rw [takesFront.sameLength before middle within isMiddle, wrote.current] at room
      exact ⟨⟨allowedFirst, allowedSecond⟩, by omega⟩
    · rintro ⟨⟨allowedFirst, allowedSecond⟩, _⟩
      obtain ⟨middle, isMiddle⟩ := (takesFront.succeeds before within).mpr ⟨allowedFirst, by omega⟩
      have wrote := takesFront.writes before middle within isMiddle
      have roomBack : middle.current + back.length ≤ middle.data.length := by
        rw [takesFront.sameLength before middle within isMiddle, wrote.current]
        omega
      obtain ⟨after, isAfter⟩ :=
        (takesBack.succeeds middle wrote.within).mpr ⟨allowedSecond, roomBack⟩
      exact ⟨after, bind_eq_ok.mpr ⟨middle, isMiddle, isAfter⟩⟩

theorem raw (bytes : List UInt8) : Takes (·.encodeRaw bytes) bytes True where
  writes := encodeRaw_writes bytes
  sameLength := by
    intro before _ within succeeded
    simp only [encodeRaw] at succeeded
    split at succeeded
    · contradiction
    · cases succeeded
      exact Buffer.overwrite_length (by omega)
  succeeds := by
    intro _ _
    simp only [encodeRaw]
    split
    · rename_i short
      exact ⟨fun failed => (by cases failed.choose_spec), fun fits => (by have := fits.2; omega)⟩
    · exact ⟨fun _ => ⟨trivial, by omega⟩, fun _ => ⟨_, rfl⟩⟩

/-- An operation that refuses what is too long. -/
theorem guarded {limit length : Nat} (takes : Takes first front True) :
    Takes (fun encoder => if limit < length then .error .invalid else first encoder) front
      (length ≤ limit) := by
  by_cases long : limit < length
  · simp only [if_pos long]
    exact {
      writes := fun _ _ _ failed => absurd failed nofun
      sameLength := fun _ _ _ failed => absurd failed nofun
      succeeds := fun _ _ =>
        ⟨fun ⟨_, failed⟩ => absurd failed nofun, fun ⟨short, _⟩ => by omega⟩ }
  · simp only [if_neg long]
    exact takes.congr (by simp only [true_iff]; omega)

theorem foldlM {α : Type} {op : MemoryEncoder -> α -> Except Fault MemoryEncoder}
    {bytes : α -> List UInt8} {allowedItem : α -> Prop} (items : List α)
    (takes : ∀ item ∈ items, Takes (op · item) (bytes item) (allowedItem item)) :
    Takes (fun encoder => items.foldlM op encoder) (items.flatMap bytes)
      (∀ item ∈ items, allowedItem item) := by
  induction items with
  | nil => exact nothing.congr (by simp)
  | cons item _ ih =>
    have both := (takes item mem_cons_self).bind
      (ih fun other mem => takes other (mem_cons_of_mem _ mem))
    exact both.congr (by simp)

end Takes

open Takes

theorem encodeCharacterString_takes (value : List UInt8) :
    Takes (·.encodeCharacterString value) (characterStringBytes value)
      (value.length ≤ maxCharacterStringLength) :=
  guarded (((raw [UInt8.ofNat value.length]).bind (raw value)).congr (by simp))

theorem encodeToken_takes (token : List UInt8) :
    Takes (·.encodeToken token) (characterStringBytes token) (token.length ≤ maxLabelLength) :=
  guarded (((raw [UInt8.ofNat token.length]).bind (raw token)).congr (by simp))

section Encodable

variable (tokenizer : Tokenizer)

def NameEncodable (name : List UInt8) : Prop :=
  ∀ label ∈ tokenizer.tokens name, label.length ≤ maxLabelLength

def ResourceRecordData.Encodable : ResourceRecordData -> Prop
  | .nameServer nsdname => NameEncodable tokenizer nsdname
  | .canonicalName cname => NameEncodable tokenizer cname
  | .pointer ptrdname => NameEncodable tokenizer ptrdname
  | .zoneAuthority value =>
    NameEncodable tokenizer value.mname ∧ NameEncodable tokenizer value.rname
  | .hostInfo cpu os =>
    cpu.length ≤ maxCharacterStringLength ∧ os.length ≤ maxCharacterStringLength
  | .mailExchange _ exchange => NameEncodable tokenizer exchange
  | .text strings => ∀ string ∈ strings, string.length ≤ maxCharacterStringLength
  | .server _ => False
  | _ => True

structure ResourceRecord.Encodable (record : ResourceRecord) : Prop where
  name : NameEncodable tokenizer record.name
  data : record.rdata.Encodable tokenizer

theorem encodeName_takes (name : List UInt8) :
    Takes (MemoryEncoder.encodeDomainName tokenizer name) (nameBytes tokenizer name)
      (NameEncodable tokenizer name) := by
  have both := (foldlM (tokenizer.tokens name)
    fun token _ => encodeToken_takes token).bind (raw [0])
  exact both.congr (and_iff_left trivial)

theorem ResourceRecord.encodeData_takes (data : ResourceRecordData) :
    Takes (encodeData tokenizer data) (data.bytes tokenizer) (data.Encodable tokenizer) := by
  cases data with
  | undefined => exact nothing
  | ipv4 address | ipv6 _ _ _ _ => exact .raw _
  | nameServer nsdname => exact encodeName_takes tokenizer nsdname
  | canonicalName cname => exact encodeName_takes tokenizer cname
  | pointer ptrdname => exact encodeName_takes tokenizer ptrdname
  | zoneAuthority value =>
    have numbers := (raw (uint32Bytes value.serial)).bind
      ((raw (uint32Bytes value.refresh)).bind ((raw (uint32Bytes value.retry)).bind
        ((raw (uint32Bytes value.expire)).bind (raw (uint32Bytes value.minimum)))))
    have whole := (encodeName_takes tokenizer value.mname).bind
      ((encodeName_takes tokenizer value.rname).bind numbers)
    exact whole.congr (by simp [ResourceRecordData.Encodable])
  | wellKnownService value =>
    have whole := (raw (addressBytes value.address)).bind
      ((raw [value.protocol]).bind (raw (PortSet.ofPorts value.port)))
    exact whole.congr (by simp [ResourceRecordData.Encodable])
  | hostInfo cpu os => exact (encodeCharacterString_takes cpu).bind (encodeCharacterString_takes os)
  | mailExchange preference exchange =>
    have whole := (raw (uint16Bytes preference)).bind (encodeName_takes tokenizer exchange)
    exact whole.congr (and_iff_right trivial)
  | text strings => exact .foldlM strings fun string _ => encodeCharacterString_takes string
  | server => exact {
      writes := fun _ _ _ failed => absurd failed nofun
      sameLength := fun _ _ _ failed => absurd failed nofun
      succeeds := fun _ _ =>
        ⟨fun ⟨_, failed⟩ => absurd failed nofun, fun ⟨never, _⟩ => never.elim⟩ }
  | raw data => exact .raw data

theorem ResourceRecord.encodeHead_takes (record : ResourceRecord) :
    Takes (encodeHead tokenizer record) (record.headBytes tokenizer)
      (NameEncodable tokenizer record.name) := by
  have numbers := (raw (uint16Bytes (UInt16.ofNat record.type.toInt))).bind
    ((raw (uint16Bytes (if record.type ≠ .opt then UInt16.ofNat record.classification.toInt
      else record.optSize))).bind
      (.raw (uint32Bytes (if record.type ≠ .opt then record.ttl else record.optFlags))))
  have whole := (encodeName_takes tokenizer record.name).bind numbers
  exact whole.congr (by simp)

/-- The place that is kept for the length is there to go back to. -/
theorem ResourceRecord.encodeSized_takes (data : ResourceRecordData) :
    Takes (encodeSized tokenizer data)
      (uint16Bytes (UInt16.ofNat (data.bytes tokenizer).length) ++ data.bytes tokenizer)
      (data.Encodable tokenizer) := by
  have takesKept := raw (uint16Bytes 0)
  have takesData := encodeData_takes tokenizer data
  have takesBoth := takesKept.bind takesData
  constructor
  case writes => exact encodeSized_writes tokenizer data
  case sameLength =>
    intro before _ within succeeded
    obtain ⟨kept, isKept, dataWritten⟩ := bind_eq_ok.mp succeeded
    obtain ⟨written, isWritten, sought⟩ := bind_eq_ok.mp dataWritten
    obtain ⟨returned, isReturned, rewritten⟩ := bind_eq_ok.mp sought
    obtain ⟨patched, isPatched, isAfter⟩ := bind_eq_ok.mp rewritten
    have isLength := takesBoth.sameLength before written within
      (bind_eq_ok.mpr ⟨kept, isKept, isWritten⟩)
    obtain ⟨returnedWithin, isReturn⟩ := seek_eq_ok.mp isReturned
    have patchedLength := (raw _).sameLength returned patched
      (by rw [isReturn]; exact returnedWithin) isPatched
    obtain ⟨_, isResult⟩ := seek_eq_ok.mp isAfter
    rw [isResult]
    rw [patchedLength, isReturn]
    exact isLength
  case succeeds =>
    intro before within
    have bothLength : (uint16Bytes (UInt16.ofNat (data.bytes tokenizer).length) ++
        data.bytes tokenizer).length = (uint16Bytes 0 ++ data.bytes tokenizer).length := by
      simp only [length_append, uint16Bytes, storeBigEndian_length]
    constructor
    · rintro ⟨_, succeeded⟩
      obtain ⟨kept, isKept, dataWritten⟩ := bind_eq_ok.mp succeeded
      obtain ⟨written, isWritten, _⟩ := bind_eq_ok.mp dataWritten
      obtain ⟨allowed, room⟩ := (takesBoth.succeeds before within).mp
        ⟨written, bind_eq_ok.mpr ⟨kept, isKept, isWritten⟩⟩
      exact ⟨allowed.2, room⟩
    · rintro ⟨allowed, room⟩
      obtain ⟨written, bothWritten⟩ := (takesBoth.succeeds before within).mpr
        ⟨⟨trivial, allowed⟩, room⟩
      obtain ⟨kept, isKept, isWritten⟩ := bind_eq_ok.mp bothWritten
      have wrote := takesBoth.writes before written within bothWritten
      have isLength := takesBoth.sameLength before written within bothWritten
      have startWithin : before.current ≤ written.data.length := by omega
      -- Room for the length was kept before the data.
      obtain ⟨patched, isPatched⟩ := ((raw (uint16Bytes (UInt16.ofNat
        (written.current - kept.current)))).succeeds { written with current := before.current }
          startWithin).mpr ⟨trivial, by
            rw [length_append] at room
            simp only [uint16Bytes, storeBigEndian_length] at room ⊢
            omega⟩
      have patchedLength := (raw _).sameLength _ patched startWithin isPatched
      refine ⟨{ patched with current := written.current }, ?_⟩
      apply bind_eq_ok.mpr
      refine ⟨kept, isKept, bind_eq_ok.mpr ⟨written, isWritten, ?_⟩⟩
      apply bind_eq_ok.mpr
      refine ⟨_, seek_eq_ok.mpr ⟨startWithin, rfl⟩, ?_⟩
      apply bind_eq_ok.mpr
      refine ⟨patched, isPatched, seek_eq_ok.mpr ⟨?_, rfl⟩⟩
      rw [patchedLength]
      exact wrote.within

theorem ResourceRecord.encode_takes (record : ResourceRecord) :
    Takes (encode tokenizer · record) (record.bytes tokenizer) (record.Encodable tokenizer) := by
  have whole := (encodeHead_takes tokenizer record).bind (encodeSized_takes tokenizer record.rdata)
  exact whole.congr ⟨fun both => ⟨both.1, both.2⟩, fun both => ⟨both.name, both.data⟩⟩

end Encodable

/-! ## The length -/

namespace ResourceRecord

/-- Where `encode` keeps the place for the length of the data. -/
def lengthPosition (tokenizer : Tokenizer) (before : MemoryEncoder) (record : ResourceRecord) :
    Nat :=
  match encodeHead tokenizer record before with
  | .ok encoder => encoder.current
  | .error _ => before.current

def lengthAt (encoder : MemoryEncoder) (position : Nat) : Nat :=
  Bytes.loadBigEndian ((encoder.data.drop position).take 2)

variable (tokenizer : Tokenizer) {record : ResourceRecord} {before after : MemoryEncoder}

/-- What stands at the place of the length, and how many bytes were written behind it. -/
theorem encode_length (within : before.current ≤ before.data.length)
    (encoded : encode tokenizer before record = .ok after) :
    lengthAt after (lengthPosition tokenizer before record) =
        (record.rdata.bytes tokenizer).length % 2 ^ 16 ∧
      after.current - (lengthPosition tokenizer before record + 2) =
        (record.rdata.bytes tokenizer).length := by
  have wrote := encode_writes tokenizer record before after within encoded
  obtain ⟨head, isHead, _⟩ := bind_eq_ok.mp encoded
  have wroteHead := encodeHead_writes tokenizer record before head within isHead
  have isPosition : lengthPosition tokenizer before record =
      before.current + (record.headBytes tokenizer).length := by
    unfold lengthPosition
    rw [isHead]
    exact wroteHead.current
  have startLength : before.produced.length = before.current := by
    unfold produced
    rw [length_take, Nat.min_eq_left within]
  have isData : after.data = before.produced ++ record.headBytes tokenizer ++
      (uint16Bytes (UInt16.ofNat (record.rdata.bytes tokenizer).length) ++
        (record.rdata.bytes tokenizer ++ after.data.drop after.current)) := by
    have isProduced : after.data.take after.current = before.produced ++ record.bytes tokenizer :=
      wrote.produced
    conv_lhs => rw [← take_append_drop after.current after.data, isProduced]
    unfold bytes
    simp only [append_assoc]
  constructor
  · have isFront : (before.produced ++ record.headBytes tokenizer).length =
        lengthPosition tokenizer before record := by rw [isPosition, length_append, startLength]
    have isField : (after.data.drop (lengthPosition tokenizer before record)).take 2 =
        uint16Bytes (UInt16.ofNat (record.rdata.bytes tokenizer).length) := by
      rw [isData, ← isFront, drop_left]
      exact take_left' (storeBigEndian_length 2 _)
    unfold lengthAt
    rw [isField]
    unfold uint16Bytes
    rw [load_storeBigEndian (UInt16.toNat_lt _)]
    exact UInt16.toNat_ofNat'
  · have isLength := wrote.current
    unfold bytes at isLength
    simp only [length_append, uint16Bytes, storeBigEndian_length] at isLength
    omega

/-- The length that is written is the number of bytes that follow, and longer data are
rejected, if and only if the data are not longer than the length can tell, or the record is
not encoded for another reason: a name or a string that is too long, a kind of data without
an encoding, or too little room. -/
theorem encode_length_iff (record : ResourceRecord) (before : MemoryEncoder)
    (within : before.current ≤ before.data.length) :
    ((∀ after, encode tokenizer before record = .ok after ->
        lengthAt after (lengthPosition tokenizer before record) =
          after.current - (lengthPosition tokenizer before record + 2)) ∧
      (65535 < (record.rdata.bytes tokenizer).length ->
        ∃ fault, encode tokenizer before record = .error fault)) ↔
    ((record.rdata.bytes tokenizer).length ≤ 65535 ∨ ¬ record.Encodable tokenizer ∨
      before.data.length < before.current + (record.bytes tokenizer).length) := by
  have succeeds := (encode_takes tokenizer record).succeeds before within
  constructor
  · rintro ⟨_, rejected⟩
    by_contra defect
    simp only [not_or, not_le, not_lt, not_not] at defect
    obtain ⟨long, encodable, room⟩ := defect
    obtain ⟨after, encoded⟩ := succeeds.mpr ⟨encodable, room⟩
    obtain ⟨fault, failed⟩ := rejected long
    rw [encoded] at failed
    contradiction
  · intro condition
    constructor
    · intro after encoded
      obtain ⟨encodable, room⟩ := succeeds.mp ⟨after, encoded⟩
      obtain ⟨isLength, isWritten⟩ := encode_length tokenizer within encoded
      rw [isLength, isWritten]
      rcases condition with short | notEncodable | noRoom
      · exact Nat.mod_eq_of_lt (by omega)
      · contradiction
      · omega
    · intro _
      cases encoded : encode tokenizer before record with
      | error fault => exact ⟨fault, rfl⟩
      | ok after =>
        obtain ⟨encodable, _⟩ := succeeds.mp ⟨after, encoded⟩
        rcases condition with _ | notEncodable | _
        · omega
        · contradiction
        · omega

/-- The record of an address, in a buffer with room for it. -/
theorem encode_length_address : (∀ after, encode softTokenizer { data := replicate 64 0 }
        { name := [97], rdata := .ipv4 1 } = .ok after ->
      lengthAt after (lengthPosition softTokenizer { data := replicate 64 0 }
          { name := [97], rdata := .ipv4 1 }) =
        after.current - (lengthPosition softTokenizer { data := replicate 64 0 }
          { name := [97], rdata := .ipv4 1 } + 2)) ∧
      (65535 < (ResourceRecordData.bytes softTokenizer (.ipv4 1)).length ->
        ∃ fault, encode softTokenizer { data := replicate 64 0 }
          { name := [97], rdata := .ipv4 1 } = .error fault) :=
  (encode_length_iff softTokenizer { name := [97], rdata := .ipv4 1 }
    { data := replicate 64 0 } (Nat.zero_le _)).mpr (.inl (by decide))

def longOptions : ResourceRecord where
  type := .opt
  rdata := .raw (List.replicate 65536 0)

theorem longOptions_rdata_length : (longOptions.rdata.bytes softTokenizer).length = 65536 :=
  length_replicate

theorem longOptions_length : (bytes softTokenizer longOptions).length = 65547 := by
  have headLength : (headBytes softTokenizer longOptions).length = 9 := rfl
  unfold bytes
  rw [length_append, headLength, length_append, longOptions_rdata_length]
  simp only [uint16Bytes, storeBigEndian_length]

/-- The length that is written before them is zero. -/
theorem encode_length_lost : ¬ (∀ (record : ResourceRecord) (before : MemoryEncoder),
        before.current ≤ before.data.length ->
          (∀ after, encode softTokenizer before record = .ok after ->
            lengthAt after (lengthPosition softTokenizer before record) =
              after.current - (lengthPosition softTokenizer before record + 2)) ∧
            (65535 < (record.rdata.bytes softTokenizer).length ->
              ∃ fault, encode softTokenizer before record = .error fault)) ∧
      ∃ after, encode softTokenizer { data := replicate 65547 0 } longOptions = .ok after ∧
        lengthAt after
          (lengthPosition softTokenizer { data := replicate 65547 0 } longOptions) = 0 ∧
        after.current - (lengthPosition softTokenizer { data := replicate 65547 0 }
          longOptions + 2) = 65536 := by
  obtain ⟨after, encoded⟩ := ((encode_takes softTokenizer longOptions).succeeds
    { data := replicate 65547 0 } (Nat.zero_le _)).mpr
      ⟨⟨fun _ mem => absurd mem not_mem_nil, trivial⟩, by
        rw [longOptions_length, length_replicate]⟩
  obtain ⟨isLength, isWritten⟩ := encode_length softTokenizer (Nat.zero_le _) encoded
  rw [longOptions_rdata_length] at isLength isWritten
  refine ⟨fun claimed => ?_, after, encoded, isLength, isWritten⟩
  have agrees := (claimed _ _ (Nat.zero_le _)).1 after encoded
  exact absurd agrees (by omega)

end ResourceRecord

end NtfCore.Ntcdns
