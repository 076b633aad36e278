import NtfCore.Ntcdns.Wire

/-!
Contract: a message that is decoded after it was encoded.

Owns: what decoding makes of the bytes of headers, questions and records; and the
theorem that says of which messages decoding makes an equal message again.
-/

namespace NtfCore.Ntcdns

open NtfCore.Foundation List ResourceRecordData ResourceRecord UInt16 MemoryDecoder Bytes

variable (tokenizer : Tokenizer)

theorem RecordType.fromInt_ofNat (type : RecordType) :
    fromInt (UInt16.ofNat type.toInt).toNat = some type := by
  rw [toNat_ofNat', Nat.mod_eq_of_lt type.toInt_lt]
  exact fromInt_toInt type

theorem Classification.fromInt_ofNat (value : Classification) :
    fromInt (UInt16.ofNat value.toInt).toNat = some value := by
  rw [toNat_ofNat', Nat.mod_eq_of_lt value.toInt_lt]
  exact fromInt_toInt value

theorem Reads.expect {α β : Type} {option : Option α} {value : α}
    {next : α -> MemoryDecoder -> Except Fault (β × MemoryDecoder)} {bytes : List UInt8} {result : β}
    (isSome : option = some value) (reads : Reads (next value) bytes result) :
    Reads (fun decoder => expect option >>= fun value => next value decoder) bytes result := by
  rw [isSome]
  exact reads

theorem flags_first (dir : Direction) (op : Operation) (aa tc rd : Bool) :
    let first := (UInt8.ofNat (rd.toNat + 2 * tc.toNat + 4 * aa.toNat +
      8 * (op.toInt % 16) + 128 * (dir.toInt % 2))).toNat
    first.testBit 0 = rd ∧ first.testBit 1 = tc ∧ first.testBit 2 = aa ∧
      first / 8 % 16 = op.toInt ∧ first / 128 = dir.toInt := by
  cases dir <;> cases op <;> cases aa <;> cases tc <;> cases rd <;> decide

/-- The fields of the second byte of the flags, of which two are never set. -/
theorem flags_second (error : Error) (cd ra : Bool) :
    let second := (UInt8.ofNat (error.toInt % 16 + 16 * cd.toNat + 32 * false.toNat +
      64 * false.toNat + 128 * ra.toNat)).toNat
    second % 16 = error.toInt ∧ second.testBit 4 = cd ∧ second.testBit 5 = false ∧
      second.testBit 6 = false ∧ second.testBit 7 = ra := by
  cases error <;> cases cd <;> cases ra <;> decide

theorem Header.ofBytes_flags (header : Header) :
    Flags.ofBytes header.flags.toBytes = header.flags := by
  obtain ⟨isRd, isTc, isAa, isOpcode, isQr⟩ := flags_first header.direction header.operation
    header.aa header.tc header.rd
  obtain ⟨isRcode, isCd, isAd, isZ, isRa⟩ := flags_second header.error header.cd header.ra
  simp only [Flags.ofBytes, Flags.toBytes, Header.flags, getD_cons_zero, getD_cons_succ]
  rw [isRd, isTc, isAa, isOpcode, isQr, isRcode, isCd, isAd, isZ, isRa]

theorem Header.decode_reads (header : Header) :
    Reads Header.decode header.bytes { header with ad := false } := by
  have isFlags := header.ofBytes_flags
  apply (decodeUint16_reads header.id).bind
  apply (decodeRaw_reads header.flags.toBytes).bind
  simp only [isFlags]
  apply Reads.expect header.direction.fromInt_toInt
  apply Reads.expect header.operation.fromInt_toInt
  apply Reads.expect header.error.fromInt_toInt
  apply (decodeUint16_reads header.qdcount).bind
  dsimp only
  apply (decodeUint16_reads header.ancount).bind
  dsimp only
  apply (decodeUint16_reads header.nscount).bind
  dsimp only
  apply (decodeUint16_reads header.arcount).last
  exact fun _ => rfl

/-! ## Questions -/

theorem nameBytes_of_labels {labels : List (List UInt8)}
    (canon : ∀ label ∈ labels, CanonicalLabel label) :
    nameBytes tokenizer (joinLabels labels) = labelsBytes labels := by
  unfold nameBytes
  rw [tokenizer.tokens_joinLabels canon]

variable {name : List UInt8}

theorem Canonical.decodeName_reads (canon : Canonical name) :
    Reads decodeName (nameBytes tokenizer name) name := by
  obtain ⟨_, areCanonical, isName⟩ := canon
  rw [isName, nameBytes_of_labels tokenizer areCanonical]
  exact Ntcdns.decodeName_reads areCanonical

theorem Canonical.nameBytes_length (canon : Canonical name) :
    (nameBytes tokenizer name).length = nameSize name := by
  obtain ⟨_, areCanonical, isName⟩ := canon
  rw [isName, nameBytes_of_labels tokenizer areCanonical]
  exact labelsBytes_length areCanonical

theorem Question.decode_of_name {decoder next : MemoryDecoder}
    (isName : decoder.decodeName = .ok (name, next)) :
    Question.decode decoder = Question.decodeFields name next := by
  unfold decodeName at isName
  dsimp only at isName
  cases noError : decoder.decodeDomainName.error with
  | some =>
    rw [noError] at isName
    contradiction
  | none =>
    rw [noError] at isName
    cases isName
    unfold Question.decode
    simp only [noError]

theorem Question.decode_reads {question : Question} (canon : Canonical question.name) :
    Reads Question.decode (question.bytes tokenizer) question := by
  have fields : Reads (Question.decodeFields question.name)
      (uint16Bytes (ofNat question.type.toInt) ++
        uint16Bytes (ofNat question.classification.toInt)) question := by
    apply (decodeUint16_reads (ofNat question.type.toInt)).bind
    apply Reads.expect question.type.fromInt_ofNat
    apply (decodeUint16_reads (ofNat question.classification.toInt)).last
    intro decoder
    show (expect (Classification.fromInt (ofNat question.classification.toInt).toNat) >>= _) = _
    rw [question.classification.fromInt_ofNat]
    rfl
  intro decoder ahead
  rw [Question.decode_of_name (canon.decodeName_reads tokenizer decoder ahead.left),
    fields _ ahead.right, skip_skip]
  rfl

def ResourceRecord.readHead (record : ResourceRecord) : ResourceRecord :=
  if record.type ≠ .opt then {
    name := record.name, type := record.type
    classification := record.classification, ttl := record.ttl }
  else {
    name := record.name, type := record.type
    optSize := record.optSize, optFlags := record.optFlags }

theorem ResourceRecord.readHead_type (record : ResourceRecord) :
    record.readHead.type = record.type := by
  unfold readHead
  split
  · rfl
  · rfl

theorem ResourceRecord.decodeHead_reads {record : ResourceRecord} (canon : Canonical record.name) :
    Reads ResourceRecord.decodeHead (record.headBytes tokenizer) record.readHead := by
  unfold headBytes readHead
  apply (canon.decodeName_reads tokenizer).bind
  apply (decodeUint16_reads (ofNat record.type.toInt)).bind
  apply Reads.expect record.type.fromInt_ofNat
  by_cases isOpt : record.type = .opt
  · simp only [isOpt, ne_eq, not_true_eq_false, ↓reduceIte]
    apply (decodeUint16_reads record.optSize).bind
    dsimp only
    apply (decodeUint32_reads record.optFlags).last
    exact fun _ => rfl
  · simp only [isOpt, ne_eq, not_false_eq_true, ↓reduceIte]
    apply (decodeUint16_reads (ofNat record.classification.toInt)).bind
    apply Reads.expect record.classification.fromInt_ofNat
    apply (decodeUint32_reads record.ttl).last
    exact fun _ => rfl

/-! ## The data of records -/

def RecordType.isRaw (type : RecordType) : Bool :=
  decide (type ∉ [.a, .ns, .cname, .soa, .wks, .ptr, .hinfo, .mx, .txt, .aaaa, .svr])

def ResourceRecordData.Matches (type : RecordType) : ResourceRecordData -> Prop
  | .undefined => type ≠ .svr
  | .ipv4 _ => type = .a
  | .ipv6 _ _ _ _ => type = .aaaa
  | .nameServer _ => type = .ns
  | .canonicalName _ => type = .cname
  | .pointer _ => type = .ptr
  | .zoneAuthority _ => type = .soa
  | .wellKnownService _ => type = .wks
  | .hostInfo _ _ => type = .hinfo
  | .mailExchange _ _ => type = .mx
  | .text _ => type = .txt
  | .server _ => False
  | .raw _ => type.isRaw = true

def ResourceRecordData.Canonical : ResourceRecordData -> Prop
  | .nameServer nsdname => Ntcdns.Canonical nsdname
  | .canonicalName cname => Ntcdns.Canonical cname
  | .pointer ptrdname => Ntcdns.Canonical ptrdname
  | .zoneAuthority value => Ntcdns.Canonical value.mname ∧ Ntcdns.Canonical value.rname
  | .mailExchange _ exchange => Ntcdns.Canonical exchange
  | .wellKnownService value => value.port.Pairwise (· < ·)
  | _ => True

def ResourceRecordData.Fits : ResourceRecordData -> Prop
  | .nameServer nsdname => nameSize nsdname < 2 ^ 16
  | .canonicalName cname => nameSize cname < 2 ^ 16
  | .pointer ptrdname => nameSize ptrdname < 2 ^ 16
  | .zoneAuthority value => nameSize value.mname + nameSize value.rname + 20 < 2 ^ 16
  | .mailExchange _ exchange => 2 + nameSize exchange < 2 ^ 16
  | .text strings => strings.length = 1
  | .raw data => data ≠ [] ∧ data.length < 2 ^ 16
  | _ => True

def ResourceRecordData.Named : ResourceRecordData -> Prop
  | .nameServer _ => True
  | .canonicalName _ => True
  | .pointer _ => True
  | .zoneAuthority _ => True
  | .mailExchange _ _ => True
  | _ => False

theorem addressBytes_length (address : UInt32) : (addressBytes address).length = 4 :=
  storeLittleEndian_length 4 address.toNat

theorem decodeAddress_reads (address : UInt32) : Reads (·.decodeRaw 4) (addressBytes address)
      (addressBytes address) := by
  have reads := decodeRaw_reads (addressBytes address)
  exact reads

theorem addressOfBytes_addressBytes (address : UInt32) :
    addressOfBytes (addressBytes address) = address := by
  unfold addressOfBytes addressBytes
  rw [load_storeLittleEndian address.toNat_lt]
  exact UInt32.ofNat_toNat

theorem uint16Bytes_length (value : UInt16) : (uint16Bytes value).length = 2 :=
  storeBigEndian_length 2 value.toNat

theorem uint32Bytes_length (value : UInt32) : (uint32Bytes value).length = 4 :=
  storeBigEndian_length 4 value.toNat

section Data

variable {type : RecordType} {data : ResourceRecordData}

open Canonical

theorem ResourceRecord.decodeData_named (isMatch : data.Matches type)
    (canon : data.Canonical) (named : data.Named) (rdataLength : Nat) :
    Reads (decodeData type rdataLength) (data.bytes tokenizer) data := by
  cases data with
  | nameServer =>
    rw [show type = .ns from isMatch]
    apply (Canonical.decodeName_reads tokenizer canon).last
    exact fun _ => rfl
  | canonicalName =>
    rw [show type = .cname from isMatch]
    apply (Canonical.decodeName_reads tokenizer canon).last
    exact fun _ => rfl
  | pointer =>
    rw [show type = .ptr from isMatch]
    apply (Canonical.decodeName_reads tokenizer canon).last
    exact fun _ => rfl
  | zoneAuthority value =>
    rw [show type = .soa from isMatch]
    apply (Canonical.decodeName_reads tokenizer canon.1).bind
    apply (Canonical.decodeName_reads tokenizer canon.2).bind
    apply (decodeUint32_reads value.serial).bind
    apply (decodeUint32_reads value.refresh).bind
    apply (decodeUint32_reads value.retry).bind
    apply (decodeUint32_reads value.expire).bind
    apply (decodeUint32_reads value.minimum).last
    exact fun _ => rfl
  | mailExchange preference =>
    rw [show type = .mx from isMatch]
    apply (decodeUint16_reads preference).bind
    apply (Canonical.decodeName_reads tokenizer canon).last
    exact fun _ => rfl
  | _ => contradiction

variable {decoder next : MemoryDecoder} {string : List UInt8}

theorem decodeCharacterString_current (isRead : decoder.decodeCharacterString = .ok (string, next))
    : next.current - decoder.current ≤ 256 := by
  obtain ⟨⟨_, _⟩, isLength, isString⟩ := bind_eq_ok.mp isRead
  obtain ⟨⟨_, _⟩, isBytes, isStarted⟩ := bind_eq_ok.mp isLength
  cases isStarted
  simp only [decodeRaw] at isBytes isString
  split at isBytes
  · contradiction
  · cases isBytes
    split at isString
    · contradiction
    · cases isString
      have bound := (UInt8.ofNat (loadBigEndian
        ((decoder.data.drop decoder.current).take 1))).toNat_lt
      dsimp only
      omega

/-- The loop over the strings of a text ends without an error when the first one is all that
remains, or not at all. -/
theorem ResourceRecord.decodeText_eq_ok {fuel remaining : Nat} {strings : List (List UInt8)}
    (pos : remaining ≠ 0) (bounded : remaining < 2 ^ 16) :
    decodeText (fuel + 2) remaining [] decoder = .ok (strings, next) ↔
      ∃ string, decoder.decodeCharacterString = .ok (string, next) ∧
        next.current - decoder.current = remaining ∧ strings = [string] := by
  unfold decodeText
  rw [if_neg pos]
  constructor
  · intro isRead
    obtain ⟨⟨string, started⟩, isString, continued⟩ := bind_eq_ok.mp isRead
    have firstBound := decodeCharacterString_current isString
    dsimp only at continued
    split at continued
    · rename_i enough
      unfold decodeText at continued
      split at continued
      · rename_i noneRemain
        cases continued
        exact ⟨string, isString, by omega, rfl⟩
      · rename_i wrapped
        obtain ⟨⟨another, finished⟩, isAnother, rest⟩ := bind_eq_ok.mp continued
        have secondBound := decodeCharacterString_current isAnother
        dsimp only at rest
        rw [if_neg (by omega)] at rest
        contradiction
    · contradiction
  · rintro ⟨string, isString, isAll, isText⟩
    apply bind_eq_ok.mpr
    refine ⟨(string, next), isString, ?_⟩
    dsimp only
    rw [isAll, if_pos .refl, Nat.add_sub_cancel, Nat.mod_self, isText]
    rfl

theorem ResourceRecord.decodeText_single (short : string.length ≤ maxCharacterStringLength)
    (fuel : Nat) : Reads (decodeText (fuel + 2) (characterStringBytes string).length [])
      (characterStringBytes string) [string] := by
  intro decoder ahead
  have isLength : (characterStringBytes string).length = string.length + 1 := by
    simp [characterStringBytes]
  unfold maxCharacterStringLength at short
  apply (decodeText_eq_ok (by omega) (by omega)).mpr
  refine ⟨string, decodeCharacterString_reads short decoder ahead, ?_, rfl⟩
  exact Nat.add_sub_cancel_left _ _

theorem RecordType.isRaw_decodeData (raw : type.isRaw = true) (rdataLength : Nat)
    (decoder : MemoryDecoder) : decodeData type rdataLength decoder =
      (decoder.decodeRaw rdataLength >>= fun (data, decoder) => pure (.raw data, decoder)) := by
  cases type <;> first | rfl | contradiction

theorem ResourceRecord.decodeIpv6_reads (address0 address1 address2 address3 : UInt32) :
    Reads (decodeData .aaaa
      (ResourceRecordData.bytes tokenizer (.ipv6 address0 address1 address2 address3)).length)
      (ResourceRecordData.bytes tokenizer (.ipv6 address0 address1 address2 address3))
      (.ipv6 address0 address1 address2 address3) := by
  have isBytes : ResourceRecordData.bytes tokenizer (.ipv6 address0 address1 address2 address3) =
      addressBytes address0 ++ (addressBytes address1 ++
        (addressBytes address2 ++ addressBytes address3)) := by
    simp only [ResourceRecordData.bytes, append_assoc]
  rw [isBytes]
  have whole := Buffer.ahead_self (addressBytes address0 ++ (addressBytes address1 ++
    (addressBytes address2 ++ addressBytes address3)))
  have reads := decodeRaw_reads (addressBytes address0 ++ (addressBytes address1 ++
    (addressBytes address2 ++ addressBytes address3)))
  have part0 := whole.left.take_drop
  have part1 := whole.right.left.take_drop
  have part2 := whole.right.right.left.take_drop
  have part3 := whole.right.right.right.take_drop
  have isLength : (addressBytes address0 ++ (addressBytes address1 ++
      (addressBytes address2 ++ addressBytes address3))).length = 16 := by
    simp only [length_append, addressBytes_length]
  simp only [addressBytes_length, drop_zero, Nat.zero_add] at part0 part1 part2 part3
  apply reads.last
  intro _
  simp only [part0, part1, part2, part3, addressOfBytes_addressBytes]
  rfl

theorem ResourceRecord.decodeData_reads (isMatch : data.Matches type)
    (canon : data.Canonical) (short : data.Short) (fits : data.Fits) (defined : data ≠ .undefined) :
    Reads (decodeData type (data.bytes tokenizer).length) (data.bytes tokenizer) data := by
  cases data with
  | undefined => contradiction
  | ipv4 address =>
    rw [show type = .a from isMatch]
    unfold decodeData
    simp only [ResourceRecordData.bytes, addressBytes_length, ne_eq, not_true_eq_false, ↓reduceIte]
    apply (decodeAddress_reads address).last
    intro decoder
    rw [addressOfBytes_addressBytes]
    rfl
  | ipv6 address0 address1 address2 address3 =>
    rw [show type = .aaaa from isMatch]
    exact decodeIpv6_reads tokenizer address0 address1 address2 address3
  | wellKnownService value =>
    rw [show type = .wks from isMatch]
    apply (decodeAddress_reads value.address).bind
    apply (decodeUint8_reads value.protocol).bind
    apply (decodeRaw_reads (PortSet.ofPorts value.port)).last
    intro decoder
    dsimp only
    rw [addressOfBytes_addressBytes, PortSet.toPorts_ofPorts canon]
    rfl
  | hostInfo =>
    rw [show type = .hinfo from isMatch]
    apply (decodeCharacterString_reads short.1).bind
    apply (decodeCharacterString_reads short.2).last
    exact fun _ => rfl
  | text strings =>
    rw [show type = .txt from isMatch]
    obtain ⟨string, isText⟩ := length_eq_one_iff.mp fits
    subst isText
    have isBytes : ResourceRecordData.bytes tokenizer (.text [string]) =
        characterStringBytes string := by simp [ResourceRecordData.bytes]
    rw [isBytes]
    intro decoder ahead
    have reads := decodeText_single (short string mem_cons_self)
      (decoder.data.length - decoder.current)
    exact reads.step ahead fun result =>
      Except.ok (text result.1, result.2)
  | raw data =>
    intro decoder ahead
    rw [RecordType.isRaw_decodeData isMatch]
    exact (decodeRaw_reads data).step ahead fun result =>
      Except.ok (raw result.1, result.2)
  | server value => exact False.elim isMatch
  | nameServer nsdname | canonicalName cname | pointer ptrdname
  | zoneAuthority _
  | mailExchange => exact decodeData_named tokenizer isMatch canon trivial _

theorem nameBytes_ne_nil (name : List UInt8) : nameBytes tokenizer name ≠ [] := by
  unfold nameBytes labelsBytes
  simp

section

variable (isMatch : data.Matches type)
include isMatch

theorem ResourceRecordData.eq_undefined_of_bytes (fits : data.Fits)
    (isNil : data.bytes tokenizer = []) : data = .undefined := by
  have addressed : ∀ address, addressBytes address ≠ [] := by
    intro address _
    contradiction
  cases data with
  | undefined => rfl
  | ipv4 address => exact absurd isNil (addressed address)
  | ipv6 address0 =>
    simp only [bytes, append_eq_nil_iff] at isNil
    exact absurd isNil.1.1.1 (addressed address0)
  | nameServer nsdname => exact absurd isNil (nameBytes_ne_nil tokenizer nsdname)
  | canonicalName cname => exact absurd isNil (nameBytes_ne_nil tokenizer cname)
  | pointer ptrdname => exact absurd isNil (nameBytes_ne_nil tokenizer ptrdname)
  | zoneAuthority value =>
    exact absurd (append_eq_nil_iff.mp isNil).1 (nameBytes_ne_nil tokenizer value.mname)
  | wellKnownService value => exact absurd (append_eq_nil_iff.mp isNil).1 (addressed value.address)
  | hostInfo => exact absurd isNil (by simp [bytes, characterStringBytes])
  | mailExchange _ exchange =>
    exact absurd (append_eq_nil_iff.mp isNil).2 (nameBytes_ne_nil tokenizer exchange)
  | text =>
    obtain ⟨_, isText⟩ := length_eq_one_iff.mp fits
    rw [isText] at isNil
    exact absurd isNil (by simp [bytes, characterStringBytes])
  | server => exact False.elim isMatch
  | raw =>
    obtain ⟨ne, _⟩ := fits
    exact absurd isNil ne

section

variable (canon : data.Canonical)
include canon

theorem ResourceRecordData.bytes_length_lt (short : data.Short) (fits : data.Fits) :
    (data.bytes tokenizer).length < 2 ^ 16 := by
  cases data with
  | undefined =>
    rw [bytes]
    decide
  | ipv4 _ | ipv6 _ _ _ _ =>
    simp only [bytes, length_append, addressBytes_length]
    decide
  | nameServer nsdname | canonicalName cname | pointer _ =>
    rw [bytes, nameBytes_length tokenizer canon]
    exact fits
  | zoneAuthority value =>
    simp only [bytes, length_append, nameBytes_length tokenizer canon.1,
      nameBytes_length tokenizer canon.2, uint32Bytes_length]
    unfold Fits at fits
    omega
  | wellKnownService value =>
    have small := (PortSet.ofPorts_spec canon).1
    simp only [bytes, length_append, addressBytes_length, length_singleton]
    omega
  | hostInfo =>
    have bounds := short
    unfold Short maxCharacterStringLength at bounds
    simp only [bytes, characterStringBytes, length_append, length_cons]
    omega
  | mailExchange =>
    simp only [bytes, length_append, nameBytes_length tokenizer canon, uint16Bytes_length]
    exact fits
  | text =>
    obtain ⟨string, isText⟩ := length_eq_one_iff.mp fits
    subst isText
    have bound := short string mem_cons_self
    unfold maxCharacterStringLength at bound
    simp only [bytes, characterStringBytes, flatMap_cons, flatMap_nil, append_nil, length_cons]
    omega
  | server => exact False.elim isMatch
  | raw => exact fits.2

theorem ResourceRecord.decodeSized_reads (short : data.Short) (fits : data.Fits) :
    Reads (decodeSized type (ofNat (data.bytes tokenizer).length).toNat)
      (data.bytes tokenizer) data := by
  have isLength : (ofNat (data.bytes tokenizer).length).toNat = (data.bytes tokenizer).length := by
    exact Nat.mod_eq_of_lt (data.bytes_length_lt tokenizer isMatch canon short fits)
  rw [isLength]
  intro decoder ahead
  unfold decodeSized
  by_cases isNil : data.bytes tokenizer = []
  · rw [eq_undefined_of_bytes tokenizer isMatch fits isNil]
    rfl
  · have defined : data ≠ .undefined := by
      intro isUndefined
      rw [isUndefined] at isNil
      exact isNil rfl
    have notZero : (data.bytes tokenizer).length ≠ 0 := fun isZero =>
      isNil (length_eq_zero_iff.mp isZero)
    have reads := decodeData_reads tokenizer isMatch canon short fits defined
    rw [if_neg notZero, reads.step ahead]
    have isRead : (data.bytes tokenizer).length =
        (decoder.skip (data.bytes tokenizer).length).current - decoder.current := by
      unfold skip
      simp
    dsimp only
    rw [if_neg (fun differs => differs isRead)]

theorem ResourceRecord.decodeSized_named (named : data.Named)
    (ahead : Buffer.Ahead decoder.data decoder.current (data.bytes tokenizer))
    (isRead : decodeSized type (ofNat (data.bytes tokenizer).length).toNat decoder =
      .ok (data, next)) : (data.bytes tokenizer).length < 2 ^ 16 := by
  unfold decodeSized at isRead
  split at isRead
  · cases isRead
    contradiction
  · rw [(decodeData_named tokenizer isMatch canon named _).step ahead] at isRead
    dsimp only at isRead
    split at isRead
    · contradiction
    · rename_i coherent
      have same := not_not.mp coherent
      have bound := (ofNat (data.bytes tokenizer).length).toNat_lt
      unfold skip at same
      dsimp only at same
      omega

theorem ResourceRecord.decodeSized_fits
    (ahead : Buffer.Ahead decoder.data decoder.current (data.bytes tokenizer))
    (isRead : decodeSized type (ofNat (data.bytes tokenizer).length).toNat decoder =
      .ok (data, next)) : data.Fits := by
  have named := fun isNamed => decodeSized_named tokenizer isMatch canon isNamed ahead isRead
  cases data with
  | nameServer nsdname | canonicalName cname | pointer _ =>
    rw [ResourceRecordData.bytes, nameBytes_length tokenizer canon] at named
    exact named trivial
  | zoneAuthority =>
    simp only [ResourceRecordData.bytes, length_append, nameBytes_length tokenizer canon.1,
      nameBytes_length tokenizer canon.2, uint32Bytes_length] at named
    have bound := named trivial
    unfold Fits
    omega
  | mailExchange =>
    simp only [ResourceRecordData.bytes, length_append,
      nameBytes_length tokenizer canon, uint16Bytes_length] at named
    exact named trivial
  | text =>
    rw [show type = .txt from isMatch] at isRead
    unfold decodeSized at isRead
    split at isRead
    · cases isRead
    · rename_i pos
      obtain ⟨⟨rdata, finished⟩, isData, coherent⟩ := bind_eq_ok.mp isRead
      obtain ⟨⟨_, ended⟩, isText, isPure⟩ := bind_eq_ok.mp isData
      cases isPure
      dsimp only at coherent
      split at coherent
      · contradiction
      · cases coherent
        obtain ⟨_, _, _, isSingle⟩ := (decodeText_eq_ok pos (toNat_lt _)).mp isText
        rw [isSingle]
        rfl
  | raw =>
    unfold decodeSized at isRead
    split at isRead
    · cases isRead
    · rename_i pos
      rw [RecordType.isRaw_decodeData isMatch] at isRead
      obtain ⟨⟨_, _⟩, isData, coherent⟩ := bind_eq_ok.mp isRead
      obtain ⟨⟨_, _⟩, isBytes, isPure⟩ := bind_eq_ok.mp isData
      cases isPure
      dsimp only at coherent
      split at coherent
      · contradiction
      · cases coherent
        have isLength := decodeRaw_length isBytes
        refine ⟨fun isNil => pos (by rw [isNil]; rfl), ?_⟩
        rw [isLength]
        exact toNat_lt _
  | _ => trivial

end

end

end Data

namespace ResourceRecord

/-- What the callers of `encode` provide. -/
structure Wellformed (record : ResourceRecord) : Prop where
  name : Canonical record.name
  isMatch : record.rdata.Matches record.type
  canonical : record.rdata.Canonical

/-- A record that is read back: its data fit, and an option record has the default
classification and time to live, which it does not carry. -/
structure Preserved (record : ResourceRecord) : Prop where
  fits : record.rdata.Fits
  option : record.type = .opt -> record.classification = .internet ∧ record.ttl = 0

def readBack (record : ResourceRecord) : ResourceRecord :=
  { record.readHead with rdata := record.rdata }

theorem equals_iff {left right : ResourceRecord} : left.equals right = true ↔
    left.name = right.name ∧ left.type = right.type ∧
      left.classification = right.classification ∧ left.ttl = right.ttl ∧
      left.rdata = right.rdata := by
  unfold equals
  rw [decide_eq_true_eq]

theorem readBack_equals {record : ResourceRecord} (preserved : record.Preserved) :
    record.readBack.equals record = true := by
  rw [equals_iff]
  unfold readBack readHead
  by_cases isOpt : record.type = .opt
  · obtain ⟨isInternet, isZero⟩ := preserved.option isOpt
    simp [isOpt, isInternet, isZero]
  · simp [isOpt]

variable {record : ResourceRecord}

theorem decode_reads (wellformed : record.Wellformed) (short : record.rdata.Short)
    (preserved : record.Preserved) : Reads decode (record.bytes tokenizer) record.readBack := by
  have sized : Reads (decodeSized record.readHead.type
      (ofNat (record.rdata.bytes tokenizer).length).toNat) (record.rdata.bytes tokenizer)
      record.rdata := by
    rw [readHead_type]
    exact decodeSized_reads tokenizer wellformed.isMatch wellformed.canonical short preserved.fits
  apply (decodeHead_reads tokenizer wellformed.name).bind
  apply (decodeUint16_reads (ofNat (record.rdata.bytes tokenizer).length)).bind
  apply sized.last
  exact fun _ => rfl

theorem preserved_of_decode (wellformed : record.Wellformed) {decoder next : MemoryDecoder}
    {other : ResourceRecord}
    (ahead : Buffer.Ahead decoder.data decoder.current (record.bytes tokenizer))
    (isRead : decode decoder = .ok (other, next))
    (same : other.equals record = true) : record.Preserved := by
  unfold decode at isRead
  rw [(decodeHead_reads tokenizer wellformed.name).step ahead.left] at isRead
  dsimp only at isRead
  rw [(decodeUint16_reads _).step ahead.right.left] at isRead
  obtain ⟨⟨rdata, _⟩, isData, isPure⟩ := bind_eq_ok.mp isRead
  cases isPure
  obtain ⟨_, _, sameClass, sameTtl, sameData⟩ := equals_iff.mp same
  rw [readHead_type] at isData
  constructor
  case fits =>
    have isRdata : rdata = record.rdata := sameData
    rw [isRdata] at isData
    exact decodeSized_fits tokenizer wellformed.isMatch wellformed.canonical ahead.right.right isData
  case option =>
    intro isOpt
    unfold readHead at sameClass sameTtl
    simp only [isOpt, ne_eq, not_true_eq_false, ↓reduceIte] at sameClass sameTtl
    exact ⟨sameClass.symm, sameTtl.symm⟩

end ResourceRecord

namespace Message

theorem decodeSection_reads {α : Type}
    {decodeItem : MemoryDecoder -> Except Fault (α × MemoryDecoder)} {bytes : α -> List UInt8}
    {result : α -> α} {items : List α}
    (reads : ∀ item ∈ items, Reads decodeItem (bytes item) (result item)) :
    Reads (decodeSection decodeItem items.length) (items.flatMap bytes) (items.map result) := by
  induction items with
  | nil => exact reads_nothing []
  | cons item _ ih =>
    apply (reads item mem_cons_self).bind
    apply (ih fun other mem =>
      reads other (mem_cons_of_mem _ mem)).last
    exact fun _ => rfl

theorem isEqv_readBack {records : List ResourceRecord}
    (preserved : ∀ record ∈ records, record.Preserved) :
    (records.map ResourceRecord.readBack).isEqv records ResourceRecord.equals = true := by
  induction records with
  | nil => rfl
  | cons record _ ih =>
    simp only [map_cons, isEqv, Bool.and_eq_true]
    exact ⟨readBack_equals (preserved record mem_cons_self),
      ih fun other mem => preserved other (mem_cons_of_mem _ mem)⟩

theorem preserved_of_decodeSection {records others : List ResourceRecord}
    (wellformed : ∀ record ∈ records, record.Wellformed)
    (short : ∀ record ∈ records, record.rdata.Short) {decoder next : MemoryDecoder}
    (ahead : Buffer.Ahead decoder.data decoder.current
      (records.flatMap (ResourceRecord.bytes tokenizer)))
    (isRead : decodeSection ResourceRecord.decode records.length decoder = .ok (others, next))
    (same : others.isEqv records ResourceRecord.equals = true) :
    ∀ record ∈ records, record.Preserved := by
  induction records generalizing decoder others with
  | nil => exact forall_mem_nil _
  | cons record _ ih =>
    obtain ⟨⟨_, _⟩, isFirst, others1⟩ := bind_eq_ok.mp isRead
    obtain ⟨⟨_, _⟩, isRest, isPure⟩ := bind_eq_ok.mp others1
    cases isPure
    simp only [isEqv, Bool.and_eq_true] at same
    have isPreserved := preserved_of_decode tokenizer
      (wellformed record mem_cons_self) ahead.left isFirst same.1
    have reads := decode_reads tokenizer (wellformed record mem_cons_self)
      (short record mem_cons_self) isPreserved
    cases (reads decoder ahead.left).symm.trans isFirst
    have restPreserved := ih (fun other mem => wellformed other (mem_cons_of_mem _ mem))
      (fun other mem => short other (mem_cons_of_mem _ mem)) ahead.right isRest same.2
    intro other mem
    rcases mem_cons.mp mem with isRecord | inRest
    · rw [isRecord]
      exact isPreserved
    · exact restPreserved other inRest

/-- What the callers of `encode` provide: the counts of the header are those of the
sections, names are canonical, data are of the kind of their record, and ports are
in ascending order. -/
structure Wellformed (message : Message) : Prop where
  counted : message.Counted
  questions : ∀ question ∈ message.qd, Canonical question.name
  records : ∀ record ∈ message.records, record.Wellformed

structure Preserved (message : Message) : Prop where
  ad : message.header.ad = false
  records : ∀ record ∈ message.records, record.Preserved

theorem forall_sections {msg : Message} {property : ResourceRecord -> Prop}
    (all : ∀ record ∈ msg.records, property record) :
    (∀ record ∈ msg.an, property record) ∧ (∀ record ∈ msg.ns, property record) ∧
      ∀ record ∈ msg.ar, property record := by
  refine ⟨?_, ?_, ?_⟩
  · exact fun record mem => all record (mem_append_left _ mem)
  · exact fun record mem => all record (mem_append_right _ (mem_append_left _ mem))
  · exact fun record mem => all record (mem_append_right _ (mem_append_right _ mem))

theorem equals_iff {left right : Message} : left.equals right = true ↔
    left.header = right.header ∧ left.qd = right.qd ∧
      left.an.isEqv right.an ResourceRecord.equals = true ∧
      left.ns.isEqv right.ns ResourceRecord.equals = true ∧
      left.ar.isEqv right.ar ResourceRecord.equals = true := by
  unfold equals
  simp only [Bool.and_eq_true, beq_iff_eq, and_assoc]

section Sections

variable {msg : Message}

theorem questions_reads (wellformed : msg.Wellformed) :
    Reads (decodeSection Question.decode msg.header.qdcount.toNat)
      (msg.qd.flatMap (Question.bytes tokenizer)) msg.qd := by
  have reads : Reads (decodeSection Question.decode msg.qd.length)
      (msg.qd.flatMap (Question.bytes tokenizer)) (msg.qd.map fun question => question) :=
    decodeSection_reads fun question mem =>
      Question.decode_reads tokenizer (wellformed.questions question mem)
  rw [wellformed.counted.qd, map_id'] at reads
  exact reads

theorem section_reads {records : List ResourceRecord} {count : UInt16}
    (counted : records.length = count.toNat) (wellformed : ∀ record ∈ records, record.Wellformed)
    (short : ∀ record ∈ records, record.rdata.Short)
    (preserved : ∀ record ∈ records, record.Preserved) :
    Reads (decodeSection ResourceRecord.decode count.toNat)
      (records.flatMap (ResourceRecord.bytes tokenizer)) (records.map ResourceRecord.readBack) := by
  rw [← counted]
  apply decodeSection_reads
  intro record mem
  exact decode_reads tokenizer (wellformed record mem) (short record mem) (preserved record mem)

def readBack (message : Message) : Message where
  header := { message.header with ad := false }
  qd := message.qd
  an := message.an.map ResourceRecord.readBack
  ns := message.ns.map ResourceRecord.readBack
  ar := message.ar.map ResourceRecord.readBack

theorem decode_reads (wellformed : msg.Wellformed)
    (short : ∀ record ∈ msg.records, record.rdata.Short) (preserved : msg.Preserved) :
    Reads Message.decode (msg.bytes tokenizer) msg.readBack := by
  obtain ⟨wellformedAn, wellformedNs, wellformedAr⟩ := forall_sections wellformed.records
  obtain ⟨shortAn, shortNs, shortAr⟩ := forall_sections short
  obtain ⟨preservedAn, preservedNs, preservedAr⟩ := forall_sections preserved.records
  apply msg.header.decode_reads.bind
  apply (questions_reads tokenizer wellformed).bind
  apply (section_reads tokenizer wellformed.counted.an wellformedAn shortAn preservedAn).bind
  apply (section_reads tokenizer wellformed.counted.ns wellformedNs shortNs preservedNs).bind
  apply (section_reads tokenizer wellformed.counted.ar wellformedAr shortAr preservedAr).last
  exact fun _ => rfl

theorem readBack_equals (preserved : msg.Preserved) : msg.readBack.equals msg = true := by
  obtain ⟨preservedAn, preservedNs, preservedAr⟩ := forall_sections preserved.records
  rw [equals_iff]
  refine ⟨?_, rfl, isEqv_readBack preservedAn, isEqv_readBack preservedNs,
    isEqv_readBack preservedAr⟩
  show { msg.header with ad := false } = msg.header
  rw [← preserved.ad]

theorem preserved_of_decode (wellformed : msg.Wellformed)
    (short : ∀ record ∈ msg.records, record.rdata.Short) {decoder next : MemoryDecoder}
    {other : Message} (ahead : Buffer.Ahead decoder.data decoder.current (msg.bytes tokenizer))
    (isRead : Message.decode decoder = .ok (other, next))
    (same : other.equals msg = true) : msg.Preserved := by
  obtain ⟨wellformedAn, wellformedNs, wellformedAr⟩ := forall_sections wellformed.records
  obtain ⟨shortAn, shortNs, shortAr⟩ := forall_sections short
  obtain ⟨sameHeader, _, sameAn, sameNs, sameAr⟩ := equals_iff.mp same
  unfold Message.decode at isRead
  rw [msg.header.decode_reads.step ahead.left] at isRead
  dsimp only at isRead
  rw [(questions_reads tokenizer wellformed).step ahead.right.left] at isRead
  obtain ⟨⟨_, _⟩, isAn, readNs⟩ := bind_eq_ok.mp isRead
  obtain ⟨⟨_, _⟩, isNs, readAr⟩ := bind_eq_ok.mp readNs
  obtain ⟨⟨_, _⟩, isAr, isPure⟩ := bind_eq_ok.mp readAr
  cases isPure
  have aheadAn := ahead.right.right.left
  have aheadNs := ahead.right.right.right.left
  have aheadAr := ahead.right.right.right.right
  have preservedAn : ∀ record ∈ msg.an, record.Preserved :=
    preserved_of_decodeSection tokenizer wellformedAn shortAn aheadAn
      (wellformed.counted.an ▸ isAn) sameAn
  cases ((section_reads tokenizer wellformed.counted.an wellformedAn shortAn preservedAn)
    _ aheadAn).symm.trans isAn
  have preservedNs : ∀ record ∈ msg.ns, record.Preserved :=
    preserved_of_decodeSection tokenizer wellformedNs shortNs aheadNs
      (wellformed.counted.ns ▸ isNs) sameNs
  cases ((section_reads tokenizer wellformed.counted.ns wellformedNs shortNs preservedNs)
    _ aheadNs).symm.trans isNs
  have preservedAr : ∀ record ∈ msg.ar, record.Preserved :=
    preserved_of_decodeSection tokenizer wellformedAr shortAr aheadAr
      (wellformed.counted.ar ▸ isAr) sameAr
  constructor
  case ad => rw [← sameHeader]
  case records =>
    intro record mem
    rcases mem_append.mp mem with inAn | inOthers
    · exact preservedAn record inAn
    · rcases mem_append.mp inOthers with inNs | inAr
      · exact preservedNs record inNs
      · exact preservedAr record inAr

end Sections

def RoundTrips (message : Message) (bytes : List UInt8) : Prop :=
  ∃ decoded decoder, Message.decode { data := bytes } = .ok (decoded, decoder) ∧
    decoder.current = bytes.length ∧ decoded.equals message = true

/-- A message that was encoded is decoded from the bytes produced as an equal message
if and only if it is preserved. -/
theorem round_trips_iff (message : Message) (wellformed : message.Wellformed)
    (buffer : List UInt8) (encoder : MemoryEncoder)
    (encoded : message.encode tokenizer { data := buffer } = .ok encoder) :
    message.RoundTrips encoder.produced ↔ message.Preserved := by
  have wrote := encode_writes tokenizer wellformed.counted { data := buffer } encoder
    (Nat.zero_le _) encoded
  have short := encode_short tokenizer wellformed.counted encoded
  have isProduced : encoder.produced = message.bytes tokenizer := wrote.produced
  rw [isProduced]
  constructor
  · rintro ⟨_, _, isDecoded, _, same⟩
    exact preserved_of_decode tokenizer wellformed short (Buffer.ahead_self _) isDecoded same
  · intro preserved
    refine ⟨message.readBack, _, decode_reads tokenizer wellformed short preserved _
      (Buffer.ahead_self _), ?_, readBack_equals preserved⟩
    exact Nat.zero_add _

theorem canonical_labels : Canonical [97, dot, 98] := by
  refine ⟨[[97], [98]], ?_, rfl⟩
  intro _ mem
  simp only [mem_cons, not_mem_nil, or_false] at mem
  rcases mem with isFirst | isSecond
  · subst isFirst
    exact ⟨by decide, by decide, by decide⟩
  · subst isSecond
    exact ⟨by decide, by decide, by decide⟩

def hostResponse : Message where
  header := { id := 7, direction := .response, rd := true, qdcount := 1, ancount := 1 }
  qd := [{ name := [97, dot, 98] }]
  an := [{ name := [97, dot, 98], ttl := 60, rdata := .ipv4 1 }]

theorem hostResponse_wellformed : hostResponse.Wellformed where
  counted := ⟨rfl, rfl, rfl, rfl⟩
  questions := by
    intro _ mem
    rw [mem_singleton.mp mem]
    exact canonical_labels
  records := by
    intro record mem
    rw [mem_singleton.mp (show record ∈ [_] from mem)]
    exact ⟨canonical_labels, rfl, trivial⟩

theorem hostResponse_round_trips :
    ∃ encoder, hostResponse.encode softTokenizer { data := replicate 64 0 } = .ok encoder ∧
      hostResponse.RoundTrips encoder.produced := by
  refine ⟨_, rfl, ?_⟩
  apply (round_trips_iff softTokenizer hostResponse hostResponse_wellformed
    (replicate 64 0) _ rfl).mpr
  constructor
  case ad => rfl
  case records =>
    intro record mem
    rw [mem_singleton.mp (show record ∈ [_] from mem)]
    exact ⟨trivial, by decide⟩

def authenticQuery : Message where
  header := { ad := true }

def textResponse : Message where
  header := { direction := .response, ancount := 1 }
  an := [{ type := .txt, rdata := .text [[97], [98]] }]

/-- The flag for authentic data is not written, and of a text with two strings the
length of the data is taken for that of the first. -/
theorem flag_and_text_lost : (authenticQuery.Wellformed ∧
      ∃ encoder, authenticQuery.encode softTokenizer { data := replicate 12 0 } = .ok encoder ∧
        ¬ authenticQuery.RoundTrips encoder.produced) ∧
    (textResponse.Wellformed ∧
      ∃ encoder, textResponse.encode softTokenizer { data := replicate 27 0 } = .ok encoder ∧
        ¬ textResponse.RoundTrips encoder.produced) := by
  refine ⟨⟨?_, _, rfl, ?_⟩, ?_, _, rfl, ?_⟩
  · exact ⟨⟨rfl, rfl, rfl, rfl⟩, by simp [authenticQuery], by simp [authenticQuery, records]⟩
  · rintro ⟨decoded, decoder, isDecoded, _, _⟩
    cases isDecoded
    contradiction
  · refine ⟨⟨rfl, rfl, rfl, rfl⟩, by simp [textResponse], ?_⟩
    intro record mem
    rw [mem_singleton.mp (show record ∈ [_] from mem)]
    exact ⟨⟨[], by simp, rfl⟩, rfl, trivial⟩
  · rintro ⟨_, _, isDecoded, _, _⟩
    cases isDecoded

end Message

end NtfCore.Ntcdns
