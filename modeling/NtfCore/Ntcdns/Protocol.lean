import NtfCore.Ntcdns.Memory
import NtfCore.Ntcdns.PortSet
import NtfCore.Ntcdns.Vocabulary

/-!
Contract: the messages of the domain name protocol (`ntcdns_protocol.cpp`).

A `decode` function is that of an object with the default value. The unsigned
integers of addresses that are copied from memory are stored least significant
byte first.

Owns: headers, questions, resource records and messages, how they are encoded and
decoded, and when they are equal.
-/

namespace NtfCore.Ntcdns

open NtfCore.Foundation

def expect {α : Type} : Option α -> Except Fault α
  | some value => .ok value
  | none => .error .invalid

/-! ## Headers -/

/-- `Header::Flags`. -/
structure Flags where
  rd : Bool := false
  tc : Bool := false
  aa : Bool := false
  opcode : Nat := 0
  qr : Nat := 0
  rcode : Nat := 0
  cd : Bool := false
  ad : Bool := false
  z : Bool := false
  ra : Bool := false

def Flags.toBytes (flags : Flags) : List UInt8 :=
  [UInt8.ofNat (flags.rd.toNat + 2 * flags.tc.toNat + 4 * flags.aa.toNat +
      8 * (flags.opcode % 16) + 128 * (flags.qr % 2)),
    UInt8.ofNat (flags.rcode % 16 + 16 * flags.cd.toNat + 32 * flags.ad.toNat +
      64 * flags.z.toNat + 128 * flags.ra.toNat)]

def Flags.ofBytes (bytes : List UInt8) : Flags :=
  let first := (bytes.getD 0 0).toNat
  let second := (bytes.getD 1 0).toNat
  { rd := first.testBit 0
    tc := first.testBit 1
    aa := first.testBit 2
    opcode := first / 8 % 16
    qr := first / 128
    rcode := second % 16
    cd := second.testBit 4
    ad := second.testBit 5
    z := second.testBit 6
    ra := second.testBit 7 }

/-- `ntcdns::Header`. All its fields are compared by `operator==`. -/
structure Header where
  id : UInt16 := 0
  direction : Direction := .request
  operation : Operation := .standard
  error : Error := .ok
  aa : Bool := false
  tc : Bool := false
  rd : Bool := false
  ra : Bool := false
  ad : Bool := false
  cd : Bool := false
  qdcount : UInt16 := 0
  ancount : UInt16 := 0
  nscount : UInt16 := 0
  arcount : UInt16 := 0
deriving DecidableEq

namespace Header

/-- The flags that `encode` writes. -/
def flags (header : Header) : Flags where
  qr := header.direction.toInt
  opcode := header.operation.toInt
  aa := header.aa
  tc := header.tc
  rd := header.rd
  ra := header.ra
  cd := header.cd
  rcode := header.error.toInt

/-- `Header::encode`. -/
def encode (header : Header) (encoder : MemoryEncoder) : Except Fault MemoryEncoder := do
  let encoder ← encoder.encodeUint16 header.id
  let encoder ← encoder.encodeRaw header.flags.toBytes
  let encoder ← encoder.encodeUint16 header.qdcount
  let encoder ← encoder.encodeUint16 header.ancount
  let encoder ← encoder.encodeUint16 header.nscount
  encoder.encodeUint16 header.arcount

/-- `Header::decode`. -/
def decode (decoder : MemoryDecoder) : Except Fault (Header × MemoryDecoder) := do
  let (id, decoder) ← decoder.decodeUint16
  let (bytes, decoder) ← decoder.decodeRaw 2
  let flags := Flags.ofBytes bytes
  let direction ← expect (Direction.fromInt flags.qr)
  let operation ← expect (Operation.fromInt flags.opcode)
  let error ← expect (Error.fromInt flags.rcode)
  let (qdcount, decoder) ← decoder.decodeUint16
  let (ancount, decoder) ← decoder.decodeUint16
  let (nscount, decoder) ← decoder.decodeUint16
  let (arcount, decoder) ← decoder.decodeUint16
  pure ({
    id := id, direction := direction, operation := operation, error := error
    aa := flags.aa, tc := flags.tc, rd := flags.rd, ra := flags.ra, cd := flags.cd
    qdcount := qdcount, ancount := ancount, nscount := nscount, arcount := arcount }, decoder)

end Header

/-- `ntcdns::Question`. -/
structure Question where
  name : List UInt8 := []
  type : RecordType := .a
  classification : Classification := .internet
deriving DecidableEq

namespace Question

/-- `Question::encode`. -/
def encode (tokenizer : Tokenizer) (encoder : MemoryEncoder) (question : Question) :
    Except Fault MemoryEncoder := do
  let encoder ← encoder.encodeDomainName tokenizer question.name
  let encoder ← encoder.encodeUint16 (UInt16.ofNat question.type.toInt)
  encoder.encodeUint16 (UInt16.ofNat question.classification.toInt)

/-- The part of `Question::decode` after the name. -/
def decodeFields (name : List UInt8) (decoder : MemoryDecoder) :
    Except Fault (Question × MemoryDecoder) := do
  let (qtypeValue, decoder) ← decoder.decodeUint16
  let type ← expect (RecordType.fromInt qtypeValue.toNat)
  let (qclassValue, decoder) ← decoder.decodeUint16
  let classification ← expect (Classification.fromInt qclassValue.toNat)
  pure ({ name := name, type := type, classification := classification }, decoder)

/-- `Question::decode`. An error of the name ends the function without an error, with
what was decoded until then. -/
def decode (decoder : MemoryDecoder) : Except Fault (Question × MemoryDecoder) :=
  let outcome := decoder.decodeDomainName
  let decoder := { decoder with current := outcome.current }
  match outcome.error with
  | some _ => .ok ({ name := outcome.value }, decoder)
  | none => decodeFields outcome.value decoder

end Question

/-! ## Resource records -/

/-- `ntcdns::ResourceRecord`. -/
structure ResourceRecord where
  name : List UInt8 := []
  type : RecordType := .a
  classification : Classification := .internet
  ttl : UInt32 := 0
  optSize : UInt16 := 0
  optFlags : UInt32 := 0
  rdata : ResourceRecordData := .undefined

namespace ResourceRecord

/-- `operator==` of resource records. -/
def equals (left right : ResourceRecord) : Bool :=
  decide (left.name = right.name ∧ left.type = right.type ∧
    left.classification = right.classification ∧ left.ttl = right.ttl ∧ left.rdata = right.rdata)

def addressBytes (address : UInt32) : List UInt8 := Bytes.storeLittleEndian 4 address.toNat

/-- The part of `ResourceRecord::encode` that writes the data. -/
def encodeData (tokenizer : Tokenizer) (data : ResourceRecordData) (encoder : MemoryEncoder) :
    Except Fault MemoryEncoder :=
  match data with
  | .undefined => .ok encoder
  | .ipv4 address => encoder.encodeRaw (addressBytes address)
  | .ipv6 address0 address1 address2 address3 =>
    encoder.encodeRaw (addressBytes address0 ++ addressBytes address1 ++
      addressBytes address2 ++ addressBytes address3)
  | .nameServer nsdname => encoder.encodeDomainName tokenizer nsdname
  | .canonicalName cname => encoder.encodeDomainName tokenizer cname
  | .pointer ptrdname => encoder.encodeDomainName tokenizer ptrdname
  | .zoneAuthority value => do
    let encoder ← encoder.encodeDomainName tokenizer value.mname
    let encoder ← encoder.encodeDomainName tokenizer value.rname
    let encoder ← encoder.encodeUint32 value.serial
    let encoder ← encoder.encodeUint32 value.refresh
    let encoder ← encoder.encodeUint32 value.retry
    let encoder ← encoder.encodeUint32 value.expire
    encoder.encodeUint32 value.minimum
  | .wellKnownService value => do
    let encoder ← encoder.encodeRaw (addressBytes value.address)
    let encoder ← encoder.encodeUint8 value.protocol
    encoder.encodeRaw (PortSet.ofPorts value.port)
  | .hostInfo cpu os => do
    let encoder ← encoder.encodeCharacterString cpu
    encoder.encodeCharacterString os
  | .mailExchange preference exchange => do
    let encoder ← encoder.encodeUint16 preference
    encoder.encodeDomainName tokenizer exchange
  | .text strings => strings.foldlM MemoryEncoder.encodeCharacterString encoder
  | .server _ => .error .notImplemented
  | .raw data => encoder.encodeRaw data

/-- The part of `ResourceRecord::encode` before the length of the data. -/
def encodeHead (tokenizer : Tokenizer) (record : ResourceRecord) (encoder : MemoryEncoder) :
    Except Fault MemoryEncoder := do
  let encoder ← encoder.encodeDomainName tokenizer record.name
  let encoder ← encoder.encodeUint16 (UInt16.ofNat record.type.toInt)
  let encoder ← encoder.encodeUint16
    (if record.type ≠ .opt then UInt16.ofNat record.classification.toInt else record.optSize)
  encoder.encodeUint32 (if record.type ≠ .opt then record.ttl else record.optFlags)

/-- The part of `ResourceRecord::encode` from the length of the data on. The length is
known once the data are written, and goes back to the place that was kept for it,
as far as 16 bits hold it. -/
def encodeSized (tokenizer : Tokenizer) (data : ResourceRecordData) (encoder : MemoryEncoder) :
    Except Fault MemoryEncoder := do
  let p0 := encoder.current
  let encoder ← encoder.encodeUint16 0
  let p1 := encoder.current
  let encoder ← encodeData tokenizer data encoder
  let p2 := encoder.current
  let encoder ← encoder.seek p0
  let encoder ← encoder.encodeUint16 (UInt16.ofNat (p2 - p1))
  encoder.seek p2

/-- `ResourceRecord::encode`. -/
def encode (tokenizer : Tokenizer) (encoder : MemoryEncoder) (record : ResourceRecord) :
    Except Fault MemoryEncoder := do
  let encoder ← encodeHead tokenizer record encoder
  encodeSized tokenizer record.rdata encoder

def addressOfBytes (bytes : List UInt8) : UInt32 := UInt32.ofNat (Bytes.loadLittleEndian bytes)

/-- The loop of `ResourceRecord::decode` over the character strings of a text. The
number of bytes that remain is subtracted without sign in 64 bits. Every round
reads a byte, so that the bytes ahead bound the rounds. -/
def decodeText : Nat -> Nat -> List (List UInt8) -> MemoryDecoder ->
    Except Fault (List (List UInt8) × MemoryDecoder)
  | 0, _, _, _ => .error .invalid
  | fuel + 1, numBytesRemaining, strings, decoder =>
    if numBytesRemaining = 0 then .ok (strings, decoder)
    else do
      let (string, next) ← decoder.decodeCharacterString
      let numBytesRead := next.current - decoder.current
      if numBytesRead ≥ numBytesRemaining then
        decodeText fuel ((2 ^ 64 + numBytesRemaining - numBytesRead) % 2 ^ 64)
          (strings ++ [string]) next
      else .error .invalid

/-- The part of `ResourceRecord::decode` that reads the data, of which there is at
least one byte. -/
def decodeData (type : RecordType) (rdataLength : Nat) (decoder : MemoryDecoder) :
    Except Fault (ResourceRecordData × MemoryDecoder) :=
  match type with
  | .a =>
    if rdataLength ≠ 4 then .error .invalid
    else do
      let (bytes, decoder) ← decoder.decodeRaw 4
      pure (.ipv4 (addressOfBytes bytes), decoder)
  | .ns => do
    let (nsdname, decoder) ← decoder.decodeName
    pure (.nameServer nsdname, decoder)
  | .cname => do
    let (cname, decoder) ← decoder.decodeName
    pure (.canonicalName cname, decoder)
  | .soa => do
    let (mname, decoder) ← decoder.decodeName
    let (rname, decoder) ← decoder.decodeName
    let (serial, decoder) ← decoder.decodeUint32
    let (refresh, decoder) ← decoder.decodeUint32
    let (retry, decoder) ← decoder.decodeUint32
    let (expire, decoder) ← decoder.decodeUint32
    let (minimum, decoder) ← decoder.decodeUint32
    pure (.zoneAuthority {
      mname := mname, rname := rname, serial := serial, refresh := refresh, retry := retry
      expire := expire, minimum := minimum }, decoder)
  | .wks => do
    let (bytes, decoder) ← decoder.decodeRaw 4
    let (protocol, decoder) ← decoder.decodeUint8
    let (bitset, decoder) ← decoder.decodeRaw (rdataLength - 5)
    pure (.wellKnownService {
      address := addressOfBytes bytes
      protocol := protocol
      port := PortSet.toPorts bitset }, decoder)
  | .ptr => do
    let (ptrdname, decoder) ← decoder.decodeName
    pure (.pointer ptrdname, decoder)
  | .hinfo => do
    let (cpu, decoder) ← decoder.decodeCharacterString
    let (os, decoder) ← decoder.decodeCharacterString
    pure (.hostInfo cpu os, decoder)
  | .mx => do
    let (preference, decoder) ← decoder.decodeUint16
    let (exchange, decoder) ← decoder.decodeName
    pure (.mailExchange preference exchange, decoder)
  | .txt => do
    let (strings, decoder) ← decodeText (decoder.data.length - decoder.current + 2) rdataLength
      [] decoder
    pure (.text strings, decoder)
  | .aaaa =>
    if rdataLength ≠ 16 then .error .invalid
    else do
      let (bytes, decoder) ← decoder.decodeRaw 16
      pure (.ipv6 (addressOfBytes (bytes.take 4)) (addressOfBytes ((bytes.drop 4).take 4))
        (addressOfBytes ((bytes.drop 8).take 4)) (addressOfBytes ((bytes.drop 12).take 4)),
        decoder)
  | .svr => .error .notImplemented
  | _ => do
    let (data, decoder) ← decoder.decodeRaw rdataLength
    pure (.raw data, decoder)

/-- The part of `ResourceRecord::decode` after the length of the data. -/
def decodeSized (type : RecordType) (rdataLength : Nat) (decoder : MemoryDecoder) :
    Except Fault (ResourceRecordData × MemoryDecoder) :=
  if rdataLength = 0 then .ok (.undefined, decoder)
  else do
    let (rdata, next) ← decodeData type rdataLength decoder
    if rdataLength ≠ next.current - decoder.current then .error .invalid
    else .ok (rdata, next)

/-- The part of `ResourceRecord::decode` before the length of the data. -/
def decodeHead (decoder : MemoryDecoder) : Except Fault (ResourceRecord × MemoryDecoder) := do
  let (name, decoder) ← decoder.decodeName
  let (typeValue, decoder) ← decoder.decodeUint16
  let type ← expect (RecordType.fromInt typeValue.toNat)
  if type ≠ .opt then
    let (classificationValue, decoder) ← decoder.decodeUint16
    let classification ← expect (Classification.fromInt classificationValue.toNat)
    let (ttl, decoder) ← decoder.decodeUint32
    pure ({ name := name, type := type, classification := classification, ttl := ttl }, decoder)
  else
    let (optSize, decoder) ← decoder.decodeUint16
    let (optFlags, decoder) ← decoder.decodeUint32
    pure ({ name := name, type := type, optSize := optSize, optFlags := optFlags }, decoder)

/-- `ResourceRecord::decode`. -/
def decode (decoder : MemoryDecoder) : Except Fault (ResourceRecord × MemoryDecoder) := do
  let (record, decoder) ← decodeHead decoder
  let (rdataLength, decoder) ← decoder.decodeUint16
  let (rdata, decoder) ← decodeSized record.type rdataLength.toNat decoder
  pure ({ record with rdata := rdata }, decoder)

end ResourceRecord

/-- `ntcdns::Message`. -/
structure Message where
  header : Header := {}
  qd : List Question := []
  an : List ResourceRecord := []
  ns : List ResourceRecord := []
  ar : List ResourceRecord := []

namespace Message

/-- `operator==` of messages. -/
def equals (left right : Message) : Bool :=
  left.header == right.header && left.qd == right.qd &&
    left.an.isEqv right.an ResourceRecord.equals &&
    left.ns.isEqv right.ns ResourceRecord.equals && left.ar.isEqv right.ar ResourceRecord.equals

/-- `Message::encode`. -/
def encode (tokenizer : Tokenizer) (message : Message) (encoder : MemoryEncoder) :
    Except Fault MemoryEncoder := do
  let encoder ← message.header.encode encoder
  let encoder ← (message.qd.take message.header.qdcount.toNat).foldlM
    (Question.encode tokenizer) encoder
  let encoder ← (message.an.take message.header.ancount.toNat).foldlM
    (ResourceRecord.encode tokenizer) encoder
  let encoder ← (message.ns.take message.header.nscount.toNat).foldlM
    (ResourceRecord.encode tokenizer) encoder
  (message.ar.take message.header.arcount.toNat).foldlM (ResourceRecord.encode tokenizer) encoder

/-- The loop of `Message::decode` over the items of a section. -/
def decodeSection {α : Type} (decodeItem : MemoryDecoder -> Except Fault (α × MemoryDecoder)) :
    Nat -> MemoryDecoder -> Except Fault (List α × MemoryDecoder)
  | 0, decoder => .ok ([], decoder)
  | count + 1, decoder => do
    let (item, decoder) ← decodeItem decoder
    let (rest, decoder) ← decodeSection decodeItem count decoder
    pure (item :: rest, decoder)

/-- `Message::decode`. -/
def decode (decoder : MemoryDecoder) : Except Fault (Message × MemoryDecoder) := do
  let (header, decoder) ← Header.decode decoder
  let (qd, decoder) ← decodeSection Question.decode header.qdcount.toNat decoder
  let (an, decoder) ← decodeSection ResourceRecord.decode header.ancount.toNat decoder
  let (ns, decoder) ← decodeSection ResourceRecord.decode header.nscount.toNat decoder
  let (ar, decoder) ← decodeSection ResourceRecord.decode header.arcount.toNat decoder
  pure ({ header := header, qd := qd, an := an, ns := ns, ar := ar }, decoder)

structure Counted (message : Message) : Prop where
  qd : message.qd.length = message.header.qdcount.toNat
  an : message.an.length = message.header.ancount.toNat
  ns : message.ns.length = message.header.nscount.toNat
  ar : message.ar.length = message.header.arcount.toNat

end Message

end NtfCore.Ntcdns
