import NtfCore.Foundation.Grammar
import NtfCore.Ntcdns.Names
import NtfCore.Ntcdns.RoundTrip

/-!
Contract: which messages lie in a buffer, and which of them are decoded.

The grammar of a message tells where each of its parts lies. A question whose name is malformed
is decoded nevertheless, without its type and its classification, and what follows is read from
the place where its name failed.

Owns: the grammars of names, questions, records and messages; that decoding accepts them; and the
exact condition under which nothing else is accepted.
-/

namespace NtfCore.Ntcdns

open NtfCore.Foundation MemoryDecoder
open Grammar

/-! ## Elements -/

def Accepts {α : Type} (operation : MemoryDecoder -> Except Fault (α × MemoryDecoder))
    (grammar : Grammar UInt8 α) : Prop :=
  ∀ decoder item next, operation decoder = .ok (item, next) ↔
    next.data = decoder.data ∧ grammar decoder.data decoder.current item next.current

section Accepts

variable {α β : Type} {grammar : Grammar UInt8 α}

theorem Accepts.unambiguous {op : MemoryDecoder -> Except Fault (α × MemoryDecoder)}
    (accepts : Accepts op grammar) : grammar.Unambiguous := by
  intro data pos item next other after isItem isOther
  have isRead := (accepts { data := data, current := pos } item
    { data := data, current := next }).mpr ⟨rfl, isItem⟩
  have isRead' := (accepts { data := data, current := pos } other
    { data := data, current := after }).mpr ⟨rfl, isOther⟩
  rw [isRead] at isRead'
  cases isRead'
  exact ⟨rfl, rfl⟩

variable {rest : α -> Grammar UInt8 β}

theorem Accepts.bind {first : MemoryDecoder -> Except Fault (α × MemoryDecoder)}
    {next : α × MemoryDecoder -> Except Fault (β × MemoryDecoder)}
    (acceptsFirst : Accepts first grammar)
    (acceptsRest : ∀ value, Accepts (fun decoder => next (value, decoder)) (rest value)) :
    Accepts (fun decoder => first decoder >>= next) (grammar >>= rest) := by
  intro decoder item after
  constructor
  · intro isRead
    obtain ⟨⟨value, middle⟩, isFirst, isRest⟩ := bind_eq_ok.mp isRead
    obtain ⟨sameData, isValue⟩ := (acceptsFirst decoder value middle).mp isFirst
    obtain ⟨alsoData, isItem⟩ := (acceptsRest value middle item after).mp isRest
    rw [sameData] at alsoData isItem
    exact ⟨alsoData, value, middle.current, isValue, isItem⟩
  · rintro ⟨sameData, value, middle, isValue, isItem⟩
    have isFirst := (acceptsFirst decoder value { data := decoder.data, current := middle }).mpr
      ⟨rfl, isValue⟩
    have isRest := (acceptsRest value { data := decoder.data, current := middle } item after).mpr
      ⟨sameData, isItem⟩
    exact bind_eq_ok.mpr ⟨_, isFirst, isRest⟩

theorem Accepts.done (value : α) : Accepts (fun decoder => .ok (value, decoder)) (pure value) := by
  intro _ _ next
  constructor
  · intro isRead
    cases isRead
    exact ⟨rfl, rfl, rfl⟩
  · rintro ⟨_, _, _⟩
    cases next
    simp_all

theorem Accepts.nothing (fault : Fault) :
    Accepts (fun _ => (.error fault : Except Fault (α × MemoryDecoder))) .nothing := by
  intro _ _ _
  constructor
  · exact fun isRead => absurd isRead nofun
  · exact fun isItem => False.elim isItem.2

theorem Accepts.known (option : Option α)
    {next : α -> MemoryDecoder -> Except Fault (β × MemoryDecoder)}
    (accepts : ∀ value, Accepts (next value) (rest value)) :
    Accepts (fun decoder => expect option >>= fun value => next value decoder)
      (known option >>= rest) := by
  cases option with
  | none =>
    intro decoder item after
    constructor
    · exact fun isRead => absurd isRead nofun
    · rintro ⟨_, value, middle, ⟨isSome, _⟩, _⟩
      contradiction
  | some value =>
    intro decoder item after
    constructor
    · intro isRead
      obtain ⟨sameData, isItem⟩ := (accepts value decoder item after).mp isRead
      exact ⟨sameData, value, decoder.current, ⟨rfl, rfl⟩, isItem⟩
    · rintro ⟨sameData, _, _, ⟨isSome, isMiddle⟩, isItem⟩
      rw [isMiddle, ← Option.some.inj isSome] at isItem
      exact (accepts value decoder item after).mpr ⟨sameData, isItem⟩

theorem Accepts.ite {condition : Prop} [Decidable condition]
    {first second : MemoryDecoder -> Except Fault (α × MemoryDecoder)}
    {left right : Grammar UInt8 α} (acceptsFirst : condition -> Accepts first left)
    (acceptsSecond : ¬ condition -> Accepts second right) :
    Accepts (fun decoder => if condition then first decoder else second decoder)
      (if condition then left else right) := by
  by_cases holds : condition
  · simp only [if_pos holds]
    exact acceptsFirst holds
  · simp only [if_neg holds]
    exact acceptsSecond holds

theorem decodeRaw_accepts (size : Nat) : Accepts (·.decodeRaw size) (.fixed size) := by
  intro decoder _ next
  show decoder.decodeRaw size = _ ↔ _
  unfold decodeRaw
  constructor
  · intro isRead
    split at isRead
    · contradiction
    · cases isRead
      refine ⟨rfl, List.take_prefix _ _, ?_, rfl⟩
      rw [List.length_take, List.length_drop]
      omega
  · rintro ⟨_, ahead, isLength, _⟩
    have fits := ahead.fits
    rw [if_neg (by omega), ← isLength, ahead.take_drop]
    cases next
    simp_all

end Accepts

section Elements

def uint8Grammar : Grammar UInt8 UInt8 := do
  let bytes ← fixed 1
  return UInt8.ofNat (Bytes.loadBigEndian bytes)

def uint16Grammar : Grammar UInt8 UInt16 := do
  let bytes ← fixed 2
  return UInt16.ofNat (Bytes.loadBigEndian bytes)

def uint32Grammar : Grammar UInt8 UInt32 := do
  let bytes ← fixed 4
  return UInt32.ofNat (Bytes.loadBigEndian bytes)

def characterStringGrammar : Grammar UInt8 (List UInt8) := do
  let length ← uint8Grammar
  fixed length.toNat

def nameGrammar : Grammar UInt8 (List UInt8) := fun data position text next =>
  ∃ labels target rest, InPlace data position labels target next ∧
    Parts data position (labels :: rest) ∧
    (labels :: rest).length ≤ maxLabelResolutionRecursionDepth + 2 ∧
    partsText (labels :: rest) = text

theorem decodeUint8_accepts : Accepts decodeUint8 uint8Grammar := by
  apply (decodeRaw_accepts 1).bind
  exact fun _ => .done _

theorem decodeUint16_accepts : Accepts decodeUint16 uint16Grammar := by
  apply (decodeRaw_accepts 2).bind
  exact fun _ => .done _

theorem decodeUint32_accepts : Accepts decodeUint32 uint32Grammar := by
  apply (decodeRaw_accepts 4).bind
  exact fun _ => .done _

theorem decodeCharacterString_accepts : Accepts decodeCharacterString characterStringGrammar := by
  apply decodeUint8_accepts.bind
  exact fun length => decodeRaw_accepts length.toNat

theorem decodeName_accepts : Accepts decodeName nameGrammar := by
  intro decoder text next
  have isName : decoder.decodeName = .ok (text, next) ↔ decoder.decodeDomainName.result = .ok text ∧
        next = { decoder with current := decoder.decodeDomainName.current } := by
    unfold decodeName NameOutcome.result
    dsimp only
    cases decoder.decodeDomainName.error with
    | some => simp
    | none => simp [eq_comm]
  rw [isName, decodeDomainName_result_iff]
  constructor
  · rintro ⟨⟨_, isParts, isShort, isText⟩, isNext⟩
    obtain ⟨labels, target, _, rest, part, areParts⟩ := isParts.inPlace
    rw [areParts] at isParts isShort isText
    rw [isNext]
    rw [← decodeDomainName_current decoder part] at part
    exact ⟨rfl, labels, target, rest, part, isParts, isShort, isText⟩
  · rintro ⟨_, labels, _, rest, part, isParts, isShort, isText⟩
    refine ⟨⟨labels :: rest, isParts, isShort, isText⟩, ?_⟩
    rw [decodeDomainName_current decoder part]
    cases next
    simp_all

end Elements

/-! ## Headers and questions -/

def Header.grammar : Grammar UInt8 Header := do
  let id ← uint16Grammar
  let bytes ← fixed 2
  let flags := Flags.ofBytes bytes
  let direction ← known (Direction.fromInt flags.qr)
  let operation ← known (Operation.fromInt flags.opcode)
  let error ← known (Error.fromInt flags.rcode)
  let qdcount ← uint16Grammar
  let ancount ← uint16Grammar
  let nscount ← uint16Grammar
  let arcount ← uint16Grammar
  return {
    id := id, direction := direction, operation := operation, error := error
    aa := flags.aa, tc := flags.tc, rd := flags.rd, ra := flags.ra, cd := flags.cd
    qdcount := qdcount, ancount := ancount, nscount := nscount, arcount := arcount }

theorem Header.decode_accepts : Accepts Header.decode Header.grammar := by
  apply decodeUint16_accepts.bind
  intro _
  apply (decodeRaw_accepts 2).bind
  intro _
  apply Accepts.known
  intro _
  apply Accepts.known
  intro _
  apply Accepts.known
  intro _
  apply decodeUint16_accepts.bind
  intro _
  apply decodeUint16_accepts.bind
  intro _
  apply decodeUint16_accepts.bind
  intro _
  apply decodeUint16_accepts.bind
  intro _
  exact .done _

namespace Question

def grammar : Grammar UInt8 Question := do
  let name ← nameGrammar
  let qtypeValue ← uint16Grammar
  let type ← known (RecordType.fromInt qtypeValue.toNat)
  let qclassValue ← uint16Grammar
  let classification ← known (Classification.fromInt qclassValue.toNat)
  return { name := name, type := type, classification := classification }

def malformed : Grammar UInt8 Question := fun data position question next =>
  let outcome := MemoryDecoder.decodeDomainName { data := data, current := position }
  (∀ name after, ¬ nameGrammar data position name after) ∧
    question = { name := outcome.value } ∧ next = outcome.current

theorem decodeFields_accepts :
    Accepts (fun decoder => decoder.decodeName >>= fun (name, decoder) => decodeFields name decoder)
      grammar := by
  apply decodeName_accepts.bind
  intro _
  apply decodeUint16_accepts.bind
  intro _
  apply Accepts.known
  intro _
  apply decodeUint16_accepts.bind
  intro _
  apply Accepts.known
  intro _
  exact .done _

theorem decode_accepts : Accepts decode (grammar.either malformed) := by
  intro decoder question next
  cases isName : decoder.decodeName with
  | ok result =>
    obtain ⟨name, middle⟩ := result
    have lies := ((decodeName_accepts decoder name middle).mp isName).2
    have isFields := decodeFields_accepts decoder question next
    dsimp only at isFields
    rw [isName] at isFields
    rw [decode_of_name isName]
    constructor
    · intro isRead
      obtain ⟨sameData, isItem⟩ := isFields.mp isRead
      exact ⟨sameData, .inl isItem⟩
    · rintro ⟨sameData, isItem | ⟨isMalformed, _⟩⟩
      · exact isFields.mpr ⟨sameData, isItem⟩
      · exact absurd lies (isMalformed _ _)
  | error fault =>
    have malformedName : ∀ name after, ¬ nameGrammar decoder.data decoder.current name after := by
      intro name after lies
      have isRead := (decodeName_accepts decoder name { decoder with current := after }).mpr
        ⟨rfl, lies⟩
      rw [isName] at isRead
      contradiction
    have ends : decode decoder = .ok ({ name := decoder.decodeDomainName.value },
        { decoder with current := decoder.decodeDomainName.current }) := by
      unfold decodeName at isName
      dsimp only at isName
      unfold decode
      dsimp only
      cases isError : decoder.decodeDomainName.error with
      | none =>
        rw [isError] at isName
        contradiction
      | some => rfl
    rw [ends]
    constructor
    · intro isRead
      cases isRead
      exact ⟨rfl, .inr ⟨malformedName, rfl, rfl⟩⟩
    · rintro ⟨_, ⟨_, _, lies, _⟩ | ⟨_, _, _⟩⟩
      · exact absurd lies (malformedName _ _)
      · cases next
        simp_all

end Question

/-! ## Resource records -/

namespace ResourceRecord

def textGrammar (rdataLength : Nat) : Grammar UInt8 (List (List UInt8)) := do
  let string ← sized rdataLength characterStringGrammar
  return [string]

def dataGrammar (type : RecordType) (rdataLength : Nat) : Grammar UInt8 ResourceRecordData :=
  match type with
  | .a =>
    if rdataLength ≠ 4 then .nothing
    else do
      let bytes ← fixed 4
      return .ipv4 (addressOfBytes bytes)
  | .ns => do
    let nsdname ← nameGrammar
    return .nameServer nsdname
  | .cname => do
    let cname ← nameGrammar
    return .canonicalName cname
  | .soa => do
    let mname ← nameGrammar
    let rname ← nameGrammar
    let serial ← uint32Grammar
    let refresh ← uint32Grammar
    let retry ← uint32Grammar
    let expire ← uint32Grammar
    let minimum ← uint32Grammar
    return .zoneAuthority {
      mname := mname, rname := rname, serial := serial, refresh := refresh, retry := retry
      expire := expire, minimum := minimum }
  | .wks => do
    let bytes ← fixed 4
    let protocol ← uint8Grammar
    let bitset ← fixed (rdataLength - 5)
    return .wellKnownService {
      address := addressOfBytes bytes
      protocol := protocol
      port := PortSet.toPorts bitset }
  | .ptr => do
    let ptrdname ← nameGrammar
    return .pointer ptrdname
  | .hinfo => do
    let cpu ← characterStringGrammar
    let os ← characterStringGrammar
    return .hostInfo cpu os
  | .mx => do
    let preference ← uint16Grammar
    let exchange ← nameGrammar
    return .mailExchange preference exchange
  | .txt => do
    let strings ← textGrammar rdataLength
    return .text strings
  | .aaaa =>
    if rdataLength ≠ 16 then .nothing
    else do
      let bytes ← fixed 16
      return .ipv6 (addressOfBytes (bytes.take 4)) (addressOfBytes ((bytes.drop 4).take 4))
        (addressOfBytes ((bytes.drop 8).take 4)) (addressOfBytes ((bytes.drop 12).take 4))
  | .svr => .nothing
  | _ => do
    let data ← fixed rdataLength
    return .raw data

def sizedGrammar (type : RecordType) (rdataLength : Nat) : Grammar UInt8 ResourceRecordData :=
  if rdataLength = 0 then pure .undefined
  else sized rdataLength (dataGrammar type rdataLength)

def headGrammar : Grammar UInt8 ResourceRecord := do
  let name ← nameGrammar
  let typeValue ← uint16Grammar
  let type ← known (RecordType.fromInt typeValue.toNat)
  if type ≠ .opt then
    let classificationValue ← uint16Grammar
    let classification ← known (Classification.fromInt classificationValue.toNat)
    let ttl ← uint32Grammar
    return { name := name, type := type, classification := classification, ttl := ttl }
  else
    let optSize ← uint16Grammar
    let optFlags ← uint32Grammar
    return { name := name, type := type, optSize := optSize, optFlags := optFlags }

def grammar : Grammar UInt8 ResourceRecord := do
  let record ← headGrammar
  let rdataLength ← uint16Grammar
  let rdata ← sizedGrammar record.type rdataLength.toNat
  return { record with rdata := rdata }

theorem decodeHead_accepts : Accepts decodeHead headGrammar := by
  apply decodeName_accepts.bind
  intro _
  apply decodeUint16_accepts.bind
  intro _
  apply Accepts.known
  intro _
  apply Accepts.ite
  · intro _
    apply decodeUint16_accepts.bind
    intro _
    apply Accepts.known
    intro _
    apply decodeUint32_accepts.bind
    intro _
    exact .done _
  · intro _
    apply decodeUint16_accepts.bind
    intro _
    apply decodeUint32_accepts.bind
    intro _
    exact .done _

variable {rdataLength : Nat}

theorem decodeText_accepts (pos : rdataLength ≠ 0) (bounded : rdataLength < 2 ^ 16) :
    Accepts (fun decoder =>
        decodeText (decoder.data.length - decoder.current + 2) rdataLength [] decoder)
      (textGrammar rdataLength) := by
  intro decoder _ next
  rw [decodeText_eq_ok pos bounded]
  constructor
  · rintro ⟨string, isString, _, isText⟩
    obtain ⟨sameData, lies⟩ := (decodeCharacterString_accepts decoder string next).mp isString
    exact ⟨sameData, string, next.current, ⟨lies, by omega⟩, isText, rfl⟩
  · rintro ⟨sameData, string, _, ⟨lies, isMiddle⟩, isText, isNext⟩
    rw [← isNext] at lies isMiddle
    exact ⟨string, (decodeCharacterString_accepts decoder string next).mpr ⟨sameData, lies⟩,
      by omega, isText⟩

theorem decodeData_accepts (type : RecordType) (pos : rdataLength ≠ 0)
    (bounded : rdataLength < 2 ^ 16) :
    Accepts (decodeData type rdataLength) (dataGrammar type rdataLength) := by
  have raw : Accepts (fun decoder => decoder.decodeRaw rdataLength >>= fun (data, decoder) =>
      pure (ResourceRecordData.raw data, decoder))
      (fixed rdataLength >>= fun data => pure (.raw data)) := by
    apply (decodeRaw_accepts rdataLength).bind
    exact fun _ => .done _
  cases type with
  | a =>
    apply Accepts.ite
    · exact fun _ => .nothing _
    · intro _
      apply (decodeRaw_accepts 4).bind
      exact fun bytes => .done _
  | ns | cname | ptr =>
    apply decodeName_accepts.bind
    exact fun _ => .done _
  | soa =>
    apply decodeName_accepts.bind
    intro _
    apply decodeName_accepts.bind
    intro _
    apply decodeUint32_accepts.bind
    intro _
    apply decodeUint32_accepts.bind
    intro _
    apply decodeUint32_accepts.bind
    intro _
    apply decodeUint32_accepts.bind
    intro _
    apply decodeUint32_accepts.bind
    intro _
    exact .done _
  | wks =>
    apply (decodeRaw_accepts 4).bind
    intro _
    apply decodeUint8_accepts.bind
    intro _
    apply (decodeRaw_accepts (rdataLength - 5)).bind
    exact fun _ => .done _
  | hinfo =>
    apply decodeCharacterString_accepts.bind
    intro _
    apply decodeCharacterString_accepts.bind
    exact fun _ => .done _
  | mx =>
    apply decodeUint16_accepts.bind
    intro _
    apply decodeName_accepts.bind
    exact fun _ => .done _
  | txt =>
    apply (decodeText_accepts pos bounded).bind
    exact fun _ => .done _
  | aaaa =>
    apply Accepts.ite
    · exact fun _ => .nothing _
    · intro _
      apply (decodeRaw_accepts 16).bind
      exact fun _ => .done _
  | svr => exact .nothing _
  | _ => exact raw

theorem decodeSized_accepts (type : RecordType) (bounded : rdataLength < 2 ^ 16) :
    Accepts (decodeSized type rdataLength) (sizedGrammar type rdataLength) := by
  apply Accepts.ite
  · exact fun _ => .done _
  · intro pos decoder rdata next
    have accepts := decodeData_accepts type pos bounded
    constructor
    · intro isRead
      obtain ⟨⟨_, _⟩, isData, coherent⟩ := bind_eq_ok.mp isRead
      dsimp only at coherent
      split at coherent
      · contradiction
      · cases coherent
        obtain ⟨sameData, lies⟩ := (accepts decoder rdata next).mp isData
        exact ⟨sameData, lies, by omega⟩
    · rintro ⟨sameData, lies, _⟩
      apply bind_eq_ok.mpr
      refine ⟨(rdata, next), (accepts decoder rdata next).mpr ⟨sameData, lies⟩, ?_⟩
      exact if_neg (by omega)

theorem decode_accepts : Accepts decode grammar := by
  apply decodeHead_accepts.bind
  intro record
  apply decodeUint16_accepts.bind
  intro rdataLength
  apply (decodeSized_accepts record.type rdataLength.toNat_lt).bind
  exact fun _ => .done _

end ResourceRecord

namespace Message

theorem decodeSection_accepts {α : Type}
    {decodeItem : MemoryDecoder -> Except Fault (α × MemoryDecoder)} {grammar : Grammar UInt8 α}
    (accepts : Accepts decodeItem grammar) (count : Nat) :
    Accepts (decodeSection decodeItem count) (grammar.times count) := by
  induction count with
  | zero => exact .done _
  | succ _ ih =>
    apply accepts.bind
    intro _
    apply ih.bind
    exact fun _ => .done _

def recordsGrammar (header : Header) (qd : List Question) : Grammar UInt8 Message := do
  let an ← ResourceRecord.grammar.times header.ancount.toNat
  let ns ← ResourceRecord.grammar.times header.nscount.toNat
  let ar ← ResourceRecord.grammar.times header.arcount.toNat
  return { header := header, qd := qd, an := an, ns := ns, ar := ar }

def grammarWith (question : Grammar UInt8 Question) : Grammar UInt8 Message := do
  let header ← Header.grammar
  let qd ← question.times header.qdcount.toNat
  recordsGrammar header qd

def grammar : Grammar UInt8 Message := grammarWith Question.grammar

theorem decode_accepts :
    Accepts decode (grammarWith (Question.grammar.either Question.malformed)) := by
  apply Header.decode_accepts.bind
  intro _
  apply (decodeSection_accepts Question.decode_accepts _).bind
  intro _
  apply (decodeSection_accepts ResourceRecord.decode_accepts _).bind
  intro _
  apply (decodeSection_accepts ResourceRecord.decode_accepts _).bind
  intro _
  apply (decodeSection_accepts ResourceRecord.decode_accepts _).bind
  exact fun _ => .done _

def Swallows (data : List UInt8) (position : Nat) : Prop :=
  ∃ header start, Header.grammar data position header start ∧
    ∃ before after, before + (after + 1) = header.qdcount.toNat ∧
      ∃ front middle, Question.grammar.times before data start front middle ∧
        ∃ question stop, Question.malformed data middle question stop ∧
          ∃ rest finish,
            (Question.grammar.either Question.malformed).times after data stop rest finish ∧
            ∃ message next, recordsGrammar header (front ++ question :: rest) data finish message
              next

/-- What is decoded lies in the buffer, with all the questions and records that it announces, if
and only if no malformed name is swallowed. -/
theorem decode_lies_iff (decoder : MemoryDecoder) :
    (∀ message next, decode decoder = .ok (message, next) ->
        grammar decoder.data decoder.current message next.current) ↔
      ¬ Swallows decoder.data decoder.current := by
  constructor
  · rintro complete ⟨header, start, isHeader, before, after, isCount, front, middle, isFront,
      question, stop, isMalformed, rest, finish, isRest, message, next, isMessage⟩
    have questions : (Question.grammar.either Question.malformed).times header.qdcount.toNat
        decoder.data start (front ++ question :: rest) finish := by
      have frontEither : (Question.grammar.either Question.malformed).times before decoder.data
          start front middle := times_mono (fun _ _ _ _ => .inl) isFront
      rw [← isCount]
      exact times_append frontEither
        (times_succ_iff.mpr ⟨question, stop, rest, .inr isMalformed, isRest, rfl⟩)
    have decoded := (decode_accepts decoder message { data := decoder.data, current := next }).mpr
      ⟨rfl, header, start, isHeader, _, finish, questions, isMessage⟩
    obtain ⟨_, _, isHeader', qd, _, isQd, _⟩ := complete _ _ decoded
    obtain ⟨sameHeader, sameStart⟩ :=
      Header.decode_accepts.unambiguous _ _ _ _ _ _ isHeader isHeader'
    rw [sameHeader, sameStart, ← isCount] at isQd
    obtain ⟨_, _, _, _, isFront', isItem⟩ := times_item isQd
    have unambiguous := (Question.decodeFields_accepts.unambiguous).times before
    obtain ⟨_, sameMiddle⟩ := unambiguous _ _ _ _ _ _ isFront isFront'
    rw [sameMiddle] at isItem
    obtain ⟨name, nameEnd, lies, _⟩ := isItem
    exact isMalformed.1 name nameEnd lies
  · intro notSwallows message next decoded
    obtain ⟨_, header, start, isHeader, qd, finish, isQd, isMessage⟩ :=
      (decode_accepts decoder message next).mp decoded
    rcases times_either isQd with allLie | ⟨before, after, isCount, front, middle, isFront,
      question, stop, isMalformed, rest, isRest⟩
    · exact ⟨header, start, isHeader, qd, finish, allLie, isMessage⟩
    · obtain ⟨an, afterAn, isAn, ns, afterNs, isNs, ar, afterAr, isAr, _⟩ := isMessage
      refine absurd ⟨header, start, isHeader, before, after, isCount, front, middle, isFront,
        question, stop, isMalformed, rest, finish, isRest, _, afterAr, an, afterAn, isAn, ns,
        afterNs, isNs, ar, afterAr, isAr, rfl, rfl⟩ notSwallows

def truncatedQuery : MemoryDecoder where
  data := [0, 7, 0, 0, 0, 1, 0, 0, 0, 0, 0, 0]

/-- It is decoded without an error, with a question that is not there. -/
theorem decode_lies_truncated :
    (∃ message next, decode truncatedQuery = .ok (message, next) ∧ message.qd = [{}] ∧
      next.current = 12) ∧ ¬ ∀ message next, decode truncatedQuery = .ok (message, next) ->
        grammar truncatedQuery.data truncatedQuery.current message next.current := by
  refine ⟨⟨_, _, rfl, rfl, rfl⟩, ?_⟩
  intro complete
  obtain ⟨_, _, isHeader, _, _, isQd, _⟩ := complete _ _ rfl
  have decoded : Header.decode truncatedQuery =
      .ok ({ id := 7, qdcount := 1 }, { truncatedQuery with current := 12 }) := rfl
  obtain ⟨_, lies⟩ := (Header.decode_accepts _ _ _).mp decoded
  obtain ⟨sameHeader, sameStart⟩ := Header.decode_accepts.unambiguous _ _ _ _ _ _ lies isHeader
  rw [sameHeader, sameStart] at isQd
  obtain ⟨_, _, _, ⟨_, _, ⟨_, _, _, part, _⟩, _⟩, _⟩ := times_succ_iff.mp isQd
  exact absurd part.lt (by decide)

end Message

end NtfCore.Ntcdns
