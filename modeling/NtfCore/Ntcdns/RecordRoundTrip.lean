import NtfCore.Ntcdns.DataLength
import NtfCore.Ntcdns.WellKnownServices

/-!
Contract: which resource records are read back as they were written, and how far the decoding
of a text reads.

Names that are not the labels they are split into, joined again, are not read back, and
neither are ports in another order. Decoding a text goes on past a string that is shorter than
what remains of the data only with an error, and reads a string that is longer.

Owns: the exact conditions for both.
-/

namespace NtfCore.Ntcdns

open NtfCore.Foundation List ResourceRecordData PortSet Except

def Tokenizer.Soft (tokenizer : Tokenizer) : Prop :=
  ∀ value, ∀ token ∈ tokenizer.tokens value, token ≠ [] ∧ dot ∉ token

theorem notMem_splitOn {separator : UInt8} {value token : List UInt8}
    (mem : token ∈ value.splitOn separator) : separator ∉ token := by
  induction value generalizing token with
  | nil =>
    rw [splitOn_nil, mem_singleton] at mem
    rw [mem]
    exact not_mem_nil
  | cons _ rest ih =>
    rw [splitOn_eq_splitOnP] at mem ih
    rw [splitOnP_cons_eq_if_modifyHead] at mem
    split at mem
    · rcases mem_cons.mp mem with isNil | inRest
      · rw [isNil]
        exact not_mem_nil
      · exact ih inRest
    · rename_i differs
      obtain ⟨_, _, isSplit⟩ := exists_cons_of_ne_nil
        (splitOnP_ne_nil (fun other => other == separator) rest)
      rw [isSplit] at mem ih
      rcases mem_cons.mp mem with isFirst | inOthers
      · rw [isFirst, mem_cons]
        rintro (isByte | inFirst)
        · exact differs (by simp [isByte])
        · exact ih mem_cons_self inFirst
      · exact ih (mem_cons_of_mem _ inOthers)

theorem softTokenizer_soft : softTokenizer.Soft := by
  intro _ _ mem
  obtain ⟨inSplit, notNil⟩ := mem_filter.mp mem
  exact ⟨by simpa using notNil, notMem_splitOn inSplit⟩

section Names

variable {tokenizer : Tokenizer} (soft : tokenizer.Soft) {name : List UInt8}

def rejoined (tokenizer : Tokenizer) (name : List UInt8) : List UInt8 :=
  joinLabels (tokenizer.tokens name)

include soft

theorem rejoined_canonical (encodable : NameEncodable tokenizer name) :
    Canonical (rejoined tokenizer name) := by
  refine ⟨tokenizer.tokens name, ?_, rfl⟩
  intro label mem
  exact {
    nonempty := (soft name label mem).1
    short := encodable label mem
    undotted := (soft name label mem).2 }

theorem nameBytes_rejoined : nameBytes tokenizer (rejoined tokenizer name) =
    nameBytes tokenizer name := by
  unfold nameBytes rejoined
  rw [tokenizer.tokens_join _ (soft name)]

end Names

/-! ## The data of records -/

def ResourceRecordData.rejoined (tokenizer : Tokenizer) : ResourceRecordData -> ResourceRecordData
  | .nameServer nsdname => .nameServer (Ntcdns.rejoined tokenizer nsdname)
  | .canonicalName cname => .canonicalName (Ntcdns.rejoined tokenizer cname)
  | .pointer ptrdname => .pointer (Ntcdns.rejoined tokenizer ptrdname)
  | .zoneAuthority value => .zoneAuthority { value with
      mname := Ntcdns.rejoined tokenizer value.mname
      rname := Ntcdns.rejoined tokenizer value.rname }
  | .mailExchange preference exchange =>
    .mailExchange preference (Ntcdns.rejoined tokenizer exchange)
  | data => data

section Data

variable {tokenizer : Tokenizer} (soft : tokenizer.Soft) {type : RecordType}
  {data : ResourceRecordData}

include soft in
theorem ResourceRecordData.bytes_rejoined :
    (data.rejoined tokenizer).bytes tokenizer = data.bytes tokenizer := by
  cases data with
  | nameServer | canonicalName | pointer => exact nameBytes_rejoined soft
  | zoneAuthority value | mailExchange _ _ => simp only [rejoined, bytes, nameBytes_rejoined soft]
  | _ => rfl

theorem ResourceRecordData.rejoined_matches (isMatch : data.Matches type) :
    (data.rejoined tokenizer).Matches type := by
  cases data <;> exact isMatch

include soft in
theorem ResourceRecordData.rejoined_canonical (named : data.Named)
    (encodable : data.Encodable tokenizer) : (data.rejoined tokenizer).Canonical := by
  cases data with
  | nameServer | canonicalName | pointer | mailExchange => exact rejoined_canonical soft encodable
  | zoneAuthority =>
    exact ⟨rejoined_canonical soft encodable.1, rejoined_canonical soft encodable.2⟩
  | _ => exact False.elim named

variable {decoder next : MemoryDecoder}

/-- Data that are decoded are of the kind that the type asks for. -/
theorem ResourceRecord.decodeData_matches {rdataLength : Nat}
    (isRead : decodeData type rdataLength decoder = .ok (data, next)) : data.Matches type := by
  unfold decodeData at isRead
  split at isRead
  case h_1 =>
    split at isRead
    · contradiction
    · obtain ⟨_, _, isPure⟩ := bind_eq_ok.mp isRead
      cases isPure
      rfl
  case h_2 | h_3 | h_6 =>
    obtain ⟨_, _, isPure⟩ := bind_eq_ok.mp isRead
    cases isPure
    rfl
  case h_4 =>
    obtain ⟨_, _, rest⟩ := bind_eq_ok.mp isRead
    obtain ⟨_, _, rest⟩ := bind_eq_ok.mp rest
    obtain ⟨_, _, rest⟩ := bind_eq_ok.mp rest
    obtain ⟨_, _, rest⟩ := bind_eq_ok.mp rest
    obtain ⟨_, _, rest⟩ := bind_eq_ok.mp rest
    obtain ⟨_, _, rest⟩ := bind_eq_ok.mp rest
    obtain ⟨_, _, isPure⟩ := bind_eq_ok.mp rest
    cases isPure
    rfl
  case h_5 =>
    obtain ⟨_, _, rest⟩ := bind_eq_ok.mp isRead
    obtain ⟨_, _, rest⟩ := bind_eq_ok.mp rest
    obtain ⟨_, _, isPure⟩ := bind_eq_ok.mp rest
    cases isPure
    rfl
  case h_7 | h_8 =>
    obtain ⟨_, _, rest⟩ := bind_eq_ok.mp isRead
    obtain ⟨_, _, isPure⟩ := bind_eq_ok.mp rest
    cases isPure
    rfl
  case h_9 =>
    obtain ⟨_, _, isPure⟩ := bind_eq_ok.mp isRead
    cases isPure
    rfl
  case h_10 =>
    split at isRead
    · contradiction
    · obtain ⟨_, _, isPure⟩ := bind_eq_ok.mp isRead
      cases isPure
      rfl
  case h_11 => contradiction
  case h_12 =>
    obtain ⟨_, _, isPure⟩ := bind_eq_ok.mp isRead
    cases isPure
    cases type <;> first | rfl | contradiction

theorem decode_ports_ascending (tokenizer : Tokenizer) {value : WellKnownService}
    (ahead : Buffer.Ahead decoder.data decoder.current (bytes tokenizer (.wellKnownService value)))
    (isRead : ResourceRecord.decodeSized .wks (UInt16.ofNat
        (bytes tokenizer (.wellKnownService value)).length).toNat decoder =
      .ok (.wellKnownService value, next)) : value.port.Pairwise (· < ·) := by
  have small := ofPorts_length_le value.port
  have isLength : (bytes tokenizer (.wellKnownService value)).length =
      5 + (ofPorts value.port).length := by
    simp only [bytes, length_append, addressBytes_length, length_singleton]
    omega
  have isField : (UInt16.ofNat (5 + (ofPorts value.port).length)).toNat =
      5 + (ofPorts value.port).length := by exact Nat.mod_eq_of_lt (by omega)
  have bitmapAhead := ahead.right.right.take_drop
  rw [addressBytes_length, length_singleton] at bitmapAhead
  have isBitmap : bitmapOf decoder (5 + (ofPorts value.port).length) = ofPorts value.port := by
    unfold bitmapOf
    rw [Nat.add_sub_cancel_left]
    exact bitmapAhead
  rw [isLength, isField] at isRead
  have isPorts := decode_ports isRead
  rw [isBitmap] at isPorts
  rw [isPorts]
  exact toPorts_ascending small

include soft in
/-- Data that are read back as they were written are of the kind that the type asks for, and
canonical. -/
theorem ResourceRecord.decodeSized_wellformed (supported : type ≠ .svr)
    (encodable : data.Encodable tokenizer)
    (ahead : Buffer.Ahead decoder.data decoder.current (data.bytes tokenizer))
    (isRead : decodeSized type (UInt16.ofNat (data.bytes tokenizer).length).toNat decoder =
      .ok (data, next)) : data.Matches type ∧ data.Canonical := by
  have sized := isRead
  unfold decodeSized at isRead
  split at isRead
  · cases isRead
    exact ⟨supported, trivial⟩
  · obtain ⟨⟨_, _⟩, isData, coherent⟩ := bind_eq_ok.mp isRead
    dsimp only at coherent
    split at coherent
    · contradiction
    · obtain ⟨isRdata, _⟩ := Prod.mk.inj (ok.inj coherent)
      rw [isRdata] at isData
      have isMatch := decodeData_matches isData
      refine ⟨isMatch, ?_⟩
      have named (isNamed : data.Named) : data.Canonical := by
        have canon := ResourceRecordData.rejoined_canonical soft isNamed encodable
        have stillNamed : (data.rejoined tokenizer).Named := by cases data <;> exact isNamed
        have reads := decodeData_named tokenizer (rejoined_matches isMatch) canon stillNamed
            (UInt16.ofNat (data.bytes tokenizer).length).toNat decoder
            (by rw [bytes_rejoined soft]; exact ahead)
        rw [isData] at reads
        have same : data = data.rejoined tokenizer := (Prod.mk.inj (ok.inj reads)).1
        rw [same]
        exact canon
      cases data with
      | nameServer | canonicalName | pointer | zoneAuthority | mailExchange => exact named trivial
      | wellKnownService =>
        rw [show type = .wks from isMatch] at sized
        exact decode_ports_ascending tokenizer ahead sized
      | _ => trivial

end Data

namespace ResourceRecord

def written (before after : MemoryEncoder) : List UInt8 :=
  (after.data.drop before.current).take (after.current - before.current)

def RoundTrips (record : ResourceRecord) (bytes : List UInt8) : Prop :=
  ∃ decoded decoder, decode { data := bytes } = .ok (decoded, decoder) ∧
    decoder.current = bytes.length ∧ decoded.equals record = true

variable {tokenizer : Tokenizer} {record : ResourceRecord}

theorem written_eq {before after : MemoryEncoder} (within : before.current ≤ before.data.length)
    (encoded : encode tokenizer before record = .ok after) :
    written before after = record.bytes tokenizer := by
  have wrote := encode_writes tokenizer record before after within encoded
  have startLength : before.produced.length = before.current := by
    unfold MemoryEncoder.produced
    rw [length_take, Nat.min_eq_left within]
  have isProduced : after.data.take after.current = before.produced ++ record.bytes tokenizer :=
    wrote.produced
  unfold written
  rw [← drop_take, isProduced, ← startLength]
  exact drop_left

theorem decodeHead_rejoined (soft : tokenizer.Soft)
    (encodable : NameEncodable tokenizer record.name) {decoder : MemoryDecoder}
    (ahead : Buffer.Ahead decoder.data decoder.current (record.headBytes tokenizer)) :
    decodeHead decoder = .ok ({ record with name := rejoined tokenizer record.name }.readHead,
        decoder.skip (record.headBytes tokenizer).length) := by
  have sameBytes : ({ record with name := rejoined tokenizer record.name } :
      ResourceRecord).headBytes tokenizer = record.headBytes tokenizer := by
    unfold headBytes
    rw [nameBytes_rejoined soft]
  rw [← sameBytes] at ahead ⊢
  exact decodeHead_reads tokenizer (rejoined_canonical soft encodable) decoder ahead

variable {decoder next : MemoryDecoder}

theorem wellformed_of_decode (soft : tokenizer.Soft) (supported : record.type ≠ .svr)
    (encodable : record.Encodable tokenizer) {other : ResourceRecord}
    (ahead : Buffer.Ahead decoder.data decoder.current (record.bytes tokenizer))
    (isRead : decode decoder = .ok (other, next)) (same : other.equals record = true) :
    record.Wellformed := by
  unfold decode at isRead
  rw [decodeHead_rejoined soft encodable.name ahead.left] at isRead
  obtain ⟨⟨head, _⟩, isHead, isRead⟩ := bind_eq_ok.mp isRead
  obtain ⟨isHead, isStarted⟩ := Prod.mk.inj (ok.inj isHead)
  rw [← isStarted] at isRead
  dsimp only at isRead
  rw [(decodeUint16_reads _).step ahead.right.left] at isRead
  obtain ⟨⟨_, _⟩, isData, isPure⟩ := bind_eq_ok.mp isRead
  cases isPure
  obtain ⟨sameName, _, _, _, sameData⟩ := equals_iff.mp same
  dsimp only at sameName sameData
  rw [← isHead, readHead_type, sameData] at isData
  have headName : head.name = rejoined tokenizer record.name := by
    rw [← isHead]
    unfold readHead
    split <;> rfl
  have isName : rejoined tokenizer record.name = record.name := headName.symm.trans sameName
  obtain ⟨isMatch, canon⟩ := decodeSized_wellformed soft supported encodable.data
    ahead.right.right isData
  constructor
  · rw [← isName]
    exact rejoined_canonical soft encodable.name
  · exact isMatch
  · exact canon

/-! ## How far a text is read -/

/-- The position after the last byte that `decodeCharacterString` reads. -/
def characterStringEnd (decoder : MemoryDecoder) : Nat :=
  match decoder.data[decoder.current]? with
  | none => decoder.current
  | some length =>
    if decoder.data.length - (decoder.current + 1) < length.toNat then decoder.current + 1
    else decoder.current + 1 + length.toNat

/-- The position after the last byte that `decodeText` reads. -/
def decodeTextEnd : Nat -> Nat -> MemoryDecoder -> Nat
  | 0, _, decoder => decoder.current
  | fuel + 1, numBytesRemaining, decoder =>
    if numBytesRemaining = 0 then decoder.current
    else max (characterStringEnd decoder)
      (match decoder.decodeCharacterString with
      | .error _ => decoder.current
      | .ok (_, next) =>
        let numBytesRead := next.current - decoder.current
        if numBytesRead ≥ numBytesRemaining then
          decodeTextEnd fuel ((2 ^ 64 + numBytesRemaining - numBytesRead) % 2 ^ 64) next
        else decoder.current)

def textEnd (rdataLength : Nat) (decoder : MemoryDecoder) : Nat :=
  decodeTextEnd (decoder.data.length - decoder.current + 2) rdataLength decoder

def FirstWithin (rdataLength : Nat) (decoder : MemoryDecoder) : Prop :=
  rdataLength = 0 ∨ ∀ length, decoder.data[decoder.current]? = some length ->
    decoder.current + 1 + length.toNat ≤ decoder.data.length -> 1 + length.toNat ≤ rdataLength

theorem decodeCharacterString_extent {string : List UInt8}
    (isRead : decoder.decodeCharacterString = .ok (string, next)) :
    ∃ length : UInt8, decoder.data[decoder.current]? = some length ∧
      decoder.current + 1 + length.toNat ≤ decoder.data.length ∧
      next.current = decoder.current + 1 + length.toNat := by
  obtain ⟨⟨length, started⟩, isLength, isString⟩ := bind_eq_ok.mp isRead
  obtain ⟨⟨bytes, advanced⟩, isBytes, isStarted⟩ := bind_eq_ok.mp isLength
  obtain ⟨isByte, isAdvanced⟩ := Prod.mk.inj (ok.inj isStarted)
  unfold MemoryDecoder.decodeRaw at isBytes isString
  split at isBytes
  · contradiction
  · rename_i oneByte
    obtain ⟨isHead, isMoved⟩ := Prod.mk.inj (ok.inj isBytes)
    dsimp only at isString
    rw [← isAdvanced, ← isMoved] at isString
    split at isString
    · contradiction
    · rename_i enough
      obtain ⟨_, isNext⟩ := Prod.mk.inj (ok.inj isString)
      have inside : decoder.current < decoder.data.length := by omega
      have sameByte : length = decoder.data[decoder.current] := by
        rw [← isByte, ← isHead, drop_eq_getElem_cons inside, take_succ_cons, take_zero]
        exact UInt8.ofNat_toNat
      dsimp only at enough
      refine ⟨length, ?_, ?_, ?_⟩
      · rw [sameByte]
        exact getElem?_eq_getElem inside
      · omega
      · rw [← isNext]

theorem decodeTextEnd_of_zero (fuel : Nat) (decoder : MemoryDecoder) :
    decodeTextEnd fuel 0 decoder = decoder.current := by
  cases fuel with
  | zero => rfl
  | succ => exact if_pos rfl

/-- A text is read beyond its data if and only if its first string is. -/
theorem textEnd_le_iff (rdataLength : Nat) (decoder : MemoryDecoder) :
    textEnd rdataLength decoder ≤ decoder.current + rdataLength ↔
      FirstWithin rdataLength decoder := by
  by_cases isZero : rdataLength = 0
  · rw [isZero]
    unfold textEnd FirstWithin
    rw [decodeTextEnd_of_zero]
    simp
  · unfold textEnd decodeTextEnd FirstWithin
    rw [if_neg isZero]
    constructor
    · intro within
      right
      intro length isLength inside
      have stringEnd := le_trans (le_max_left _ _) within
      unfold characterStringEnd at stringEnd
      rw [isLength] at stringEnd
      dsimp only at stringEnd
      rw [if_neg (by omega)] at stringEnd
      omega
    · intro condition
      have first := condition.resolve_left isZero
      apply max_le
      · unfold characterStringEnd
        cases isLength : decoder.data[decoder.current]? with
        | none => exact Nat.le_add_right _ _
        | some length =>
          dsimp only
          split
          · omega
          · have inData := (List.getElem?_eq_some_iff.mp isLength).1
            have bound := first length isLength (by omega)
            omega
      · cases isString : decoder.decodeCharacterString with
        | error fault => exact Nat.le_add_right _ _
        | ok result =>
          obtain ⟨string, next⟩ := result
          obtain ⟨length, isLength, inside, isNext⟩ := decodeCharacterString_extent isString
          have bound := first length isLength inside
          dsimp only
          split
          · rename_i enough
            -- What is read is all that remains, and the loop ends.
            have isAll : next.current - decoder.current = rdataLength := by omega
            rw [isAll, Nat.add_sub_cancel, Nat.mod_self, decodeTextEnd_of_zero]
            omega
          · exact Nat.le_add_right _ _

/-! ## Which records are read back -/

/-- A record that was encoded is decoded from the bytes produced, all of them, as an equal
record if and only if it is well formed and preserved; and a text is not read beyond its data
if and only if its first string is not. -/
theorem encode_decode_iff (soft : tokenizer.Soft) (record : ResourceRecord)
    (supported : record.type ≠ .svr) (before after : MemoryEncoder)
    (within : before.current ≤ before.data.length)
    (encoded : encode tokenizer before record = .ok after) :
    (record.RoundTrips (written before after) ↔ record.Wellformed ∧ record.Preserved) ∧
      ∀ (decoder : MemoryDecoder) (rdataLength : UInt16),
        textEnd rdataLength.toNat decoder ≤ decoder.current + rdataLength.toNat ↔
          FirstWithin rdataLength.toNat decoder := by
  refine ⟨?_, fun decoder rdataLength => textEnd_le_iff rdataLength.toNat decoder⟩
  have encodable := (((encode_takes tokenizer record).succeeds before within).mp ⟨after, encoded⟩).1
  have ahead := Buffer.ahead_self (record.bytes tokenizer)
  rw [written_eq within encoded]
  constructor
  · rintro ⟨_, _, isDecoded, _, same⟩
    have wellformed := wellformed_of_decode soft supported encodable ahead isDecoded same
    exact ⟨wellformed, preserved_of_decode tokenizer wellformed ahead isDecoded same⟩
  · rintro ⟨wellformed, preserved⟩
    refine ⟨record.readBack, _, decode_reads tokenizer wellformed (encode_short tokenizer encoded)
      preserved _ ahead, ?_, readBack_equals preserved⟩
    exact Nat.zero_add _

def oneString : ResourceRecord where
  name := [97, dot, 98]
  type := .txt
  rdata := .text [[99]]

def twoStrings : ResourceRecord where
  name := [97, dot, 98]
  type := .txt
  rdata := .text [[99], [100]]

theorem encode_decode_oneString :
    ∃ after, encode softTokenizer { data := replicate 32 0 } oneString = .ok after ∧
      oneString.RoundTrips (written { data := replicate 32 0 } after) := by
  obtain ⟨after, encoded⟩ : ∃ after,
      encode softTokenizer { data := replicate 32 0 } oneString = .ok after := ⟨_, rfl⟩
  refine ⟨after, encoded, (encode_decode_iff softTokenizer_soft oneString (by decide) _ after
    (by decide) encoded).1.mpr ⟨⟨Message.canonical_labels, rfl, trivial⟩, ⟨rfl, by decide⟩⟩⟩

/-- Two strings are not read back, and of a text with one byte of data a string of two bytes is
read. -/
theorem encode_decode_twoStrings :
    (∃ after, encode softTokenizer { data := replicate 32 0 } twoStrings = .ok after ∧
      ¬ twoStrings.RoundTrips (written { data := replicate 32 0 } after)) ∧
    ¬ textEnd 1 { data := [2, 99, 100] } ≤ 0 + 1 := by
  refine ⟨⟨_, rfl, ?_⟩, by decide⟩
  rintro ⟨_, _, isDecoded, _, _⟩
  cases isDecoded

end ResourceRecord

end NtfCore.Ntcdns
