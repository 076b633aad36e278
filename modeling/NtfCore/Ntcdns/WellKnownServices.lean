import NtfCore.Ntcdns.RoundTrip

/-!
Contract: the ports of a well-known service that are read from a record.

A bit of the bitmap is narrowed to a port of 16 bits. The length of the data of a record leaves
room for a bitmap of eight times as many bits.

Owns: when the list of ports tells which bits of the bitmap are set, in ascending order, and
makes the bitmap again.
-/

namespace NtfCore.Ntcdns

open NtfCore.Foundation List ResourceRecord

structure PortsAgree (bitset : List UInt8) (ports : List UInt16) : Prop where
  ascending : ports.Pairwise (· < ·)
  members : ∀ position, (∃ port ∈ ports, port.toNat = position) ↔
    PortSet.contains bitset position = true
  encoded : PortSet.ofPorts ports = PortSet.trimmed bitset

theorem portsAgree_iff (bitset : List UInt8) :
    PortsAgree bitset (PortSet.toPorts bitset) ↔ PortSet.Low bitset := by
  constructor
  · intro agree pos isSet
    obtain ⟨port, _, isPosition⟩ := (agree.members pos).mpr isSet
    rw [← isPosition]
    exact port.toNat_lt
  · intro low
    constructor
    · exact low.toPorts_ascending
    · intro pos
      constructor
      · rintro ⟨_, mem, isPosition⟩
        rw [← isPosition]
        exact low.mem_toPorts.mp mem
      · intro isSet
        have isPort : (UInt16.ofNat pos).toNat = pos := by
          exact Nat.mod_eq_of_lt (low pos isSet)
        refine ⟨UInt16.ofNat pos, low.mem_toPorts.mpr ?_, isPort⟩
        rw [isPort]
        exact isSet
    · exact low.ofPorts_toPorts

def bitmapOf (decoder : MemoryDecoder) (rdataLength : Nat) : List UInt8 :=
  (decoder.data.drop (decoder.current + 5)).take (rdataLength - 5)

variable {decoder next : MemoryDecoder}

theorem decodeRaw_eq_ok {size : Nat} {bytes : List UInt8}
    (isRead : decoder.decodeRaw size = .ok (bytes, next)) :
    bytes = (decoder.data.drop decoder.current).take size ∧
      next = { decoder with current := decoder.current + size } := by
  unfold MemoryDecoder.decodeRaw at isRead
  split at isRead
  · contradiction
  · cases isRead
    exact ⟨rfl, rfl⟩

/-- The ports that are decoded are read off the bitmap. -/
theorem decode_ports {rdataLength : Nat} {value : WellKnownService}
    (decoded : decodeSized .wks rdataLength decoder = .ok (.wellKnownService value, next)) :
    value.port = PortSet.toPorts (bitmapOf decoder rdataLength) := by
  unfold decodeSized at decoded
  split at decoded
  · exact absurd decoded nofun
  · obtain ⟨⟨_, _⟩, isData, coherent⟩ := bind_eq_ok.mp decoded
    dsimp only at coherent
    split at coherent
    · contradiction
    · obtain ⟨isRdata, _⟩ := Prod.mk.inj (Except.ok.inj coherent)
      obtain ⟨⟨_, _⟩, isAddress, rest⟩ := bind_eq_ok.mp isData
      obtain ⟨⟨_, afterProtocol⟩, isProtocol, rest⟩ := bind_eq_ok.mp rest
      obtain ⟨⟨_, _⟩, isBitset, result⟩ := bind_eq_ok.mp rest
      obtain ⟨⟨_, afterByte⟩, isByte, protocolRead⟩ := bind_eq_ok.mp isProtocol
      obtain ⟨_, isAfterAddress⟩ := decodeRaw_eq_ok isAddress
      obtain ⟨_, isAfterByte⟩ := decodeRaw_eq_ok isByte
      obtain ⟨isBytes, _⟩ := decodeRaw_eq_ok isBitset
      have isAfterProtocol : afterByte = afterProtocol := (Prod.mk.inj (Except.ok.inj protocolRead)).2
      rw [← isAfterProtocol, isAfterByte, isAfterAddress] at isBytes
      have isValue := (Prod.mk.inj (Except.ok.inj result)).1
      rw [isRdata] at isValue
      rw [← ResourceRecordData.wellKnownService.inj isValue]
      exact congrArg PortSet.toPorts isBytes

/-- Data with an address and a protocol are decoded, whatever follows these. -/
theorem decode_services {decoder : MemoryDecoder} {rdataLength : Nat} (long : 5 ≤ rdataLength)
    (room : decoder.current + rdataLength ≤ decoder.data.length) :
    ∃ value next, decodeSized .wks rdataLength decoder = .ok (.wellKnownService value, next) := by
  have raw : ∀ size, size ≤ rdataLength -> ∀ start, start + size ≤ decoder.current + rdataLength ->
      ({ decoder with current := start } : MemoryDecoder).decodeRaw size =
        .ok ((decoder.data.drop start).take size, { decoder with current := start + size }) := by
    intro _ _ _ _
    exact if_neg (by dsimp only; omega)
  have address := raw 4 (by omega) decoder.current (by omega)
  have protocol := raw 1 (by omega) (decoder.current + 4) (by omega)
  have bitset := raw (rdataLength - 5) (by omega) (decoder.current + 4 + 1) (by omega)
  obtain ⟨value, isData⟩ : ∃ value, decodeData .wks rdataLength decoder =
      .ok (.wellKnownService value,
        { decoder with current := decoder.current + 4 + 1 + (rdataLength - 5) }) :=
    ⟨_, bind_eq_ok.mpr ⟨_, address, bind_eq_ok.mpr ⟨_, bind_eq_ok.mpr ⟨_, protocol, rfl⟩,
      bind_eq_ok.mpr ⟨_, bitset, rfl⟩⟩⟩⟩
  refine ⟨value, { decoder with current := decoder.current + 4 + 1 + (rdataLength - 5) }, ?_⟩
  unfold decodeSized
  rw [if_neg (by omega)]
  apply bind_eq_ok.mpr
  refine ⟨_, isData, ?_⟩
  exact if_neg (by dsimp only; omega)

/-- The ports that are decoded are those of the bitmap, and make it again, if and only if no
bit is set beyond the last port. -/
theorem decode_ports_iff {decoder next : MemoryDecoder} {rdataLength : Nat}
    {value : WellKnownService} (decoded : ResourceRecord.decodeSized .wks rdataLength decoder =
      .ok (.wellKnownService value, next)) :
    PortsAgree (bitmapOf decoder rdataLength) value.port ↔ ∀ position, 65536 ≤ position ->
        PortSet.contains (bitmapOf decoder rdataLength) position = false := by
  rw [decode_ports decoded, portsAgree_iff]
  constructor
  · intro low position high
    rw [Bool.eq_false_iff]
    intro isSet
    have bound := low position isSet
    omega
  · intro clear position isSet
    by_contra high
    have isClear := clear position (by omega)
    rw [isSet] at isClear
    contradiction

/-- The port of mail. -/
theorem decode_ports_short : ∃ value next, ResourceRecord.decodeSized .wks 9
        { data := [192, 168, 1, 1, 6, 0, 0, 0, 64] } = .ok (.wellKnownService value, next) ∧
      PortsAgree [0, 0, 0, 64] value.port := by
  obtain ⟨value, next, decoded⟩ := decode_services (show 5 ≤ 9 by decide)
    (show ({ data := [192, 168, 1, 1, 6, 0, 0, 0, 64] } : MemoryDecoder).current + 9 ≤ 9 by decide)
  refine ⟨value, next, decoded, (decode_ports_iff decoded).mpr ?_⟩
  intro _ _
  rw [Bool.eq_false_iff]
  intro isSet
  have inside := PortSet.contains_lt isSet
  have isLength : (bitmapOf { data := [192, 168, 1, 1, 6, 0, 0, 0, 64] } 9).length = 4 := rfl
  omega

/-- A bitmap of which only the first bit beyond the last port is set. -/
theorem decode_ports_wrapped :
    ¬ (∀ (decoder : MemoryDecoder) (rdataLength : Nat) (value : WellKnownService)
        (next : MemoryDecoder), rdataLength < 2 ^ 16 ->
        ResourceRecord.decodeSized .wks rdataLength decoder = .ok (.wellKnownService value, next) ->
          PortsAgree (bitmapOf decoder rdataLength) value.port) := by
  intro claimed
  have isLength : (replicate 8197 (0 : UInt8) ++ [128]).length = 8198 := by
    rw [length_append, length_replicate, length_singleton]
  obtain ⟨_, _, decoded⟩ := decode_services (show 5 ≤ 8198 by decide)
    (show ({ data := replicate 8197 0 ++ [128] } : MemoryDecoder).current + 8198 ≤
      (replicate 8197 (0 : UInt8) ++ [128]).length by dsimp only; omega)
  have agree := claimed _ _ _ _ (by decide) decoded
  have isSet : PortSet.contains (bitmapOf { data := replicate 8197 0 ++ [128] } 8198) 65536 =
      true := by
    have isLast : (replicate 8197 (0 : UInt8) ++ [128])[8197]? = some 128 := by
      rw [getElem?_append_right (by rw [length_replicate]), length_replicate]
      rfl
    have isByte : (bitmapOf { data := replicate 8197 0 ++ [128] } 8198)[8192]? = some 128 := by
      unfold bitmapOf
      rw [getElem?_take_of_lt (by decide), getElem?_drop]
      exact isLast
    have isIndex : 65536 / 8 = 8192 := rfl
    rw [PortSet.contains_of_getElem? (by rw [isIndex]; exact isByte)]
    rfl
  obtain ⟨port, _, _⟩ := (agree.members 65536).mpr isSet
  have bound := port.toNat_lt
  omega

end NtfCore.Ntcdns
