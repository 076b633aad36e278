import NtfCore.Ntsa.EndpointText
import NtfCore.Ntsa.Uri.Components

/-!
Contract: endpoints as texts (`ntsa::IpEndpoint::format` and `ntsa::Endpoint::text`).

Owns: which endpoints `ntsa::Endpoint::parse` reads back from their own text.
-/

namespace NtfCore.Ntsa

open NtfCore.Foundation.Text Ipv6Address LocalName
open List hiding Vector

/-- `PortUtil::format`. The digits that fit are turned around only when all do. -/
def PortUtil.format (capacity : Nat) (port : UInt16) : List UInt8 :=
  let digits := decimalLoop port.toNat
  if digits.length ≤ capacity then digits.reverse else digits.take capacity

/-- `IpEndpoint::text`: `format` into a buffer of `MAX_TEXT_LENGTH + 1` characters, which has
room for any IPv4 endpoint. -/
def IpEndpoint.text (endpoint : IpEndpoint) : List UInt8 :=
  match endpoint.host with
  | .undefined => []
  | .v4 address => address.format ++ ascii ':' :: decimal endpoint.port.toNat
  | .v6 address =>
    let text := ascii '[' :: address.format 51 true
    if text.length = 52 then text
    else if text.length = 51 then text ++ [ascii ']']
    else text ++ ascii ']' :: ascii ':' :: PortUtil.format (50 - text.length) endpoint.port

/-- `Endpoint::text`. -/
def Endpoint.text : Endpoint -> List UInt8
  | .undefined => []
  | .ip endpoint => endpoint.text
  | .localName name =>
    if name.isUnnamed then "(unnamed)".toList.map ascii else toBytes name.path

/-- An endpoint that can stand for itself as a text with `after` behind it in memory. -/
def Endpoint.Readable (after : List UInt8) : Endpoint -> Prop
  | .undefined | .ip ⟨.v4 _, _⟩ => True
  | .ip ⟨.v6 address, _⟩ => address.Readable true
  | .ip ⟨.undefined, _⟩ => False
  | .localName name =>
    name.path ≠ [] ∧ name.isAbstract = false ∧ IpEndpoint.parse (toBytes name.path) after = none

/-! ## The parts of a text -/

theorem PortUtil.format_eq (port : UInt16) {capacity : Nat} (room : 5 ≤ capacity) :
    format capacity port = decimal port.toNat := by
  have length := decimal_length port.toNat
  have small : Nat.log 10 port.toNat < 5 :=
    Nat.log_lt_of_lt_pow' (by decide) (Nat.lt_trans port.toNat_lt (by decide))
  rw [decimal, length_reverse] at length
  exact if_pos (by omega)

theorem PortUtil.mem_format {capacity : Nat} {port : UInt16} {ch : UInt8}
    (mem : ch ∈ format capacity port) : isDigit ch = true := by
  refine (decimalLoop_spec port.toNat).2.2 ch ?_
  rw [format] at mem
  split at mem
  · exact mem_reverse.mp mem
  · exact mem_of_mem_take mem

theorem Ipv6Address.format_length_le (address : Ipv6Address) :
    (address.format 51 true).length ≤ 50 := by
  have widths := groupWidths_le address
  have scope : (scopeText address.scopeId).length ≤ 11 := by
    by_cases absent : address.scopeId = 0
    · rw [absent, scopeText_zero]
      decide
    · have small : Nat.log 10 address.scopeId.toNat < 10 :=
        Nat.log_lt_of_lt_pow' (by decide) (Nat.lt_trans address.scopeId.toNat_lt (by decide))
      rw [scopeText_length absent]
      omega
  rw [format_length address (by decide)]
  omega

namespace IpEndpoint

variable {before behind after : List UInt8} {ch : UInt8}

theorem splitLast_append (ne : before ≠ []) (plain : ch ∉ behind) :
    splitLast ch (before ++ ch :: behind) = some (before, behind) := by
  obtain ⟨first, rest, rfl⟩ := exists_cons_of_ne_nil ne
  have scanned : ((rest ++ ch :: behind).reverse.takeWhile (· ≠ ch)).reverse = behind := by
    rw [reverse_append, reverse_cons, append_assoc, takeWhile_append_of_pos]
    · simp
    · intro other mem
      exact decide_eq_true fun isCh => plain (isCh ▸ mem_reverse.mp mem)
  rw [splitLast, cons_append, tail_cons, scanned, if_neg (by simp; omega), ← cons_append]
  have width : (first :: rest ++ ch :: behind).length - (behind.length + 1) =
      (first :: rest).length := by
    rw [length_append, length_cons (a := ch), Nat.add_sub_cancel]
  rw [width, take_left]

theorem withPort_decimal (host : IpAddress) (port : UInt16) (after : List UInt8) :
    withPort host (decimal port.toNat) after = some ⟨host, port⟩ := by
  rw [withPort, if_neg (decimal_ne_nil _), PortUtil.parse_decimal, Option.map_some]

theorem parse_v4 (address : Ipv4Address) (port : UInt16) (after : List UInt8) :
    parse (text ⟨.v4 address, port⟩) after = some ⟨.v4 address, port⟩ := by
  obtain ⟨first, rest, isFormat⟩ := exists_cons_of_ne_nil address.format_ne_nil
  have notBracket : first ≠ ascii '[' := by
    rintro rfl
    exact absurd (address.format_numeric _ (isFormat ▸ mem_cons_self)) (by decide)
  have isSplit : splitLast (ascii ':') (address.format ++ ascii ':' :: decimal port.toNat) =
      some (address.format, decimal port.toNat) := by
    refine splitLast_append address.format_ne_nil fun mem => ?_
    exact absurd (isDigit_of_mem_decimal mem) (by decide)
  simp only [text]
  rw [isFormat, cons_append, parse, if_neg notBracket, ← cons_append, ← isFormat, isSplit]
  simp only [Ipv4Address.parse_format, withPort_decimal]

/-- The address stands in brackets, and what is behind them is cut only when the address
is not read back anyway. -/
theorem text_v6 (address : Ipv6Address) (port : UInt16) : ∃ behind,
    text ⟨.v6 address, port⟩ = ascii '[' :: address.format 51 true ++ ascii ']' :: behind ∧
    ascii ']' ∉ behind ∧
    ((address.format 51 true).length ≤ 39 -> behind = ascii ':' :: decimal port.toNat) := by
  have width := Ipv6Address.format_length_le address
  simp only [text, length_cons]
  rw [if_neg (by omega)]
  split
  · exact ⟨[], rfl, not_mem_nil, fun short => by omega⟩
  · refine ⟨_, rfl, fun mem => ?_, fun short => ?_⟩
    · rcases mem_cons.mp mem with isColon | inPort
      · exact absurd isColon (by decide)
      · exact absurd (PortUtil.mem_format inPort) (by decide)
    · rw [PortUtil.format_eq port (by omega)]

theorem parse_v6 (address : Ipv6Address) (port : UInt16) (after : List UInt8) :
    parse (text ⟨.v6 address, port⟩) after =
      if address.Readable true then some ⟨.v6 address, port⟩ else none := by
  obtain ⟨behind, isText, plain, whole⟩ := text_v6 address port
  have isSplit := splitLast_append (cons_ne_nil (ascii '[') (address.format 51 true)) plain
  have enough : maxTextLength + 1 ≤ 51 := by decide
  have isParsed := Ipv6Address.parse_format address enough true (ascii ']' :: (behind ++ after))
  have isReadable := Ipv6Address.readable_iff address enough true
  rw [isText, cons_append, parse, if_pos rfl, ← cons_append, isSplit]
  simp only [tail_cons, isParsed]
  by_cases readable : address.Readable true
  · rw [if_pos readable, if_pos (isReadable.mp readable), whole (isReadable.mp readable).1]
    simp [withPort_decimal]
  · rw [if_neg readable, if_neg (isReadable.not.mp readable)]

end IpEndpoint

/-! ## The round trip -/

namespace Endpoint

theorem parsed_iff {text : List UInt8} (ne : text ≠ []) (after : List UInt8) (endpoint : Endpoint) :
    (∃ parsed, parse text after = (true, parsed) ∧ parsed.equals endpoint = true) ↔
      equals (match IpEndpoint.parse text after with
        | some parsed => .ip parsed
        | none => .localName (ofTextAnyway text)) endpoint = true := by
  rw [parse, if_neg ne]
  cases IpEndpoint.parse text after <;> simp

theorem ofTextAnyway_toBytes (name : LocalName) :
    (ofTextAnyway (toBytes name.path)).path = name.path ∧
      (ofTextAnyway (toBytes name.path)).isAbstract = false := by
  have fits : (toBytes name.path).length ≤ maxPathLength := by
    rw [toBytes, length_map]
    exact Nat.le_of_add_right_le name.size_le
  rw [ofTextAnyway, LocalName.ofText, dif_pos fits, Option.getD_some]
  exact ⟨ofBytes_toBytes _, rfl⟩

/-- The text of an endpoint is parsed to an equal endpoint exactly when its Internet address
can be read back, or its local name has a path that is in the file system and is no Internet
endpoint. -/
theorem text_parsed_iff (endpoint : Endpoint) (after : List UInt8) :
    (∃ parsed, parse endpoint.text after = (true, parsed) ∧ parsed.equals endpoint = true) ↔
      endpoint.Readable after := by
  cases endpoint with
  | undefined => exact iff_of_true ⟨.undefined, rfl, rfl⟩ trivial
  | ip endpoint =>
    obtain ⟨host, port⟩ := endpoint
    cases host with
    | undefined =>
      refine iff_of_false ?_ id
      rintro ⟨parsed, isParsed, same⟩
      cases isParsed
      cases same
    | v4 address =>
      rw [text, parsed_iff (by simp [IpEndpoint.text]), IpEndpoint.parse_v4]
      simp [equals, IpEndpoint.equals, IpAddress.equals, Ipv4Address.equals, Readable]
    | v6 address =>
      obtain ⟨_, isText, _⟩ := IpEndpoint.text_v6 address port
      rw [text, parsed_iff (by simp [isText]), IpEndpoint.parse_v6, Readable]
      by_cases readable : address.Readable true
      · simp [readable, equals, IpEndpoint.equals, IpAddress.equals, equals_iff_eq]
      · simp [readable, equals]
  | localName name =>
    rw [text, Readable, LocalName.isUnnamed]
    by_cases unnamed : name.path = []
    · simp only [unnamed, length_nil, beq_self_eq_true, if_true, ne_eq, not_true, false_and]
      rw [parsed_iff (by decide), iff_false]
      split
      · intro same
        cases same
      · rw [equals, LocalName.equals_iff, unnamed]
        exact fun same => absurd same.1 (by decide)
    · rw [if_neg (by simpa using unnamed), parsed_iff (by simpa [toBytes] using unnamed)]
      cases IpEndpoint.parse (toBytes name.path) after with
      | some => simp [equals]
      | none =>
        rw [equals, LocalName.equals_iff, (ofTextAnyway_toBytes name).1,
          (ofTextAnyway_toBytes name).2]
        simp [unnamed, @eq_comm _ false]

end Endpoint

end NtfCore.Ntsa
