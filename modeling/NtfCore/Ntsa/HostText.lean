import NtfCore.Ntsa.Ipv6Address

/-!
Contract: the textual representation of hosts and ports (`ntsa::Ipv4Address::parse`
and `format`, `ntsa::DomainName::parse`, `ntsa::IpAddress::parse`,
`ntsa::Host::parse` and `ntsa::PortUtil::parse`).

Owns: the scanners and what they write.
-/

namespace NtfCore.Ntsa

open NtfCore.Foundation
open NtfCore.Foundation.Text

def toBytes (text : List Int8) : List UInt8 :=
  text.map Int8.toUInt8

def ofBytes (text : List UInt8) : List Int8 :=
  text.map UInt8.toInt8

theorem toBytes_ofBytes (text : List UInt8) : toBytes (ofBytes text) = text := by
  rw [toBytes, ofBytes, List.map_map]
  exact List.map_id'' (fun _ => rfl) text

theorem ofBytes_toBytes (text : List Int8) : ofBytes (toBytes text) = text := by
  rw [toBytes, ofBytes, List.map_map]
  exact List.map_id'' (fun _ => rfl) text

/-! ## IPv4 addresses -/

namespace Ipv4Address

/-- The loop of `parse`: the byte that is being read, the number so far, and the
bytes before it. -/
def parseLoop : Nat -> Nat -> Vector UInt8 4 -> List UInt8 -> Option (Nat × Nat × Vector UInt8 4)
  | index, numAtIndex, value, [] => some (index, numAtIndex, value)
  | index, numAtIndex, value, ch :: rest =>
    if isDigit ch then
      let numAtIndex := numAtIndex * 10 + (ch.toNat - (ascii '0').toNat)
      if numAtIndex > 2 ^ 32 - 1 then none else parseLoop index numAtIndex value rest
    else if ch = ascii '.' then
      if numAtIndex > 255 then none
      else if index + 1 > 3 then none
      else parseLoop (index + 1) 0 (value.setIfInBounds index (UInt8.ofNat numAtIndex)) rest
    else none

/-- The loop of `parse` that spreads the last number over the bytes that are left. -/
def spreadLoop : Nat -> Nat -> Nat -> Vector UInt8 4 -> Vector UInt8 4
  | 0, _, _, value => value
  | count + 1, i, numAtIndex, value =>
    spreadLoop count (i + 1) (numAtIndex / 256)
      (value.setIfInBounds (3 - i) (UInt8.ofNat (numAtIndex % 256)))

/-- `Ipv4Address::parse`. -/
def parse (text : List UInt8) : Option Ipv4Address :=
  match parseLoop 0 0 (Vector.replicate 4 0) text with
  | none => none
  | some (index, numAtIndex, value) =>
    if index = 3 then
      if numAtIndex > 255 then none
      else some ⟨value.setIfInBounds index (UInt8.ofNat numAtIndex)⟩
    else
      let numOctetsLeft := 4 - index
      if numAtIndex ≥ 256 ^ numOctetsLeft then none
      else some ⟨spreadLoop numOctetsLeft 0 numAtIndex value⟩

/-- The loop of `format`. -/
def formatLoop : List UInt8 -> List UInt8
  | [] => []
  | [value] => decimal value.toNat
  | value :: rest => decimal value.toNat ++ ascii '.' :: formatLoop rest

/-- `Ipv4Address::format` into a buffer that is large enough. -/
def format (address : Ipv4Address) : List UInt8 :=
  formatLoop address.value.toList

end Ipv4Address

/-- `IpAddress::parse` of a text that is followed by `after` in memory. -/
def IpAddress.parse (text after : List UInt8) : Option IpAddress :=
  if text = [] then none
  else
    match Ipv4Address.parse text with
    | some address => some (.v4 address)
    | none =>
      match Ipv6Address.parse text after with
      | some address => some (.v6 address)
      | none => none

namespace DomainName

/-- `sizeof d_buffer`. -/
def bufferSize : Nat := 256

/-- The loop of `parse`, with the character that was written before. -/
def parseLoop : Option UInt8 -> List UInt8 -> Option (List UInt8)
  | _, [] => some []
  | previous, ch :: rest =>
    if !isAlnum ch && ch ≠ ascii '.' && ch ≠ ascii '-' && ch ≠ ascii '_' then none
    else
      let ch := toLower ch
      if ch = ascii '.' ∧ (previous = none ∨ previous = some (ascii '.')) then none
      else (parseLoop (some ch) rest).map (ch :: ·)

def isEdge (ch : Option UInt8) : Bool :=
  ch = some (ascii '-') || ch = some (ascii '_')

/-- `DomainName::parse`. -/
def parse (text : List UInt8) : Option DomainName :=
  if text.length > bufferSize - 1 then none
  else
    match parseLoop none text with
    | none => none
    | some buffer =>
      if isEdge buffer.head? || isEdge buffer.getLast? then none else some ⟨ofBytes buffer⟩

end DomainName

namespace LocalName

/-- `setValue` of a new local name. -/
def ofText (text : List UInt8) : Option LocalName :=
  if fits : text.length ≤ maxPathLength then
    some ⟨ofBytes text, false, by rw [ofBytes, List.length_map]; exact fits⟩
  else none

/-- `LocalName::print`. -/
def print (name : LocalName) : List UInt8 :=
  if name.path = [] then "(unnamed)".toList.map ascii
  else if name.isAbstract then "(abstract): ".toList.map ascii ++ toBytes name.path
  else toBytes name.path

end LocalName

namespace Host

/-- `Host::parse` of a text that is followed by `after` in memory. -/
def parse (text after : List UInt8) : Option Host :=
  match text with
  | [] => some .undefined
  | first :: _ =>
    if first = ascii '/' then (LocalName.ofText text).map .localName
    else
      match IpAddress.parse text after with
      | some address => some (.ip address)
      | none =>
        match DomainName.parse text with
        | some name => some (.domainName name)
        | none => none

end Host

/-- `PortUtil::parse` of `size` characters at `source`, which is everything up to the
next null character. Its code is that of `Ipv6ScopeIdUtil::parse`. -/
def PortUtil.parse (source : List UInt8) (size : Nat) : Option UInt16 :=
  (Ipv6ScopeIdUtil.parse source size).map UInt32.toUInt16

end NtfCore.Ntsa
