import NtfCore.Foundation.Text
import NtfCore.Ntsa.Identity

/-!
Contract: the textual representation of IPv6 addresses (`ntsa::Ipv6Address::parse`
and `format`, `ntsa::Ipv6ScopeIdUtil::parse`).

Owns: the two loops of the parser, the writer with its collapsing of zero groups,
and the characters an address takes.
-/

namespace NtfCore.Ntsa

open NtfCore.Foundation
open NtfCore.Foundation.Text

/-! ## Scope identifiers -/

namespace Ipv6ScopeIdUtil

/-- `USHRT_MAX`. -/
def ushortMax : Nat := 65535

/-- The loop of `parse` that skips blanks. It yields the first other character,
what lies behind it, and how many characters were read. The memory ends in a null
character. -/
def skipSpaces : Nat -> UInt8 -> List UInt8 -> Nat × UInt8 × List UInt8
  | position, c, [] => if isSpace c then (position + 1, 0, []) else (position, c, [])
  | position, c, next :: rest =>
    if isSpace c then skipSpaces (position + 1) next rest else (position, c, next :: rest)

/-- The loop of `parse` over the digits, up to the position `e`. -/
def digitLoop (e : Nat) : Nat -> UInt8 -> List UInt8 -> Nat -> Option Nat
  | p, c, [], value =>
    if p = e then some value
    else if !isDigit c then none
    else if p + 1 = e then some ((value * 10 + (c.toNat - (ascii '0').toNat)) % 2 ^ 64)
    else none
  | p, c, next :: rest, value =>
    if p = e then some value
    else if !isDigit c then none
    else digitLoop e (p + 1) next rest
      ((value * 10 + (c.toNat - (ascii '0').toNat)) % 2 ^ 64)

/-- `Ipv6ScopeIdUtil::parse` of `size` characters at `source`, which is everything
up to the next null character: the function reads behind the end. -/
def parse (source : List UInt8) (size : Nat) : Option UInt32 :=
  match source with
  | [] => none
  | first :: rest =>
    if first = 0 then none
    else
      let (position, c, rest) := skipSpaces 1 first rest
      if c = ascii '-' then none
      else
        let (position, c, rest) :=
          if c = ascii '+' then (position + 1, rest.headD 0, rest.tail) else (position, c, rest)
        match digitLoop (size + 1) position c rest 0 with
        | none => none
        | some value => if value > ushortMax then none else some (UInt32.ofNat value)

end Ipv6ScopeIdUtil

namespace Ipv6Address

/-- `d_asBytes`. -/
def asBytes (address : Ipv6Address) : List UInt8 :=
  address.firstQword.toList ++ address.secondQword.toList

/-- The variables of the loop of `parse` over the groups. A write behind the end of
`value` is not modelled. -/
structure ParseState where
  value : Vector UInt8 16 := Vector.replicate 16 0
  groupValue : UInt16 := 0
  outputIndex : Nat := 0

def ParseState.store (state : ParseState) : Vector UInt8 16 :=
  (state.value.setIfInBounds state.outputIndex (state.groupValue >>> 8).toUInt8).setIfInBounds
    (state.outputIndex + 1) state.groupValue.toUInt8

def hexValue (chr : UInt8) : Option UInt8 :=
  let chr := chr ||| 0x20
  if ascii '0' ≤ chr ∧ chr ≤ ascii '9' then some (chr - ascii '0')
  else if ascii 'a' ≤ chr ∧ chr ≤ ascii 'f' then some ((chr - ascii 'a') + 10)
  else none

/-- The first loop of `parse`: whether there is a colon, and the byte at which the
groups after a double colon start. -/
def skipLoop : UInt8 -> Bool × Nat -> List UInt8 -> Bool × Nat
  | _, found, [] => found
  | previous, (colonFound, skipIndex), chr :: rest =>
    if chr = ascii ':' then
      skipLoop chr (true, if previous = ascii ':' then 14
        else if skipIndex > 0 then skipIndex - 2 else skipIndex) rest
    else skipLoop chr (colonFound, skipIndex) rest

/-- The second loop of `parse`, with the character before the current one. It
yields what follows a percent sign. A null character is no digit, so the test for
it at the end of the body never succeeds. -/
def groupLoop (skipIndex : Nat) :
    Option UInt8 -> ParseState -> List UInt8 -> Option (ParseState × Option (List UInt8))
  | _, state, [] => some (state, none)
  | previous, state, chr :: rest =>
    if state.outputIndex < 16 then
      if chr = ascii ':' then
        groupLoop skipIndex (some chr)
          { value := state.store
            groupValue := 0
            outputIndex :=
              if skipIndex > 0 ∧ previous = some (ascii ':') then skipIndex
              else state.outputIndex + 2 } rest
      else if chr = ascii '%' then
        match previous with
        | none => none
        | some _ => some (state, some rest)
      else
        match hexValue chr with
        | none => none
        | some val =>
          groupLoop skipIndex (some chr)
            { state with groupValue := (state.groupValue <<< 4) ||| val.toUInt16 } rest
    else some (state, none)

def ofBytes (value : Vector UInt8 16) (scopeId : UInt32) : Ipv6Address where
  firstQword := Vector.ofFn fun index => value.get (index.castLE (by decide))
  secondQword := Vector.ofFn fun index => value.get (Fin.natAdd 8 index)
  scopeId := scopeId

/-- `Ipv6Address::parse` of a text that is followed by `after` in memory. -/
def parse (text after : List UInt8) : Option Ipv6Address :=
  match text with
  | [] => none
  | first :: rest =>
    if text.length < 2 then none
    else if text.length > 39 then none
    else
      let (colonFound, skipIndex) := skipLoop first (false, 0) rest
      if !colonFound then none
      else
        match groupLoop skipIndex none {} text with
        | none => none
        | some (state, none) => some (ofBytes state.store 0)
        | some (state, some scope) =>
          match Ipv6ScopeIdUtil.parse (scope ++ after) scope.length with
          | none => none
          | some scopeId => some (ofBytes state.store scopeId)

/-! ## Formatting -/

/-- `MAX_TEXT_LENGTH`. -/
def maxTextLength : Nat := 39 + 4

def hexDigit (nibble : UInt8) : UInt8 :=
  if nibble < 10 then ascii '0' + nibble else ascii 'a' + (nibble - 10)

def groupText (v1 v2 : UInt8) : List UInt8 :=
  let v1a := v1 >>> 4
  let v1b := v1 &&& 0x0F
  let v2a := v2 >>> 4
  let v2b := v2 &&& 0x0F
  (if v1a ≠ 0 then [hexDigit v1a] else []) ++
    (if v1a ≠ 0 ∨ v1b ≠ 0 then [hexDigit v1b] else []) ++
    (if v1a ≠ 0 ∨ v1b ≠ 0 ∨ v2a ≠ 0 then [hexDigit v2a] else []) ++
    [hexDigit v2b]

/-- The loop of `format` over the groups. -/
def groupsText : List UInt8 -> List UInt8
  | v1 :: v2 :: rest =>
    groupText v1 v2 ++ if rest = [] then [] else ascii ':' :: groupsText rest
  | _ => []

def scopeText (scopeId : UInt32) : List UInt8 :=
  if scopeId > 0 then ascii '%' :: decimal scopeId.toNat else []

/-- The characters that `strspn` accepts. -/
def isZeroOrColon (chr : UInt8) : Bool :=
  chr == ascii ':' || chr == ascii '0'

/-- The loop of `format` that looks for the longest stretch of zeros and colons. -/
def collapseLoop : Nat -> Nat × Nat -> List UInt8 -> Nat × Nat
  | _, found, [] => found
  | i, (best, maximum), chr :: rest =>
    if i > 0 ∧ chr ≠ ascii ':' then collapseLoop (i + 1) (best, maximum) rest
    else
      let j := spanLength isZeroOrColon (chr :: rest)
      collapseLoop (i + 1) (if j > maximum then (i, j) else (best, maximum)) rest

/-- The last part of `format`. -/
def collapsed (buffer : List UInt8) : List UInt8 :=
  let (best, maximum) := collapseLoop 0 (0, 2) buffer
  if maximum > 2 then
    buffer.take best ++ [ascii ':', ascii ':'] ++ buffer.drop (best + maximum)
  else buffer

/-- `Ipv6Address::format`: the characters it writes before the null character. -/
def format (address : Ipv6Address) (capacity : Nat) (collapse : Bool) : List UInt8 :=
  if capacity < maxTextLength + 1 then []
  else
    let buffer := groupsText address.asBytes ++ scopeText address.scopeId
    if collapse then collapsed buffer else buffer

end Ipv6Address

end NtfCore.Ntsa
