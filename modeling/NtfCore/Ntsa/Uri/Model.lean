import NtfCore.Ntsa.HostText

/-!
Contract: uniform resource identifiers (`ntsa::Uri`).

Owns: the escapes of `UriUtil::encodeUrl` and `decodeUrl`, the hand-written scanner
of `Uri::parse` and the writer of `Uri::print`.

Neither of them touches the transport of an authority, which is left out.
-/

namespace NtfCore.Ntsa

open NtfCore.Foundation
open NtfCore.Foundation.Text

namespace UriUtil

/-- `decodeHex`. It takes any character for a digit. -/
def decodeHex (character : UInt8) : UInt8 :=
  if isDigit character then character - ascii '0'
  else toLower character - ascii 'a' + 10

/-- `encodeHex`, with the table of characters. -/
def encodeHex (code : UInt8) : UInt8 :=
  let digit := code &&& 15
  if digit < 10 then ascii '0' + digit else ascii 'a' + (digit - 10)

def isUnreserved (ch : UInt8) : Bool :=
  isAlnum ch || ch == ascii '-' || ch == ascii '.' || ch == ascii '_' || ch == ascii '~'

/-- One character of `encodeUrl`. -/
def encodeCharacter (ch : UInt8) : List UInt8 :=
  if isUnreserved ch then [ch]
  else [ascii '%', encodeHex (ch >>> 4), encodeHex (ch &&& 15)]

/-- `encodeUrl` with the default options. -/
def encodeUrl (source : List UInt8) : Option (List UInt8) :=
  if source = [] then none else some (source.flatMap encodeCharacter)

/-- The loop of `decodeUrl`. -/
def decodeLoop : List UInt8 -> Option (List UInt8)
  | [] => some []
  | ch :: rest =>
    if ch = ascii '%' then
      match rest with
      | ch1 :: ch2 :: rest =>
        (decodeLoop rest).map ((decodeHex ch1 <<< 4 ||| decodeHex ch2) :: ·)
      | _ => none
    else (decodeLoop rest).map ((if ch = ascii '+' then ascii ' ' else ch) :: ·)

/-- `decodeUrl`. -/
def decodeUrl (source : List UInt8) : Option (List UInt8) :=
  if source = [] then none else decodeLoop source

/-- `scanChar`: the text up to the first of the characters, and the rest. -/
def scanChar (stops : List Char) (text : List UInt8) : List UInt8 × List UInt8 :=
  (text.takeWhile fun ch => !(stops.map ascii).contains ch,
    text.dropWhile fun ch => !(stops.map ascii).contains ch)

end UriUtil

/-- `ntsa::UriAuthority`. -/
structure UriAuthority where
  user : Option (List UInt8) := none
  host : Option Host := none
  port : Option UInt16 := none

/-- `ntsa::UriParameter`. -/
structure UriParameter where
  name : List UInt8
  value : Option (List UInt8) := none
deriving DecidableEq

/-- `ntsa::Uri`, with the parameters of its query. -/
structure Uri where
  scheme : Option (List UInt8) := none
  authority : Option UriAuthority := none
  path : Option (List UInt8) := none
  query : Option (List UriParameter) := none
  fragment : Option (List UInt8) := none

/-- `operator==` of nullable values. -/
def sameNullable {Value : Type} (equals : Value -> Value -> Bool) : Option Value -> Option Value -> Bool
  | none, none => true
  | some value, some other => equals value other
  | _, _ => false

/-- `UriAuthority::equals`. -/
def UriAuthority.equals (authority other : UriAuthority) : Bool :=
  authority.user == other.user && sameNullable Host.equals authority.host other.host &&
    authority.port == other.port

/-- `Uri::equals`. -/
def Uri.equals (uri other : Uri) : Bool :=
  uri.scheme == other.scheme && sameNullable UriAuthority.equals uri.authority other.authority &&
    uri.path == other.path && uri.query == other.query && uri.fragment == other.fragment

/-- `UriAuthority::setHost` of a text that is followed by `after` in memory. -/
def UriAuthority.setHost (authority : UriAuthority) (value after : List UInt8) :
    Option UriAuthority :=
  match value with
  | [] => none
  | first :: rest =>
    if first = ascii '[' then
      if rest = [] then none
      else if rest.getLast? = some (ascii ']') then
        if rest.dropLast = [] then none
        else
          (Host.parse rest.dropLast (ascii ']' :: after)).map fun host =>
            { authority with host := some host }
      else none
    else (Host.parse value after).map fun host => { authority with host := some host }

/-- `UriQuery::addParameter`. -/
def UriQuery.addParameter (parameterList : List UriParameter) (parameter : UriParameter) :
    Option (List UriParameter) :=
  if parameter.name = [] ∨ parameter.value = some [] then none
  else some (parameterList ++ [parameter])

namespace Uri

open UriUtil

/-- The port of `parse`, which stands before the rest of the text. -/
def setPort (authority : UriAuthority) (text after : List UInt8) : Option UriAuthority :=
  (PortUtil.parse (text ++ after) text.length).map fun port => { authority with port := some port }

/-- The part of `parse` from the host on, with the text before a colon, a slash, a
question mark or a hash. -/
def parseHostPort (authority : Option UriAuthority) (text rest : List UInt8) :
    Option (Option UriAuthority × List UInt8) :=
  match rest with
  | [] => (UriAuthority.setHost (authority.getD {}) text []).map fun result => (some result, [])
  | delimiter :: behind =>
    if delimiter = ascii ':' then
      match UriAuthority.setHost (authority.getD {}) text rest with
      | none => none
      | some authority =>
        let (port, rest) := scanChar ['/', '?', '#'] behind
        if rest = [] ∨ port ≠ [] then
          (setPort authority port rest).map fun authority => (some authority, rest)
        else some (some authority, rest)
    else if text ≠ [] then
      (UriAuthority.setHost (authority.getD {}) text rest).map fun authority =>
        (some authority, rest)
    else some (authority, rest)

/-- The part of `parse` for the authority: what is left of the text is empty when
`parse` is done. -/
def parseAuthority (text : List UInt8) : Option (Option UriAuthority × List UInt8) :=
  let (head, rest) := scanChar ['@', ':', '/', '?', '#'] text
  match rest with
  | [] => parseHostPort none head []
  | delimiter :: behind =>
    if delimiter = ascii '@' then
      match decodeUrl head with
      | none => none
      | some user =>
        let (host, rest) := scanChar [':', '/', '?', '#'] behind
        parseHostPort (some { user := some user }) host rest
    else parseHostPort none head rest

/-- The part of `parse` for the path. A slash at the beginning is part of it, whether
or not the text begins there. -/
def parsePath (text : List UInt8) : Option (List UInt8) × List UInt8 :=
  match text with
  | [] => (none, [])
  | first :: _ =>
    if first ≠ ascii '?' ∧ first ≠ ascii '#' then
      let (path, rest) := scanChar ['?', '#'] text
      (some path, rest)
    else (none, text)

theorem scanChar_length (stops : List Char) (text : List UInt8) :
    (scanChar stops text).2.length ≤ text.length :=
  (List.dropWhile_sublist _).length_le

/-- The loop of `parse` over the parameters, behind a question mark or an ampersand. -/
def queryLoop (parameterList : List UriParameter) (text : List UInt8) :
    Option (List UriParameter × List UInt8) :=
  match scanned : scanChar ['#', '&', '='] text with
  | (head, []) =>
    match decodeUrl head with
    | none => none
    | some name =>
      (UriQuery.addParameter parameterList { name := name }).map fun parameterList =>
        (parameterList, [])
  | (head, delimiter :: behind) =>
    have shorter : behind.length < text.length := by
      have bound := scanChar_length ['#', '&', '='] text
      rw [scanned] at bound
      exact bound
    if delimiter = ascii '=' then
      match decodeUrl head with
      | none => none
      | some name =>
        match decodeUrl (scanChar ['#', '&'] behind).1 with
        | none => none
        | some value =>
          match UriQuery.addParameter parameterList { name := name, value := some value } with
          | none => none
          | some parameterList =>
            match isRest : (scanChar ['#', '&'] behind).2 with
            | [] => some (parameterList, [])
            | next :: later =>
              if next = ascii '#' then some (parameterList, next :: later)
              else
                have : later.length < text.length := by
                  have bound := scanChar_length ['#', '&'] behind
                  rw [isRest] at bound
                  exact Nat.lt_trans bound shorter
                queryLoop parameterList later
    else if delimiter = ascii '#' then some (parameterList, delimiter :: behind)
    else queryLoop parameterList behind
termination_by text.length

/-- The part of `parse` for the query. -/
def parseQuery (text : List UInt8) : Option (Option (List UriParameter) × List UInt8) :=
  match text with
  | [] => some (none, [])
  | first :: rest =>
    if first = ascii '?' then
      (queryLoop [] rest).map fun result => (some result.1, result.2)
    else some (none, text)

/-- The part of `parse` for the fragment. -/
def parseFragment (text : List UInt8) : Option (Option (List UInt8)) :=
  match text with
  | [] => some none
  | first :: rest => if first = ascii '#' then (decodeUrl rest).map some else some none

/-- The part of `parse` for the scheme, which is there when the first colon stands
before two slashes. -/
def parseScheme (text : List UInt8) : Option (List UInt8) × List UInt8 :=
  match scanChar [':'] text with
  | (scheme, _ :: slash1 :: slash2 :: rest) =>
    if slash1 = ascii '/' ∧ slash2 = ascii '/' then (some scheme, rest) else (none, text)
  | _ => (none, text)

/-- `Uri::parse`. -/
def parse (text : List UInt8) : Option Uri :=
  if text = [] then none
  else
    let (scheme, text) := parseScheme text
    match parseAuthority text with
    | none => none
    | some (authority, text) =>
      let (path, text) := parsePath text
      match parseQuery text with
      | none => none
      | some (query, text) =>
        match parseFragment text with
        | none => none
        | some fragment =>
          some
            { scheme := scheme, authority := authority, path := path, query := query,
              fragment := fragment }

/-! ## Printing -/

/-- What a part of `print` writes, and whether `print` returns behind it. -/
abbrev Part := List UInt8 × Bool

def Part.andThen (part : Part) (next : List UInt8) : List UInt8 :=
  part.1 ++ if part.2 then [] else next

def printScheme (uri : Uri) : Part :=
  match uri.scheme with
  | none => ([], false)
  | some [] => ([], true)
  | some scheme => (scheme ++ [ascii ':'], false)

/-- The host as `print` writes it. -/
def printHost : Option Host -> List UInt8
  | some (.domainName name) => toBytes name.text
  | some (.ip (.v4 address)) => address.format
  | some (.ip (.v6 address)) =>
    ascii '[' :: (address.format (Ipv6Address.maxTextLength + 1) true ++ [ascii ']'])
  | some (.localName name) => ascii '[' :: (name.print ++ [ascii ']'])
  | _ => []

def printUser : Option (List UInt8) -> List UInt8
  | none => []
  | some user =>
    match encodeUrl user with
    | none => []
    | some text => text ++ [ascii '@']

def printPort : Option UInt16 -> List UInt8
  | none => []
  | some port => ascii ':' :: decimal port.toNat

def printAuthority (uri : Uri) : Part :=
  match uri.authority with
  | none => ([], false)
  | some authority =>
    ((if uri.scheme.isSome then [ascii '/', ascii '/'] else []) ++
      (printUser authority.user ++ (printHost authority.host ++ printPort authority.port)), false)

def printPath (uri : Uri) : Part :=
  match uri.path with
  | none => ([], false)
  | some [] => ([], true)
  | some (first :: rest) =>
    if uri.authority.isSome then
      if first ≠ ascii '/' then ([], true) else (first :: rest, false)
    else if first = ascii '/' ∧ rest.head? = some (ascii '/') then ([], true)
    else
      ((if uri.scheme.isSome ∧ first = ascii '/' then [ascii '/', ascii '/'] else []) ++
        first :: rest, false)

/-- The loop of `print` over the parameters. -/
def printParameters : Bool -> List UriParameter -> Part
  | _, [] => ([], false)
  | isFirst, parameter :: rest =>
    match encodeUrl parameter.name with
    | none => ([], true)
    | some name =>
      match parameter.value with
      | none =>
        let later := printParameters false rest
        ((if isFirst then [] else [ascii '&']) ++ name ++ later.1, later.2)
      | some plain =>
        match encodeUrl plain with
        | none => ([], true)
        | some value =>
          let later := printParameters false rest
          ((if isFirst then [] else [ascii '&']) ++ name ++ ascii '=' :: value ++ later.1,
            later.2)

def printQuery (uri : Uri) : Part :=
  match uri.query with
  | none => ([], false)
  | some [] => ([], false)
  | some parameterList =>
    let parameters := printParameters true parameterList
    (ascii '?' :: parameters.1, parameters.2)

def printFragment (uri : Uri) : List UInt8 :=
  match uri.fragment with
  | none => []
  | some fragment =>
    match encodeUrl fragment with
    | none => []
    | some text => ascii '#' :: text

/-- `Uri::text`, which is what `Uri::print` writes. -/
def text (uri : Uri) : List UInt8 :=
  Part.andThen uri.printScheme <| Part.andThen uri.printAuthority <|
    Part.andThen uri.printPath <| Part.andThen uri.printQuery uri.printFragment

end Uri

end NtfCore.Ntsa
