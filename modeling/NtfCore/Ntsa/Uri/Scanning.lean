import NtfCore.Ntsa.Uri.Profile

/-!
Contract: identifiers that are read under a profile (`Uri::parse` with a `UriProfile`).

Owns: the scanners of `UriUtil`, what `parse` makes of their errors, and the texts of which it
reads all or nothing, and does not ask an absent authority for its value.
-/

namespace NtfCore.Ntsa

open NtfCore.Foundation.Text List

namespace UriUtil

abbrev Scanned (Value : Type) := Except Error (Value × List UInt8)

def isSchemeCharacter (ch : UInt8) : Bool :=
  isAlnum ch || ch == ascii '+'

def parseScheme (profile : UriProfile) (input : List UInt8) : Scanned UriProfileEntry :=
  match input.dropWhile isSchemeCharacter with
  | [] => .error .eof
  | delimiter :: rest =>
    if delimiter = ascii ':' then
      match profile (input.takeWhile isSchemeCharacter) with
      | none => .error .eof
      | some entry => .ok (entry, rest)
    else .error .eof

def parseUser (input : List UInt8) : Scanned (List UInt8) :=
  match scanChar ['@'] input with
  | (_, []) => .error .eof
  | (user, _ :: rest) => .ok (user, rest)

def parseHost (input : List UInt8) : Scanned Host :=
  if input = [] then .error .eof
  else
    let (span, rest) := scanChar [':', '/', '?', '#'] input
    match Host.parse span rest with
    | none => .error .invalid
    | some host => .ok (host, rest)

def parseHostBracket (input : List UInt8) : Scanned Host :=
  match input with
  | [] => .error .eof
  | first :: inside =>
    if first ≠ ascii '[' then .error .invalid
    else
      match scanChar [']'] inside with
      | (_, []) => .error .eof
      | (span, bracket :: rest) =>
        match Host.parse span (bracket :: rest) with
        | none => .error .invalid
        | some host => .ok (host, rest)

def parsePort (input : List UInt8) : Scanned UInt16 :=
  if input = [] then .error .eof
  else
    let (span, rest) := scanChar ['/', '?', '#'] input
    if span.any (!isDigit ·) ∨ span = [] then .error .invalid
    else
      match PortUtil.parse (span ++ rest) span.length with
      | none => .error .invalid
      | some port => .ok (port, rest)

def parsePath (input : List UInt8) : Scanned (List UInt8) :=
  if input = [] then .error .eof else .ok (scanChar ['?', '#'] input)

def endParameter (query : List UriParameter) (name span : List UInt8) : Option (List UriParameter) :=
  if span = [] then none
  else if name = [] then
    (decodeUrl span).bind fun name => UriQuery.addParameter query { name := name }
  else
    (decodeUrl name).bind fun name => (decodeUrl span).bind fun value =>
      UriQuery.addParameter query { name := name, value := some value }

/-- The loop of `parseQuery`. The end of the text is a null character to it, and so is a null
character the end. -/
def queryLoop (query : List UriParameter) (name span : List UInt8) :
    List UInt8 -> Scanned (List UriParameter)
  | [] =>
    match endParameter query name span with
    | none => .error .invalid
    | some query => .ok (query, [])
  | ch :: rest =>
    if ch = ascii '=' then
      if name ≠ [] ∨ span = [] then .error .invalid else queryLoop query span [] rest
    else if ch = ascii '&' ∨ ch = ascii '#' ∨ ch = 0 then
      match endParameter query name span with
      | none => .error .invalid
      | some query => if ch = ascii '&' then queryLoop query [] [] rest else .ok (query, ch :: rest)
    else queryLoop query name (span ++ [ch]) rest

def parseQuery (input : List UInt8) : Scanned (List UriParameter) :=
  match input with
  | [] => .error .eof
  | first :: rest => if first ≠ ascii '?' then .error .invalid else queryLoop [] [] [] rest

def parseFragment (input : List UInt8) : Scanned (List UInt8) :=
  match input with
  | [] => .error .eof
  | first :: rest =>
    if first ≠ ascii '#' then .error .invalid
    else if rest = [] then .error .eof
    else .ok (rest, [])

end UriUtil

namespace UriProfile

open UriUtil

/-- `ntsa::Uri`. -/
structure ProfiledUri where
  scheme : Option (List UInt8) := none
  authority : Option TransportAuthority := none
  path : Option (List UInt8) := none
  query : Option (List UriParameter) := none
  fragment : Option (List UInt8) := none

def scanPort (authority : TransportAuthority) (input : List UInt8) : Scanned TransportAuthority :=
  match input with
  | [] => .ok (authority, [])
  | delimiter :: rest =>
    if delimiter = ascii ':' then
      (UriUtil.parsePort rest).map fun (port, rest) => ({ authority with port := some port }, rest)
    else .ok (authority, input)

def scanHost (authority : TransportAuthority) (input : List UInt8) : Scanned TransportAuthority :=
  if input.head? = some (ascii '[') then
    match parseHostBracket input with
    | .error error => .error error
    | .ok (host, rest) => scanPort { authority with host := some host } rest
  else
    match UriUtil.parseHost input with
    | .error .eof => scanPort authority input
    | .error error => .error error
    | .ok (host, rest) => scanPort { authority with host := some host } rest

def scanAuthority (input : List UInt8) : Scanned TransportAuthority :=
  if input.head? = some (ascii '[') then scanHost {} input
  else
    match parseUser input with
    | .error _ => scanHost {} input
    | .ok (user, rest) =>
      if rest = [] then .ok ({ user := some user }, []) else scanHost { user := some user } rest

def scanPart {Value : Type} (mark : Char) (scan : List UInt8 -> Scanned Value) (input : List UInt8) :
    Scanned (Option Value) :=
  if input.head? = some (ascii mark) then
    match scan input with
    | .ok (value, rest) => .ok (some value, rest)
    | .error .eof => .ok (none, input)
    | .error error => .error error
  else .ok (none, input)

def overridden (host : Option Host) (suite : Option TransportSuite) : Option TransportSuite :=
  match host with
  | some (.ip (.v4 _)) => some { suite.getD {} with transportDomain := .ipv4 }
  | some (.ip (.v6 _)) => some { suite.getD {} with transportDomain := .ipv6 }
  | some (.localName _) =>
    some { suite.getD {} with transportProtocol := .local', transportDomain := .local' }
  | _ => suite

def setSuite (authority : TransportAuthority) : Option TransportSuite -> TransportAuthority
  | none => authority
  | some suite => setTransport { authority with transportSuite := some suite } suite

def behindSlashes (input : List UInt8) : List UInt8 :=
  match input with
  | first :: second :: rest =>
    if first = ascii '/' ∧ second = ascii '/' then rest else input
  | _ => input

def scanScheme (profile : UriProfile) (text : List UInt8) : Option UriProfileEntry × List UInt8 :=
  match UriUtil.parseScheme profile text with
  | .error _ => (none, text)
  | .ok (entry, rest) => (some entry, rest)

def scanParts (input : List UInt8) : Scanned ProfiledUri :=
  match scanPart '/' UriUtil.parsePath input with
  | .error error => .error error
  | .ok (path, input) =>
    match scanPart '?' UriUtil.parseQuery input with
    | .error error => .error error
    | .ok (query, input) =>
      (scanPart '#' UriUtil.parseFragment input).map fun (fragment, input) =>
        ({ path := path, query := query, fragment := fragment }, input)

/-- `Uri::parse`: what it returns, the identifier, and the end of the text that it has not read.
There is no result where it asks for the value of an absent authority. -/
def parse (profile : UriProfile) (text : List UInt8) : Option (Bool × ProfiledUri × List UInt8) :=
  if text = [] then some (false, {}, [])
  else
    let (entry, input) := scanScheme profile text
    let input := behindSlashes input
    if input = [] then none
    else
      match scanAuthority input with
      | .error _ => some (false, {}, input)
      | .ok (authority, input) =>
        let isAbsent := authority.user.isNone ∧ authority.host.isNone ∧ authority.port.isNone ∧
          authority.transport.isNone ∧ authority.transportSuite.isNone
        match scanParts input with
        | .error _ => some (false, {}, input)
        | .ok (uri, input) =>
          if isAbsent then none
          else
            let scheme := entry.map (·.canonicalScheme)
            let entry :=
              if scheme = none ∨ scheme = some [] then
                profile (if (authority.host.map isLocalName).getD false then
                  "local".toList.map ascii else [])
              else entry
            some (true,
              { uri with
                scheme := entry.map (·.canonicalScheme)
                authority := some (setSuite authority
                  (overridden authority.host (entry.map (·.transportSuite)))) },
              input)

/-- `parse` does not ask for an absent value, leaves nothing of an identifier that it refuses, and
nothing of the text that it accepts. -/
def ReadsWhole (profile : UriProfile) (text : List UInt8) : Prop :=
  ∃ result uri rest, parse profile text = some (result, uri, rest) ∧
    (result = false -> uri = {}) ∧ (result = true -> rest = [])

def behindPath (input : List UInt8) : List UInt8 :=
  if input.head? = some (ascii '/') then (scanChar ['?', '#'] input).2 else input

def behindQuery (input : List UInt8) : List UInt8 :=
  if input.head? = some (ascii '?') then (scanChar ['#', '\x00'] input).2 else input

def Ends (tail : List UInt8) : Prop :=
  (tail = [] ∨ tail.head? = some (ascii '/') ∨ tail.head? = some (ascii '?') ∨
    tail.head? = some (ascii '#')) ∧
  (behindQuery (behindPath tail)).head? ≠ some 0 ∧ behindQuery (behindPath tail) ≠ [ascii '#']

/-- There is something behind the scheme, and what is behind the authority ends as it has to,
unless the authority or the query is refused. -/
def Readable (profile : UriProfile) (text : List UInt8) : Prop :=
  text = [] ∨
    behindSlashes (scanScheme profile text).2 ≠ [] ∧
    ∀ authority tail query rest,
      scanAuthority (behindSlashes (scanScheme profile text).2) = .ok (authority, tail) ->
      scanPart '?' UriUtil.parseQuery (behindPath tail) = .ok (query, rest) -> Ends tail

variable {ch : UInt8} {tail : List UInt8}

theorem behind_stop (stops : ch = ascii '#' ∨ ch = 0) :
    (scanChar ['#', '\x00'] (ch :: tail)).2 = ch :: tail := by
  rcases stops with rfl | rfl <;> rfl

theorem behind_other (other : ¬ (ch = ascii '#' ∨ ch = 0)) :
    (scanChar ['#', '\x00'] (ch :: tail)).2 = (scanChar ['#', '\x00'] tail).2 := by
  have isNull : ascii '\x00' = 0 := rfl
  rw [not_or] at other
  simp only [scanChar, dropWhile_cons, map_cons, map_nil, isNull,
    contains_cons, beq_eq_false_iff_ne.mpr other.1, beq_eq_false_iff_ne.mpr other.2,
    contains_nil, Bool.or_false, Bool.not_false, if_true]

variable {query : List UriParameter} {name span input rest : List UInt8}

theorem queryLoop_rest {result : List UriParameter}
    (scanned : queryLoop query name span input = .ok (result, rest)) :
    rest = (scanChar ['#', '\x00'] input).2 := by
  induction input generalizing query name span with
  | nil =>
    rw [queryLoop] at scanned
    split at scanned
    · cases scanned
    · cases scanned
      rfl
  | cons ch _ ih =>
    rw [queryLoop] at scanned
    split at scanned
    · rename_i isEquals
      split at scanned
      · cases scanned
      · rw [behind_other (by rw [isEquals]; decide)]
        exact ih scanned
    · split at scanned
      · rename_i ends
        split at scanned
        · cases scanned
        · by_cases isAnd : ch = ascii '&'
          · rw [if_pos isAnd] at scanned
            rw [behind_other (by rw [isAnd]; decide)]
            exact ih scanned
          · rw [if_neg isAnd] at scanned
            rw [behind_stop (ends.resolve_left isAnd)]
            cases scanned
            rfl
      · rename_i ends
        rw [behind_other (not_or.mp ends).2]
        exact ih scanned

theorem queryLoop_error {error : Error}
    (scanned : queryLoop query name span input = .error error) : error = .invalid := by
  induction input generalizing query name span with
  | nil =>
    rw [queryLoop] at scanned
    split at scanned
    · cases scanned
      rfl
    · cases scanned
  | cons _ _ ih =>
    rw [queryLoop] at scanned
    split at scanned
    · split at scanned
      · cases scanned
        rfl
      · exact ih scanned
    · split at scanned
      · split at scanned
        · cases scanned
          rfl
        · split at scanned
          · exact ih scanned
          · cases scanned
      · exact ih scanned

theorem scanPath (input : List UInt8) :
    ∃ path, scanPart '/' parsePath input = .ok (path, behindPath input) := by
  unfold scanPart behindPath
  by_cases isPath : input.head? = some (ascii '/')
  · have ne : input ≠ [] := fun isNil => by rw [isNil] at isPath; cases isPath
    rw [if_pos isPath, if_pos isPath, parsePath, if_neg ne]
    exact ⟨_, rfl⟩
  · rw [if_neg isPath, if_neg isPath]
    exact ⟨_, rfl⟩

theorem scanQuery_rest {query : Option (List UriParameter)}
    (scanned : scanPart '?' parseQuery input = .ok (query, rest)) : rest = behindQuery input := by
  unfold scanPart at scanned
  unfold behindQuery
  by_cases isQuery : input.head? = some (ascii '?')
  · rw [if_pos isQuery] at scanned ⊢
    cases input with
    | nil => cases isQuery
    | cons _ tail =>
      cases isQuery
      rw [behind_other (by decide)]
      rw [parseQuery, if_neg (not_not.mpr rfl)] at scanned
      cases isScanned : queryLoop [] [] [] tail with
      | ok =>
        rw [isScanned] at scanned
        cases scanned
        exact queryLoop_rest isScanned
      | error =>
        rw [isScanned, queryLoop_error isScanned] at scanned
        cases scanned
  · rw [if_neg isQuery] at scanned ⊢
    cases scanned
    rfl

/-- A fragment is read to the end, unless it is empty. -/
theorem scanFragment (input : List UInt8) :
    ∃ fragment rest, scanPart '#' parseFragment input = .ok (fragment, rest) ∧
      (rest = [] ↔ input ≠ [ascii '#'] ∧ (input = [] ∨ input.head? = some (ascii '#'))) := by
  unfold scanPart
  split
  · rename_i isFragment
    cases input with
    | nil => cases isFragment
    | cons _ tail =>
      cases isFragment
      cases tail with
      | nil => exact ⟨none, _, rfl, by simp⟩
      | cons => exact ⟨_, _, rfl, by simp⟩
  · refine ⟨none, input, rfl, ?_⟩
    constructor
    · rintro rfl
      exact ⟨nofun, .inl rfl⟩
    · rintro ⟨_, isNil | isHash⟩
      · exact isNil
      · contradiction

variable {authority result : TransportAuthority}

theorem scanPort_host (scanned : scanPort authority input = .ok (result, rest)) :
    result.host = authority.host ∧ result.user = authority.user := by
  unfold scanPort at scanned
  split at scanned
  · cases scanned
    exact ⟨rfl, rfl⟩
  · split at scanned
    · cases isPort : parsePort _ with
      | error => rw [isPort] at scanned; cases scanned
      | ok => rw [isPort] at scanned; cases scanned; exact ⟨rfl, rfl⟩
    · cases scanned
      exact ⟨rfl, rfl⟩

theorem scanHost_present
    (scanned : scanHost authority input = .ok (result, rest)) (ne : input ≠ []) :
    result.host ≠ none := by
  unfold scanHost at scanned
  split at scanned
  · split at scanned
    · cases scanned
    · rw [(scanPort_host scanned).1]
      exact nofun
  · rw [parseHost, if_neg ne] at scanned
    dsimp only at scanned
    cases isHost : Host.parse (scanChar [':', '/', '?', '#'] input).1
        (scanChar [':', '/', '?', '#'] input).2 with
    | none => rw [isHost] at scanned; cases scanned
    | some _ =>
      rw [isHost] at scanned
      rw [(scanPort_host scanned).1]
      exact nofun

theorem scanAuthority_present
    (scanned : scanAuthority input = .ok (authority, rest)) (ne : input ≠ []) :
    ¬ (authority.user.isNone ∧ authority.host.isNone ∧ authority.port.isNone ∧
      authority.transport.isNone ∧ authority.transportSuite.isNone) := by
  rintro ⟨noUser, noHost, _⟩
  have absent := Option.isNone_iff_eq_none.mp noHost
  unfold scanAuthority at scanned
  split at scanned
  · exact scanHost_present scanned ne absent
  · split at scanned
    · exact scanHost_present scanned ne absent
    · split at scanned
      · cases scanned
        cases noUser
      · rename_i behind
        exact scanHost_present scanned behind absent

theorem scanChar_opens (stops : List Char) (text : List UInt8) : (scanChar stops text).2 = [] ∨
      ∃ stop ∈ stops, (scanChar stops text).2.head? = some (ascii stop) := by
  unfold scanChar
  induction text with
  | nil => exact .inl rfl
  | cons ch rest ih =>
    rw [dropWhile_cons]
    split
    · exact ih
    · rename_i stops'
      obtain ⟨stop, mem, isStop⟩ : ∃ stop ∈ stops, ascii stop = ch := by simpa using stops'
      exact .inr ⟨stop, mem, by rw [head?_cons, isStop]⟩

/-- What is left behind the query is nothing, a fragment, or a text that is not read. -/
theorem whole_iff (tail : List UInt8) : behindQuery (behindPath tail) ≠ [ascii '#'] ∧
        (behindQuery (behindPath tail) = [] ∨
          (behindQuery (behindPath tail)).head? = some (ascii '#')) ↔ Ends tail := by
  have path : behindPath tail = tail ∧ tail.head? ≠ some (ascii '/') ∨
      tail.head? = some (ascii '/') ∧ (behindPath tail = [] ∨
        (behindPath tail).head? = some (ascii '?') ∨ (behindPath tail).head? = some (ascii '#')) := by
    have opens := scanChar_opens ['?', '#'] tail
    unfold behindPath
    split
    · simp_all
    · simp_all
  have query : behindQuery (behindPath tail) = behindPath tail ∧
        (behindPath tail).head? ≠ some (ascii '?') ∨
      (behindPath tail).head? = some (ascii '?') ∧ (behindQuery (behindPath tail) = [] ∨
        (behindQuery (behindPath tail)).head? = some (ascii '#') ∨
        (behindQuery (behindPath tail)).head? = some 0) := by
    have opens := scanChar_opens ['#', '\x00'] (behindPath tail)
    unfold behindQuery
    split
    · simp_all [show ascii '\x00' = 0 from rfl]
    · simp_all
  have apart : ascii '#' ≠ 0 ∧ ascii '#' ≠ ascii '?' ∧ ascii '#' ≠ ascii '/' ∧
      ascii '?' ≠ ascii '/' ∧ ascii '?' ≠ 0 ∧ ascii '/' ≠ 0 := by decide
  unfold Ends
  generalize behindPath tail = later at *
  grind

section Parse

variable {profile : UriProfile} {text tail : List UInt8} {authority : TransportAuthority}

variable {error : Error}

variable (ne : text ≠ []) (behind : behindSlashes (scanScheme profile text).2 ≠ [])
include ne behind

theorem parse_refused
    (isScanned : scanAuthority (behindSlashes (scanScheme profile text).2) = .error error) :
    ReadsWhole profile text := by
  unfold ReadsWhole parse
  simp only [if_neg ne, if_neg behind, isScanned]
  exact ⟨_, _, _, rfl, fun _ => rfl, nofun⟩

theorem parse_parts_refused
    (isScanned : scanAuthority (behindSlashes (scanScheme profile text).2) = .ok (authority, tail))
    (refused : scanParts tail = .error error) : ReadsWhole profile text := by
  unfold ReadsWhole parse
  simp only [if_neg ne, if_neg behind, isScanned, refused]
  exact ⟨_, _, _, rfl, fun _ => rfl, nofun⟩

theorem parse_accepted_iff
    (isScanned : scanAuthority (behindSlashes (scanScheme profile text).2) = .ok (authority, tail))
    {uri : ProfiledUri} {rest : List UInt8} (accepted : scanParts tail = .ok (uri, rest)) :
    ReadsWhole profile text ↔ rest = [] := by
  unfold ReadsWhole parse
  simp only [if_neg ne, if_neg behind, isScanned, accepted,
    if_neg (scanAuthority_present isScanned behind)]
  constructor
  · rintro ⟨_, _, _, isResult, _, whole⟩
    obtain ⟨isTrue, _, isRest⟩ : _ ∧ _ ∧ _ := by simpa using isResult
    exact isRest.trans (whole isTrue)
  · intro isNil
    exact ⟨_, _, _, rfl, nofun, fun _ => isNil⟩

end Parse

/-- When an identifier is read under a profile without asking for an absent value, and with
nothing of the text left. -/
theorem identifiers_read_whole_iff (profile : UriProfile) (text : List UInt8) :
    ReadsWhole profile text ↔ Readable profile text := by
  unfold Readable
  by_cases ne : text = []
  · refine iff_of_true ?_ (.inl ne)
    rw [ReadsWhole, parse, if_pos ne]
    exact ⟨_, _, _, rfl, fun _ => rfl, nofun⟩
  rw [or_iff_right ne]
  by_cases behind : behindSlashes (scanScheme profile text).2 = []
  · refine iff_of_false ?_ fun readable => readable.1 behind
    rintro ⟨_, _, _, isResult, _⟩
    unfold parse at isResult
    simp only [if_neg ne, if_pos behind, reduceCtorEq] at isResult
  rw [and_iff_right behind]
  cases isScanned : scanAuthority (behindSlashes (scanScheme profile text).2) with
  | error error =>
    exact iff_of_true (parse_refused ne behind isScanned) fun _ _ _ _ isOk => nomatch isOk
  | ok result =>
    obtain ⟨_, tail⟩ := result
    obtain ⟨path, isPath⟩ := scanPath tail
    cases isQuery : scanPart '?' parseQuery (behindPath tail) with
    | error error =>
      have refused : scanParts tail = .error error := by simp only [scanParts, isPath, isQuery]
      refine iff_of_true (parse_parts_refused ne behind isScanned refused) ?_
      intro other behind query rest isOther isRead
      cases isOther
      rw [isQuery] at isRead
      cases isRead
    | ok result =>
      obtain ⟨query, rest⟩ := result
      obtain ⟨fragment, last, isFragment, isLast⟩ := scanFragment rest
      have accepted : scanParts tail =
          .ok ({ path := path, query := query, fragment := fragment }, last) := by
        simp only [scanParts, isPath, isQuery, isFragment, Except.map]
      rw [parse_accepted_iff ne behind isScanned accepted, isLast, scanQuery_rest isQuery,
        whole_iff]
      constructor
      · intro ends _ _ _ _ isOther _
        cases isOther
        exact ends
      · intro readable
        exact readable _ _ _ _ rfl isQuery

/-- A scheme alone: there is no authority, and its user is asked for. -/
theorem scheme_alone_unread : ¬ ∀ profile text, ReadsWhole profile text := by
  intro all
  obtain ⟨_, _, _, isNone, _⟩ := all (fun _ => none) [ascii '/', ascii '/']
  cases isNone

end UriProfile

end NtfCore.Ntsa
