import NtfCore.Ntsa.Uri.Components

/-!
Contract: which uniform resource identifiers are read back from their text.

Owns: that `parse` restores what `print` writes when the host is readable, that
`parse` yields no other hosts, and the condition that follows.
-/

namespace NtfCore.Ntsa.Uri

open NtfCore.Foundation List Option UriAuthority Host
open NtfCore.Foundation.Text
open UriUtil

structure Assembled (uri : Uri) : Prop where
  scheme : ∃ scheme, uri.scheme = some scheme ∧ scheme ≠ [] ∧ ascii ':' ∉ scheme
  authority : ∃ authority, uri.authority = some authority ∧ authority.host ≠ none ∧
    ∀ user ∈ authority.user, user ≠ []
  path : ∀ path ∈ uri.path, path.head? = some (ascii '/') ∧ ascii '?' ∉ path ∧ ascii '#' ∉ path
  query : ∀ parameterList ∈ uri.query, ∀ parameter ∈ parameterList,
    parameter.name ≠ [] ∧ ∃ value ≠ [], parameter.value = some value
  fragment : ∀ fragment ∈ uri.fragment, fragment ≠ []

def Readable (uri : Uri) : Prop :=
  (∃ authority host, uri.authority = some authority ∧ authority.host = some host ∧ host.Readable) ∧
    uri.query ≠ some []

theorem host_plain {text : List UInt8}
    (characters : ∀ ch ∈ text, DomainName.isNameCharacter ch = true) {stops : List Char}
    (delimiters : (stops.all fun stop => !DomainName.isNameCharacter (ascii stop)) = true) :
    ∀ ch ∈ text, ch ∉ stops.map ascii := by
  intro ch mem inStops
  obtain ⟨stop, isStop, isCh⟩ := mem_map.mp inStops
  have notName := all_eq_true.mp delimiters stop isStop
  rw [isCh, characters ch mem] at notName
  contradiction

/-! ## The host and the port -/

variable {host : Host}

theorem setHost_readable (readable : host.Readable) (authority : UriAuthority)
    (after : List UInt8) : setHost authority (printHost (some host)) after =
      some { authority with host := some host } := by
  obtain ⟨ne, characters⟩ := printed_plain readable
  have parsed := parse_printed readable after
  cases isText : printHost (some host) with
  | nil => contradiction
  | cons first =>
    rw [isText] at characters parsed
    have notBracket : first ≠ ascii '[' := by
      intro isBracket
      have isName := characters first mem_cons_self
      rw [isBracket] at isName
      contradiction
    rw [setHost.eq_def]
    dsimp only
    rw [if_neg notBracket, parsed]
    rfl

def Follows (tail : List UInt8) : Prop :=
  ∀ ch ∈ tail.head?, ch ∈ ['/', '?', '#'].map ascii

variable {authority : Option UriAuthority} {user : Option (List UInt8)}

theorem parseHostPort_readable (readable : host.Readable)
    (isAuthority : authority.getD {} = { user := user }) (port : Option UInt16) {tail : List UInt8}
    (follows : Follows tail) :
    parseHostPort authority (printHost (some host)) (printPort port ++ tail) =
      some (some { user := user, host := some host, port := port }, tail) := by
  obtain ⟨ne, _⟩ := printed_plain readable
  have isHost := setHost_readable readable { user := user }
  cases port with
  | none =>
    rw [printPort, nil_append]
    cases tail with
    | nil =>
      rw [parseHostPort, isAuthority, isHost]
      rfl
    | cons first =>
      have notColon : first ≠ ascii ':' := by
        intro isColon
        have isStop := follows first rfl
        rw [isColon] at isStop
        contradiction
      rw [parseHostPort, if_neg notColon, if_pos ne, isAuthority, isHost]
      rfl
  | some port =>
    have digits : ∀ ch ∈ decimal port.toNat, DomainName.isNameCharacter ch = true := by
      intro _ mem
      have isDigit := isDigit_of_mem_decimal mem
      simp [DomainName.isNameCharacter, isAlnum, isDigit]
    have scanned := scanChar_append (host_plain digits rfl) follows
    rw [printPort, cons_append, parseHostPort, if_pos rfl, isAuthority, isHost]
    rw [scanned]
    dsimp only
    rw [if_pos (.inr (decimal_ne_nil _)), setPort, PortUtil.parse_decimal]
    rfl

variable {tail : List UInt8}

/-- What stands behind the host ends a scan for it. -/
theorem behind_host (port : Option UInt16) (follows : Follows tail) :
    ∀ ch ∈ (printPort port ++ tail).head?, ch ∈ [':', '/', '?', '#'].map ascii := by
  cases port with
  | none =>
    intro ch isHead
    exact mem_cons_of_mem _ (follows ch isHead)
  | some =>
    intro _ isHead
    cases isHead
    exact mem_cons_self

theorem parseAuthority_readable (readable : host.Readable)
    (ne : ∀ text ∈ user, text ≠ []) (port : Option UInt16) (follows : Follows tail) :
    parseAuthority (printUser user ++ (printHost (some host) ++ (printPort port ++ tail))) =
      some (some { user := user, host := some host, port := port }, tail) := by
  obtain ⟨_, characters⟩ := printed_plain readable
  have behind := behind_host port follows
  cases user with
  | none =>
    have scanned : scanChar ['@', ':', '/', '?', '#']
        (printHost (some host) ++ (printPort port ++ tail)) = _ :=
      scanChar_append (host_plain characters rfl) fun ch isHead =>
        mem_cons_of_mem _ (behind ch isHead)
    have parsed : parseHostPort none (printHost (some host)) (printPort port ++ tail) = _ :=
      parseHostPort_readable readable rfl port follows
    rw [printUser, nil_append, parseAuthority, scanned]
    generalize printPort port ++ tail = rest at behind parsed ⊢
    cases rest with
    | nil => exact parsed
    | cons delimiter =>
      have notAt : delimiter ≠ ascii '@' := by
        intro isAt
        have isStop := behind delimiter rfl
        rw [isAt] at isStop
        contradiction
      dsimp only
      rw [if_neg notAt]
      exact parsed
  | some user =>
    obtain ⟨encoded, isEncoded, _, decoded, plain⟩ := encodeUrl_spec (ne user rfl)
    have scannedUser : scanChar ['@', ':', '/', '?', '#'] (encoded ++ (ascii '@' ::
        (printHost (some host) ++ (printPort port ++ tail)))) = (encoded, _) :=
      scanChar_append (plain_of_encoded plain rfl) (by simp)
    have scannedHost := scanChar_append (host_plain characters rfl) behind
    rw [printUser, isEncoded]
    rw [append_assoc, singleton_append, parseAuthority, scannedUser]
    dsimp only
    rw [if_pos rfl, decoded]
    rw [scannedHost]
    exact parseHostPort_readable readable rfl port follows

/-! ## The query -/

def Given (parameter : UriParameter) : Prop :=
  parameter.name ≠ [] ∧ ∃ value ≠ [], parameter.value = some value

def Ends (tail : List UInt8) : Prop :=
  ∀ ch ∈ tail.head?, ch = ascii '#'

variable {parameter : UriParameter}

/-- What `print` writes for a parameter, and how it is read. -/
theorem given_spec (given : Given parameter) :
    ∃ name value, encodeUrl parameter.name = some name ∧ decodeUrl name = some parameter.name ∧
      (∀ ch ∈ name, ch ∉ ['#', '&', '='].map ascii) ∧
      (∃ plain, parameter.value = some plain ∧ plain ≠ [] ∧ encodeUrl plain = some value ∧
        decodeUrl value = some plain) ∧ ∀ ch ∈ value, ch ∉ ['#', '&'].map ascii := by
  obtain ⟨nameNonempty, plain, plainNonempty, isValue⟩ := given
  obtain ⟨name, isName, _, nameDecoded, nameCharacters⟩ := encodeUrl_spec nameNonempty
  obtain ⟨value, isEncoded, _, valueDecoded, valueCharacters⟩ := encodeUrl_spec plainNonempty
  refine ⟨name, value, isName, nameDecoded, plain_of_encoded nameCharacters rfl,
    ⟨plain, isValue, plainNonempty, isEncoded, valueDecoded⟩, ?_⟩
  exact plain_of_encoded valueCharacters rfl

def afterParameter (parameterList : List UriParameter) :
    List UInt8 -> Option (List UriParameter × List UInt8)
  | [] => some (parameterList, [])
  | next :: later =>
    if next = ascii '#' then some (parameterList, next :: later)
    else queryLoop parameterList later

theorem queryLoop_parameter {name value plain rest : List UInt8}
    (nameDecoded : decodeUrl name = some parameter.name)
    (namePlain : ∀ ch ∈ name, ch ∉ ['#', '&', '='].map ascii)
    (isValue : parameter.value = some plain) (valueDecoded : decodeUrl value = some plain)
    (valuePlain : ∀ ch ∈ value, ch ∉ ['#', '&'].map ascii) (given : Given parameter)
    (stopped : ∀ ch ∈ rest.head?, ch ∈ ['#', '&'].map ascii) (parameterList : List UriParameter) :
    queryLoop parameterList (name ++ ascii '=' :: (value ++ rest)) =
      afterParameter (parameterList ++ [parameter]) rest := by
  have scannedName : scanChar ['#', '&', '='] (name ++ ascii '=' :: (value ++ rest)) =
      (name, ascii '=' :: (value ++ rest)) := scanChar_append namePlain (by simp)
  have scannedValue : scanChar ['#', '&'] (value ++ rest) = (value, rest) :=
    scanChar_append valuePlain stopped
  have added : UriQuery.addParameter parameterList { name := parameter.name, value := some plain } =
      some (parameterList ++ [parameter]) := by
    have ne : ¬ (parameter.name = [] ∨ some plain = some []) := by
      rintro (isNil | isNil)
      · exact given.1 isNil
      · obtain ⟨_, otherNonempty, isOther⟩ := given.2
        rw [isValue, isNil] at isOther
        exact otherNonempty (some.inj isOther).symm
    rw [UriQuery.addParameter, if_neg ne, ← isValue]
  rw [queryLoop.eq_def]
  split
  · rename_i head scanned
    rw [scannedName, Prod.mk.injEq] at scanned
    exact absurd scanned.2 (cons_ne_nil _ _)
  · rename_i _ _ _ scanned
    rw [scannedName] at scanned
    injection scanned with isHead isTail
    injection isTail with isDelimiter isBehind
    subst isHead isDelimiter isBehind
    rw [if_pos rfl, nameDecoded]
    have isValueText : (scanChar ['#', '&'] (value ++ rest)).1 = value := by rw [scannedValue]
    have isRest : (scanChar ['#', '&'] (value ++ rest)).2 = rest := by rw [scannedValue]
    rw [isValueText, valueDecoded]
    dsimp only
    rw [added]
    dsimp only
    split
    · rename_i isNil
      rw [← isRest, isNil]
      rfl
    · rename_i _ _ isCons
      rw [← isRest, isCons]
      rfl

theorem afterParameter_ends (ends : Ends tail) (parameterList : List UriParameter) :
    afterParameter parameterList tail = some (parameterList, tail) := by
  cases tail with
  | nil => rfl
  | cons next => rw [afterParameter, if_pos (ends next rfl)]

/-- The parameters behind the first one are written with an ampersand before them. -/
theorem printParameters_later (given : Given parameter) (rest : List UriParameter) :
    printParameters false (parameter :: rest) =
      (ascii '&' :: (printParameters true (parameter :: rest)).1,
        (printParameters true (parameter :: rest)).2) := by
  obtain ⟨_, _, isName, _, _, ⟨_, isPlain, _, isValue, _⟩, _⟩ := given_spec given
  simp [printParameters, isName, isPlain, isValue]

theorem queryLoop_parameters {parameters : List UriParameter}
    (given : ∀ parameter ∈ parameters, Given parameter) (ne : parameters ≠ [])
    (ends : Ends tail) (parameterList : List UriParameter) :
    (printParameters true parameters).2 = false ∧
      queryLoop parameterList ((printParameters true parameters).1 ++ tail) =
        some (parameterList ++ parameters, tail) := by
  induction parameters generalizing parameterList with
  | nil => contradiction
  | cons parameter rest ih =>
    obtain ⟨isGiven, restGiven⟩ := forall_mem_cons.mp given
    obtain ⟨name, value, isName, nameDecoded, namePlain,
      ⟨_, isPlain, _, isValue, valueDecoded⟩, valuePlain⟩ := given_spec isGiven
    have printed : printParameters true (parameter :: rest) =
        (name ++ ascii '=' :: (value ++ (printParameters false rest).1),
          (printParameters false rest).2) := by
      simp [printParameters, isName, isPlain, isValue]
    have turn : ∀ {later : List UInt8}, (∀ ch ∈ later.head?, ch ∈ ['#', '&'].map ascii) ->
        queryLoop parameterList (name ++ ascii '=' :: (value ++ later)) =
          afterParameter (parameterList ++ [parameter]) later := fun stopped =>
      queryLoop_parameter nameDecoded namePlain isPlain valueDecoded valuePlain isGiven stopped
        parameterList
    rw [printed]
    rw [append_assoc, cons_append, append_assoc]
    cases rest with
    | nil =>
      have stopped : ∀ ch ∈ tail.head?, ch ∈ ['#', '&'].map ascii := fun ch isHead =>
        ends ch isHead ▸ mem_cons_self
      refine ⟨rfl, ?_⟩
      rw [printParameters, nil_append, turn stopped, afterParameter_ends ends]
    | cons next =>
      obtain ⟨unbroken, looped⟩ := ih restGiven (cons_ne_nil _ _) (parameterList ++ [parameter])
      rw [printParameters_later (restGiven next mem_cons_self)]
      refine ⟨unbroken, ?_⟩
      rw [cons_append, turn (by simp), afterParameter, if_neg (by decide), looped,
        append_assoc, singleton_append]

/-! ## The components in order -/

def writtenQuery (uri : Uri) : Option (List UriParameter) :=
  if uri.query = some [] then none else uri.query

section Assembled

variable {uri : Uri} (assembled : uri.Assembled)
include assembled

theorem fragment_read :
    Ends uri.printFragment ∧ parseFragment uri.printFragment = some uri.fragment := by
  unfold printFragment
  cases isFragment : uri.fragment with
  | none => exact ⟨nofun, rfl⟩
  | some fragment =>
    obtain ⟨_, isText, _, decoded, _⟩ := encodeUrl_spec (assembled.fragment fragment isFragment)
    dsimp only
    rw [isText]
    refine ⟨fun _ isHead => (some.inj isHead).symm, ?_⟩
    rw [parseFragment, if_pos rfl, decoded]
    rfl

variable {tail : List UInt8}

theorem query_read (ends : Ends tail) : uri.printQuery.2 = false ∧
      (∀ ch ∈ (uri.printQuery.1 ++ tail).head?, ch ∈ ['?', '#'].map ascii) ∧
      parseQuery (uri.printQuery.1 ++ tail) = some (writtenQuery uri, tail) := by
  have unwritten : (∀ ch ∈ tail.head?, ch ∈ ['?', '#'].map ascii) ∧
      parseQuery tail = some (none, tail) := by
    cases tail with
    | nil => exact ⟨nofun, rfl⟩
    | cons first rest =>
      have isHash : first = ascii '#' := ends first rfl
      rw [isHash]
      exact ⟨fun ch isHead => some.inj isHead ▸ by decide, rfl⟩
  unfold printQuery writtenQuery
  cases isQuery : uri.query with
  | none => exact ⟨rfl, unwritten⟩
  | some parameters =>
    cases parameters with
    | nil => exact ⟨rfl, unwritten⟩
    | cons =>
      obtain ⟨unbroken, looped⟩ := queryLoop_parameters (assembled.query _ isQuery)
        (cons_ne_nil _ _) ends []
      refine ⟨unbroken, fun _ isHead => some.inj isHead ▸ by decide, ?_⟩
      rw [cons_append, parseQuery, if_pos rfl, looped, if_neg (by simp)]
      rfl

theorem path_read (located : uri.authority.isSome = true)
    (stopped : ∀ ch ∈ tail.head?, ch ∈ ['?', '#'].map ascii) :
    uri.printPath.2 = false ∧ Follows (uri.printPath.1 ++ tail) ∧
      parsePath (uri.printPath.1 ++ tail) = (uri.path, tail) := by
  unfold printPath
  cases isPath : uri.path with
  | none =>
    refine ⟨rfl, fun ch isHead => mem_cons_of_mem _ (stopped ch isHead), ?_⟩
    rw [nil_append]
    cases tail with
    | nil => rfl
    | cons first rest =>
      have isStop := stopped first rfl
      have refused : ¬ (first ≠ ascii '?' ∧ first ≠ ascii '#') := by
        intro ⟨notMark, notHash⟩
        simp [notMark, notHash] at isStop
      rw [parsePath, if_neg refused]
  | some path =>
    obtain ⟨isSlash, noMark, noHash⟩ := assembled.path path isPath
    cases path with
    | nil => contradiction
    | cons first rest =>
      have isFirst : first = ascii '/' := some.inj isSlash
      have plain : ∀ ch ∈ first :: rest, ch ∉ ['?', '#'].map ascii := by
        intro _ mem inStops
        rcases mem_cons.mp inStops with isMark | isHash
        · exact noMark (isMark ▸ mem)
        · exact noHash (mem_singleton.mp isHash ▸ mem)
      have scanned := scanChar_append plain stopped
      dsimp only
      rw [if_pos located, if_neg (not_not.mpr isFirst)]
      refine ⟨rfl, fun _ isHead => ?_, ?_⟩
      · rw [← some.inj isHead, isFirst]
        exact mem_cons_self
      · have accepted : first ≠ ascii '?' ∧ first ≠ ascii '#' := by
          rw [isFirst]
          decide
        rw [cons_append] at scanned ⊢
        rw [parsePath, if_pos accepted, scanned]

end Assembled

variable {scheme : List UInt8}

theorem parseScheme_read (plain : ascii ':' ∉ scheme) (rest : List UInt8) :
    parseScheme (scheme ++ ascii ':' :: ascii '/' :: ascii '/' :: rest) = (some scheme, rest) := by
  have scanned : scanChar [':'] (scheme ++ ascii ':' :: ascii '/' :: ascii '/' :: rest) =
      (scheme, ascii ':' :: ascii '/' :: ascii '/' :: rest) :=
    scanChar_append (fun _ mem inStops => plain (mem_singleton.mp inStops ▸ mem)) (by simp)
  rw [parseScheme, scanned]
  dsimp only
  rw [if_pos ⟨rfl, rfl⟩]

variable {uri : Uri}

/-- What an assembled identifier is written as. -/
theorem text_eq (assembled : uri.Assembled) {authority : UriAuthority}
    (isScheme : uri.scheme = some scheme) (ne : scheme ≠ [])
    (isAuthority : uri.authority = some authority) :
    uri.text = scheme ++ ascii ':' :: ascii '/' :: ascii '/' ::
      (printUser authority.user ++ (printHost authority.host ++ (printPort authority.port ++
        (uri.printPath.1 ++ (uri.printQuery.1 ++ uri.printFragment))))) := by
  obtain ⟨ends, _⟩ := fragment_read assembled
  obtain ⟨queryUnbroken, stopped, _⟩ := query_read assembled ends
  have pathUnbroken := (path_read assembled (by rw [isAuthority]; rfl) stopped).1
  have schemePart : uri.printScheme = (scheme ++ [ascii ':'], false) := by
    unfold printScheme
    rw [isScheme]
    cases scheme with
    | nil => contradiction
    | cons => rfl
  simp [text, Part.andThen, schemePart, printAuthority, isAuthority, isScheme, pathUnbroken,
    queryUnbroken]

/-- An identifier with a readable host is read back as far as it is written. -/
theorem parse_text (assembled : uri.Assembled) {authority : UriAuthority}
    (isAuthority : uri.authority = some authority) (isHost : authority.host = some host)
    (readable : host.Readable) : parse uri.text = some { uri with query := writtenQuery uri } := by
  obtain ⟨_, isScheme, ne, plain⟩ := assembled.scheme
  obtain ⟨other, isOther, _, userNonempty⟩ := assembled.authority
  have same : other = authority := some.inj (isOther.symm.trans isAuthority)
  subst same
  obtain ⟨ends, fragmentRead⟩ := fragment_read assembled
  obtain ⟨_, stopped, queryRead⟩ := query_read assembled ends
  obtain ⟨_, follows, pathRead⟩ := path_read assembled (by rw [isAuthority]; rfl) stopped
  have authorityRead := parseAuthority_readable readable userNonempty other.port follows
  have someText : uri.text ≠ [] := by
    rw [text_eq assembled isScheme ne isAuthority]
    exact append_ne_nil_of_left_ne_nil ne _
  rw [parse, if_neg someText, text_eq assembled isScheme ne isAuthority, isHost,
    parseScheme_read plain]
  dsimp only
  rw [authorityRead]
  dsimp only
  rw [pathRead]
  rw [queryRead]
  dsimp only
  rw [fragmentRead]
  rw [← isHost, ← isScheme, ← isAuthority]

/-! ## What is read -/

theorem setHost_yields {authority result : UriAuthority} {text after : List UInt8}
    (noColon : ascii ':' ∉ text) (noSlash : ascii '/' ∉ text)
    (isSet : setHost authority text after = some result) : ∀ host ∈ result.host, host.Readable := by
  have parsed : ∀ {part behind : List UInt8}, (∀ ch ∈ part, ch ∈ text) -> part ≠ [] ->
      (Host.parse part behind).map (fun host => { authority with host := some host }) =
        some result -> ∀ host ∈ result.host, host.Readable := by
    intro _ _ contained ne isResult _ isHost
    obtain ⟨_, isRead, assigned⟩ := map_eq_some_iff.mp isResult
    rw [← assigned, mem_def, some.injEq] at isHost
    rw [← isHost]
    exact readable_of_parse ne (fun mem => noColon (contained _ mem))
      (fun mem => noSlash (contained _ mem)) isRead
  cases text with
  | nil => contradiction
  | cons _ rest =>
    rw [setHost.eq_def] at isSet
    dsimp only at isSet
    split at isSet
    · split at isSet
      · contradiction
      · split at isSet
        · split at isSet
          · contradiction
          · rename_i ne
            exact parsed (fun ch mem => mem_cons_of_mem _ (dropLast_subset rest mem)) ne isSet
        · contradiction
    · exact parsed (fun _ mem => mem) (cons_ne_nil _ _) isSet

variable {result : Option UriAuthority}

theorem parseHostPort_yields {text rest behind : List UInt8}
    (unset : (authority.getD {}).host = none)
    (noColon : ascii ':' ∉ text) (noSlash : ascii '/' ∉ text)
    (parsed : parseHostPort authority text rest = some (result, behind)) :
    ∀ authority ∈ result, ∀ host ∈ authority.host, host.Readable := by
  intro located isLocated
  have set : ∀ {after : List UInt8} {read : UriAuthority},
      setHost (authority.getD {}) text after = some read ->
        ∀ host ∈ read.host, host.Readable := fun isSet =>
    setHost_yields noColon noSlash isSet
  rw [parseHostPort.eq_def] at parsed
  split at parsed
  · obtain ⟨read, isSet, isResult⟩ := map_eq_some_iff.mp parsed
    rw [← (Prod.mk.inj isResult).1] at isLocated
    cases isLocated
    exact set isSet
  · split at parsed
    · split at parsed
      · contradiction
      · rename_i read isSet
        dsimp only at parsed
        split at parsed
        · obtain ⟨ported, isPort, isResult⟩ := map_eq_some_iff.mp parsed
          obtain ⟨_, _, assigned⟩ := map_eq_some_iff.mp isPort
          have sameHost : ported.host = read.host := by rw [← assigned]
          rw [← (Prod.mk.inj isResult).1] at isLocated
          rw [← some.inj isLocated, sameHost]
          exact set isSet
        · rw [← (Prod.mk.inj (some.inj parsed)).1] at isLocated
          cases isLocated
          exact set isSet
    · split at parsed
      · obtain ⟨_, isSet, isResult⟩ := map_eq_some_iff.mp parsed
        rw [← (Prod.mk.inj isResult).1] at isLocated
        cases isLocated
        exact set isSet
      · rw [← (Prod.mk.inj (some.inj parsed)).1] at isLocated
        rw [isLocated] at unset
        intro _ isHost
        rw [show located.host = none from unset] at isHost
        contradiction

/-- Both scans for a host stop at a colon and at a slash. -/
theorem parseAuthority_yields {text behind : List UInt8}
    (parsed : parseAuthority text = some (result, behind)) :
    ∀ authority ∈ result, ∀ host ∈ authority.host, host.Readable := by
  have stops : ∀ {delimiters : List Char} {text : List UInt8} {stop : Char}, stop ∈ delimiters ->
      ascii stop ∉ (scanChar delimiters text).1 := fun isStop mem =>
    scanChar_plain mem (mem_map_of_mem isStop)
  rw [parseAuthority] at parsed
  dsimp only at parsed
  split at parsed
  · exact parseHostPort_yields rfl (stops (by decide)) (stops (by decide)) parsed
  · split at parsed
    · split at parsed
      · contradiction
      · exact parseHostPort_yields rfl (stops (by decide)) (stops (by decide)) parsed
    · exact parseHostPort_yields rfl (stops (by decide)) (stops (by decide)) parsed

theorem parse_yields {text : List UInt8} (parsed : parse text = some uri) :
    ∀ authority ∈ uri.authority, ∀ host ∈ authority.host, host.Readable := by
  rw [parse] at parsed
  split at parsed
  · contradiction
  · dsimp only at parsed
    split at parsed
    · contradiction
    · rename_i isAuthority
      split at parsed
      · contradiction
      · split at parsed
        · contradiction
        · cases parsed
          exact parseAuthority_yields isAuthority

theorem sameNullable_some {Value : Type} {equals : Value -> Value -> Bool} {value : Option Value}
    {other : Value} (same : sameNullable equals value (some other) = true) :
    ∃ given, value = some given ∧ equals given other = true := by
  cases value with
  | none => contradiction
  | some given => exact ⟨given, rfl, same⟩

/-- An assembled identifier is read back from its text exactly when its host is
readable and its query has parameters. -/
theorem uri_round_trips_iff (uri : Uri) (assembled : uri.Assembled) :
    (∃ parsed, parse uri.text = some parsed ∧ parsed.equals uri = true) ↔ uri.Readable := by
  obtain ⟨authority, isAuthority, someHost, _⟩ := assembled.authority
  obtain ⟨host, isHost⟩ := ne_none_iff_exists'.mp someHost
  constructor
  · rintro ⟨_, isParsed, same⟩
    have fields := same
    unfold equals at fields
    simp only [Bool.and_eq_true, beq_iff_eq] at fields
    obtain ⟨⟨⟨⟨_, sameAuthority⟩, _⟩, sameQuery⟩, _⟩ := fields
    rw [isAuthority] at sameAuthority
    obtain ⟨read, isRead, sameRead⟩ := sameNullable_some sameAuthority
    unfold UriAuthority.equals at sameRead
    rw [Bool.and_eq_true, Bool.and_eq_true, isHost] at sameRead
    obtain ⟨readHost, isReadHost, sameHost⟩ := sameNullable_some sameRead.1.2
    have readable : host.Readable := readable_of_equals
      (parse_yields isParsed read isRead readHost isReadHost) sameHost
    refine ⟨⟨authority, host, isAuthority, isHost, readable⟩, ?_⟩
    intro isEmpty
    have restored := parse_text assembled isAuthority isHost readable
    rw [restored, some.injEq] at isParsed
    rw [← isParsed, isEmpty, writtenQuery, if_pos isEmpty] at sameQuery
    contradiction
  · rintro ⟨⟨_, _, isOther, isReadHost, readable⟩, someQuery⟩
    have restored := parse_text assembled isOther isReadHost readable
    rw [writtenQuery, if_neg someQuery] at restored
    refine ⟨uri, restored, ?_⟩
    have sameHost := equals_self readable
    simp [equals, isOther, isReadHost, sameNullable, UriAuthority.equals, sameHost]

/-- `http://u@localhost:80/p?a=%3d#f`. -/
def localUri : Uri where
  scheme := some ("http".toList.map ascii)
  authority := some
    { user := some [ascii 'u'], host := some (.domainName ⟨ofBytes ("localhost".toList.map ascii)⟩),
      port := some 80 }
  path := some ("/p".toList.map ascii)
  query := some [{ name := [ascii 'a'], value := some [ascii '='] }]
  fragment := some [ascii 'f']

theorem localUri_assembled : localUri.Assembled where
  scheme := ⟨_, rfl, by decide, by decide⟩
  authority := ⟨_, rfl, by simp, by decide⟩
  path := by decide
  query := by
    intro _ isQuery _ mem
    cases isQuery
    rw [mem_singleton.mp mem]
    exact ⟨by decide, _, by decide, rfl⟩
  fragment := by decide

theorem localUri_round_trips :
    ∃ parsed, parse localUri.text = some parsed ∧ parsed.equals localUri = true := by
  have parsed : DomainName.parse ("localhost".toList.map ascii) =
      some ⟨ofBytes ("localhost".toList.map ascii)⟩ := by decide
  have plain := (DomainName.plain_of_parse (by decide) parsed).1
  refine (uri_round_trips_iff localUri localUri_assembled).mpr ⟨⟨_, _, rfl, rfl, plain, ?_⟩, ?_⟩
  · decide
  · decide

/-- `http://[::1]`. -/
def bracketedUri : Uri where
  scheme := some ("http".toList.map ascii)
  authority := some { host := some (.ip (.v6 ⟨#v[0, 0, 0, 0, 0, 0, 0, 0], #v[0, 0, 0, 0, 0, 0, 0, 1], 0⟩)) }

theorem bracketedUri_assembled : bracketedUri.Assembled where
  scheme := ⟨_, rfl, by decide, by decide⟩
  authority := ⟨_, rfl, by simp, by decide⟩
  path := by decide
  query := nofun
  fragment := by decide

/-- The brackets around an address are written, and the scan behind the scheme stops
at the first colon inside. -/
theorem bracketedUri_refused :
    bracketedUri.Assembled ∧ bracketedUri.text = "http://[::1]".toList.map ascii ∧
      ¬ ∃ parsed, parse bracketedUri.text = some parsed ∧ parsed.equals bracketedUri = true := by
  refine ⟨bracketedUri_assembled, by decide +kernel, ?_⟩
  rintro ⟨_, _, _⟩
  contradiction

end NtfCore.Ntsa.Uri
