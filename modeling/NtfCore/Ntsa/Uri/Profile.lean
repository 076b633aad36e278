import NtfCore.Ntsa.Syntax.Model
import NtfCore.Ntsa.Uri.Model

/-!
Contract: profiles of identifiers (`ntsa::UriProfile::normalize`).

Owns: transports and transport suites, how `normalize` completes them, what it leaves of an
identifier that it refuses, and that it changes nothing the second time.
-/

namespace NtfCore.Ntsa

open NtfCore.Foundation.Text

/-! ## Transports -/

inductive TransportSecurity where
  | undefined
  | tls
  | ssh

inductive TransportProtocol where
  | undefined
  | tcp
  | udp
  | local'
deriving DecidableEq

inductive TransportDomain where
  | undefined
  | ipv4
  | ipv6
  | local'
deriving DecidableEq

inductive TransportMode where
  | undefined
  | stream
  | datagram
deriving DecidableEq

inductive Transport where
  | undefined
  | tcpIpv4Stream
  | tcpIpv6Stream
  | udpIpv4Datagram
  | udpIpv6Datagram
  | localStream
  | localDatagram
deriving DecidableEq

namespace Transport

/-- `getProtocol`. -/
def getProtocol : Transport -> TransportProtocol
  | tcpIpv4Stream | tcpIpv6Stream => .tcp
  | udpIpv4Datagram | udpIpv6Datagram => .udp
  | localStream | localDatagram => .local'
  | undefined => .undefined

/-- `getDomain`. -/
def getDomain : Transport -> TransportDomain
  | tcpIpv4Stream | udpIpv4Datagram => .ipv4
  | tcpIpv6Stream | udpIpv6Datagram => .ipv6
  | localStream | localDatagram => .local'
  | undefined => .undefined

/-- `getMode`. -/
def getMode : Transport -> TransportMode
  | tcpIpv4Stream | tcpIpv6Stream | localStream => .stream
  | udpIpv4Datagram | udpIpv6Datagram | localDatagram => .datagram
  | undefined => .undefined

end Transport

structure TransportSuite where
  application : List UInt8 := []
  transportSecurity : TransportSecurity := .undefined
  transportProtocol : TransportProtocol := .undefined
  transportDomain : TransportDomain := .undefined
  transportMode : TransportMode := .undefined

/-- `TransportSuite::transport`. -/
def TransportSuite.transport (suite : TransportSuite) : Transport :=
  match suite.transportProtocol, suite.transportDomain, suite.transportMode with
  | .tcp, .ipv4, .stream => .tcpIpv4Stream
  | .tcp, .ipv6, .stream => .tcpIpv6Stream
  | .tcp, _, _ => .undefined
  | .udp, .ipv4, .datagram => .udpIpv4Datagram
  | .udp, .ipv6, .datagram => .udpIpv6Datagram
  | .udp, _, _ => .undefined
  | .local', _, .stream => .localStream
  | .local', _, .datagram => .localDatagram
  | .local', _, _ => .undefined
  | .undefined, .local', .stream => .localStream
  | .undefined, .local', .datagram => .localDatagram
  | .undefined, _, _ => .undefined

/-- `UriAuthority`, with the transport. -/
structure TransportAuthority extends UriAuthority where
  transportSuite : Option TransportSuite := none
  transport : Option Transport := none

/-- What `normalize` looks at in a `Uri`. -/
structure TransportUri where
  scheme : Option (List UInt8) := none
  authority : Option TransportAuthority := none

/-- What `UriProfileEntry` says of its scheme. -/
structure UriProfileEntry where
  canonicalScheme : List UInt8
  transportSuite : TransportSuite

/-- `UriProfile`: its entries by their scheme. -/
abbrev UriProfile := List UInt8 -> Option UriProfileEntry

namespace UriProfile

/-! ## Normalizing -/

/-- `parseScheme`, which clears what it loads before it looks for the scheme. -/
def parseScheme (profile : UriProfile) (scheme : List UInt8) :
    Option Error × List UInt8 × TransportSuite :=
  match profile scheme with
  | none => (some .eof, [], {})
  | some entry => (none, entry.canonicalScheme, entry.transportSuite)

def isRefused (host : Host) (port : Option UInt16) : Bool :=
  match host with
  | .localName _ => port.isSome
  | .domainName _ | .ip _ => port.isNone
  | .undefined => true

def isLocalName : Host -> Bool
  | .localName _ => true
  | _ => false

def setTransport (authority : TransportAuthority) (suite : TransportSuite) : TransportAuthority :=
  if suite.transport ≠ .undefined then { authority with transport := some suite.transport }
  else authority

def defaultScheme (host : Host) : List UInt8 :=
  if isLocalName host then "local".toList.map ascii else []

/-- The part of `normalize` that looks the scheme up. The result is the error, the scheme, the
authority and its suite. -/
def complete (profile : UriProfile) (host : Host) (scheme : Option (List UInt8))
    (authority : TransportAuthority) :
    Option Error × Option (List UInt8) × TransportAuthority × TransportSuite :=
  if scheme = none ∨ scheme = some [] then
    let (error, canonicalScheme, loaded) := profile.parseScheme (defaultScheme host)
    match authority.transportSuite, error with
    | some suite, error => (error, some canonicalScheme, authority, suite)
    | none, some error =>
      (some error, some canonicalScheme, { authority with transportSuite := some loaded }, loaded)
    | none, none => (none, some canonicalScheme, setTransport authority loaded, loaded)
  else
    match authority.transportSuite with
    | some suite => (none, scheme, authority, suite)
    | none =>
      let (error, canonicalScheme, loaded) := profile.parseScheme (scheme.getD [])
      match error with
      | some error => (some error, scheme, { authority with transportSuite := some loaded }, loaded)
      | none => (none, some canonicalScheme, setTransport authority loaded, loaded)

def setDomain (domain : TransportDomain) (suite : TransportSuite) : Option Error × TransportSuite :=
  if suite.transportDomain = .undefined then (none, { suite with transportDomain := domain })
  else if suite.transportDomain ≠ domain then (some .invalid, suite)
  else (none, suite)

/-- The part of `normalize` in which the suite has to agree with the host. -/
def agree (host : Host) (suite : TransportSuite) : Option Error × TransportSuite :=
  match host with
  | .ip (.v4 _) => setDomain .ipv4 suite
  | .ip (.v6 _) => setDomain .ipv6 suite
  | .ip .undefined => (some .invalid, suite)
  | .localName _ =>
    if suite.transportProtocol = .undefined then
      setDomain .local' { suite with transportProtocol := .local' }
    else if suite.transportProtocol ≠ .local' then (some .invalid, suite)
    else setDomain .local' suite
  | _ => (none, suite)

def setMode (suite : TransportSuite) : TransportSuite :=
  if suite.transportMode = .undefined then { suite with transportMode := .stream } else suite

/-- `normalize`: the error, and what becomes of the identifier. -/
def normalize (profile : UriProfile) (uri : TransportUri) : Option Error × TransportUri :=
  match uri.authority with
  | none => (some .invalid, uri)
  | some authority =>
    match authority.host with
    | none => (some .invalid, uri)
    | some host =>
      if isRefused host authority.port then (some .invalid, uri)
      else
        let authority := if authority.transport = some .undefined then
          { authority with transport := none } else authority
        match complete profile host uri.scheme authority with
        | (some error, scheme, authority, _) => (some error, ⟨scheme, some authority⟩)
        | (none, scheme, authority, suite) =>
          match agree host suite with
          | (some error, suite) =>
            (some error, ⟨scheme, some { authority with transportSuite := some suite }⟩)
          | (none, suite) =>
            let suite := setMode suite
            (none, ⟨scheme, some (setTransport
              { authority with transportSuite := some suite } suite)⟩)

/-! ## What is left of an identifier that is refused -/

def Fits (host : Host) (suite : TransportSuite) : Prop :=
  match host with
  | .ip (.v4 _) => suite.transportDomain = .undefined ∨ suite.transportDomain = .ipv4
  | .ip (.v6 _) => suite.transportDomain = .undefined ∨ suite.transportDomain = .ipv6
  | .ip .undefined => False
  | .localName _ =>
    (suite.transportProtocol = .undefined ∨ suite.transportProtocol = .local') ∧
      (suite.transportDomain = .undefined ∨ suite.transportDomain = .local')
  | _ => True

def suiteOf (profile : UriProfile) (host : Host) (scheme : Option (List UInt8))
    (given : Option TransportSuite) : Option TransportSuite :=
  if scheme = none ∨ scheme = some [] then
    (profile (defaultScheme host)).map fun entry => given.getD entry.transportSuite
  else given.or ((profile (scheme.getD [])).map (·.transportSuite))

theorem agree_none_iff (host : Host) (suite : TransportSuite) :
    (agree host suite).1 = none ↔ Fits host suite := by
  unfold agree Fits setDomain
  grind

theorem agree_same_iff {host : Host} {suite : TransportSuite} (refused : (agree host suite).1 ≠ none) :
    (agree host suite).2 = suite ↔
      ¬ (isLocalName host = true ∧ suite.transportProtocol = .undefined) := by
  unfold agree setDomain at refused
  unfold agree setDomain isLocalName
  grind

def Unchanged (profile : UriProfile) (uri : TransportUri) : Prop :=
  ∀ error, (normalize profile uri).1 = some error ->
    (normalize profile uri).2 = uri ∧
      (normalize profile (normalize profile uri).2).1 = some error

/-- Nothing is changed before the error: no transport is undefined, there is a suite, the scheme
is there and is not replaced by another, and no protocol is filled in. -/
structure Untouched (profile : UriProfile) (host : Host) (scheme : Option (List UInt8))
    (authority : TransportAuthority) : Prop where
  defined : authority.transport ≠ some .undefined
  given : authority.transportSuite ≠ none
  present : scheme ≠ none
  canonical : scheme = some [] -> ∀ entry, profile (defaultScheme host) = some entry ->
    entry.canonicalScheme = []
  protocol : isLocalName host = true -> ∀ suite, authority.transportSuite = some suite ->
    suite.transportProtocol = .undefined -> suiteOf profile host scheme (some suite) = none

def Settled (profile : UriProfile) (uri : TransportUri) : Prop :=
  ∀ authority host, uri.authority = some authority -> authority.host = some host ->
    isRefused host authority.port = false ->
      (∃ suite, suiteOf profile host uri.scheme authority.transportSuite = some suite ∧
        Fits host suite) ∨ Untouched profile host uri.scheme authority

theorem unchanged_iff_same (profile : UriProfile) (uri : TransportUri) : Unchanged profile uri ↔
      (normalize profile uri).1 = none ∨ (normalize profile uri).2 = uri := by
  constructor
  · intro unchanged
    cases isError : (normalize profile uri).1 with
    | none => exact .inl rfl
    | some error => exact .inr (unchanged error isError).1
  · rintro (accepted | same) _ isError
    · rw [accepted] at isError
      cases isError
    · rw [same]
      exact ⟨rfl, isError⟩

variable {profile : UriProfile} {scheme : Option (List UInt8)} {authority : TransportAuthority}
  {host : Host}

/-- The suite that is looked up, and what an error in between leaves. -/
theorem complete_spec (profile : UriProfile) (host : Host) (scheme : Option (List UInt8))
    (authority : TransportAuthority) : ((complete profile host scheme authority).1 = none ↔
      (suiteOf profile host scheme authority.transportSuite).isSome) ∧
    ((complete profile host scheme authority).1 = none ->
      suiteOf profile host scheme authority.transportSuite =
        some (complete profile host scheme authority).2.2.2) := by
  unfold complete suiteOf parseScheme
  grind

theorem same_iff (isHost : authority.host = some host)
    (accepted : isRefused host authority.port = false) :
    (normalize profile ⟨scheme, some authority⟩).1 = none ∨
        (normalize profile ⟨scheme, some authority⟩).2 = ⟨scheme, some authority⟩ ↔
      (∃ suite, suiteOf profile host scheme authority.transportSuite = some suite ∧
        Fits host suite) ∨ Untouched profile host scheme authority := by
  have untouched_iff : Untouched profile host scheme authority ↔
      authority.transport ≠ some .undefined ∧ authority.transportSuite ≠ none ∧ scheme ≠ none ∧
      (scheme = some [] -> ∀ entry, profile (defaultScheme host) = some entry ->
        entry.canonicalScheme = []) ∧
      (isLocalName host = true -> ∀ suite, authority.transportSuite = some suite ->
        suite.transportProtocol = .undefined -> suiteOf profile host scheme (some suite) = none) :=
    ⟨fun ⟨a, b, c, d, e⟩ => ⟨a, b, c, d, e⟩, fun ⟨a, b, c, d, e⟩ => ⟨a, b, c, d, e⟩⟩
  rw [untouched_iff]
  obtain ⟨_, transportSuite, _⟩ := authority
  dsimp only at isHost accepted
  have fits := agree_none_iff host
  have same := @agree_same_iff host
  unfold normalize
  simp only [isHost, accepted, Bool.false_eq_true, if_false]
  cases transportSuite with
  | none | some _ =>
    unfold complete parseScheme suiteOf setTransport
    grind

/-- When an identifier with an error is left unchanged. -/
theorem errors_change_nothing_iff (profile : UriProfile) (uri : TransportUri) :
    Unchanged profile uri ↔ Settled profile uri := by
  rw [unchanged_iff_same]
  obtain ⟨_, authority⟩ := uri
  cases authority with
  | none =>
    refine iff_of_true (.inr rfl) ?_
    intro authority host isAuthority
    cases isAuthority
  | some authority =>
    cases isHost : authority.host with
    | none =>
      refine iff_of_true (.inr ?_) ?_
      · simp only [normalize, isHost]
      · intro other host isOther isSome
        cases isOther
        rw [isHost] at isSome
        cases isSome
    | some host =>
      by_cases accepted : isRefused host authority.port = false
      · rw [same_iff isHost accepted]
        constructor
        · intro settled _ _ isAuthority isOther _
          cases isAuthority
          cases isHost.symm.trans isOther
          exact settled
        · intro settled
          exact settled authority host rfl isHost accepted
      · refine iff_of_true (.inr ?_) ?_
        · simp only [normalize, isHost, Bool.not_eq_false _ ▸ accepted, if_true]
        · intro _ _ isAuthority isOther accepted'
          cases isAuthority
          cases isHost.symm.trans isOther
          contradiction

/-- A scheme that is not registered: the identifier gets a suite, and is accepted the second
time. -/
theorem unknown_scheme_changed : ¬ ∀ profile uri, Unchanged profile uri := by
  intro all
  have unchanged := all (fun _ => none)
    { scheme := some [ascii 'x']
      authority := some { host := some (.ip (.v4 ⟨#v[127, 0, 0, 1]⟩)), port := some 80 } }
  obtain ⟨_, again⟩ := unchanged .eof rfl
  cases again

/-! ## The second time -/

def Filled (host : Host) (suite : TransportSuite) : Prop :=
  match host with
  | .ip (.v4 _) => suite.transportDomain = .ipv4
  | .ip (.v6 _) => suite.transportDomain = .ipv6
  | .ip .undefined => False
  | .localName _ => suite.transportProtocol = .local' ∧ suite.transportDomain = .local'
  | _ => True

variable {suite : TransportSuite}

theorem agree_filled (agreed : (agree host suite).1 = none) :
    Filled host (setMode (agree host suite).2) := by
  unfold agree setDomain at agreed
  unfold agree setDomain setMode Filled
  grind

theorem Filled.agree (filled : Filled host suite) : agree host suite = (none, suite) := by
  unfold Filled at filled
  unfold UriProfile.agree setDomain
  grind

/-- What an identifier has that `normalize` accepted. -/
structure Normal (uri : TransportUri) (authority : TransportAuthority) (host : Host)
    (suite : TransportSuite) : Prop where
  isAuthority : uri.authority = some authority
  isHost : authority.host = some host
  accepted : isRefused host authority.port = false
  isSuite : authority.transportSuite = some suite
  scheme : ¬ (uri.scheme = none ∨ uri.scheme = some [])
  filled : Filled host suite
  mode : suite.transportMode ≠ .undefined
  defined : authority.transport ≠ some .undefined
  transport : suite.transport ≠ .undefined -> authority.transport = some suite.transport

theorem Normal.normalize {uri : TransportUri}
    (normal : Normal uri authority host suite) : normalize profile uri = (none, uri) := by
  obtain ⟨_, _⟩ := uri
  obtain ⟨rfl, isHost, accepted, isSuite, present, filled, mode, defined, transport⟩ := normal
  have isMode : setMode suite = suite := if_neg mode
  have kept : setTransport { authority with transportSuite := some suite } suite = authority := by
    obtain ⟨_, _, _⟩ := authority
    dsimp only at isSuite transport
    unfold setTransport
    split
    · rename_i definite
      rw [← transport definite, isSuite]
    · rw [isSuite]
  simp only [UriProfile.normalize, isHost, accepted, Bool.false_eq_true, if_false, if_neg defined,
    complete, if_neg present, isSuite, filled.agree, isMode, kept]

theorem setTransport_fields (authority : TransportAuthority) (suite : TransportSuite) :
    (setTransport authority suite).toUriAuthority = authority.toUriAuthority ∧
      (setTransport authority suite).transportSuite = authority.transportSuite ∧
      (setTransport authority suite).transport =
        if suite.transport ≠ .undefined then some suite.transport else authority.transport := by
  unfold setTransport
  split
  · exact ⟨rfl, rfl, rfl⟩
  · exact ⟨rfl, rfl, rfl⟩

def Agrees (uri : TransportUri) : Prop :=
  ∀ authority host suite, uri.authority = some authority -> authority.host = some host ->
    authority.transportSuite = some suite -> agree host suite = (none, suite) ∧
      ∀ transport, authority.transport = some transport ->
        transport.getProtocol = suite.transportProtocol ∧
          transport.getDomain = suite.transportDomain ∧ transport.getMode = suite.transportMode

def expected (host : Host) (suite : TransportSuite) : TransportSuite :=
  { suite with
    transportProtocol := if isLocalName host then .local' else suite.transportProtocol
    transportDomain :=
      match host with
      | .ip (.v4 _) => .ipv4
      | .ip (.v6 _) => .ipv6
      | .localName _ => .local'
      | _ => suite.transportDomain
    transportMode :=
      if suite.transportMode = .undefined then .stream else suite.transportMode }

/-- The suite that is expected stands for no transport and none is given; or it stands for one,
and is local in protocol and domain or in neither. -/
def Definite (profile : UriProfile) (uri : TransportUri) : Prop :=
  ∀ authority host suite, uri.authority = some authority -> authority.host = some host ->
    suiteOf profile host uri.scheme authority.transportSuite = some suite ->
      if (expected host suite).transport = .undefined then
        authority.transport = none ∨ authority.transport = some .undefined
      else (expected host suite).transportProtocol = .local' ↔
        (expected host suite).transportDomain = .local'

section

variable {suite : TransportSuite} (agreed : (agree host suite).1 = none)
include agreed

theorem agree_expected : setMode (agree host suite).2 = expected host suite := by
  obtain ⟨_, _, _, _, _⟩ := suite
  unfold agree setDomain at agreed
  unfold agree setDomain setMode expected isLocalName
  cases host with
  | ip address => cases address <;> grind
  | localName name | _ => grind

/-- A suite that stands for a transport still does so when it is filled in. -/
theorem expected_transport
    (stands : suite.transport ≠ .undefined) : (expected host suite).transport ≠ .undefined := by
  rw [agree_none_iff] at agreed
  unfold Fits at agreed
  unfold TransportSuite.transport at stands ⊢
  unfold expected isLocalName
  cases host with
  | ip address => cases address <;> grind
  | localName name | _ => grind

end

section

variable (canonical : ∀ key entry, profile key = some entry -> entry.canonicalScheme ≠ [])
include canonical

theorem complete_kept (completed : (complete profile host scheme authority).1 = none) :
    ¬ ((complete profile host scheme authority).2.1 = none ∨
      (complete profile host scheme authority).2.1 = some []) ∧
    (complete profile host scheme authority).2.2.1.toUriAuthority = authority.toUriAuthority ∧
    ((complete profile host scheme authority).2.2.1.transport = authority.transport ∨
      (complete profile host scheme authority).2.2.2.transport ≠ .undefined) := by
  unfold complete parseScheme setTransport at completed ⊢
  grind

/-- What an identifier is that is accepted. -/
theorem normalize_result (isHost : authority.host = some host)
    (succeeds : (normalize profile ⟨scheme, some authority⟩).1 = none) :
    ∃ suite result, suiteOf profile host scheme authority.transportSuite = some suite ∧
      (agree host suite).1 = none ∧
      Normal (normalize profile ⟨scheme, some authority⟩).2 result host (expected host suite) ∧
      ((expected host suite).transport = .undefined -> result.transport =
        if authority.transport = some .undefined then none else authority.transport) := by
  unfold normalize at succeeds ⊢
  simp only [isHost] at succeeds ⊢
  cases accepted : isRefused host authority.port with
  | true => simp only [accepted, if_true, reduceCtorEq] at succeeds
  | false =>
    simp only [accepted, Bool.false_eq_true, if_false] at succeeds ⊢
    -- What is left of the authority when an undefined transport is dropped.
    obtain ⟨cleaned, isCleaned, sameParts, sameSuite, isTransport⟩ :
        ∃ cleaned, cleaned = (if authority.transport = some .undefined then
            { authority with transport := none } else authority) ∧
          cleaned.toUriAuthority = authority.toUriAuthority ∧
          cleaned.transportSuite = authority.transportSuite ∧
          cleaned.transport =
            if authority.transport = some .undefined then none else authority.transport := by
      refine ⟨_, rfl, ?_⟩
      split <;> exact ⟨rfl, rfl, rfl⟩
    rw [← isCleaned] at succeeds ⊢
    have spec := complete_spec profile host scheme cleaned
    have kept := @complete_kept profile scheme cleaned host canonical
    rcases isComplete : complete profile host scheme cleaned with ⟨error, named, found, suite⟩
    rw [isComplete] at spec kept
    simp only [isComplete] at succeeds ⊢
    cases error with
    | some error => cases succeeds
    | none =>
      obtain ⟨present, foundParts, foundTransport⟩ := kept rfl
      rcases isAgreed : agree host suite with ⟨error, filled⟩
      simp only [isAgreed] at succeeds ⊢
      cases error with
      | some error => cases succeeds
      | none =>
        have agreed : (agree host suite).1 = none := by rw [isAgreed]
        have isExpected := agree_expected agreed
        have isFilled := agree_filled agreed
        rw [isAgreed] at isExpected isFilled
        rw [isExpected] at isFilled
        dsimp only
        rw [isExpected]
        obtain ⟨parts, suites, transports⟩ := setTransport_fields
          { found with transportSuite := some (expected host suite) } (expected host suite)
        refine ⟨suite, _, ?_, agreed, ⟨rfl, ?_, ?_, suites, present, isFilled, ?_, ?_, ?_⟩, ?_⟩
        · rw [← sameSuite]
          exact spec.2 rfl
        · rw [parts, foundParts, sameParts]
          exact isHost
        · rw [parts, foundParts, sameParts]
          exact accepted
        · unfold expected
          grind
        · rw [transports]
          grind [expected_transport]
        · intro stands
          rw [transports, if_pos stands]
        · intro none
          grind [expected_transport]

end

open Transport

theorem getters_iff (suite : TransportSuite) (stands : suite.transport ≠ .undefined) :
    (suite.transport.getProtocol = suite.transportProtocol ∧
      suite.transport.getDomain = suite.transportDomain ∧
      suite.transport.getMode = suite.transportMode) ↔
      (suite.transportProtocol = .local' ↔ suite.transportDomain = .local') := by
  obtain ⟨_, _, protocol, domain, mode⟩ := suite
  unfold TransportSuite.transport at stands ⊢
  unfold getProtocol getDomain getMode
  cases protocol <;> cases domain <;> cases mode <;> simp_all

theorem getters_none (suite : TransportSuite) (stands : suite.transport = .undefined)
    (mode : suite.transportMode ≠ .undefined) (transport : Transport) :
    ¬ (transport.getProtocol = suite.transportProtocol ∧
      transport.getDomain = suite.transportDomain ∧ transport.getMode = suite.transportMode) := by
  unfold TransportSuite.transport at stands
  unfold getProtocol getDomain getMode
  cases transport <;> grind

/-- When the parts of an accepted identifier agree; it is accepted again as it is in any case. -/
theorem normalized_once_iff (profile : UriProfile) (uri : TransportUri)
    (canonical : ∀ key entry, profile key = some entry -> entry.canonicalScheme ≠ [])
    (succeeds : (normalize profile uri).1 = none) :
    (normalize profile (normalize profile uri).2 = (none, (normalize profile uri).2) ∧
        Agrees (normalize profile uri).2) ↔ Definite profile uri := by
  obtain ⟨scheme, _ | authority⟩ := uri
  · cases succeeds
  · cases isHost : authority.host with
    | none => simp only [normalize, isHost, reduceCtorEq] at succeeds
    | some host =>
      obtain ⟨suite, result, isSuite, _, normal, isTransport⟩ :=
        normalize_result canonical isHost succeeds
      rw [and_iff_right normal.normalize]
      have definite_iff : Definite profile ⟨scheme, some authority⟩ ↔
          if (expected host suite).transport = .undefined then
            authority.transport = none ∨ authority.transport = some .undefined
          else (expected host suite).transportProtocol = .local' ↔
            (expected host suite).transportDomain = .local' := by
        constructor
        · intro definite
          exact definite authority host suite rfl isHost isSuite
        · intro definite _ _ _ isAuthority isOther isFound
          cases isAuthority
          cases isHost.symm.trans isOther
          cases isSuite.symm.trans isFound
          exact definite
      have agrees_iff : Agrees (normalize profile ⟨scheme, some authority⟩).2 ↔
          ∀ transport, result.transport = some transport ->
            transport.getProtocol = (expected host suite).transportProtocol ∧
              transport.getDomain = (expected host suite).transportDomain ∧
              transport.getMode = (expected host suite).transportMode := by
        constructor
        · intro agrees
          exact (agrees result host _ normal.isAuthority normal.isHost normal.isSuite).2
        · intro agrees _ _ _ isAuthority isOther isFound
          cases normal.isAuthority.symm.trans isAuthority
          cases normal.isHost.symm.trans isOther
          cases normal.isSuite.symm.trans isFound
          exact ⟨normal.filled.agree, agrees⟩
      rw [definite_iff, agrees_iff]
      split
      · rename_i stands
        have never := getters_none _ stands normal.mode
        simp only [never, imp_false, isTransport stands]
        cases given : authority.transport with
        | none => simp
        | some transport =>
          by_cases undefined : transport = .undefined
          · simp [undefined]
          · simp [undefined]
      · rename_i stands
        rw [normal.transport stands, ← getters_iff _ stands]
        simp only [Option.some.injEq, forall_eq']

def streams : UriProfile := fun _ =>
  some ⟨"tcp".toList.map ascii, { transportProtocol := .tcp, transportMode := .stream }⟩

def toAddress : TransportUri :=
  { authority := some { host := some (.ip (.v4 ⟨#v[127, 0, 0, 1]⟩)), port := some 80 } }

/-- The transport was set first, then the suite, which stands for no transport. -/
def toName : TransportUri :=
  { authority := some
      { host := some (.domainName ⟨[120]⟩), port := some 80, transport := some .udpIpv4Datagram
        transportSuite := some { transportProtocol := .tcp, transportMode := .stream } } }

theorem address_normalized : normalize streams (normalize streams toAddress).2 =
        (none, (normalize streams toAddress).2) ∧ Agrees (normalize streams toAddress).2 := by
  refine (normalized_once_iff streams toAddress ?_ rfl).mpr ?_
  · intro _ _ isEntry
    cases isEntry
    decide
  · intro _ _ _ isAuthority isHost isSuite
    cases isAuthority
    cases isHost
    cases isSuite
    decide

/-- The transport that is given stays beside a suite that stands for none. -/
theorem name_not_agreed :
    ¬ ∀ profile uri, (∀ key entry, profile key = some entry -> entry.canonicalScheme ≠ []) ->
      (normalize profile uri).1 = none ->
        normalize profile (normalize profile uri).2 = (none, (normalize profile uri).2) ∧
          Agrees (normalize profile uri).2 := by
  intro all
  have canonical : ∀ key entry, streams key = some entry -> entry.canonicalScheme ≠ [] := by
    intro _ _ isEntry
    cases isEntry
    decide
  obtain ⟨_, agrees⟩ := all streams toName canonical rfl
  have disagrees := (agrees _ _ _ rfl rfl rfl).2 .udpIpv4Datagram rfl
  contradiction

end UriProfile

end NtfCore.Ntsa
