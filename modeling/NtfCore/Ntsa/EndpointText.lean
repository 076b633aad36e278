import NtfCore.Ntsa.HostText

/-!
Contract: endpoints and hosts from texts (`ntsa::IpEndpoint::parse`,
`ntsa::Endpoint::parse` and `ntsa::Host::operator=`).

Owns: in which texts a local name is stored whole, and that the two ways from a text
to a host agree.
-/

namespace NtfCore.Ntsa

open NtfCore.Foundation.Text Ipv6Address LocalName Endpoint

namespace IpEndpoint

/-- The loop over `mark`: what is before and behind the last such character, unless that is
the first one of the text. -/
def splitLast (ch : UInt8) (text : List UInt8) : Option (List UInt8 × List UInt8) :=
  let behind := (text.tail.reverse.takeWhile (· ≠ ch)).reverse
  if behind.length = text.tail.length then none
  else some (text.take (text.length - (behind.length + 1)), behind)

/-- The end of `parse`: the port, of which there is a character. -/
def withPort (host : IpAddress) (port after : List UInt8) : Option IpEndpoint :=
  if port = [] then none
  else (PortUtil.parse (port ++ after) port.length).map fun port => ⟨host, port⟩

/-- `IpEndpoint::parse` of a text that is followed by `after` in memory. -/
def parse (text after : List UInt8) : Option IpEndpoint :=
  match text with
  | [] => none
  | first :: _ =>
    if first = ascii '[' then
      match splitLast (ascii ']') text with
      | none => none
      | some (before, behind) =>
        match Ipv6Address.parse before.tail (ascii ']' :: (behind ++ after)), behind with
        | some host, colon :: port =>
          if colon ≠ ascii ':' then none else withPort (.v6 host) port after
        | _, _ => none
    else
      match splitLast (ascii ':') text with
      | none => none
      | some (before, behind) =>
        match Ipv4Address.parse before with
        | none => none
        | some host => withPort (.v4 host) behind after

end IpEndpoint

/-- `setValue` of a new local name by a caller that ignores the error. -/
def LocalName.ofTextAnyway (text : List UInt8) : LocalName :=
  (LocalName.ofText text).getD .empty

/-- `Endpoint::parse`: what is returned, and the endpoint. -/
def Endpoint.parse (text after : List UInt8) : Bool × Endpoint :=
  if text = [] then (true, .undefined)
  else
    match IpEndpoint.parse text after with
    | some endpoint => (true, .ip endpoint)
    | none => (true, .localName (LocalName.ofTextAnyway text))

/-- `Host::operator=` of a text, which throws where there is no result. -/
def Host.assign (text after : List UInt8) : Option Host :=
  match text with
  | [] => some .undefined
  | first :: _ =>
    match IpAddress.parse text after with
    | some address => some (.ip address)
    | none =>
      match DomainName.parse text with
      | some name => some (.domainName name)
      | none =>
        if first = ascii '/' then some (.localName (LocalName.ofTextAnyway text)) else none

/-! ## The texts that are stored -/

theorem ofTextAnyway_path (text : List UInt8) :
    toBytes (ofTextAnyway text).path = if text.length ≤ maxPathLength then text else [] := by
  unfold ofTextAnyway ofText
  split
  · exact toBytes_ofBytes text
  · rfl

structure Endpoint.Stores (text after : List UInt8) : Prop where
  whole : ∀ name, Endpoint.parse text after = (true, .localName name) -> toBytes name.path = text
  rejects : maxPathLength < text.length -> IpEndpoint.parse text after = none ->
    (Endpoint.parse text after).1 = false

theorem Endpoint.stores_iff (text after : List UInt8) : Stores text after ↔
      text.length ≤ maxPathLength ∨ (IpEndpoint.parse text after).isSome := by
  by_cases isNil : text = []
  · subst isNil
    refine iff_of_true ⟨fun name isLocal => ?_, fun long => absurd long (Nat.not_lt_zero _)⟩
      (.inl (Nat.zero_le _))
    cases isLocal
  cases isIp : IpEndpoint.parse text after with
  | some =>
    refine iff_of_true ⟨fun name isLocal => ?_, fun _ isNone => ?_⟩ (.inr rfl)
    · rw [parse, if_neg isNil, isIp] at isLocal
      cases isLocal
    · rw [isIp] at isNone
      cases isNone
  | none =>
    have parsed : parse text after = (true, .localName (ofTextAnyway text)) := by
      rw [parse, if_neg isNil, isIp]
    by_cases fits : text.length ≤ maxPathLength
    · refine iff_of_true ⟨fun _ isLocal => ?_, fun long => absurd fits (Nat.not_le.mpr long)⟩
        (.inl fits)
      rw [parsed] at isLocal
      cases isLocal
      rw [ofTextAnyway_path, if_pos fits]
    · refine iff_of_false (fun stores => ?_) (by simpa using fits)
      have rejected := stores.rejects (Nat.not_le.mp fits) isIp
      rw [parsed] at rejected
      cases rejected

namespace Host

/-- A text that begins with a slash is no address and no domain name. -/
theorem slash_unparsed (rest after : List UInt8) :
    IpAddress.parse (ascii '/' :: rest) after = none ∧ DomainName.parse (ascii '/' :: rest)
    = none := by
  have noName : DomainName.parseLoop none (ascii '/' :: rest) = none := by exact if_pos (by decide)
  have noV4 : Ipv4Address.parseLoop 0 0 (Vector.replicate 4 0) (ascii '/' :: rest) = none := by
    rw [Ipv4Address.parseLoop, if_neg (by decide), if_neg (by decide)]
  have noV6 : ∀ skip, groupLoop skip none {} (ascii '/' :: rest) = none := by
    intro skip
    have noDigit : hexValue (ascii '/') = none := by decide
    rw [groupLoop, if_pos (by decide), if_neg (by decide), if_neg (by decide), noDigit]
  constructor
  · have noAddress : Ipv6Address.parse (ascii '/' :: rest) after = none := by
      simp only [Ipv6Address.parse, noV6, ite_self]
    rw [IpAddress.parse, if_neg (List.cons_ne_nil _ _), Ipv4Address.parse, noV4]
    simp only [noAddress]
  · rw [DomainName.parse, noName]
    split <;> rfl

theorem assign_of_parse {text after : List UInt8} {host : Host}
    (parsed : parse text after = some host) : assign text after = some host := by
  cases text with
  | nil => exact parsed
  | cons first rest =>
    rw [parse] at parsed
    split at parsed
    · rename_i isSlash
      obtain ⟨noAddress, noName⟩ := slash_unparsed rest after
      obtain ⟨name, isName, isHost⟩ := Option.map_eq_some_iff.mp parsed
      rw [isSlash] at isName ⊢
      rw [assign, noAddress, noName]
      simp only [if_true, ofTextAnyway, isName, Option.getD_some, isHost]
    · rw [assign]
      cases isAddress : IpAddress.parse (first :: rest) after with
      | some =>
        rw [isAddress] at parsed
        exact parsed
      | none =>
        rw [isAddress] at parsed
        cases isName : DomainName.parse (first :: rest) with
        | some =>
          rw [isName] at parsed
          exact parsed
        | none =>
          rw [isName] at parsed
          cases parsed

structure Stores (text after : List UInt8) : Prop where
  agree : ∀ host, Host.parse text after = some host -> Host.assign text after = some host
  rejects : maxPathLength < text.length ->
    ∀ name, Host.parse text after ≠ some (.localName name) ∧
      Host.assign text after ≠ some (.localName name)

theorem stores_iff (text after : List UInt8) :
    Stores text after ↔ text.length ≤ maxPathLength ∨ text.head? ≠ some (ascii '/') := by
  by_cases fits : text.length ≤ maxPathLength
  · exact iff_of_true ⟨fun _ => assign_of_parse, fun long => absurd fits (Nat.not_le.mpr long)⟩
      (.inl fits)
  rw [or_iff_right fits]
  cases text with
  | nil => exact absurd (Nat.zero_le _) fits
  | cons first rest =>
    by_cases isSlash : first = ascii '/'
    · subst isSlash
      obtain ⟨noAddress, noName⟩ := slash_unparsed rest after
      refine iff_of_false (fun stores => ?_) (not_not_intro rfl)
      apply (stores.rejects (Nat.not_le.mp fits) (ofTextAnyway (ascii '/' :: rest))).2
      rw [assign, noAddress, noName]
      rfl
    · refine iff_of_true ⟨fun _ => assign_of_parse, fun _ _ => ⟨?_, ?_⟩⟩
        fun isFirst => isSlash (Option.some.inj isFirst)
      · rw [parse, if_neg isSlash]
        repeat' split
        all_goals simp
      · rw [assign]
        repeat' split
        all_goals simp_all

end Host

/-- When endpoints and hosts hold the texts that they are made of. -/
theorem texts_stored_iff (text after : List UInt8) : (Endpoint.Stores text after ↔
      text.length ≤ maxPathLength ∨ (IpEndpoint.parse text after).isSome) ∧
    (Host.Stores text after ↔ text.length ≤ maxPathLength ∨ text.head? ≠ some (ascii '/')) :=
  ⟨stores_iff text after, Host.stores_iff text after⟩

/-- A path of 108 characters is not stored. -/
theorem long_path_lost : ¬ Endpoint.Stores (List.replicate 108 (ascii '/')) [] := by
  rw [stores_iff]
  decide

end NtfCore.Ntsa
