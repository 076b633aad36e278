import NtfCore.Foundation.Bytes

/-!
Contract: the identities of sockets: addresses, endpoints, hosts and names
(`ntsa::Ipv4Address`, `ntsa::Ipv6Address`, `ntsa::IpAddress`,
`ntsa::IpEndpoint`, `ntsa::LocalName`, `ntsa::DomainName`, `ntsa::Endpoint` and
`ntsa::Host`).

Owns: the values of these types, and `equals` and `less` of each of them as the
source computes them.
-/

namespace NtfCore.Ntsa

open NtfCore.Foundation

/-! ## Internet addresses -/

/-- `ntsa::Ipv4Address`: four bytes in network order. -/
structure Ipv4Address where
  value : Vector UInt8 4
deriving DecidableEq

/-- `ntsa::Ipv6Address`: sixteen bytes in network order, by quadwords, and the
scope. -/
structure Ipv6Address where
  firstQword : Vector UInt8 8
  secondQword : Vector UInt8 8
  scopeId : UInt32
deriving DecidableEq

/-- `ntsa::IpAddress`. -/
inductive IpAddress where
  | undefined
  | v4 (address : Ipv4Address)
  | v6 (address : Ipv6Address)
deriving DecidableEq

/-- `ntsa::IpEndpoint`. -/
structure IpEndpoint where
  host : IpAddress
  port : UInt16
deriving DecidableEq

namespace Ipv4Address

/-- `Ipv4Address::equals`: the bytes as one word of the host. -/
def equals (address other : Ipv4Address) : Bool :=
  Bytes.loadLittleEndian address.value.toList == Bytes.loadLittleEndian other.value.toList

/-- `Ipv4Address::less`: the word in the order of the host. -/
def less (address other : Ipv4Address) : Bool :=
  Bytes.loadBigEndian address.value.toList < Bytes.loadBigEndian other.value.toList

end Ipv4Address

namespace Ipv6Address

/-- `Ipv6Address::equals`. -/
def equals (address other : Ipv6Address) : Bool :=
  Bytes.loadLittleEndian address.firstQword.toList ==
      Bytes.loadLittleEndian other.firstQword.toList &&
    Bytes.loadLittleEndian address.secondQword.toList ==
      Bytes.loadLittleEndian other.secondQword.toList &&
    address.scopeId == other.scopeId

/-- `Ipv6Address::less`. -/
def less (address other : Ipv6Address) : Bool :=
  let lc0 := Bytes.loadBigEndian address.firstQword.toList
  let rc0 := Bytes.loadBigEndian other.firstQword.toList
  if lc0 < rc0 then true
  else if rc0 < lc0 then false
  else
    let lc1 := Bytes.loadBigEndian address.secondQword.toList
    let rc1 := Bytes.loadBigEndian other.secondQword.toList
    if lc1 < rc1 then true
    else if rc1 < lc1 then false
    else address.scopeId < other.scopeId

end Ipv6Address

namespace IpAddress

/-- `IpAddress::equals`. -/
def equals : IpAddress -> IpAddress -> Bool
  | .v4 address, .v4 other => address.equals other
  | .v6 address, .v6 other => address.equals other
  | .undefined, .undefined => true
  | _, _ => false

/-- `IpAddress::less`. -/
def less : IpAddress -> IpAddress -> Bool
  | .v4 address, .v4 other => address.less other
  | .v6 address, .v6 other => address.less other
  | .undefined, .undefined => true
  | _, _ => false

end IpAddress

namespace IpEndpoint

/-- `IpEndpoint::equals`. -/
def equals (endpoint other : IpEndpoint) : Bool :=
  endpoint.host.equals other.host && endpoint.port == other.port

/-- `IpEndpoint::less`. -/
def less (endpoint other : IpEndpoint) : Bool :=
  if endpoint.host.less other.host then true
  else if other.host.less endpoint.host then false
  else endpoint.port < other.port

end IpEndpoint

/-- The loop of `LocalName::equals` and `DomainName::equals` over the characters
of two names of one length. A character is a signed byte. -/
def sameCharacters : List Int8 -> List Int8 -> Bool
  | ch1 :: first1, ch2 :: first2 => if ch1 ≠ ch2 then false else sameCharacters first1 first2
  | _, _ => true

/-- The loop of `LocalName::less` and `DomainName::less`. -/
def lessCharacters : List Int8 -> List Int8 -> Bool
  | ch1 :: first1, ch2 :: first2 =>
    if ch1 < ch2 then true
    else if ch2 < ch1 then false
    else lessCharacters first1 first2
  | first1, first2 => first1.isEmpty && !first2.isEmpty

/-- The greatest length of the path of a local name, `k_MAX_PATH_LENGTH`. -/
def maxPathLength : Nat := 107

/-- `ntsa::LocalName`. The null character before an abstract name is not stored,
but there is always room for it. -/
structure LocalName where
  path : List Int8
  isAbstract : Bool
  size_le : path.length + isAbstract.toNat ≤ maxPathLength
deriving DecidableEq

/-- `ntsa::DomainName`. -/
structure DomainName where
  text : List Int8
deriving DecidableEq

namespace LocalName

/-- `LocalName::equals`. -/
def equals (name other : LocalName) : Bool :=
  if name.path.length ≠ other.path.length then false
  else if name.isAbstract ≠ other.isAbstract then false
  else sameCharacters name.path other.path

/-- `LocalName::less`. -/
def less (name other : LocalName) : Bool :=
  lessCharacters name.path other.path

/-- `LocalName::LocalName`. -/
def empty : LocalName where
  path := []
  isAbstract := false
  size_le := Nat.zero_le _

/-- `LocalName::isUnnamed`. -/
def isUnnamed (name : LocalName) : Bool := name.path.length == 0

/-- `LocalName::setAbstract`. An error is `none`. -/
def setAbstract (name : LocalName) : Option LocalName :=
  if room : name.path.length < maxPathLength then
    some { path := name.path, isAbstract := true, size_le := room }
  else none

/-- `LocalName::setUnnamed`, which leaves the name abstract or not, as it was. -/
def setUnnamed (name : LocalName) : LocalName where
  path := []
  isAbstract := name.isAbstract
  size_le := by
    cases name.isAbstract with
    | false => decide
    | true => decide

/-- `LocalName::setValue`. An error is `none`. -/
def setValue (name : LocalName) (value : List Int8) : Option LocalName :=
  if fits : value.length + name.isAbstract.toNat ≤ maxPathLength then
    some { path := value, isAbstract := name.isAbstract, size_le := fits }
  else none

end LocalName

namespace DomainName

/-- `DomainName::equals`. -/
def equals (name other : DomainName) : Bool :=
  if name.text.length ≠ other.text.length then false
  else sameCharacters name.text other.text

/-- `DomainName::less`. -/
def less (name other : DomainName) : Bool :=
  lessCharacters name.text other.text

end DomainName

/-! ## Endpoints and hosts -/

/-- `ntsa::Endpoint`. -/
inductive Endpoint where
  | undefined
  | ip (endpoint : IpEndpoint)
  | localName (name : LocalName)
deriving DecidableEq

/-- `ntsa::Host`. -/
inductive Host where
  | undefined
  | domainName (name : DomainName)
  | ip (address : IpAddress)
  | localName (name : LocalName)

namespace Endpoint

/-- `Endpoint::equals`. -/
def equals : Endpoint -> Endpoint -> Bool
  | .ip endpoint, .ip other => endpoint.equals other
  | .localName name, .localName other => name.equals other
  | .undefined, .undefined => true
  | _, _ => false

/-- `Endpoint::less`. -/
def less : Endpoint -> Endpoint -> Bool
  | .ip endpoint, .ip other => endpoint.less other
  | .localName name, .localName other => name.less other
  | .undefined, .undefined => true
  | _, _ => false

end Endpoint

namespace Host

/-- `Host::equals`. -/
def equals : Host -> Host -> Bool
  | .domainName name, .domainName other => name.equals other
  | .ip address, .ip other => address.equals other
  | .localName name, .localName other => name.equals other
  | .undefined, .undefined => true
  | _, _ => false

/-- `Host::less`. -/
def less : Host -> Host -> Bool
  | .domainName name, .domainName other => name.less other
  | .ip address, .ip other => address.less other
  | .localName name, .localName other => name.less other
  | .undefined, .undefined => true
  | _, _ => false

end Host

end NtfCore.Ntsa
