import Mathlib.Algebra.Group.Nat.Defs
import Mathlib.Data.List.Basic

/-!
Contract: the vocabulary of the domain name protocol (`ntcdns_vocabulary.h`).

Owns: the enumerations with their numbers, and the data of resource records.
-/

namespace NtfCore.Ntcdns

/-! ## Enumerations -/

/-- `ntcdns::Type`. -/
inductive RecordType where
  | a | ns | md | mf | cname | soa | mb | mg | mr | undefined | wks | ptr | hinfo | minfo | mx
  | txt | rp | afsdb | x25 | isdn | rt | nsap | nsapptr | sig | key | px | gpos | aaaa | loc
  | nxt | eid | nimloc | svr | atma | naptr | kx | cert | a6 | dname | sink | opt | apl | ds
  | sshfp | ipseckey | rrsig | nsec | dnskey | dhcid | nsec3 | nsec3param | tlsa | smimea | hip
  | ninfo | rkey | talink | cds | cdnskey | openpgpkey | csync | zonemd | spf | uinfo | uid | gid
  | unspec | nid | l32 | l64 | lp | eui48 | eui64 | tkey | tsig | ixfr | axfr | mailb | maila
  | all | uri | caa | avc | doa | amtrelay | ta | dlv
deriving DecidableEq

def RecordType.toInt : RecordType -> Nat
  | .a => 1 | .ns => 2 | .md => 3 | .mf => 4 | .cname => 5 | .soa => 6 | .mb => 7 | .mg => 8
  | .mr => 9 | .undefined => 10 | .wks => 11 | .ptr => 12 | .hinfo => 13 | .minfo => 14
  | .mx => 15 | .txt => 16 | .rp => 17 | .afsdb => 18 | .x25 => 19 | .isdn => 20 | .rt => 21
  | .nsap => 22 | .nsapptr => 23 | .sig => 24 | .key => 25 | .px => 26 | .gpos => 27
  | .aaaa => 28 | .loc => 29 | .nxt => 30 | .eid => 31 | .nimloc => 32 | .svr => 33 | .atma => 34
  | .naptr => 35 | .kx => 36 | .cert => 37 | .a6 => 38 | .dname => 39 | .sink => 40 | .opt => 41
  | .apl => 42 | .ds => 43 | .sshfp => 44 | .ipseckey => 45 | .rrsig => 46 | .nsec => 47
  | .dnskey => 48 | .dhcid => 49 | .nsec3 => 50 | .nsec3param => 51 | .tlsa => 52 | .smimea => 53
  | .hip => 55 | .ninfo => 56 | .rkey => 57 | .talink => 58 | .cds => 59 | .cdnskey => 60
  | .openpgpkey => 61 | .csync => 62 | .zonemd => 63 | .spf => 99 | .uinfo => 100 | .uid => 101
  | .gid => 102 | .unspec => 103 | .nid => 104 | .l32 => 105 | .l64 => 106 | .lp => 107
  | .eui48 => 108 | .eui64 => 109 | .tkey => 249 | .tsig => 250 | .ixfr => 251 | .axfr => 252
  | .mailb => 253 | .maila => 254 | .all => 255 | .uri => 256 | .caa => 257 | .avc => 258
  | .doa => 259 | .amtrelay => 260 | .ta => 32768 | .dlv => 32769

/-- `Type::fromInt`. -/
def RecordType.fromInt : Nat -> Option RecordType
  | 1 => some .a | 2 => some .ns | 3 => some .md | 4 => some .mf | 5 => some .cname
  | 6 => some .soa | 7 => some .mb | 8 => some .mg | 9 => some .mr | 10 => some .undefined
  | 11 => some .wks | 12 => some .ptr | 13 => some .hinfo | 14 => some .minfo | 15 => some .mx
  | 16 => some .txt | 17 => some .rp | 18 => some .afsdb | 19 => some .x25 | 20 => some .isdn
  | 21 => some .rt | 22 => some .nsap | 23 => some .nsapptr | 24 => some .sig | 25 => some .key
  | 26 => some .px | 27 => some .gpos | 28 => some .aaaa | 29 => some .loc | 30 => some .nxt
  | 31 => some .eid | 32 => some .nimloc | 33 => some .svr | 34 => some .atma | 35 => some .naptr
  | 36 => some .kx | 37 => some .cert | 38 => some .a6 | 39 => some .dname | 40 => some .sink
  | 41 => some .opt | 42 => some .apl | 43 => some .ds | 44 => some .sshfp | 45 => some .ipseckey
  | 46 => some .rrsig | 47 => some .nsec | 48 => some .dnskey | 49 => some .dhcid
  | 50 => some .nsec3 | 51 => some .nsec3param | 52 => some .tlsa | 53 => some .smimea
  | 55 => some .hip | 56 => some .ninfo | 57 => some .rkey | 58 => some .talink | 59 => some .cds
  | 60 => some .cdnskey | 61 => some .openpgpkey | 62 => some .csync | 63 => some .zonemd
  | 99 => some .spf | 100 => some .uinfo | 101 => some .uid | 102 => some .gid
  | 103 => some .unspec | 104 => some .nid | 105 => some .l32 | 106 => some .l64
  | 107 => some .lp | 108 => some .eui48 | 109 => some .eui64 | 249 => some .tkey
  | 250 => some .tsig | 251 => some .ixfr | 252 => some .axfr | 253 => some .mailb
  | 254 => some .maila | 255 => some .all | 256 => some .uri | 257 => some .caa
  | 258 => some .avc | 259 => some .doa | 260 => some .amtrelay | 32768 => some .ta
  | 32769 => some .dlv | _ => none

/-- `ntcdns::Classification`. -/
inductive Classification where
  | internet | csnet | ch | hs | any
deriving DecidableEq

def Classification.toInt : Classification -> Nat
  | .internet => 1 | .csnet => 2 | .ch => 3 | .hs => 4 | .any => 255

/-- `Classification::fromInt`. -/
def Classification.fromInt : Nat -> Option Classification
  | 1 => some .internet | 2 => some .csnet | 3 => some .ch | 4 => some .hs | 255 => some .any
  | _ => none

/-- `ntcdns::Direction`. -/
inductive Direction where
  | request | response
deriving DecidableEq

def Direction.toInt : Direction -> Nat
  | .request => 0 | .response => 1

/-- `Direction::fromInt`. -/
def Direction.fromInt : Nat -> Option Direction
  | 0 => some .request | 1 => some .response | _ => none

/-- `ntcdns::Operation`. -/
inductive Operation where
  | standard | inverse | status
deriving DecidableEq

def Operation.toInt : Operation -> Nat
  | .standard => 0 | .inverse => 1 | .status => 2

/-- `Operation::fromInt`. -/
def Operation.fromInt : Nat -> Option Operation
  | 0 => some .standard | 1 => some .inverse | 2 => some .status | _ => none

/-- `ntcdns::Error`. -/
inductive Error where
  | ok | formatError | serverFailure | nameError | notImplemented | refused
deriving DecidableEq

def Error.toInt : Error -> Nat
  | .ok => 0 | .formatError => 1 | .serverFailure => 2 | .nameError => 3
  | .notImplemented => 4 | .refused => 5

/-- `Error::fromInt`. -/
def Error.fromInt : Nat -> Option Error
  | 0 => some .ok | 1 => some .formatError | 2 => some .serverFailure | 3 => some .nameError
  | 4 => some .notImplemented | 5 => some .refused | _ => none

theorem RecordType.fromInt_toInt (type : RecordType) : fromInt type.toInt = some type := by
  cases type <;> rfl

theorem RecordType.toInt_lt (type : RecordType) : type.toInt < 2 ^ 16 := by
  cases type <;> decide

theorem Classification.fromInt_toInt (value : Classification) :
    fromInt value.toInt = some value := by
  cases value <;> rfl

theorem Classification.toInt_lt (value : Classification) : value.toInt < 2 ^ 16 := by
  cases value <;> decide

theorem Direction.fromInt_toInt (value : Direction) : fromInt value.toInt = some value := by
  cases value <;> rfl

theorem Operation.fromInt_toInt (value : Operation) : fromInt value.toInt = some value := by
  cases value <;> rfl

theorem Error.fromInt_toInt (value : Error) : fromInt value.toInt = some value := by
  cases value <;> rfl

/-! ## The data of resource records

A string is the list of its bytes. -/

/-- `ntcdns::ResourceRecordDataSoa`. -/
structure ZoneAuthority where
  mname : List UInt8
  rname : List UInt8
  serial : UInt32
  refresh : UInt32
  retry : UInt32
  expire : UInt32
  minimum : UInt32
deriving DecidableEq

/-- `ntcdns::ResourceRecordDataWks`. -/
structure WellKnownService where
  address : UInt32
  protocol : UInt8
  port : List UInt16
deriving DecidableEq

/-- `ntcdns::ResourceRecordDataSvr`. -/
structure Server where
  name : List UInt8
  ttl : UInt32
  classification : UInt16
  priority : UInt16
  weight : UInt16
  port : UInt16
  target : List UInt8
deriving DecidableEq

/-- `ntcdns::ResourceRecordData`. Two data are equal for `operator==` when they have
the same selection and the same fields. -/
inductive ResourceRecordData where
  | undefined
  | canonicalName (cname : List UInt8)
  | hostInfo (cpu os : List UInt8)
  | mailExchange (preference : UInt16) (exchange : List UInt8)
  | nameServer (nsdname : List UInt8)
  | pointer (ptrdname : List UInt8)
  | zoneAuthority (value : ZoneAuthority)
  | wellKnownService (value : WellKnownService)
  | text (strings : List (List UInt8))
  | ipv4 (address : UInt32)
  | ipv6 (address0 address1 address2 address3 : UInt32)
  | server (value : Server)
  | raw (data : List UInt8)
deriving DecidableEq

end NtfCore.Ntcdns
