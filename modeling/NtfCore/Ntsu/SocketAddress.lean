import NtfCore.Ntsa.IdentityOrder
import Mathlib.Data.List.TakeWhile

/-!
Contract: socket addresses of the operating system and endpoints
(`ntsu::SocketUtil::Impl::convert`), on Linux.

Owns: the storage of a socket address with its layout, both conversions, what the
operating system returns for the families converted, and the theorem that says
which endpoints and which addresses survive the two conversions.
-/

namespace NtfCore.Ntsu

open NtfCore.Foundation NtfCore.Ntsa LocalName
open List hiding Vector
open Bytes

/-! ## Storage -/

/-- `sizeof(sockaddr_storage)`. -/
def storageSize : Nat := 128

def afUnix : Nat := 1

def afInet : Nat := 2

def afInet6 : Nat := 10

/-- `sizeof(sockaddr_in)`. -/
def ipv4Size : Nat := 16

/-- `sizeof(sockaddr_in6)`. -/
def ipv6Size : Nat := 28

/-- `offsetof(struct sockaddr_un, sun_path)`. -/
def pathOffset : Nat := 2

/-- `sockaddr_storage`. -/
structure SocketStorage where
  bytes : List UInt8
  size_eq : bytes.length = storageSize

namespace SocketStorage

def write (bytes : List UInt8) : SocketStorage where
  bytes := (bytes ++ List.replicate storageSize 0).take storageSize
  size_eq := by simp

def field (storage : SocketStorage) (offset size : Nat) : Vector UInt8 size :=
  Vector.ofFn fun index => storage.bytes.getD (offset + index) 0

/-- `ss_family`, in the order of the host. -/
def family (storage : SocketStorage) : Nat :=
  loadLittleEndian (storage.field 0 2).toList

end SocketStorage

def portBytes (port : UInt16) : List UInt8 := storeBigEndian 2 port.toNat

def familyBytes (family : Nat) : List UInt8 := storeLittleEndian 2 family

/-- `SocketUtil::Impl::convert` of an endpoint: the storage and the size of the
address. An error is `none`. -/
def convertEndpoint : Endpoint -> Option (SocketStorage × Nat)
  | .ip { host := .v4 address, port := port } =>
    some (SocketStorage.write (familyBytes afInet ++ portBytes port ++ address.value.toList),
      ipv4Size)
  | .ip { host := .v6 address, port := port } =>
    some (SocketStorage.write (familyBytes afInet6 ++ portBytes port ++ [0, 0, 0, 0] ++
      (address.firstQword.toList ++ address.secondQword.toList) ++
        storeLittleEndian 4 address.scopeId.toNat), ipv6Size)
  | .ip { host := .undefined, .. } => none
  | .localName name =>
    let value := name.path.map Int8.toUInt8
    if name.isUnnamed then some (SocketStorage.write (familyBytes afUnix), pathOffset)
    else if name.isAbstract then
      some (SocketStorage.write (familyBytes afUnix ++ 0 :: value),
        pathOffset + 1 + value.length)
    else
      -- The terminator is part of the length.
      some (SocketStorage.write (familyBytes afUnix ++ (value ++ [0])),
        pathOffset + value.length + 1)
  | .undefined => none

/-! ## From socket addresses to endpoints -/

/-- What a conversion to an endpoint may do. `outside` is a read past the end of
the storage. -/
inductive Conversion where
  | outside
  | invalid
  | converted (endpoint : Endpoint)
deriving DecidableEq

def scan : List UInt8 -> Option (List UInt8)
  | [] => none
  | byte :: rest => if byte = 0 then some [] else (scan rest).map (byte :: ·)

/-- `ntsa::Ipv4Address::any`. -/
def anyAddress : Ipv4Address where
  value := Vector.replicate 4 0

def convertPath (path : List UInt8) : Conversion :=
  let marked : Bool := path.head? == some 0
  let name := if marked then LocalName.empty.setAbstract.getD LocalName.empty else LocalName.empty
  match scan (if marked then path.tail else path) with
  | none => .outside
  | some value =>
    if value = [] then .converted (.localName name.setUnnamed)
    -- An error of `setValue` is ignored.
    else .converted (.localName ((name.setValue (value.map UInt8.toInt8)).getD name))

/-- `SocketUtil::Impl::convert` of a socket address. -/
def convertStorage (storage : SocketStorage) (size : Nat) : Conversion :=
  if storage.family = afInet then
    if size ≠ 0 then
      if size ≠ ipv4Size then .invalid
      else
        .converted (.ip {
          host := .v4 { value := storage.field 4 4 }
          port := UInt16.ofNat (loadBigEndian (storage.field 2 2).toList) })
    else .converted (.ip { host := .v4 anyAddress, port := 0 })
  else if storage.family = afInet6 then
    if size ≠ 0 then
      if size ≠ ipv6Size then .invalid
      else
        .converted (.ip {
          host := .v6 {
            firstQword := storage.field 8 8
            secondQword := storage.field 16 8
            scopeId := UInt32.ofNat (loadLittleEndian (storage.field 24 4).toList) }
          port := UInt16.ofNat (loadBigEndian (storage.field 2 2).toList) })
    else .converted (.ip { host := .v4 anyAddress, port := 0 })
  else if storage.family = afUnix then
    if size ≠ 0 then
      if size = pathOffset then .converted (.localName LocalName.empty.setUnnamed)
      else convertPath (storage.bytes.drop pathOffset)
    else .converted (.localName LocalName.empty.setUnnamed)
  else .invalid

/-! ## What the operating system returns -/

/-- A socket address as Linux returns it. The name of a socket that is bound to a
file ends with a null byte, for which the kernel makes room when the path fills
`sun_path`; an abstract name may hold any bytes, and is told by the size only. -/
inductive SocketAddress where
  | ipv4 (port : Vector UInt8 2) (address : Vector UInt8 4) (zero : Vector UInt8 8)
  | ipv6 (port : Vector UInt8 2) (flowInfo : Vector UInt8 4) (first second : Vector UInt8 8)
      (scopeId : Vector UInt8 4)
  | unnamed
  | pathname (path : List UInt8) (nonempty : path ≠ []) (atMost : path.length ≤ 108)
      (terminated : 0 ∉ path)
  | abstractName (name : List UInt8) (atMost : name.length ≤ 107)

namespace SocketAddress

def bytes : SocketAddress -> List UInt8
  | .ipv4 port address zero =>
    familyBytes afInet ++ port.toList ++ address.toList ++ zero.toList
  | .ipv6 port flowInfo first second scopeId =>
    familyBytes afInet6 ++ port.toList ++ flowInfo.toList ++ (first.toList ++ second.toList) ++
      scopeId.toList
  | .unnamed => familyBytes afUnix
  | .pathname path _ _ _ => familyBytes afUnix ++ (path ++ [0])
  | .abstractName name _ => familyBytes afUnix ++ 0 :: name

def size (address : SocketAddress) : Nat := address.bytes.length

def storage (address : SocketAddress) : SocketStorage := SocketStorage.write address.bytes

end SocketAddress

def identity (storage : SocketStorage) (size : Nat) : List UInt8 :=
  if storage.family = afInet then storage.bytes.take 8
  else if storage.family = afInet6 then storage.bytes.take 4 ++ (storage.bytes.drop 8).take 20
  else storage.bytes.take size

def Encodable : Endpoint -> Prop
  | .ip { host := .undefined, .. } => False
  | .ip { host := .v4 _, .. } => True
  | .ip { host := .v6 _, .. } => True
  | .localName name => name.isAbstract = false -> (0 : Int8) ∉ name.path
  | .undefined => False

inductive Subject where
  | endpoint (value : Endpoint) (encodable : Encodable value)
  | address (value : SocketAddress)

/-- An endpoint converts to an address that converts to an equal endpoint. An
address converts, without a read outside of its storage, to an endpoint that
converts to an address with the same family, port and name. -/
def Subject.Preserved : Subject -> Prop
  | .endpoint value _ => ∃ storage size other,
      convertEndpoint value = some (storage, size) ∧
        convertStorage storage size = .converted other ∧ value.equals other = true
  | .address value => ∃ endpoint storage size,
      convertStorage value.storage value.size = .converted endpoint ∧
        convertEndpoint endpoint = some (storage, size) ∧
        identity storage size = identity value.storage value.size

/-- A local name that is marked as abstract has bytes, none of them null; a name of
the operating system fits a local name, and an abstract one has bytes, none of
them null. -/
def Subject.Regular : Subject -> Prop
  | .endpoint (.localName name) _ => name.isAbstract = true -> name.path ≠ [] ∧ (0 : Int8) ∉ name.path
  | .endpoint _ _ => True
  | .address (.pathname path _ _ _) => path.length ≤ maxPathLength
  | .address (.abstractName name _) =>
    name ≠ [] ∧ name.length + 1 ≤ maxPathLength ∧ 0 ∉ name
  | .address _ => True

namespace SocketStorage

theorem write_bytes {bytes : List UInt8} (fits : bytes.length ≤ storageSize) :
    (write bytes).bytes = bytes ++ List.replicate (storageSize - bytes.length) 0 := by
  show (bytes ++ replicate storageSize 0).take storageSize = _
  rw [take_append, take_of_length_le fits, take_replicate, Nat.min_eq_left (Nat.sub_le _ _)]

theorem field_toList (storage : SocketStorage) {offset size : Nat}
    (fits : offset + size ≤ storageSize) :
    (storage.field offset size).toList = (storage.bytes.drop offset).take size := by
  have lengthEq := storage.size_eq
  apply ext_getElem
  · simp only [Vector.length_toList, length_take, length_drop]
    omega
  · intro index inField _
    have inStorage : offset + index < storage.bytes.length := by
      simp only [Vector.length_toList] at inField
      omega
    simp [field, inStorage]

theorem field_write (before after : List UInt8) (offset : Nat) {size : Nat}
    (value : Vector UInt8 size) (offsetEq : before.length = offset)
    (fits : offset + size + after.length ≤ storageSize) :
    (write (before ++ value.toList ++ after)).field offset size = value := by
  subst offsetEq
  have written : (before ++ value.toList ++ after).length ≤ storageSize := by
    simp only [length_append, Vector.length_toList]
    exact fits
  apply Vector.toList_inj.mp
  rw [field_toList _ (by omega), write_bytes written, append_assoc, append_assoc,
    drop_left, take_left' (by simp)]

theorem family_write {family : Nat} (isFamily : family < 256 ^ 2) {rest : List UInt8}
    (fits : (familyBytes family ++ rest).length ≤ storageSize) :
    (write (familyBytes family ++ rest)).family = family := by
  unfold SocketStorage.family
  rw [field_toList _ (by decide), write_bytes fits, drop_zero, append_assoc,
    take_left' (by simp [familyBytes])]
  exact load_storeLittleEndian isFamily

end SocketStorage

theorem load_portBytes (port : UInt16) : UInt16.ofNat (loadBigEndian (portBytes port)) = port := by
  unfold portBytes
  rw [load_storeBigEndian port.toNat_lt, UInt16.ofNat_toNat]

theorem familyBytes_length (family : Nat) : (familyBytes family).length = 2 :=
  storeLittleEndian_length 2 family

theorem convertStorage_ipv4 (port : Vector UInt8 2) (address : Vector UInt8 4)
    (rest : List UInt8) (restLength : rest.length ≤ 8) : convertStorage (SocketStorage.write
        (familyBytes afInet ++ port.toList ++ address.toList ++ rest)) ipv4Size =
      .converted (.ip {
        host := .v4 { value := address }
        port := UInt16.ofNat (loadBigEndian port.toList) }) := by
  have addressEq := SocketStorage.field_write (familyBytes afInet ++ port.toList) rest 4 address
    (by simp [familyBytes_length]) (by unfold storageSize; omega)
  have portEq := SocketStorage.field_write (familyBytes afInet) (address.toList ++ rest) 2 port
    (familyBytes_length afInet) (by simp [storageSize]; omega)
  have isFamily : (SocketStorage.write
      (familyBytes afInet ++ (port.toList ++ (address.toList ++ rest)))).family = afInet := by
    apply SocketStorage.family_write (by decide)
    simp [familyBytes_length, storageSize]
    omega
  simp only [append_assoc] at addressEq portEq ⊢
  unfold convertStorage
  rw [if_pos isFamily, if_pos (by decide), if_neg (by decide), addressEq, portEq]

theorem convertStorage_ipv6 (port : Vector UInt8 2) (flowInfo : List UInt8)
    (flowLength : flowInfo.length = 4) (first second : Vector UInt8 8) (scopeId : Vector UInt8 4) :
    convertStorage (SocketStorage.write (familyBytes afInet6 ++ port.toList ++ flowInfo ++
        (first.toList ++ second.toList) ++ scopeId.toList)) ipv6Size =
      .converted (.ip {
        host := .v6 {
          firstQword := first
          secondQword := second
          scopeId := UInt32.ofNat (loadLittleEndian scopeId.toList) }
        port := UInt16.ofNat (loadBigEndian port.toList) }) := by
  have portEq := SocketStorage.field_write (familyBytes afInet6)
    (flowInfo ++ (first.toList ++ second.toList) ++ scopeId.toList) 2 port
    (familyBytes_length afInet6) (by simp [storageSize, flowLength])
  have firstEq := SocketStorage.field_write (familyBytes afInet6 ++ port.toList ++ flowInfo)
    (second.toList ++ scopeId.toList) 8 first (by simp [familyBytes_length, flowLength])
    (by simp [storageSize])
  have secondEq := SocketStorage.field_write
    (familyBytes afInet6 ++ port.toList ++ flowInfo ++ first.toList) scopeId.toList 16 second
    (by simp [familyBytes_length, flowLength]) (by simp [storageSize])
  have scopeEq := SocketStorage.field_write
    (familyBytes afInet6 ++ port.toList ++ flowInfo ++ first.toList ++ second.toList) [] 24 scopeId
    (by simp [familyBytes_length, flowLength]) (by simp [storageSize])
  have isFamily : (SocketStorage.write (familyBytes afInet6 ++ (port.toList ++ (flowInfo ++
      (first.toList ++ (second.toList ++ scopeId.toList)))))).family = afInet6 := by
    apply SocketStorage.family_write (by decide)
    simp [familyBytes_length, storageSize, flowLength]
  simp only [append_assoc, append_nil] at portEq firstEq secondEq scopeEq ⊢
  unfold convertStorage
  rw [if_neg (by rw [isFamily]; decide), if_pos isFamily, if_pos (by decide), if_neg (by decide),
    portEq, firstEq, secondEq, scopeEq]

theorem scan_append (value : List UInt8) (rest : List UInt8) :
    scan (value ++ 0 :: rest) = some (value.takeWhile (· ≠ 0)) := by
  induction value with
  | nil => simp [scan]
  | cons byte _ ih =>
    by_cases isNull : byte = 0
    · simp [scan, isNull]
    · simp [scan, isNull, ih]

theorem takeWhile_of_not_mem {value : List UInt8} (regular : 0 ∉ value) :
    value.takeWhile (· ≠ 0) = value := by
  apply takeWhile_eq_self_iff.mpr
  intro byte mem
  have isByte : byte ≠ 0 := fun isNull => regular (isNull ▸ mem)
  simpa using isByte

theorem length_takeWhile_lt {value : List UInt8} (irregular : 0 ∈ value) :
    (value.takeWhile (· ≠ 0)).length < value.length := by
  apply lt_of_le_of_ne (takeWhile_sublist _).length_le
  intro sameLength
  have same := (takeWhile_sublist (fun byte : UInt8 => decide (byte ≠ 0))).eq_of_length sameLength
  have isByte := takeWhile_eq_self_iff.mp same 0 irregular
  simp at isByte

theorem map_toInt8_toUInt8 (value : List Int8) :
    (value.map Int8.toUInt8).map UInt8.toInt8 = value := by
  rw [map_map]
  exact (map_congr_left fun byte _ => Int8.toInt8_toUInt8 byte).trans (map_id _)

theorem map_toUInt8_toInt8 (value : List UInt8) :
    (value.map UInt8.toInt8).map Int8.toUInt8 = value := by
  rw [map_map]
  exact (map_congr_left fun byte _ => UInt8.toUInt8_toInt8 byte).trans (map_id _)

theorem mem_map_toUInt8 (value : List Int8) :
    (0 : UInt8) ∈ value.map Int8.toUInt8 ↔ (0 : Int8) ∈ value := by
  constructor
  · intro mem
    obtain ⟨byte, inValue, isNull⟩ := mem_map.mp mem
    have isZero : byte = 0 := by
      rw [← Int8.toInt8_toUInt8 byte, isNull]
      rfl
    exact isZero ▸ inValue
  · intro mem
    exact mem_map_of_mem mem

def named (isAbstract : Bool) (value : List UInt8) : LocalName where
  path := if value.length + isAbstract.toNat ≤ maxPathLength then value.map UInt8.toInt8 else []
  isAbstract := isAbstract
  size_le := by
    split
    · rename_i fits
      rw [List.length_map]
      exact fits
    · cases isAbstract with
      | false => decide
      | true => decide

theorem LocalName.eq_of_fields {left right : LocalName} (samePath : left.path = right.path)
    (sameMark : left.isAbstract = right.isAbstract) : left = right := by
  cases left
  cases right
  simp_all

theorem setValue_named (name : LocalName) (unnamed : name.path = []) (value : List UInt8) :
    (if value = [] then name.setUnnamed
      else (name.setValue (value.map UInt8.toInt8)).getD name) = named name.isAbstract value := by
  split
  · rename_i nothing
    rw [nothing]
    apply LocalName.eq_of_fields
    · simp [LocalName.setUnnamed, named]
    · rfl
  · unfold setValue
    by_cases fits : value.length + name.isAbstract.toNat ≤ maxPathLength
    · rw [dif_pos (by rwa [length_map])]
      apply LocalName.eq_of_fields
      · simp [named, fits]
      · rfl
    · rw [dif_neg (by rwa [length_map])]
      apply LocalName.eq_of_fields
      · simp [named, fits, unnamed]
      · rfl

open Conversion

theorem convertPath_abstract (name rest : List UInt8) : convertPath (0 :: (name ++ 0 :: rest)) =
      .converted (.localName (named true (name.takeWhile (· ≠ 0)))) := by
  have namedEq := setValue_named (empty.setAbstract.getD empty) rfl (name.takeWhile (· ≠ 0))
  unfold convertPath
  simp only [head?_cons, beq_self_eq_true, ↓reduceIte, tail_cons, scan_append]
  rw [← apply_ite (fun name => converted (.localName name)), namedEq]
  rfl

theorem convertPath_persistent {path : List UInt8} (ne : path ≠ []) (regular : 0 ∉ path)
    (rest : List UInt8) :
    convertPath (path ++ 0 :: rest) = .converted (.localName (named false path)) := by
  have namedEq := setValue_named empty rfl path
  have unmarked : ((path ++ 0 :: rest).head? == some 0) = false := by
    cases path with
    | nil => contradiction
    | cons first =>
      have isByte : first ≠ 0 := fun isNull => regular (isNull ▸ mem_cons_self)
      simpa using isByte
  unfold convertPath
  simp only [unmarked, Bool.false_eq_true, ↓reduceIte, scan_append, takeWhile_of_not_mem regular]
  rw [← apply_ite (fun name => converted (.localName name)), namedEq]
  rfl

def localBytes (name : LocalName) : List UInt8 :=
  let value := name.path.map Int8.toUInt8
  if name.path = [] then [] else if name.isAbstract then 0 :: value else value ++ [0]

theorem convertEndpoint_local (name : LocalName) : convertEndpoint (.localName name) =
      some (SocketStorage.write (familyBytes afUnix ++ localBytes name),
        pathOffset + (localBytes name).length) := by
  unfold convertEndpoint localBytes isUnnamed
  by_cases unnamed : name.path = []
  · simp [unnamed]
  · have isNamed : (name.path.length == 0) = false := by simp [unnamed]
    cases isMark : name.isAbstract with
    | false =>
      simp only [isNamed, unnamed, isMark, Bool.false_eq_true, ↓reduceIte, length_append,
        length_singleton, Nat.add_assoc]
    | true =>
      simp only [isNamed, unnamed, isMark, Bool.false_eq_true, ↓reduceIte, length_cons,
        Nat.add_assoc, Nat.add_comm 1]

variable {rest : List UInt8}

theorem write_local (fits : pathOffset + rest.length ≤ storageSize) :
    (SocketStorage.write (familyBytes afUnix ++ rest)).family = afUnix ∧
      (SocketStorage.write (familyBytes afUnix ++ rest)).bytes =
        familyBytes afUnix ++ (rest ++ List.replicate (storageSize - (pathOffset + rest.length)) 0)
    := by
  have written : (familyBytes afUnix ++ rest).length ≤ storageSize := by
    rw [length_append, familyBytes_length]
    exact fits
  refine ⟨SocketStorage.family_write (by decide) written, ?_⟩
  rw [SocketStorage.write_bytes written, length_append, familyBytes_length, append_assoc]
  rfl

theorem convertStorage_local (ne : rest ≠ []) (fits : pathOffset + rest.length < storageSize) :
    convertStorage (SocketStorage.write (familyBytes afUnix ++ rest)) (pathOffset + rest.length) =
      convertPath (rest ++ 0 :: List.replicate (storageSize - (pathOffset + rest.length) - 1) 0)
    := by
  obtain ⟨isFamily, bytesEq⟩ := write_local (Nat.le_of_lt fits)
  have pos := length_pos_of_ne_nil ne
  have offsetEq : (familyBytes afUnix).length = pathOffset := familyBytes_length afUnix
  have padding : replicate (storageSize - (pathOffset + rest.length)) (0 : UInt8) =
      0 :: replicate (storageSize - (pathOffset + rest.length) - 1) 0 := by
    rw [← replicate_succ, Nat.sub_add_cancel (Nat.sub_pos_of_lt fits)]
  unfold convertStorage
  rw [if_neg (by rw [isFamily]; decide), if_neg (by rw [isFamily]; decide), if_pos isFamily,
    if_pos (by unfold pathOffset; omega), if_neg (by omega), bytesEq, padding,
    drop_left' offsetEq]

theorem convertStorage_unnamed :
    convertStorage (SocketStorage.write (familyBytes afUnix)) pathOffset =
      .converted (.localName empty.setUnnamed) := by
  decide +kernel

theorem identity_local (fits : pathOffset + rest.length ≤ storageSize) :
    identity (SocketStorage.write (familyBytes afUnix ++ rest)) (pathOffset + rest.length) =
      familyBytes afUnix ++ rest := by
  obtain ⟨isFamily, bytesEq⟩ := write_local fits
  unfold identity
  rw [if_neg (by rw [isFamily]; decide), if_neg (by rw [isFamily]; decide), bytesEq,
    ← append_assoc, take_left' (by rw [length_append, familyBytes_length]; rfl)]

/-! ## What is preserved -/

theorem localBytes_length_le (name : LocalName) : (localBytes name).length ≤ maxPathLength + 1 := by
  have fits := name.size_le
  unfold localBytes
  split
  · exact Nat.zero_le _
  · split
    · rename_i isMarked
      rw [length_cons, length_map]
      omega
    · rw [length_append, length_map, length_singleton]
      omega

def vectorOf {size : Nat} (bytes : List UInt8) (lengthEq : bytes.length = size) :
    Vector UInt8 size :=
  Vector.mk bytes.toArray (by simpa using lengthEq)

@[simp] theorem vectorOf_toList {size : Nat} (bytes : List UInt8) (lengthEq : bytes.length = size) :
    (vectorOf bytes lengthEq).toList = bytes := by
  simp [vectorOf]

theorem ipv4_preserved (address : Ipv4Address) (port : UInt16)
    (encodable : Encodable (.ip { host := .v4 address, port := port })) :
    (Subject.endpoint _ encodable).Preserved := by
  have converts := convertStorage_ipv4 (vectorOf (portBytes port) (by simp [portBytes]))
    address.value [] (by decide)
  rw [vectorOf_toList, load_portBytes, append_nil] at converts
  refine ⟨_, _, _, rfl, converts, ?_⟩
  simp [Endpoint.equals, IpEndpoint.equals, IpAddress.equals, Ipv4Address.equals]

theorem ipv6_preserved (address : Ipv6Address) (port : UInt16)
    (encodable : Encodable (.ip { host := .v6 address, port := port })) :
    (Subject.endpoint _ encodable).Preserved := by
  have converts := convertStorage_ipv6 (vectorOf (portBytes port) (by simp [portBytes]))
    [0, 0, 0, 0] rfl address.firstQword address.secondQword
    (vectorOf (storeLittleEndian 4 address.scopeId.toNat) (by simp))
  rw [vectorOf_toList, load_portBytes, vectorOf_toList,
    load_storeLittleEndian address.scopeId.toNat_lt, UInt32.ofNat_toNat] at converts
  refine ⟨_, _, _, rfl, converts, ?_⟩
  simp [Endpoint.equals, IpEndpoint.equals, IpAddress.equals, Ipv6Address.equals]

theorem local_preserved_iff (name : LocalName) (encodable : Encodable (.localName name)) :
    (Subject.endpoint _ encodable).Preserved ↔
      ∃ other, convertStorage (SocketStorage.write (familyBytes afUnix ++ localBytes name))
        (pathOffset + (localBytes name).length) = .converted other ∧
          (Endpoint.localName name).equals other = true := by
  unfold Subject.Preserved
  simp only [convertEndpoint_local, Option.some.injEq, Prod.mk.injEq]
  constructor
  · rintro ⟨_, _, other, ⟨rfl, rfl⟩, converts, same⟩
    exact ⟨other, converts, same⟩
  · rintro ⟨other, converts, same⟩
    exact ⟨_, _, other, ⟨rfl, rfl⟩, converts, same⟩

theorem local_preserved_of {name read : LocalName} (encodable : Encodable (.localName name))
    (converts : convertStorage (SocketStorage.write (familyBytes afUnix ++ localBytes name))
      (pathOffset + (localBytes name).length) = .converted (.localName read)) :
    (Subject.endpoint _ encodable).Preserved ↔
      name.path = read.path ∧ name.isAbstract = read.isAbstract := by
  rw [local_preserved_iff, converts, ← equals_iff]
  constructor
  · rintro ⟨_, sameOther, same⟩
    rw [← converted.inj sameOther] at same
    exact same
  · intro same
    exact ⟨_, rfl, same⟩

theorem local_regular_iff (name : LocalName) (encodable : Encodable (.localName name)) :
    (Subject.endpoint _ encodable).Preserved ↔
      (name.isAbstract = true -> name.path ≠ [] ∧ (0 : Int8) ∉ name.path) := by
  have lengthLe := localBytes_length_le name
  have fits : pathOffset + (localBytes name).length < storageSize := by
    unfold pathOffset storageSize
    unfold maxPathLength at lengthLe
    omega
  by_cases unnamed : name.path = []
  · have bytesEq : localBytes name = [] := by simp [localBytes, unnamed]
    have converts : convertStorage (SocketStorage.write (familyBytes afUnix ++ localBytes name))
        (pathOffset + (localBytes name).length) = .converted (.localName empty.setUnnamed) := by
      rw [bytesEq, append_nil]
      exact convertStorage_unnamed
    rw [local_preserved_of encodable converts]
    simp [unnamed, setUnnamed, empty]
  · cases isMark : name.isAbstract with
    | true =>
      have bytesEq : localBytes name = 0 :: name.path.map Int8.toUInt8 := by
        simp [localBytes, unnamed, isMark]
      have converts : convertStorage (SocketStorage.write (familyBytes afUnix ++ localBytes name))
          (pathOffset + (localBytes name).length) = .converted (.localName
            (named true ((name.path.map Int8.toUInt8).takeWhile (· ≠ 0)))) := by
        rw [convertStorage_local (by simp [bytesEq]) fits, bytesEq]
        exact convertPath_abstract _ _
      have shorter := (takeWhile_sublist (fun byte : UInt8 => decide (byte ≠ 0))
        (l := name.path.map Int8.toUInt8)).length_le
      have room := name.size_le
      rw [isMark, Bool.toNat_true] at room
      rw [length_map] at shorter
      have pathEq : (named true ((name.path.map Int8.toUInt8).takeWhile (· ≠ 0))).path =
          ((name.path.map Int8.toUInt8).takeWhile (· ≠ 0)).map UInt8.toInt8 :=
        if_pos (Nat.le_trans (Nat.add_le_add_right shorter 1) room)
      rw [local_preserved_of encodable converts, pathEq, ← mem_map_toUInt8]
      constructor
      · rintro ⟨same, _⟩ _
        refine ⟨unnamed, ?_⟩
        intro irregular
        have lengthLt := length_takeWhile_lt irregular
        have lengthEq := congrArg length same
        rw [length_map] at lengthEq lengthLt
        omega
      · intro regular
        rw [takeWhile_of_not_mem (regular rfl).2, map_toInt8_toUInt8]
        exact ⟨rfl, isMark⟩
    | false =>
      have regular : (0 : UInt8) ∉ name.path.map Int8.toUInt8 :=
        fun mem => encodable isMark ((mem_map_toUInt8 _).mp mem)
      have bytesEq : localBytes name = name.path.map Int8.toUInt8 ++ [0] := by
        simp [localBytes, unnamed, isMark]
      have converts : convertStorage (SocketStorage.write (familyBytes afUnix ++ localBytes name))
          (pathOffset + (localBytes name).length) = .converted (.localName
            (named false (name.path.map Int8.toUInt8))) := by
        rw [convertStorage_local (by simp [bytesEq]) fits, bytesEq, append_assoc]
        exact convertPath_persistent (by simpa using unnamed) regular _
      have room := name.size_le
      rw [isMark] at room
      have pathEq : (named false (name.path.map Int8.toUInt8)).path =
          (name.path.map Int8.toUInt8).map UInt8.toInt8 :=
        if_pos (by rwa [length_map])
      rw [local_preserved_of encodable converts, pathEq, map_toInt8_toUInt8]
      exact iff_of_true ⟨rfl, isMark⟩ (fun impossible => absurd impossible Bool.false_ne_true)

theorem portBytes_load (port : Vector UInt8 2) :
    portBytes (UInt16.ofNat (loadBigEndian port.toList)) = port.toList := by
  have bound := loadLittleEndian_lt port.toList.reverse
  have stored := store_loadBigEndian port.toList
  rw [length_reverse, Vector.length_toList] at bound
  rw [Vector.length_toList] at stored
  unfold portBytes
  rw [UInt16.toNat_ofNat', Nat.mod_eq_of_lt (by exact bound)]
  exact stored

theorem scopeBytes_load (scopeId : Vector UInt8 4) :
    storeLittleEndian 4 (UInt32.ofNat (loadLittleEndian scopeId.toList)).toNat =
      scopeId.toList := by
  have bound := loadLittleEndian_lt scopeId.toList
  have stored := store_loadLittleEndian scopeId.toList
  rw [Vector.length_toList] at bound stored
  rw [UInt32.toNat_ofNat', Nat.mod_eq_of_lt (by exact bound)]
  exact stored

theorem identity_ipv4 (port : Vector UInt8 2) (address : Vector UInt8 4) (rest : List UInt8)
    (restLength : rest.length ≤ 8) (size : Nat) : identity (SocketStorage.write
        (familyBytes afInet ++ port.toList ++ address.toList ++ rest)) size =
      familyBytes afInet ++ port.toList ++ address.toList := by
  have written : (familyBytes afInet ++ (port.toList ++ (address.toList ++ rest))).length ≤
      storageSize := by
    simp [familyBytes_length, storageSize]
    omega
  have isFamily := SocketStorage.family_write (by decide) written
  have bytesEq := SocketStorage.write_bytes written
  simp only [← append_assoc] at isFamily bytesEq
  unfold identity
  rw [if_pos isFamily, bytesEq, append_assoc _ rest, take_left' (by simp [familyBytes_length])]

theorem identity_ipv6 (port : Vector UInt8 2) (flowInfo : List UInt8)
    (flowLength : flowInfo.length = 4) (first second : Vector UInt8 8) (scopeId : Vector UInt8 4)
    (size : Nat) : identity (SocketStorage.write (familyBytes afInet6 ++ port.toList ++ flowInfo ++
        (first.toList ++ second.toList) ++ scopeId.toList)) size =
      familyBytes afInet6 ++ port.toList ++ (first.toList ++ second.toList ++ scopeId.toList) := by
  have written : (familyBytes afInet6 ++ (port.toList ++ (flowInfo ++
      (first.toList ++ (second.toList ++ scopeId.toList))))).length ≤ storageSize := by
    simp [familyBytes_length, storageSize, flowLength]
  have isFamily := SocketStorage.family_write (by decide) written
  have bytesEq := SocketStorage.write_bytes written
  have headEq : (SocketStorage.write (familyBytes afInet6 ++ (port.toList ++ (flowInfo ++
      (first.toList ++ (second.toList ++ scopeId.toList)))))).bytes.take 4 =
        familyBytes afInet6 ++ port.toList := by
    rw [bytesEq, ← append_assoc (familyBytes afInet6), append_assoc,
      take_left' (by simp [familyBytes_length])]
  have tailEq : ((SocketStorage.write (familyBytes afInet6 ++ (port.toList ++ (flowInfo ++
      (first.toList ++ (second.toList ++ scopeId.toList)))))).bytes.drop 8).take 20 =
        first.toList ++ (second.toList ++ scopeId.toList) := by
    rw [bytesEq, ← append_assoc (familyBytes afInet6), ← append_assoc _ flowInfo,
      append_assoc, drop_left' (by simp [familyBytes_length, flowLength]),
      take_left' (by simp)]
  simp only [append_assoc]
  unfold identity
  rw [if_neg (by rw [isFamily]; decide), if_pos isFamily, headEq, tailEq, append_assoc]

open SocketAddress

theorem ipv4_address_preserved (port : Vector UInt8 2) (address : Vector UInt8 4)
    (zero : Vector UInt8 8) : (Subject.address (.ipv4 port address zero)).Preserved := by
  have converts := convertStorage_ipv4 port address zero.toList (by simp)
  have identityEq := identity_ipv4 port address zero.toList (by simp) ipv4Size
  have written := identity_ipv4 port address [] (by simp) ipv4Size
  have sizeEq : (ipv4 port address zero).size = ipv4Size := by
    simp [size, bytes, familyBytes_length, ipv4Size]
  rw [← sizeEq] at converts identityEq
  refine ⟨_, _, _, converts, rfl, ?_⟩
  rw [append_nil] at written
  rw [portBytes_load, written]
  exact identityEq.symm

theorem ipv6_address_preserved (port : Vector UInt8 2) (flowInfo : Vector UInt8 4)
    (first second : Vector UInt8 8) (scopeId : Vector UInt8 4) :
    (Subject.address (.ipv6 port flowInfo first second scopeId)).Preserved := by
  have converts := convertStorage_ipv6 port flowInfo.toList (by simp) first second scopeId
  have identityEq := identity_ipv6 port flowInfo.toList (by simp) first second scopeId ipv6Size
  have written := identity_ipv6 port [0, 0, 0, 0] rfl first second scopeId ipv6Size
  have sizeEq : (ipv6 port flowInfo first second scopeId).size = ipv6Size := by
    simp [size, bytes, familyBytes_length, ipv6Size]
  rw [← sizeEq] at converts identityEq
  refine ⟨_, _, _, converts, rfl, ?_⟩
  rw [portBytes_load, scopeBytes_load, written]
  exact identityEq.symm

variable {address : SocketAddress}

theorem local_address_preserved_iff {read : LocalName}
    (bytesEq : address.bytes = familyBytes afUnix ++ rest)
    (fits : pathOffset + rest.length ≤ storageSize)
    (converts : convertStorage address.storage address.size = .converted (.localName read)) :
    (Subject.address address).Preserved ↔ localBytes read = rest := by
  have readFits : pathOffset + (localBytes read).length ≤ storageSize := by
    have lengthLe := localBytes_length_le read
    unfold pathOffset storageSize
    unfold maxPathLength at lengthLe
    omega
  have sizeEq : address.size = pathOffset + rest.length := by
    unfold size
    rw [bytesEq, length_append, familyBytes_length]
    rfl
  have identityEq : identity address.storage address.size = familyBytes afUnix ++ rest := by
    rw [sizeEq]
    unfold storage
    rw [bytesEq, identity_local fits]
  unfold Subject.Preserved
  dsimp only
  rw [converts, identityEq]
  constructor
  · rintro ⟨_, _, _, isRead, encodes, same⟩
    rw [← converted.inj isRead, convertEndpoint_local] at encodes
    obtain ⟨rfl, rfl⟩ := Prod.mk.inj (Option.some.inj encodes)
    rw [identity_local readFits] at same
    exact append_cancel_left same
  · intro same
    refine ⟨_, _, _, rfl, convertEndpoint_local read, ?_⟩
    rw [identity_local readFits, same]

theorem local_address_converts (bytesEq : address.bytes = familyBytes afUnix ++ rest)
    (ne : rest ≠ []) (fits : pathOffset + rest.length < storageSize) :
    convertStorage address.storage address.size =
      convertPath (rest ++ 0 :: List.replicate (storageSize - (pathOffset + rest.length) - 1) 0)
 := by
  have sizeEq : address.size = pathOffset + rest.length := by
    unfold size
    rw [bytesEq, length_append, familyBytes_length]
    rfl
  rw [sizeEq]
  unfold storage
  rw [bytesEq, convertStorage_local ne fits]

theorem unnamed_preserved : (Subject.address .unnamed).Preserved := by
  have bytesEq : unnamed.bytes = familyBytes afUnix ++ [] := (append_nil _).symm
  have converts : convertStorage unnamed.storage unnamed.size =
      .converted (.localName empty.setUnnamed) := by exact convertStorage_unnamed
  rw [local_address_preserved_iff bytesEq (by decide) converts]
  rfl

theorem localBytes_named (isAbstract : Bool) (value : List UInt8) :
    localBytes (named isAbstract value) =
      if value.length + isAbstract.toNat ≤ maxPathLength ∧ value ≠ [] then
        if isAbstract then 0 :: value else value ++ [0] else [] := by
  unfold localBytes named
  by_cases fits : value.length + isAbstract.toNat ≤ maxPathLength
  · by_cases ne : value = []
    · simp [ne]
    · simp only [fits, ne, ↓reduceIte, map_eq_nil_iff, map_toUInt8_toInt8, ne_eq,
        not_false_eq_true, and_self]
  · simp [fits]

theorem pathname_preserved_iff (path : List UInt8) (ne : path ≠ [])
    (atMost : path.length ≤ 108) (terminated : 0 ∉ path) :
    (Subject.address (.pathname path ne atMost terminated)).Preserved ↔
      path.length ≤ maxPathLength := by
  have fits : pathOffset + (path ++ [0]).length < storageSize := by
    rw [length_append, length_singleton]
    unfold pathOffset storageSize
    omega
  have bytesEq : (pathname path ne atMost terminated).bytes =
      familyBytes afUnix ++ (path ++ [0]) := rfl
  have converts := local_address_converts bytesEq (by simp) fits
  rw [append_assoc, singleton_append, convertPath_persistent ne terminated] at converts
  rw [local_address_preserved_iff bytesEq (Nat.le_of_lt fits) converts]
  rw [localBytes_named]
  by_cases short : path.length ≤ maxPathLength
  · rw [if_pos ⟨short, ne⟩]
    exact iff_of_true rfl short
  · rw [if_neg (fun both => short both.1)]
    exact iff_of_false (by simp) short

theorem abstract_preserved_iff (name : List UInt8) (atMost : name.length ≤ 107) :
    (Subject.address (.abstractName name atMost)).Preserved ↔
      name ≠ [] ∧ name.length + 1 ≤ maxPathLength ∧ 0 ∉ name := by
  have fits : pathOffset + (0 :: name).length < storageSize := by
    rw [length_cons]
    unfold pathOffset storageSize
    omega
  have bytesEq : (abstractName name atMost).bytes = familyBytes afUnix ++ (0 :: name) := rfl
  have converts := local_address_converts bytesEq (by simp) fits
  rw [cons_append, convertPath_abstract] at converts
  rw [local_address_preserved_iff bytesEq (Nat.le_of_lt fits) converts]
  rw [localBytes_named, if_pos rfl]
  constructor
  · intro same
    split at same
    · rename_i taken
      have sameName := (cons.inj same).2
      rw [sameName] at taken
      refine ⟨taken.2, taken.1, ?_⟩
      intro irregular
      have shorter := length_takeWhile_lt irregular
      rw [sameName] at shorter
      exact Nat.lt_irrefl _ shorter
    · contradiction
  · rintro ⟨ne, short, regular⟩
    rw [takeWhile_of_not_mem regular, if_pos ⟨short, ne⟩]

/-- For every endpoint and every address of the operating system: the conversions
preserve it if and only if it is regular. -/
theorem preserved_iff_regular (subject : Subject) : subject.Preserved ↔ subject.Regular := by
  cases subject with
  | endpoint value encodable =>
    cases value with
    | undefined => contradiction
    | localName name => exact local_regular_iff name encodable
    | ip endpoint =>
      obtain ⟨host, port⟩ := endpoint
      cases host with
      | undefined => contradiction
      | v4 address => exact iff_of_true (ipv4_preserved address port encodable) trivial
      | v6 address => exact iff_of_true (ipv6_preserved address port encodable) trivial
  | address value =>
    cases value with
    | ipv4 port address zero => exact iff_of_true (ipv4_address_preserved port address zero) trivial
    | ipv6 port flowInfo first second scopeId =>
      exact iff_of_true (ipv6_address_preserved port flowInfo first second scopeId) trivial
    | unnamed => exact iff_of_true unnamed_preserved trivial
    | pathname path ne atMost terminated =>
      exact pathname_preserved_iff path ne atMost terminated
    | abstractName name atMost => exact abstract_preserved_iff name atMost

/-- An abstract name with a null byte in it: what follows the byte is lost. -/
theorem not_always_preserved : ¬ ∀ subject : Subject, subject.Preserved := by
  intro all
  have preserved := all (.address (.abstractName [97, 0, 98] (by decide)))
  exact absurd ((abstract_preserved_iff _ _).mp preserved).2.2 (by decide)

end NtfCore.Ntsu
