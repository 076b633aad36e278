import NtfCore.Foundation.Run
import NtfCore.Ntsa.IdentityOrder

/-!
Contract: the cache of resolved names (`ntcdns::Cache`).

Owns: the entries shared by the index of domain names and the index of addresses,
`updateHost`, `getIpAddress`, `getDomainName`, `privateRemove` and `clear` as
`ntcdns_cache.cpp` computes them, and the record of the updates made.

An entry is known by the order of its creation, and an iterator by the position of
the node it refers to, which no other node of the cache ever has; the end of an index
is `none`. An assertion of the source that fails is `none`. Times are in nanoseconds.
The container of the names places a node among those of its name as it likes: where
is given with the action. The limits on the time to live are not used by the source.
-/

namespace NtfCore.Ntcdns

open NtfCore.Ntsa

/-- `ntcdns::CacheHostEntry`. -/
structure CacheHostEntry where
  domainName : List UInt8 := []
  ipAddress : IpAddress := .undefined
  nameServer : Endpoint := .undefined
  timeToLive : Nat := 0
  lastUpdate : Int := 0
  expiration : Int := 0
  iteratorByDomainName : Option Nat := none
  iteratorByIpAddress : Option Nat := none

structure CacheNode (Key : Type) where
  position : Nat
  key : Key
  entry : Nat

/-- `ntcdns::Cache`, with the entries created so far. -/
structure Cache where
  entries : Nat -> CacheHostEntry := fun _ => {}
  numCreated : Nat := 0
  nextPosition : Nat := 0
  byDomainName : List (CacheNode (List UInt8)) := []
  byIpAddress : List (CacheNode IpAddress) := []
  cacheEntryCount : Nat := 0

/-- `ntsa::Transport`. -/
inductive Transport where
  | undefined
  | tcpIpv4Stream
  | tcpIpv6Stream
  | udpIpv4Datagram
  | udpIpv6Datagram
  | localStream
  | localDatagram

/-- `ntca::GetIpAddressOptions`, as far as the cache reads them. A filter that is set
to an empty function is none. -/
structure GetIpAddressOptions where
  ipAddressType : Option IpAddressType := none
  ipAddressSelector : Option Nat := none
  ipAddressFilter : Option (List IpAddress -> List IpAddress) := none
  transport : Option Transport := none

/-- The errors of the cache: `e_INVALID` and `e_EOF`. -/
inductive CacheError where
  | invalid
  | eof

/-- The result of `getIpAddress`, with what it loads into the context. -/
structure GetIpAddressResult where
  ipAddressList : List IpAddress
  nameServer : Option Endpoint
  timeToLive : Option Nat

/-- The result of `getDomainName`, with what it loads into the context. -/
structure GetDomainNameResult where
  domainName : List UInt8
  nameServer : Endpoint
  timeToLive : Nat

/-- A time plus `bsls::TimeInterval` of a time to live: the seconds of all three are signed
integers of 64 bits, and the nanoseconds stay. -/
def addTimeToLive (now : Int) (timeToLive : Nat) : Int :=
  Int.bmod (now.tdiv 1000000000 + Int.bmod timeToLive (2 ^ 64)) (2 ^ 64) * 1000000000 +
    now.tmod 1000000000

/-- `bsls::TimeInterval::totalSeconds` of an interval that is not negative. -/
def totalSeconds (interval : Int) : Nat :=
  (interval / 1000000000).toNat

def Transport.ipAddressType : Transport -> Option IpAddressType
  | .tcpIpv4Stream | .udpIpv4Datagram => some .v4
  | .tcpIpv6Stream | .udpIpv6Datagram => some .v6
  | .undefined | .localStream | .localDatagram => none

/-- `Compat::convert` of the options to the type of the addresses. -/
def convert (options : GetIpAddressOptions) : Except CacheError (Option IpAddressType) :=
  match options.ipAddressType with
  | some ipAddressType =>
    if ipAddressType = .undefined then .error .invalid
    else
      match options.transport with
      | none => .ok (some ipAddressType)
      | some transport =>
        if transport.ipAddressType = some ipAddressType then .ok (some ipAddressType)
        else .error .invalid
  | none =>
    match options.transport with
    | none => .ok none
    | some transport =>
      match transport.ipAddressType with
      | some ipAddressType => .ok (some ipAddressType)
      | none => .error .invalid

/-- `ResolverUtil::sortIpAddressList`. -/
def sortIpAddressList (ipAddressList : List IpAddress) : List IpAddress :=
  ipAddressList.filter (fun ipAddress => ipAddress.type = .v4) ++
    ipAddressList.filter (fun ipAddress => ipAddress.type = .v6)

namespace Cache

def modifyEntry (cache : Cache) (id : Nat) (change : CacheHostEntry -> CacheHostEntry) : Cache :=
  { cache with entries := fun other =>
      if other = id then change (cache.entries id) else cache.entries other }

/-- `Cache::privateRemove`. -/
def privateRemove (cache : Cache) (id : Nat) : Option Cache :=
  match (cache.entries id).iteratorByDomainName, (cache.entries id).iteratorByIpAddress with
  | some nameIterator, some addressIterator =>
    some { cache with
      byDomainName := cache.byDomainName.filter fun node => node.position ≠ nameIterator
      byIpAddress := cache.byIpAddress.filter fun node => node.position ≠ addressIterator
      cacheEntryCount := cache.cacheEntryCount - 1 }
  | _, _ => none

/-- `equal_range` of the index of domain names. -/
def equalRange (cache : Cache) (domainName : List UInt8) : List (CacheNode (List UInt8)) :=
  cache.byDomainName.filter fun node => node.key = domainName

/-- `find` of the index of addresses. -/
def findIpAddress (cache : Cache) (ipAddress : IpAddress) : Option (CacheNode IpAddress) :=
  cache.byIpAddress.find? fun node => node.key = ipAddress

def removeByDomainName (cache : Cache) (node : CacheNode (List UInt8)) : Option Cache :=
  if (cache.entries node.entry).iteratorByDomainName = some node.position then
    cache.privateRemove node.entry
  else none

def removeByIpAddress (cache : Cache) (node : CacheNode IpAddress) : Option Cache :=
  if (cache.entries node.entry).iteratorByIpAddress = some node.position then
    cache.privateRemove node.entry
  else none

/-! ## Updates -/

structure Update where
  domainName : List UInt8
  ipAddress : IpAddress
  nameServer : Endpoint
  timeToLive : Nat
  now : Int

def Update.expiration (update : Update) : Int :=
  addTimeToLive update.now update.timeToLive

/-- The setters that `updateHost` calls on an entry it finds. -/
def Update.refresh (update : Update) (entry : CacheHostEntry) : CacheHostEntry :=
  { entry with
    nameServer := update.nameServer
    timeToLive := update.timeToLive
    lastUpdate := update.now
    expiration := update.expiration }

/-- The loop of `updateHost` over the entries of the domain name, which ends with
whether an entry was updated. No entry must be inserted then. -/
def updateLoop (update : Update) :
    List (CacheNode (List UInt8)) -> Cache -> Bool -> Option (Cache × Bool)
  | [], cache, oldCacheEntryUpdated => some (cache, oldCacheEntryUpdated)
  | node :: rest, cache, oldCacheEntryUpdated =>
    let cacheEntry := cache.entries node.entry
    if cacheEntry.ipAddress = update.ipAddress then
      if !oldCacheEntryUpdated then
        updateLoop update rest (cache.modifyEntry node.entry update.refresh) true
      else updateLoop update rest cache true
    else if cacheEntry.expiration ≤ update.now then
      match cache.removeByDomainName node with
      | some removed => updateLoop update rest removed oldCacheEntryUpdated
      | none => none
    else updateLoop update rest cache oldCacheEntryUpdated

def insertByDomainName (cache : Cache) (update : Update) (place : Nat) : Cache × Nat :=
  let newCacheEntry : CacheHostEntry := update.refresh {
    domainName := update.domainName
    ipAddress := update.ipAddress
    iteratorByDomainName := some cache.nextPosition }
  let node : CacheNode (List UInt8) := ⟨cache.nextPosition, update.domainName, cache.numCreated⟩
  ({ cache.modifyEntry cache.numCreated (fun _ => newCacheEntry) with
      numCreated := cache.numCreated + 1
      nextPosition := cache.nextPosition + 1
      byDomainName := cache.byDomainName.take place ++ node :: cache.byDomainName.drop place
      cacheEntryCount := cache.cacheEntryCount + 1 }, cache.numCreated)

def insertByIpAddress (cache : Cache) (ipAddress : IpAddress) (newCacheEntry : Nat) : Cache :=
  let position := cache.nextPosition
  { cache.modifyEntry newCacheEntry
      (fun entry => { entry with iteratorByIpAddress := some position }) with
    nextPosition := position + 1
    byIpAddress := cache.byIpAddress ++ [⟨position, ipAddress, newCacheEntry⟩] }

/-- The second part of `updateHost`, for the index of addresses. The entry that is
found has the address it was found by, so that the source never comes to the removal
of one that has another. -/
def updateByIpAddress (cache : Cache) (update : Update) (newCacheEntry : Option Nat)
    (oldCacheEntryUpdated : Bool) : Option Cache :=
  match cache.findIpAddress update.ipAddress with
  | some node =>
    let cacheEntry := cache.entries node.entry
    if cacheEntry.ipAddress = update.ipAddress then
      if !oldCacheEntryUpdated then some (cache.modifyEntry node.entry update.refresh)
      else some cache
    else if cacheEntry.expiration ≤ update.now then
      match cache.removeByIpAddress node, newCacheEntry with
      | some removed, some newCacheEntry =>
        some (removed.insertByIpAddress update.ipAddress newCacheEntry)
      | _, _ => none
    -- The address is in the index, so that the insertion fails.
    else none
  | none =>
    match newCacheEntry with
    | some newCacheEntry => some (cache.insertByIpAddress update.ipAddress newCacheEntry)
    | none => none

/-- `Cache::updateHost`. -/
def updateHost (cache : Cache) (update : Update) (place : Nat) : Option Cache :=
  match updateLoop update (cache.equalRange update.domainName) cache false with
  | none => none
  | some (cache, true) => cache.updateByIpAddress update none true
  | some (cache, false) =>
    let (inserted, newCacheEntry) := cache.insertByDomainName update place
    inserted.updateByIpAddress update (some newCacheEntry) false

/-! ## Queries -/

/-- What the loop of `getIpAddress` gathers. -/
structure Found where
  ipAddressList : List IpAddress := []
  nameServer : Option Endpoint := none
  timeToLive : Option Int := none

/-- What the loop of `getIpAddress` does with an entry that has not expired. -/
def gather (found : Found) (ipAddressType : Option IpAddressType) (entry : CacheHostEntry)
    (now : Int) : Found :=
  if ipAddressType.all (fun ipAddressType => entry.ipAddress.type = ipAddressType) ∧
      entry.ipAddress ∉ found.ipAddressList then
    let newTimeToLive := entry.expiration - now
    { ipAddressList := found.ipAddressList ++ [entry.ipAddress]
      nameServer := some (found.nameServer.getD entry.nameServer)
      timeToLive :=
        match found.timeToLive with
        | none => some newTimeToLive
        | some timeToLive => some (if newTimeToLive < timeToLive then newTimeToLive else timeToLive) }
  else found

/-- The loop of `getIpAddress`. -/
def getIpAddressLoop (ipAddressType : Option IpAddressType) (now : Int) :
    List (CacheNode (List UInt8)) -> Cache -> Found -> Option (Cache × Found)
  | [], cache, found => some (cache, found)
  | node :: rest, cache, found =>
    let cacheEntry := cache.entries node.entry
    if cacheEntry.expiration ≤ now then
      match cache.removeByDomainName node with
      | some removed => getIpAddressLoop ipAddressType now rest removed found
      | none => none
    else
      getIpAddressLoop ipAddressType now rest cache (gather found ipAddressType cacheEntry now)

/-- The end of `getIpAddress`, with what was found. -/
def answer (options : GetIpAddressOptions) (ipAddressType : Option IpAddressType) (found : Found) :
    Except CacheError GetIpAddressResult :=
  let sorted :=
    if ipAddressType.isNone then sortIpAddressList found.ipAddressList else found.ipAddressList
  if sorted.isEmpty then .error .eof
  else
    let filtered := (options.ipAddressFilter.getD id) sorted
    if filtered.isEmpty then .error .eof
    else
      .ok {
        ipAddressList :=
          match options.ipAddressSelector with
          | none => filtered
          | some selector => (filtered[selector % filtered.length]?).toList
        nameServer := found.nameServer
        timeToLive := found.timeToLive.map totalSeconds }

/-- `Cache::getIpAddress`, into an empty result. -/
def getIpAddress (cache : Cache) (domainName : List UInt8) (options : GetIpAddressOptions)
    (now : Int) : Option (Except CacheError GetIpAddressResult × Cache) :=
  match convert options with
  | .error error => some (.error error, cache)
  | .ok ipAddressType =>
    match getIpAddressLoop ipAddressType now (cache.equalRange domainName) cache {} with
    | none => none
    | some (cache, found) => some (answer options ipAddressType found, cache)

/-- `Cache::getDomainName`. -/
def getDomainName (cache : Cache) (ipAddress : IpAddress) (now : Int) :
    Option (Except CacheError GetDomainNameResult × Cache) :=
  match cache.findIpAddress ipAddress with
  | none => some (.error .eof, cache)
  | some node =>
    let cacheEntry := cache.entries node.entry
    if cacheEntry.expiration ≤ now then
      match cache.removeByIpAddress node with
      | some removed => some (.error .eof, removed)
      | none => none
    else if cacheEntry.domainName.isEmpty then some (.error .eof, cache)
    else
      some (.ok {
        domainName := cacheEntry.domainName
        nameServer := cacheEntry.nameServer
        timeToLive := totalSeconds (cacheEntry.expiration - now) }, cache)

/-- `Cache::clear`. -/
def clear (cache : Cache) : Cache :=
  { cache with byDomainName := [], byIpAddress := [], cacheEntryCount := 0 }

/-- `Cache::numHostEntries`. -/
def numHostEntries (cache : Cache) : Nat := cache.cacheEntryCount

inductive Action where
  | updateHost (update : Update) (place : Nat)
  | getIpAddress (domainName : List UInt8) (options : GetIpAddressOptions) (now : Int)
  | getDomainName (ipAddress : IpAddress) (now : Int)
  | clear

end Cache

/-- A cache, the time of the latest call, the updates since the last `clear`, the
latest first, and whether an assertion has failed. -/
structure CacheSystem where
  cache : Cache := {}
  now : Int := 0
  updates : List Cache.Update := []
  failed : Bool := false

namespace CacheSystem

def after (system : CacheSystem) (now : Int) (updates : List Cache.Update)
    (result : Option Cache) : CacheSystem :=
  match result with
  | some cache => { system with cache := cache, now := now, updates := updates }
  | none => { system with failed := true }

def step (system : CacheSystem) : Cache.Action -> Option CacheSystem
  | .updateHost update place =>
    if system.now ≤ update.now then
      some (system.after update.now (update :: system.updates)
        (system.cache.updateHost update place))
    else none
  | .getIpAddress domainName options now =>
    if system.now ≤ now then
      some (system.after now system.updates
        ((system.cache.getIpAddress domainName options now).map Prod.snd))
    else none
  | .getDomainName ipAddress now =>
    if system.now ≤ now then
      some (system.after now system.updates
        ((system.cache.getDomainName ipAddress now).map Prod.snd))
    else none
  | .clear => some { system with cache := system.cache.clear, updates := [] }

end CacheSystem

end NtfCore.Ntcdns
