import NtfCore.Ntcdns.Cache.Indexes

/-!
Contract: the answers of the cache are those of the latest updates.

Owns: the assignments that the updates of a run imply, and that `getIpAddress` and
`getDomainName` answer exactly those that have not expired, in every run whose updates
assign no address that is held under another domain name, define their address, and
have a time to live that a signed integer holds.
-/

namespace NtfCore.Ntcdns

open NtfCore.Foundation NtfCore.Ntsa List

namespace Cache

/-! ## The assignments of a history -/

def latest (updates : List Update) (domainName : List UInt8) (ipAddress : IpAddress) :
    Option Update :=
  updates.find? fun update => update.domainName = domainName ∧ update.ipAddress = ipAddress

def Update.remaining (update : Update) (now : Int) : Int :=
  update.now + update.timeToLive * 1000000000 - now

def Fresh (updates : List Update) (domainName : List UInt8) (now : Int) (ipAddress : IpAddress) :
    Prop :=
  ∃ update, latest updates domainName ipAddress = some update ∧
    now < update.now + update.timeToLive * 1000000000

/-- The answer to a query: the addresses that are assigned, with the smallest remaining
time to live in whole seconds, or `e_EOF` when there are none. -/
inductive Answers (updates : List Update) (domainName : List UInt8) (now : Int) :
    Except CacheError GetIpAddressResult -> Prop where
  | eof (none : ∀ ipAddress, ¬ Fresh updates domainName now ipAddress) :
      Answers updates domainName now (.error .eof)
  | found {result : GetIpAddressResult} {shortest : Update}
      (addresses : ∀ ipAddress,
        ipAddress ∈ result.ipAddressList ↔ Fresh updates domainName now ipAddress)
      (nonempty : result.ipAddressList ≠ [])
      (isLatest : latest updates domainName shortest.ipAddress = some shortest)
      (isFresh : Fresh updates domainName now shortest.ipAddress)
      (least : ∀ ipAddress update, latest updates domainName ipAddress = some update ->
        Fresh updates domainName now ipAddress -> shortest.remaining now ≤ update.remaining now)
      (seconds : result.timeToLive = some (shortest.remaining now / 1000000000).toNat) :
      Answers updates domainName now (.ok result)

/-- The answer to a query for an address: the one domain name it is assigned to, with
the remaining time to live in whole seconds, or `e_EOF` when there is none or it is empty. -/
inductive NameAnswers (updates : List Update) (ipAddress : IpAddress) (now : Int) :
    Except CacheError GetDomainNameResult -> Prop where
  | eof (none : ∀ domainName, Fresh updates domainName now ipAddress -> domainName = []) :
      NameAnswers updates ipAddress now (.error .eof)
  | found {result : GetDomainNameResult} {update : Update}
      (isName : ∀ domainName,
        Fresh updates domainName now ipAddress ↔ domainName = result.domainName)
      (nonempty : result.domainName ≠ [])
      (isLatest : latest updates result.domainName ipAddress = some update)
      (seconds : result.timeToLive = (update.remaining now / 1000000000).toNat) :
      NameAnswers updates ipAddress now (.ok result)

variable {updates : List Update} {domainName : List UInt8} {update : Update} {ipAddress : IpAddress}

theorem latest_eq (isLatest : latest updates domainName ipAddress = some update) :
    update.domainName = domainName ∧ update.ipAddress = ipAddress := by
  unfold latest at isLatest
  have matched := find?_some isLatest
  exact of_decide_eq_true matched

theorem latest_cons_self (updates : List Update) (update : Update) :
    latest (update :: updates) update.domainName update.ipAddress = some update := by
  unfold latest
  rw [find?_cons_of_pos (by simp)]

theorem latest_cons_of_ne
    (differs : ¬ (update.domainName = domainName ∧ update.ipAddress = ipAddress)) :
    latest (update :: updates) domainName ipAddress = latest updates domainName ipAddress := by
  unfold latest
  rw [find?_cons_of_neg (by simpa using differs)]

/-- The time of an update, its time to live and the sum of both are what
`bsls::TimeInterval` represents. -/
def Representable (update : Update) : Prop :=
  update.timeToLive < 2 ^ 63 ∧ -2 ^ 63 ≤ update.now.tdiv 1000000000 ∧
    update.now.tdiv 1000000000 + update.timeToLive < 2 ^ 63

theorem Representable.expiration_eq (representable : Representable update) :
    update.expiration = update.now + update.timeToLive * 1000000000 := by
  obtain ⟨small, lower, upper⟩ := representable
  have whole := Int.mul_tdiv_add_tmod update.now 1000000000
  have same : ∀ seconds : Int, -2 ^ 63 ≤ seconds -> seconds < 2 ^ 63 ->
      Int.bmod seconds (2 ^ 64) = seconds := by
    intro seconds lower upper
    rw [Int.bmod_def]
    split
    · omega
    · omega
  unfold Update.expiration addTimeToLive
  rw [same update.timeToLive (by omega) (by omega), same _ (by omega) upper]
  omega

structure Current (cache : Cache) (updates : List Update) (now : Int) : Prop where
  live : ∀ node ∈ cache.byDomainName, ∃ update,
    latest updates node.key (cache.entries node.entry).ipAddress = some update ∧
      (cache.entries node.entry).expiration = update.expiration
  gone : ∀ domainName ipAddress update, latest updates domainName ipAddress = some update ->
    now < update.expiration -> ∃ node ∈ cache.byDomainName, node.key = domainName ∧
      (cache.entries node.entry).ipAddress = ipAddress
  sound : ∀ update ∈ updates, Representable update ∧ update.ipAddress.type ≠ .undefined

variable {cache : Cache}

theorem Current.later {now later : Int}
    (current : Current cache updates now) (after : now ≤ later) : Current cache updates later where
  live := current.live
  gone := fun domainName ipAddress update isLatest _ =>
    current.gone domainName ipAddress update isLatest (by omega)
  sound := current.sound

theorem Current.empty (now : Int) : Current {} [] now where
  live := nofun
  gone := nofun
  sound := nofun

variable {node : CacheNode (List UInt8)} {now : Int}

/-- Two domain names that share an address share its entry. -/
theorem Indexed.entry_eq (indexed : Indexed cache) (mem : node ∈ cache.byDomainName)
    {other : CacheNode (List UInt8)} (isOther : other ∈ cache.byDomainName)
    (sameAddress : (cache.entries node.entry).ipAddress = (cache.entries other.entry).ipAddress) :
    node.entry = other.entry := by
  obtain ⟨left, isLeft, leftEntry⟩ := indexed.address_of_name mem
  obtain ⟨right, isRight, rightEntry⟩ := indexed.address_of_name isOther
  have sameKey : left.key = right.key := by
    rw [← (indexed.addressed left isLeft).1, ← (indexed.addressed right isRight).1, leftEntry,
      rightEntry, sameAddress]
  rw [← leftEntry, ← rightEntry, indexed.keys left isLeft right isRight sameKey]

section

variable (current : Current cache updates now)
include current

/-- The removal of an expired entry changes no answer. -/
theorem Current.without (expired : (cache.entries node.entry).expiration ≤ now) :
    Current (cache.without node.entry) updates now := { current with
  live := fun other isOther => current.live other (mem_without_byDomainName.mp isOther).1
  gone := by
    intro domainName ipAddress update isLatest fresh
    obtain ⟨other, isOther, isKey, isAddress⟩ :=
      current.gone domainName ipAddress update isLatest fresh
    refine ⟨other, mem_without_byDomainName.mpr ⟨isOther, fun sameEntry => ?_⟩, isKey, isAddress⟩
    obtain ⟨_, isRecorded, sameExpiration⟩ := current.live other isOther
    rw [isKey, isAddress, isLatest, Option.some.injEq] at isRecorded
    rw [sameEntry, ← isRecorded] at sameExpiration
    omega }

variable (indexed : Indexed cache)
  (valid : Representable update ∧ update.ipAddress.type ≠ .undefined)
include indexed valid

theorem Current.refresh (mem : node ∈ cache.byDomainName) (isKey : node.key = update.domainName)
    (isAddress : (cache.entries node.entry).ipAddress = update.ipAddress) :
    Current (cache.modifyEntry node.entry update.refresh) (update :: updates) now where
  live := by
    intro other isOther
    have inCache : other ∈ cache.byDomainName := isOther
    rw [(refresh_keys cache update node.entry other.entry).2.1]
    by_cases sameEntry : other.entry = node.entry
    · have sameKey : other.key = update.domainName := by
        rw [← (indexed.named other inCache).1, sameEntry, (indexed.named node mem).1, isKey]
      refine ⟨update, ?_, ?_⟩
      · rw [sameKey, sameEntry, isAddress, latest_cons_self]
      · unfold modifyEntry
        dsimp only
        rw [if_pos sameEntry]
        rfl
    · have differs : ¬ (update.domainName = other.key ∧
          update.ipAddress = (cache.entries other.entry).ipAddress) := by
        rintro ⟨_, sameAddress⟩
        exact sameEntry (indexed.entry_eq inCache mem (sameAddress.symm.trans isAddress.symm))
      obtain ⟨recorded, isRecorded, sameExpiration⟩ := current.live other inCache
      refine ⟨recorded, ?_, ?_⟩
      · rw [latest_cons_of_ne differs, isRecorded]
      · unfold modifyEntry
        dsimp only
        rw [if_neg sameEntry, sameExpiration]
  gone := by
    intro domainName ipAddress other isLatest fresh
    by_cases same : update.domainName = domainName ∧ update.ipAddress = ipAddress
    · refine ⟨node, mem, isKey.trans same.1, ?_⟩
      rw [(refresh_keys cache update node.entry node.entry).2.1, isAddress, same.2]
    · rw [latest_cons_of_ne same] at isLatest
      obtain ⟨found, isFound, foundKey, foundAddress⟩ :=
        current.gone domainName ipAddress other isLatest fresh
      refine ⟨found, isFound, foundKey, ?_⟩
      rw [(refresh_keys cache update node.entry found.entry).2.1, foundAddress]
  sound := forall_mem_cons.mpr ⟨valid, current.sound⟩

theorem Current.insert (place : Nat)
    (absent : ∀ node ∈ cache.byIpAddress, node.key ≠ update.ipAddress) :
    Current (cache.insert update place) (update :: updates) now where
  live := by
    intro node mem
    rcases mem_insert_byDomainName.mp mem with isNew | isOld
    · refine ⟨update, ?_, ?_⟩
      · rw [isNew]
        unfold newNode
        rw [insert_entries_new]
        exact latest_cons_self updates update
      · rw [isNew]
        unfold newNode
        rw [insert_entries_new]
        rfl
    · rw [insert_entries_old (indexed.created node isOld)]
      obtain ⟨recorded, isRecorded, sameExpiration⟩ := current.live node isOld
      refine ⟨recorded, ?_, sameExpiration⟩
      rw [latest_cons_of_ne, isRecorded]
      rintro ⟨_, sameAddress⟩
      obtain ⟨other, isOther, sameEntry⟩ := indexed.address_of_name isOld
      refine absent other isOther ?_
      rw [← (indexed.addressed other isOther).1, sameEntry, sameAddress]
  gone := by
    intro domainName ipAddress other isLatest fresh
    by_cases same : update.domainName = domainName ∧ update.ipAddress = ipAddress
    · refine ⟨cache.newNode update, mem_insert_byDomainName.mpr (.inl rfl), same.1, ?_⟩
      unfold newNode
      rw [insert_entries_new]
      exact same.2
    · rw [latest_cons_of_ne same] at isLatest
      obtain ⟨found, isFound, foundKey, foundAddress⟩ :=
        current.gone domainName ipAddress other isLatest fresh
      refine ⟨found, mem_insert_byDomainName.mpr (.inr isFound), foundKey, ?_⟩
      rw [insert_entries_old (indexed.created found isFound), foundAddress]
  sound := forall_mem_cons.mpr ⟨valid, current.sound⟩

end

/-! ## Answers -/

structure Gathered (entries : List CacheHostEntry) (now : Int) (found : Found) : Prop where
  addresses : found.ipAddressList = entries.map CacheHostEntry.ipAddress
  shortest : ∀ remaining ∈ found.timeToLive,
    (∃ entry ∈ entries, remaining = entry.expiration - now) ∧
      ∀ entry ∈ entries, remaining ≤ entry.expiration - now
  timed : found.timeToLive = none -> entries = []

variable {entries : List CacheHostEntry} {found : Found}

theorem Gathered.gather (gathered : Gathered entries now found) {entry : CacheHostEntry}
    (new : entry.ipAddress ∉ entries.map CacheHostEntry.ipAddress) :
    Gathered (entries ++ [entry]) now (gather found none entry now) := by
  unfold Cache.gather
  rw [if_pos ⟨rfl, gathered.addresses ▸ new⟩]
  refine ⟨?_, ?_, ?_⟩
  · rw [map_append, ← gathered.addresses]
    rfl
  · intro remaining isRemaining
    cases isTime : found.timeToLive with
    | none =>
      rw [isTime] at isRemaining
      have isNew : entry.expiration - now = remaining := Option.some.inj isRemaining
      rw [gathered.timed isTime, nil_append]
      refine ⟨⟨entry, mem_cons_self, isNew.symm⟩, fun other isOther => ?_⟩
      rw [mem_singleton.mp isOther, isNew]
    | some earlier =>
      rw [isTime] at isRemaining
      obtain ⟨⟨source, isSource, isEarlier⟩, least⟩ := gathered.shortest earlier isTime
      have isLeast : (if entry.expiration - now < earlier then entry.expiration - now else earlier) =
          remaining := Option.some.inj isRemaining
      constructor
      · split at isLeast
        · exact ⟨entry, mem_append_right _ mem_cons_self, isLeast.symm⟩
        · exact ⟨source, mem_append_left _ isSource, isLeast ▸ isEarlier⟩
      · intro other isOther
        rcases mem_append.mp isOther with isOld | isNew
        · have bound := least other isOld
          split at isLeast
          · omega
          · omega
        · rw [mem_singleton.mp isNew]
          split at isLeast
          · omega
          · omega
  · intro isNone
    cases isTime : found.timeToLive with
    | none | some _ =>
      rw [isTime] at isNone
      contradiction

theorem Gathered.foldl (nodes : List (CacheNode (List UInt8)))
    (gathered : Gathered entries now found) (nodup : (entries.map CacheHostEntry.ipAddress ++
      nodes.map fun node => (cache.entries node.entry).ipAddress).Nodup) :
    Gathered (entries ++ nodes.map fun node => cache.entries node.entry) now
      (nodes.foldl (fun found node => Cache.gather found none (cache.entries node.entry) now)
        found) := by
  induction nodes generalizing entries found with
  | nil =>
    rw [map_nil, append_nil]
    exact gathered
  | cons node _ ih =>
    rw [map_cons, append_cons, ← map_singleton, ← map_append] at nodup
    have new : (cache.entries node.entry).ipAddress ∉ entries.map CacheHostEntry.ipAddress := by
      rw [map_append, append_assoc] at nodup
      intro mem
      exact (nodup_append.mp nodup).2.2 _ mem _ (mem_append_left _ mem_cons_self) rfl
    rw [foldl_cons, map_cons, append_cons]
    exact ih (gathered.gather new) nodup

theorem Indexed.addresses_nodup (indexed : Indexed cache)
    {nodes : List (CacheNode (List UInt8))} (members : ∀ node ∈ nodes, node ∈ cache.byDomainName)
    (nodup : (nodes.map CacheNode.entry).Nodup) :
    (nodes.map fun node => (cache.entries node.entry).ipAddress).Nodup := by
  have distinct := Nodup.of_map CacheNode.entry nodup
  refine distinct.map_on fun node isNode other isOther sameAddress => ?_
  have sameEntry := indexed.entry_eq (members node isNode) (members other isOther) sameAddress
  exact inj_on_of_nodup_map nodup isNode isOther sameEntry

theorem mem_sortIpAddressList {ipAddressList : List IpAddress}
    (valid : ∀ ipAddress ∈ ipAddressList, ipAddress.type ≠ .undefined) (ipAddress : IpAddress) :
    ipAddress ∈ sortIpAddressList ipAddressList ↔ ipAddress ∈ ipAddressList := by
  unfold sortIpAddressList
  rw [mem_append, mem_filter, mem_filter, decide_eq_true_iff, decide_eq_true_iff]
  constructor
  · rintro (⟨mem, _⟩ | ⟨mem, _⟩)
    · exact mem
    · exact mem
  · intro mem
    have isValid := valid ipAddress mem
    cases isType : ipAddress.type with
    | undefined => contradiction
    | v4 => exact .inl ⟨mem, rfl⟩
    | v6 => exact .inr ⟨mem, rfl⟩

def freshNodes (cache : Cache) (domainName : List UInt8) (now : Int) :
    List (CacheNode (List UInt8)) :=
  (cache.equalRange domainName).filter fun node => now < (cache.entries node.entry).expiration

theorem mem_freshNodes :
    node ∈ cache.freshNodes domainName now ↔ node ∈ cache.byDomainName ∧ node.key = domainName ∧
      now < (cache.entries node.entry).expiration := by
  unfold freshNodes equalRange
  rw [mem_filter, mem_filter, decide_eq_true_iff, decide_eq_true_iff, and_assoc]

section

variable (current : Current cache updates now)
include current

theorem Current.expiration_eq (isLatest : latest updates domainName ipAddress = some update) :
    update.expiration = update.now + update.timeToLive * 1000000000 := by
  have mem : update ∈ updates := mem_of_find?_eq_some isLatest
  exact (current.sound update mem).1.expiration_eq

/-- The entries that have not expired are the fresh assignments. -/
theorem Current.fresh_iff (domainName : List UInt8) (ipAddress : IpAddress) :
    Fresh updates domainName now ipAddress ↔ ∃ node ∈ cache.freshNodes domainName now,
      (cache.entries node.entry).ipAddress = ipAddress := by
  constructor
  · rintro ⟨update, isLatest, fresh⟩
    rw [← current.expiration_eq isLatest] at fresh
    obtain ⟨node, mem, isKey, isAddress⟩ := current.gone domainName ipAddress update isLatest fresh
    obtain ⟨recorded, isRecorded, sameExpiration⟩ := current.live node mem
    rw [isKey, isAddress, isLatest, Option.some.injEq] at isRecorded
    refine ⟨node, mem_freshNodes.mpr ⟨mem, isKey, ?_⟩, isAddress⟩
    rw [sameExpiration, ← isRecorded]
    exact fresh
  · rintro ⟨node, isFresh, isAddress⟩
    obtain ⟨mem, isKey, fresh⟩ := mem_freshNodes.mp isFresh
    obtain ⟨recorded, isRecorded, sameExpiration⟩ := current.live node mem
    rw [isKey, isAddress] at isRecorded
    refine ⟨recorded, isRecorded, ?_⟩
    rw [← current.expiration_eq isRecorded, ← sameExpiration]
    exact fresh

variable (mem : node ∈ cache.byDomainName)
include mem

/-- How long an entry is yet valid is how long its latest update is. -/
theorem Current.remaining_eq :
    ∃ update, latest updates node.key (cache.entries node.entry).ipAddress = some update ∧
      (cache.entries node.entry).expiration - now = update.remaining now := by
  obtain ⟨update, isLatest, sameExpiration⟩ := current.live node mem
  refine ⟨update, isLatest, ?_⟩
  unfold Update.remaining
  rw [sameExpiration, current.expiration_eq isLatest]

theorem Current.valid : (cache.entries node.entry).ipAddress.type ≠ .undefined := by
  obtain ⟨update, isLatest, _⟩ := current.live node mem
  rw [← (latest_eq isLatest).2]
  exact (current.sound update (mem_of_find?_eq_some isLatest)).2

end

section

variable (current : Current cache updates now) (indexed : Indexed cache)
include current indexed

/-- An address is assigned to the domain name of its entry, until the entry expires. -/
theorem Current.fresh_address_iff {node : CacheNode IpAddress} (mem : node ∈ cache.byIpAddress)
    (domainName : List UInt8) :
    Fresh updates domainName now node.key ↔ domainName = (cache.entries node.entry).domainName ∧
        now < (cache.entries node.entry).expiration := by
  have isAddress := (indexed.addressed node mem).1
  obtain ⟨named, isNamed, sameEntry⟩ := indexed.name_of_address mem
  rw [← sameEntry] at isAddress ⊢
  rw [current.fresh_iff, (indexed.named named isNamed).1]
  constructor
  · rintro ⟨other, isFresh, sameAddress⟩
    obtain ⟨isOther, isKey, fresh⟩ := mem_freshNodes.mp isFresh
    have same := indexed.entry_eq isOther isNamed (sameAddress.trans isAddress.symm)
    rw [← isKey, ← (indexed.named other isOther).1, same, (indexed.named named isNamed).1]
    exact ⟨rfl, same ▸ fresh⟩
  · rintro ⟨isName, fresh⟩
    exact ⟨named, mem_freshNodes.mpr ⟨isNamed, isName.symm, fresh⟩, isAddress⟩

theorem Current.getDomainName_answers (ipAddress : IpAddress) :
    ∃ result next, cache.getDomainName ipAddress now = some (result, next) ∧
      NameAnswers updates ipAddress now result := by
  unfold getDomainName
  cases isFound : cache.findIpAddress ipAddress with
  | none =>
    refine ⟨_, cache, rfl, .eof fun domainName isFresh => ?_⟩
    obtain ⟨named, isNamed, sameAddress⟩ := (current.fresh_iff domainName ipAddress).mp isFresh
    obtain ⟨other, isOther, sameEntry⟩ := indexed.address_of_name (mem_freshNodes.mp isNamed).1
    refine absurd ?_ (findIpAddress_none isFound other isOther)
    rw [← (indexed.addressed other isOther).1, sameEntry, sameAddress]
  | some node =>
    obtain ⟨mem, isKey⟩ := findIpAddress_some isFound
    have isFresh := current.fresh_address_iff indexed mem
    rw [isKey] at isFresh
    dsimp only
    split
    · obtain ⟨_, _, _, isRemoved⟩ := indexed.removeByIpAddress_eq mem
      rw [isRemoved]
      refine ⟨_, _, rfl, .eof fun domainName fresh => ?_⟩
      have := ((isFresh domainName).mp fresh).2
      omega
    · split
      · rename_i isEmpty
        exact ⟨_, cache, rfl, .eof fun domainName fresh =>
          ((isFresh domainName).mp fresh).1.trans (List.isEmpty_iff.mp isEmpty)⟩
      · rename_i notEmpty
        obtain ⟨named, isNamed, sameEntry⟩ := indexed.name_of_address mem
        obtain ⟨update, isLatest, remaining⟩ := current.remaining_eq isNamed
        rw [← (indexed.named named isNamed).1, sameEntry, (indexed.addressed node mem).1, isKey]
          at isLatest
        rw [sameEntry] at remaining
        refine ⟨_, cache, rfl, .found (fun domainName => ?_) ?_ isLatest ?_⟩
        · rw [isFresh domainName]
          exact and_iff_left (by omega)
        · exact mt List.isEmpty_iff.mpr notEmpty
        · rw [← remaining]
          rfl

end

/-- `getIpAddress` answers with what the entries that have not expired say. -/
theorem Indexed.getIpAddress_gathers (indexed : Indexed cache)
    (domainName : List UInt8) (now : Int) :
    ∃ found next, cache.getIpAddress domainName {} now = some (answer {} none found, next) ∧
      Gathered ((cache.freshNodes domainName now).map fun node => cache.entries node.entry) now
        found := by
  obtain ⟨members, nodup⟩ := indexed.equalRange_spec domainName
  obtain ⟨next, isLoop, _, _⟩ := @getIpAddressLoop_rule cache _ now (fun _ => True)
    (fun _ _ _ _ _ _ => trivial) none {} indexed trivial members nodup
  have freshMembers : ∀ node ∈ cache.freshNodes domainName now, node ∈ cache.byDomainName :=
    fun _ isFresh => (mem_freshNodes.mp isFresh).1
  have freshNodup : ((cache.freshNodes domainName now).map CacheNode.entry).Nodup :=
    nodup.sublist (filter_sublist.map CacheNode.entry)
  have start : Gathered [] now {} := ⟨rfl, nofun, fun _ => rfl⟩
  have gathered := start.foldl (cache.freshNodes domainName now)
    (indexed.addresses_nodup freshMembers freshNodup)
  refine ⟨_, next, ?_, gathered⟩
  have isNone : convert {} = .ok none := rfl
  unfold Cache.getIpAddress
  rw [isNone]
  dsimp only
  rw [isLoop]
  rfl

theorem answer_default (ne : sortIpAddressList found.ipAddressList ≠ []) :
    answer {} none found = .ok
    { ipAddressList := sortIpAddressList found.ipAddressList
      nameServer := found.nameServer
      timeToLive := found.timeToLive.map totalSeconds } := by
  have notEmpty : ¬ (sortIpAddressList found.ipAddressList).isEmpty = true := by
    rwa [List.isEmpty_iff]
  unfold answer
  rw [Option.isNone_none, if_pos rfl, if_neg notEmpty]
  exact if_neg notEmpty

theorem Current.answers (current : Current cache updates now)
    (gathered : Gathered ((cache.freshNodes domainName now).map fun node =>
      cache.entries node.entry) now found) :
    Answers updates domainName now (answer {} none found) := by
  have isList : ∀ ipAddress, ipAddress ∈ sortIpAddressList found.ipAddressList ↔
      Fresh updates domainName now ipAddress := by
    intro ipAddress
    rw [mem_sortIpAddressList, gathered.addresses, map_map, mem_map, current.fresh_iff]
    · rfl
    · rw [gathered.addresses, map_map]
      intro _ mem
      obtain ⟨node, isFresh, isEach⟩ := mem_map.mp mem
      rw [← isEach]
      exact current.valid (mem_freshNodes.mp isFresh).1
  by_cases isEmpty : sortIpAddressList found.ipAddressList = []
  · have isEof : answer {} none found = .error .eof := by
      unfold answer
      rw [Option.isNone_none, if_pos rfl, isEmpty]
      rfl
    rw [isEof]
    refine Answers.eof fun ipAddress fresh => ?_
    have mem := (isList ipAddress).mpr fresh
    rw [isEmpty] at mem
    contradiction
  · rw [answer_default isEmpty]
    cases isTime : found.timeToLive with
    | none =>
      refine absurd ?_ isEmpty
      rw [gathered.addresses, gathered.timed isTime]
      rfl
    | some remaining =>
      obtain ⟨⟨_, isEntry, isRemaining⟩, least⟩ := gathered.shortest remaining isTime
      obtain ⟨node, isFresh, isNode⟩ := mem_map.mp isEntry
      obtain ⟨mem, isKey, _⟩ := mem_freshNodes.mp isFresh
      obtain ⟨shortest, isLatest, sameRemaining⟩ := current.remaining_eq mem
      have isAddress := (latest_eq isLatest).2
      rw [isKey, ← isAddress] at isLatest
      have remainingEq : remaining = shortest.remaining now := by
        rw [isRemaining, ← isNode, sameRemaining]
      refine Answers.found isList isEmpty isLatest
        ((current.fresh_iff domainName _).mpr ⟨node, isFresh, isAddress.symm⟩) ?_ ?_
      · intro ipAddress _ updateLatest updateFresh
        obtain ⟨_, otherFresh, otherAddress⟩ :=
          (current.fresh_iff domainName ipAddress).mp updateFresh
        obtain ⟨otherMem, otherKey, _⟩ := mem_freshNodes.mp otherFresh
        obtain ⟨_, isRecorded, otherRemaining⟩ := current.remaining_eq otherMem
        rw [otherKey, otherAddress, updateLatest, Option.some.injEq] at isRecorded
        rw [← remainingEq, isRecorded, ← otherRemaining]
        exact least _ (mem_map_of_mem otherFresh)
      · rw [← remainingEq]
        rfl

end Cache

namespace CacheSystem

open Cache

def AnswersQueries (system : CacheSystem) : Prop :=
  ∀ domainName now, system.now ≤ now -> ∃ result next,
    system.cache.getIpAddress domainName {} now = some (result, next) ∧
      Answers system.updates domainName now result

/-- An update assigns no address that is held under another domain name; its address is
defined, and the time at which it expires can be represented. -/
def Regular (system : CacheSystem) : Cache.Action -> Prop
  | .updateHost update _ => Assignable system.cache update ∧ Representable update ∧
      update.ipAddress.type ≠ .undefined
  | _ => True

structure UpToDate (system : CacheSystem) : Prop where
  indexed : Indexed system.cache
  current : Current system.cache system.updates system.now

theorem UpToDate.answersQueries {system : CacheSystem} (upToDate : UpToDate system) :
    AnswersQueries system := by
  intro domainName now after
  obtain ⟨_, next, isAnswer, gathered⟩ := upToDate.indexed.getIpAddress_gathers domainName now
  exact ⟨_, next, isAnswer, (upToDate.current.later after).answers gathered⟩

open Indexed

theorem step_upToDate (system : CacheSystem) (action : Action) (next : CacheSystem)
    (upToDate : UpToDate system) (regular : system.Regular action)
    (taken : system.step action = some next) : UpToDate next := by
  cases action with
  | updateHost update place =>
    obtain ⟨assignable, valid⟩ := regular
    obtain ⟨after, taken⟩ := Run.guarded taken
    obtain ⟨updated, isUpdated, isIndexed, cases⟩ := @updateHost_spec update
        (fun cache updated => Current cache
          (if updated then update :: system.updates else system.updates) update.now)
        ⟨fun _ _ indexed current mem isKey isAddress =>
            current.refresh indexed valid mem isKey isAddress,
          fun _ _ _ _ current _ _ expired => current.without expired⟩
        _ upToDate.indexed (upToDate.current.later after) assignable place
    rw [← taken, isUpdated]
    refine ⟨isIndexed, ?_⟩
    rcases cases with refreshed | ⟨_, trimmedIndexed, current, absent, isInserted⟩
    · exact refreshed
    · change Current updated (update :: system.updates) update.now
      rw [isInserted]
      exact current.insert trimmedIndexed valid place absent
  | getIpAddress domainName options now =>
    obtain ⟨after, taken⟩ := Run.guarded taken
    obtain ⟨result, queried, isQueried, isIndexed, current⟩ :=
      @getIpAddress_rule now (fun cache => Current cache system.updates now)
        (fun _ _ _ current _ expired => current.without expired) _ upToDate.indexed
        (upToDate.current.later after) domainName options
    rw [← taken, isQueried]
    exact ⟨isIndexed, current⟩
  | getDomainName ipAddress now =>
    obtain ⟨after, taken⟩ := Run.guarded taken
    obtain ⟨_, _, isQueried, isIndexed, current⟩ :=
      @getDomainName_rule now (fun cache => Current cache system.updates now)
        (fun _ _ _ current _ expired => current.without expired) _ upToDate.indexed
        (upToDate.current.later after) ipAddress
    rw [← taken, isQueried]
    exact ⟨isIndexed, current⟩
  | clear =>
    cases taken
    exact ⟨clear system.cache, by constructor <;> intros <;> contradiction⟩

/-- In every run of regular updates and any queries, the cache answers every query with
exactly the addresses whose latest update has not expired. -/
theorem answers_latest_updates (start : Int) (actions : List Cache.Action)
    (regular : Run.Along step Regular { now := start } actions) :
    Run.Always step AnswersQueries { now := start } actions :=
  (Run.always_of_along step_upToDate ⟨empty, Current.empty start⟩ regular).mono
    fun _ upToDate => upToDate.answersQueries

def AnswersNames (system : CacheSystem) : Prop :=
  ∀ ipAddress now, system.now ≤ now -> ∃ result next,
    system.cache.getDomainName ipAddress now = some (result, next) ∧
      NameAnswers system.updates ipAddress now result

/-- In every run of regular updates and any queries, the cache answers a query for an
address with the one domain name whose latest update of it has not expired. -/
theorem names_latest_updates (start : Int) (actions : List Cache.Action)
    (regular : Run.Along step Regular { now := start } actions) :
    Run.Always step AnswersNames { now := start } actions :=
  (Run.always_of_along step_upToDate ⟨empty, Current.empty start⟩ regular).mono
    fun _ upToDate ipAddress _ after =>
      (upToDate.current.later after).getDomainName_answers upToDate.indexed ipAddress

instance (cache : Cache) (update : Update) : Decidable (Assignable cache update) :=
  inferInstanceAs (Decidable (∀ node ∈ cache.byIpAddress, node.key = update.ipAddress ->
    (cache.entries node.entry).domainName = update.domainName))

instance (update : Update) : Decidable (Representable update) :=
  inferInstanceAs (Decidable (_ ∧ _))

def regularUpdates : List Cache.Action :=
  [.updateHost ⟨[97], .v4 ⟨#v[192, 168, 0, 101]⟩, .undefined, 10, 0⟩ 0,
    .updateHost ⟨[97], .v4 ⟨#v[192, 168, 0, 102]⟩, .undefined, 1, 0⟩ 0,
    .updateHost ⟨[98], .v4 ⟨#v[192, 168, 0, 103]⟩, .undefined, 5, 0⟩ 0,
    .updateHost ⟨[97], .v4 ⟨#v[192, 168, 0, 102]⟩, .undefined, 5, 2000000000⟩ 0]

theorem regularUpdates_answered : Run.Along step Regular { now := 0 } regularUpdates ∧
      Run.Always step AnswersQueries { now := 0 } regularUpdates := by
  have regular : Run.Along step Regular { now := 0 } regularUpdates := by
    refine ⟨⟨by decide, by decide, by decide⟩, ⟨by decide, by decide, by decide⟩,
      ⟨by decide, by decide, by decide⟩, ⟨by decide, by decide, by decide⟩, trivial⟩
  exact ⟨regular, answers_latest_updates 0 regularUpdates regular⟩

/-- The address moves to another domain name after it expired and was asked for. -/
theorem movedName_answered : Run.Always step AnswersNames { now := 0 }
      [.updateHost ⟨[97], .v4 ⟨#v[192, 168, 0, 101]⟩, .undefined, 1, 0⟩ 0,
        .getDomainName (.v4 ⟨#v[192, 168, 0, 101]⟩) 1000000000,
        .updateHost ⟨[98], .v4 ⟨#v[192, 168, 0, 101]⟩, .undefined, 5, 2000000000⟩ 0] :=
  names_latest_updates 0 _ ⟨⟨by decide, by decide, by decide⟩, trivial,
    ⟨by decide, by decide, by decide⟩, trivial⟩

def shortenedUpdates : List Cache.Action :=
  [.updateHost ⟨[97], .v4 ⟨#v[192, 168, 0, 101]⟩, .undefined, 10, 0⟩ 0,
    .updateHost ⟨[98], .v4 ⟨#v[192, 168, 0, 101]⟩, .undefined, 1, 0⟩ 0]

/-- The second update shortens the first, which is not answered after five seconds. -/
theorem shortenedUpdates_unanswered :
    ¬ Run.Always step AnswersQueries { now := 0 } shortenedUpdates := by
  intro always
  obtain ⟨_, _, answersQueries⟩ := always
  obtain ⟨result, _, isAnswer, answers⟩ := answersQueries [97] 5000000000 (by decide)
  have isEof : (.error .eof : Except CacheError GetIpAddressResult) = result :=
    congrArg Prod.fst (Option.some.inj isAnswer)
  rw [← isEof] at answers
  cases answers with
  | eof none => exact none (.v4 ⟨#v[192, 168, 0, 101]⟩) ⟨_, rfl, by decide⟩

end CacheSystem

end NtfCore.Ntcdns
