import NtfCore.Ntcdns.Cache.Model

/-!
Contract: the two indexes of the cache agree.

Owns: what the indexes share of every entry, the removal and the refresh of an entry
that both hold, the rule for the loop of `updateHost`, and the exact condition under
which the indexes agree in every state of a run and no assertion fails: no update may
assign an address to a domain name while the index of addresses holds it under another
one.
-/

namespace NtfCore.Ntcdns

open NtfCore.Foundation NtfCore.Ntsa List
open CacheNode

namespace Cache

structure Indexed (cache : Cache) : Prop where
  named : ∀ node ∈ cache.byDomainName, (cache.entries node.entry).domainName = node.key ∧
    (cache.entries node.entry).iteratorByDomainName = some node.position
  addressed : ∀ node ∈ cache.byIpAddress, (cache.entries node.entry).ipAddress = node.key ∧
    (cache.entries node.entry).iteratorByIpAddress = some node.position
  nodup : (cache.byDomainName.map entry).Nodup
  same : ∀ id, id ∈ cache.byDomainName.map entry ↔
    id ∈ cache.byIpAddress.map entry
  namePositions : ∀ node ∈ cache.byDomainName, ∀ other ∈ cache.byDomainName,
    node.position = other.position -> node.entry = other.entry
  addressPositions : ∀ node ∈ cache.byIpAddress, ∀ other ∈ cache.byIpAddress,
    node.position = other.position -> node.entry = other.entry
  keys : ∀ node ∈ cache.byIpAddress, ∀ other ∈ cache.byIpAddress,
    node.key = other.key -> node.entry = other.entry
  nameBound : ∀ node ∈ cache.byDomainName, node.position < cache.nextPosition
  addressBound : ∀ node ∈ cache.byIpAddress, node.position < cache.nextPosition
  created : ∀ node ∈ cache.byDomainName, node.entry < cache.numCreated
  count : cache.cacheEntryCount = cache.byDomainName.length

variable {cache : Cache}

theorem Indexed.address_of_name (indexed : Indexed cache)
    {node : CacheNode (List UInt8)} (mem : node ∈ cache.byDomainName) :
    ∃ other ∈ cache.byIpAddress, other.entry = node.entry :=
  mem_map.mp ((indexed.same node.entry).mp (mem_map_of_mem mem))

variable {node : CacheNode IpAddress}

theorem Indexed.name_of_address (indexed : Indexed cache) (mem : node ∈ cache.byIpAddress) :
    ∃ other ∈ cache.byDomainName, other.entry = node.entry :=
  mem_map.mp ((indexed.same node.entry).mpr (mem_map_of_mem mem))

theorem Indexed.clear (cache : Cache) : Indexed cache.clear where
  named := nofun
  addressed := nofun
  nodup := nodup_nil
  same := fun _ => Iff.rfl
  namePositions := nofun
  addressPositions := nofun
  keys := nofun
  nameBound := nofun
  addressBound := nofun
  created := nofun
  count := rfl

theorem Indexed.empty : Indexed {} := Indexed.clear {}

def without (cache : Cache) (id : Nat) : Cache :=
  { cache with
    byDomainName := cache.byDomainName.filter fun node => node.entry ≠ id
    byIpAddress := cache.byIpAddress.filter fun node => node.entry ≠ id
    cacheEntryCount := cache.cacheEntryCount - 1 }

variable {id : Nat}

theorem mem_without_byDomainName {node : CacheNode (List UInt8)} :
    node ∈ (cache.without id).byDomainName ↔ node ∈ cache.byDomainName ∧ node.entry ≠ id := by
  unfold without
  rw [mem_filter, decide_eq_true_iff]

theorem mem_without_byIpAddress :
    node ∈ (cache.without id).byIpAddress ↔ node ∈ cache.byIpAddress ∧ node.entry ≠ id := by
  unfold without
  rw [mem_filter, decide_eq_true_iff]

section

variable (indexed : Indexed cache) {node : CacheNode (List UInt8)} (mem : node ∈ cache.byDomainName)
include indexed mem

/-- `privateRemove` of an entry that is in the indexes takes out that entry only. -/
theorem Indexed.privateRemove_eq :
    cache.privateRemove node.entry = some (cache.without node.entry) := by
  obtain ⟨other, isOther, sameEntry⟩ := indexed.address_of_name mem
  have isName := (indexed.named node mem).2
  have isAddress := (indexed.addressed other isOther).2
  rw [sameEntry] at isAddress
  have names : cache.byDomainName.filter (fun each => each.position ≠ node.position) =
      cache.byDomainName.filter fun each => each.entry ≠ node.entry := by
    refine filter_congr fun each isEach => ?_
    refine decide_eq_decide.mpr (not_congr ⟨indexed.namePositions each isEach node mem, ?_⟩)
    intro sameNode
    have recorded := (indexed.named each isEach).2
    rw [sameNode, isName] at recorded
    exact (Option.some.inj recorded).symm
  have addresses : cache.byIpAddress.filter (fun each => each.position ≠ other.position) =
      cache.byIpAddress.filter fun each => each.entry ≠ node.entry := by
    refine filter_congr fun each isEach => ?_
    rw [← sameEntry]
    refine decide_eq_decide.mpr (not_congr ⟨indexed.addressPositions each isEach other isOther, ?_⟩)
    intro sameNode
    have recorded := (indexed.addressed each isEach).2
    rw [sameNode, sameEntry, isAddress] at recorded
    exact (Option.some.inj recorded).symm
  unfold privateRemove
  rw [isName, isAddress]
  dsimp only
  rw [names, addresses]
  rfl

theorem Indexed.without_indexed : Indexed (cache.without node.entry) where
  named := fun each isEach => indexed.named each (mem_without_byDomainName.mp isEach).1
  addressed := fun each isEach => indexed.addressed each (mem_without_byIpAddress.mp isEach).1
  nodup := indexed.nodup.sublist (filter_sublist.map entry)
  same := by
    intro id
    rw [mem_map, mem_map]
    constructor
    · rintro ⟨each, isEach, isId⟩
      obtain ⟨inCache, differs⟩ := mem_without_byDomainName.mp isEach
      obtain ⟨other, isOther, sameEntry⟩ := indexed.address_of_name inCache
      exact ⟨other, mem_without_byIpAddress.mpr ⟨isOther, sameEntry ▸ differs⟩,
        sameEntry.trans isId⟩
    · rintro ⟨each, isEach, isId⟩
      obtain ⟨inCache, differs⟩ := mem_without_byIpAddress.mp isEach
      obtain ⟨other, isOther, sameEntry⟩ := indexed.name_of_address inCache
      exact ⟨other, mem_without_byDomainName.mpr ⟨isOther, sameEntry ▸ differs⟩,
        sameEntry.trans isId⟩
  namePositions := fun each isEach other isOther =>
    indexed.namePositions each (mem_without_byDomainName.mp isEach).1 other
      (mem_without_byDomainName.mp isOther).1
  addressPositions := fun each isEach other isOther =>
    indexed.addressPositions each (mem_without_byIpAddress.mp isEach).1 other
      (mem_without_byIpAddress.mp isOther).1
  keys := fun each isEach other isOther =>
    indexed.keys each (mem_without_byIpAddress.mp isEach).1 other
      (mem_without_byIpAddress.mp isOther).1
  nameBound := fun each isEach => indexed.nameBound each (mem_without_byDomainName.mp isEach).1
  addressBound := fun each isEach => indexed.addressBound each (mem_without_byIpAddress.mp isEach).1
  created := fun each isEach => indexed.created each (mem_without_byDomainName.mp isEach).1
  count := by
    have erased : (cache.byDomainName.filter fun each => each.entry ≠ node.entry).map
        entry = (cache.byDomainName.map entry).erase node.entry := by
      rw [indexed.nodup.erase_eq_filter, filter_map]
      refine congrArg _ (filter_congr fun _ _ => ?_)
      rw [Function.comp_apply, Bool.eq_iff_iff, bne_iff_ne, decide_eq_true_iff]
    have shorter := congrArg length erased
    rw [length_map, length_erase_of_mem (mem_map_of_mem mem), length_map] at shorter
    unfold without
    rw [indexed.count, shorter]

theorem Indexed.removeByDomainName_eq :
    cache.removeByDomainName node = some (cache.without node.entry) := by
  unfold removeByDomainName
  rw [if_pos (indexed.named node mem).2, indexed.privateRemove_eq mem]

end

theorem Indexed.removeByIpAddress_eq (indexed : Indexed cache) (mem : node ∈ cache.byIpAddress) :
    ∃ other ∈ cache.byDomainName, other.entry = node.entry ∧
      cache.removeByIpAddress node = some (cache.without other.entry) := by
  obtain ⟨other, isOther, sameEntry⟩ := indexed.name_of_address mem
  refine ⟨other, isOther, sameEntry, ?_⟩
  unfold removeByIpAddress
  rw [if_pos (indexed.addressed node mem).2, ← sameEntry, indexed.privateRemove_eq isOther]

theorem refresh_keys (cache : Cache) (update : Update) (id other : Nat) :
    ((cache.modifyEntry id update.refresh).entries other).domainName =
        (cache.entries other).domainName ∧
      ((cache.modifyEntry id update.refresh).entries other).ipAddress =
        (cache.entries other).ipAddress ∧
      ((cache.modifyEntry id update.refresh).entries other).iteratorByDomainName =
        (cache.entries other).iteratorByDomainName ∧
      ((cache.modifyEntry id update.refresh).entries other).iteratorByIpAddress =
        (cache.entries other).iteratorByIpAddress := by
  unfold modifyEntry
  dsimp only
  split
  · rename_i isEntry
    rw [isEntry]
    exact ⟨rfl, rfl, rfl, rfl⟩
  · exact ⟨rfl, rfl, rfl, rfl⟩

theorem Indexed.refresh (indexed : Indexed cache) (update : Update) (id : Nat) :
    Indexed (cache.modifyEntry id update.refresh) := { indexed with
  named := by
    intro node mem
    obtain ⟨sameName, _, sameIterator, _⟩ := refresh_keys cache update id node.entry
    rw [sameName, sameIterator]
    exact indexed.named node mem
  addressed := by
    intro node mem
    obtain ⟨_, sameAddress, _, sameIterator⟩ := refresh_keys cache update id node.entry
    rw [sameAddress, sameIterator]
    exact indexed.addressed node mem }

/-! ## The loop of updateHost -/

/-- What the loop of `updateHost` leaves alone: entries stay under their keys, and those
of the address of the update stay in the index of addresses. -/
structure Trims (update : Update) (cache next : Cache) : Prop where
  names : ∀ node ∈ next.byDomainName, node ∈ cache.byDomainName
  addresses : ∀ node ∈ next.byIpAddress, node ∈ cache.byIpAddress
  kept : ∀ node ∈ cache.byIpAddress, node.key = update.ipAddress -> node ∈ next.byIpAddress
  identity : ∀ id, (next.entries id).domainName = (cache.entries id).domainName ∧
    (next.entries id).ipAddress = (cache.entries id).ipAddress

theorem Trims.refl (update : Update) (cache : Cache) : Trims update cache cache where
  names := fun _ mem => mem
  addresses := fun _ mem => mem
  kept := fun _ mem _ => mem
  identity := fun _ => ⟨rfl, rfl⟩

variable {update : Update}

theorem Trims.trans {between next : Cache}
    (first : Trims update cache between) (second : Trims update between next) :
    Trims update cache next where
  names := fun node mem => first.names node (second.names node mem)
  addresses := fun node mem => first.addresses node (second.addresses node mem)
  kept := fun node mem isKey => second.kept node (first.kept node mem isKey) isKey
  identity := fun id => ⟨(second.identity id).1.trans (first.identity id).1,
    (second.identity id).2.trans (first.identity id).2⟩

theorem Trims.refresh (update : Update) (cache : Cache) (id : Nat) :
    Trims update cache (cache.modifyEntry id update.refresh) where
  names := fun _ mem => mem
  addresses := fun _ mem => mem
  kept := fun _ mem _ => mem
  identity := fun other =>
    ⟨(refresh_keys cache update id other).1, (refresh_keys cache update id other).2.1⟩

theorem Indexed.trims_without (indexed : Indexed cache)
    (differs : (cache.entries id).ipAddress ≠ update.ipAddress) :
    Trims update cache (cache.without id) where
  names := fun _ mem => (mem_without_byDomainName.mp mem).1
  addresses := fun _ mem => (mem_without_byIpAddress.mp mem).1
  kept := by
    intro node mem isKey
    refine mem_without_byIpAddress.mpr ⟨mem, fun isEntry => differs ?_⟩
    rw [← isEntry, (indexed.addressed node mem).1, isKey]
  identity := fun _ => ⟨rfl, rfl⟩

/-- What holds of the cache and of whether an entry was updated is kept by the refresh of
an entry of the address, and by the removal of an expired entry of another address. -/
structure LoopRule (update : Update) (holds : Cache -> Bool -> Prop) : Prop where
  refreshes : ∀ cache node, Indexed cache -> holds cache false -> node ∈ cache.byDomainName ->
    node.key = update.domainName -> (cache.entries node.entry).ipAddress = update.ipAddress ->
    holds (cache.modifyEntry node.entry update.refresh) true
  removes : ∀ cache node updated, Indexed cache -> holds cache updated ->
    node ∈ cache.byDomainName -> (cache.entries node.entry).ipAddress ≠ update.ipAddress ->
    (cache.entries node.entry).expiration ≤ update.now ->
    holds (cache.without node.entry) updated

variable {nodes : List (CacheNode (List UInt8))}

/-- The rule for the loop of `updateHost` over nodes of the domain name. -/
theorem updateLoop_rule {holds : Cache -> Bool -> Prop} (rule : LoopRule update holds)
    {updated : Bool} (indexed : Indexed cache) (start : holds cache updated)
    (members : ∀ node ∈ nodes, node ∈ cache.byDomainName ∧ node.key = update.domainName)
    (nodup : (nodes.map entry).Nodup) :
    ∃ next final, updateLoop update nodes cache updated = some (next, final) ∧ Indexed next ∧
      Trims update cache next ∧ holds next final ∧ (final = true ↔ updated = true ∨
        ∃ node ∈ nodes, (cache.entries node.entry).ipAddress = update.ipAddress) := by
  induction nodes generalizing cache updated with
  | nil =>
    refine ⟨cache, updated, rfl, indexed, Trims.refl update cache, start, ?_⟩
    simp
  | cons node rest ih =>
    obtain ⟨isNode, isKey⟩ := members node mem_cons_self
    have restMembers := fun other mem => members other (mem_cons_of_mem node mem)
    rw [map_cons, nodup_cons] at nodup
    rw [updateLoop]
    by_cases isAddress : (cache.entries node.entry).ipAddress = update.ipAddress
    · have found : ∃ other ∈ node :: rest,
          (cache.entries other.entry).ipAddress = update.ipAddress :=
        ⟨node, mem_cons_self, isAddress⟩
      rw [if_pos isAddress]
      cases updated with
      | false =>
        obtain ⟨next, final, isLoop, isIndexed, trims, ends, isFinal⟩ :=
          ih (indexed.refresh update node.entry)
            (rule.refreshes cache node indexed start isNode isKey isAddress) restMembers nodup.2
        refine ⟨next, final, isLoop, isIndexed,
          (Trims.refresh update cache node.entry).trans trims, ends, ?_⟩
        exact iff_of_true (isFinal.mpr (.inl rfl)) (.inr found)
      | true =>
        rw [if_neg (by decide)]
        obtain ⟨next, final, isLoop, isIndexed, trims, ends, isFinal⟩ :=
          ih indexed start restMembers nodup.2
        refine ⟨next, final, isLoop, isIndexed, trims, ends, ?_⟩
        exact iff_of_true (isFinal.mpr (.inl rfl)) (.inr found)
    · have onlyRest : (∃ other ∈ node :: rest,
          (cache.entries other.entry).ipAddress = update.ipAddress) ↔
            ∃ other ∈ rest, (cache.entries other.entry).ipAddress = update.ipAddress := by
        simp only [mem_cons, exists_eq_or_imp, isAddress, false_or]
      rw [if_neg isAddress, onlyRest]
      split
      · rename_i expired
        rw [indexed.removeByDomainName_eq isNode]
        have stillMembers : ∀ other ∈ rest,
            other ∈ (cache.without node.entry).byDomainName ∧ other.key = update.domainName := by
          intro other mem
          refine ⟨mem_without_byDomainName.mpr ⟨(restMembers other mem).1, ?_⟩,
            (restMembers other mem).2⟩
          intro sameEntry
          exact nodup.1 (sameEntry ▸ mem_map_of_mem mem)
        obtain ⟨next, final, isLoop, isIndexed, trims, ends, isFinal⟩ :=
          ih (indexed.without_indexed isNode)
            (rule.removes cache node updated indexed start isNode isAddress expired) stillMembers
              nodup.2
        exact ⟨next, final, isLoop, isIndexed, (indexed.trims_without isAddress).trans trims, ends,
          isFinal⟩
      · exact ih indexed start restMembers nodup.2

/-- The rule for the loop, from the start of `updateHost`. -/
theorem updateHost_rule {update : Update} {holds : Cache -> Bool -> Prop} (rule : LoopRule update holds)
    {cache : Cache} (indexed : Indexed cache) (start : holds cache false) : ∃ next final,
      updateLoop update (cache.equalRange update.domainName) cache false = some (next, final) ∧
      Indexed next ∧ Trims update cache next ∧ holds next final ∧
      (final = true ↔ ∃ node ∈ cache.byDomainName, node.key = update.domainName ∧
        (cache.entries node.entry).ipAddress = update.ipAddress) := by
  have members : ∀ node ∈ cache.equalRange update.domainName,
      node ∈ cache.byDomainName ∧ node.key = update.domainName := by
    intro node mem
    unfold equalRange at mem
    rwa [mem_filter, decide_eq_true_iff] at mem
  have nodup : ((cache.equalRange update.domainName).map entry).Nodup :=
    indexed.nodup.sublist (filter_sublist.map entry)
  obtain ⟨next, final, isLoop, isIndexed, trims, ends, isFinal⟩ :=
    updateLoop_rule rule indexed start members nodup
  refine ⟨next, final, isLoop, isIndexed, trims, ends, isFinal.trans ?_⟩
  constructor
  · rintro (_ | ⟨node, mem, isAddress⟩)
    · contradiction
    · exact ⟨node, (members node mem).1, (members node mem).2, isAddress⟩
  · rintro ⟨node, mem, isKey, isAddress⟩
    refine .inr ⟨node, ?_, isAddress⟩
    unfold equalRange
    rw [mem_filter, decide_eq_true_iff]
    exact ⟨mem, isKey⟩

/-! ## Insertion -/

variable {ipAddress : IpAddress}

theorem findIpAddress_some (found : cache.findIpAddress ipAddress = some node) :
    node ∈ cache.byIpAddress ∧ node.key = ipAddress := by
  unfold findIpAddress at found
  have matched := find?_some found
  exact ⟨mem_of_find?_eq_some found, of_decide_eq_true matched⟩

theorem findIpAddress_none (found : cache.findIpAddress ipAddress = none) :
    ∀ node ∈ cache.byIpAddress, node.key ≠ ipAddress := by
  intro node mem isKey
  have differs := find?_eq_none.mp found node mem
  exact differs (decide_eq_true isKey)

/-- The node of the index of domain names that `updateHost` inserts. -/
def newNode (cache : Cache) (update : Update) : CacheNode (List UInt8) :=
  ⟨cache.nextPosition, update.domainName, cache.numCreated⟩

variable {place : Nat}

theorem mem_insertByDomainName {node : CacheNode (List UInt8)} :
    node ∈ (cache.insertByDomainName update place).1.byDomainName ↔
      node = cache.newNode update ∨ node ∈ cache.byDomainName := by
  have isSplit : node ∈ cache.byDomainName ↔
      node ∈ cache.byDomainName.take place ∨ node ∈ cache.byDomainName.drop place := by
    rw [← mem_append, take_append_drop]
  unfold insertByDomainName newNode
  rw [mem_append, mem_cons, isSplit]
  constructor
  · rintro (before | isNew | behind)
    · exact .inr (.inl before)
    · exact .inl isNew
    · exact .inr (.inr behind)
  · rintro (isNew | before | behind)
    · exact .inr (.inl isNew)
    · exact .inl before
    · exact .inr (.inr behind)

/-- The entry that `updateHost` creates, when it is in the index of domain names. -/
def newEntry (cache : Cache) (update : Update) : CacheHostEntry :=
  update.refresh {
    domainName := update.domainName
    ipAddress := update.ipAddress
    iteratorByDomainName := some cache.nextPosition }

theorem insertByDomainName_entries (cache : Cache) (update : Update) (place id : Nat) :
    (cache.insertByDomainName update place).1.entries id =
      if id = cache.numCreated then cache.newEntry update else cache.entries id :=
  rfl

/-- `updateHost` with a new entry in both indexes. -/
def insert (cache : Cache) (update : Update) (place : Nat) : Cache :=
  (cache.insertByDomainName update place).1.insertByIpAddress update.ipAddress cache.numCreated

theorem insert_entries_new (cache : Cache) (update : Update) (place : Nat) :
    (cache.insert update place).entries cache.numCreated =
      { cache.newEntry update with iteratorByIpAddress := some (cache.nextPosition + 1) } := by
  unfold insert insertByIpAddress modifyEntry
  dsimp only
  rw [if_pos rfl, insertByDomainName_entries, if_pos rfl]
  rfl

theorem insert_entries_old (old : id < cache.numCreated) (update : Update)
    (place : Nat) : (cache.insert update place).entries id = cache.entries id := by
  unfold insert insertByIpAddress modifyEntry
  dsimp only
  rw [if_neg (Nat.ne_of_lt old), insertByDomainName_entries, if_neg (Nat.ne_of_lt old)]

theorem mem_insert_byDomainName {node : CacheNode (List UInt8)} :
    node ∈ (cache.insert update place).byDomainName ↔
      node = cache.newNode update ∨ node ∈ cache.byDomainName :=
  mem_insertByDomainName

theorem mem_insert_byIpAddress :
    node ∈ (cache.insert update place).byIpAddress ↔ node ∈ cache.byIpAddress ∨
      node = ⟨cache.nextPosition + 1, update.ipAddress, cache.numCreated⟩ := by
  change node ∈ cache.byIpAddress ++ [_] ↔ _
  rw [mem_append, mem_singleton]
  rfl

theorem Indexed.created_address (indexed : Indexed cache) (mem : node ∈ cache.byIpAddress) :
    node.entry < cache.numCreated := by
  obtain ⟨other, isOther, sameEntry⟩ := indexed.name_of_address mem
  rw [← sameEntry]
  exact indexed.created other isOther

theorem Indexed.insert (indexed : Indexed cache) (place : Nat)
    (absent : ∀ node ∈ cache.byIpAddress, node.key ≠ update.ipAddress) :
    Indexed (cache.insert update place) where
  named := by
    intro node mem
    rcases mem_insert_byDomainName.mp mem with isNew | isOld
    · rw [isNew]
      unfold newNode
      rw [insert_entries_new]
      exact ⟨rfl, rfl⟩
    · rw [insert_entries_old (indexed.created node isOld)]
      exact indexed.named node isOld
  addressed := by
    intro node mem
    rcases mem_insert_byIpAddress.mp mem with isOld | isNew
    · rw [insert_entries_old (indexed.created_address isOld)]
      exact indexed.addressed node isOld
    · rw [isNew, insert_entries_new]
      exact ⟨rfl, rfl⟩
  nodup := by
    change ((cache.byDomainName.take place ++
      cache.newNode update :: cache.byDomainName.drop place).map entry).Nodup
    rw [(perm_middle.map entry).nodup_iff, take_append_drop, map_cons, nodup_cons]
    refine ⟨fun mem => ?_, indexed.nodup⟩
    obtain ⟨node, isNode, isEntry⟩ := mem_map.mp mem
    exact Nat.lt_irrefl _ (isEntry ▸ indexed.created node isNode)
  same := by
    intro id
    rw [mem_map, mem_map]
    constructor
    · rintro ⟨node, mem, isId⟩
      rcases mem_insert_byDomainName.mp mem with isNew | isOld
      · refine ⟨_, mem_insert_byIpAddress.mpr (.inr rfl), ?_⟩
        rw [← isId, isNew]
        rfl
      · obtain ⟨other, isOther, sameEntry⟩ := indexed.address_of_name isOld
        exact ⟨other, mem_insert_byIpAddress.mpr (.inl isOther), sameEntry.trans isId⟩
    · rintro ⟨node, mem, isId⟩
      rcases mem_insert_byIpAddress.mp mem with isOld | isNew
      · obtain ⟨other, isOther, sameEntry⟩ := indexed.name_of_address isOld
        exact ⟨other, mem_insert_byDomainName.mpr (.inr isOther), sameEntry.trans isId⟩
      · refine ⟨_, mem_insert_byDomainName.mpr (.inl rfl), ?_⟩
        rw [← isId, isNew]
        rfl
  namePositions := by
    intro node mem other isOther samePosition
    rcases mem_insert_byDomainName.mp mem with isNew | isOld
    · rcases mem_insert_byDomainName.mp isOther with otherNew | otherOld
      · rw [isNew, otherNew]
      · have bound := indexed.nameBound other otherOld
        rw [← samePosition, isNew] at bound
        exact absurd bound (Nat.lt_irrefl _)
    · rcases mem_insert_byDomainName.mp isOther with otherNew | otherOld
      · have bound := indexed.nameBound node isOld
        rw [samePosition, otherNew] at bound
        exact absurd bound (Nat.lt_irrefl _)
      · exact indexed.namePositions node isOld other otherOld samePosition
  addressPositions := by
    intro node mem other isOther samePosition
    rcases mem_insert_byIpAddress.mp mem with isOld | isNew
    · rcases mem_insert_byIpAddress.mp isOther with otherOld | otherNew
      · exact indexed.addressPositions node isOld other otherOld samePosition
      · have bound := indexed.addressBound node isOld
        rw [samePosition, otherNew] at bound
        exact absurd (Nat.lt_of_succ_lt bound) (Nat.lt_irrefl _)
    · rcases mem_insert_byIpAddress.mp isOther with otherOld | otherNew
      · have bound := indexed.addressBound other otherOld
        rw [← samePosition, isNew] at bound
        exact absurd (Nat.lt_of_succ_lt bound) (Nat.lt_irrefl _)
      · rw [isNew, otherNew]
  keys := by
    intro node mem other isOther sameKey
    rcases mem_insert_byIpAddress.mp mem with isOld | isNew
    · rcases mem_insert_byIpAddress.mp isOther with otherOld | otherNew
      · exact indexed.keys node isOld other otherOld sameKey
      · rw [otherNew] at sameKey
        exact absurd sameKey (absent node isOld)
    · rcases mem_insert_byIpAddress.mp isOther with otherOld | otherNew
      · rw [isNew] at sameKey
        exact absurd sameKey.symm (absent other otherOld)
      · rw [isNew, otherNew]
  nameBound := by
    intro node mem
    rcases mem_insert_byDomainName.mp mem with isNew | isOld
    · rw [isNew]
      exact Nat.lt_succ_of_lt .refl
    · exact Nat.lt_add_right 2 (indexed.nameBound node isOld)
  addressBound := by
    intro node mem
    rcases mem_insert_byIpAddress.mp mem with isOld | isNew
    · exact Nat.lt_add_right 2 (indexed.addressBound node isOld)
    · rw [isNew]
      exact Nat.lt_succ_self _
  created := by
    intro node mem
    rcases mem_insert_byDomainName.mp mem with isNew | isOld
    · rw [isNew]
      exact Nat.lt_succ_self _
    · exact Nat.lt_succ_of_lt (indexed.created node isOld)
  count := by
    change cache.cacheEntryCount + 1 = (cache.byDomainName.take place ++
      cache.newNode update :: cache.byDomainName.drop place).length
    rw [indexed.count, perm_middle.length_eq, take_append_drop, length_cons]

/-! ## Updates -/

def Assignable (cache : Cache) (update : Update) : Prop :=
  ∀ node ∈ cache.byIpAddress, node.key = update.ipAddress ->
    (cache.entries node.entry).domainName = update.domainName

theorem Indexed.findIpAddress_of_mem
    (mem : node ∈ cache.byIpAddress) (isKey : node.key = ipAddress) :
    ∃ found, cache.findIpAddress ipAddress = some found := by
  cases isFound : cache.findIpAddress ipAddress with
  | none => exact absurd isKey (findIpAddress_none isFound node mem)
  | some found => exact ⟨found, rfl⟩

/-- The address of an entry that was refreshed is in the index already. -/
theorem Indexed.updateByIpAddress_updated (indexed : Indexed cache) (mem : node ∈ cache.byIpAddress)
    (isKey : node.key = update.ipAddress) :
    cache.updateByIpAddress update none true = some cache := by
  obtain ⟨found, isFound⟩ := Indexed.findIpAddress_of_mem mem isKey
  obtain ⟨inIndex, sameKey⟩ := findIpAddress_some isFound
  unfold updateByIpAddress
  rw [isFound]
  dsimp only
  rw [if_pos ((indexed.addressed found inIndex).1.trans sameKey), if_neg (by decide)]

theorem updateByIpAddress_absent
    (absent : ∀ node ∈ cache.byIpAddress, node.key ≠ update.ipAddress) :
    (cache.insertByDomainName update place).1.updateByIpAddress update
      (some (cache.insertByDomainName update place).2) false = some (cache.insert update place) := by
  have notFound :
      (cache.insertByDomainName update place).1.findIpAddress update.ipAddress = none := by
    refine find?_eq_none.mpr fun node mem isKey => ?_
    exact absent node mem (of_decide_eq_true isKey)
  unfold updateByIpAddress
  rw [notFound]
  rfl

theorem Indexed.updateByIpAddress_present (indexed : Indexed cache)
    (place : Nat) (mem : node ∈ cache.byIpAddress) (isKey : node.key = update.ipAddress) :
    ∃ found ∈ cache.byIpAddress, (cache.insertByDomainName update place).1.updateByIpAddress update
          (some (cache.insertByDomainName update place).2) false =
        some ((cache.insertByDomainName update place).1.modifyEntry found.entry update.refresh) := by
  obtain ⟨found, isFound⟩ := Indexed.findIpAddress_of_mem mem isKey
  obtain ⟨inIndex, sameKey⟩ := findIpAddress_some isFound
  have inserted : (cache.insertByDomainName update place).1.findIpAddress update.ipAddress =
      some found := isFound
  refine ⟨found, inIndex, ?_⟩
  unfold updateByIpAddress
  rw [inserted]
  dsimp only
  rw [insertByDomainName_entries, if_neg (Nat.ne_of_lt (indexed.created_address inIndex)),
    if_pos ((indexed.addressed found inIndex).1.trans sameKey), if_pos (by rfl)]

/-- `updateHost` of an address that is not held under another name: the entry was
refreshed in the loop, or a new entry is in both indexes. -/
theorem Indexed.updateHost_spec {update : Update} {holds : Cache -> Bool -> Prop}
    (rule : LoopRule update holds) {cache : Cache} (indexed : Indexed cache)
    (start : holds cache false) (assignable : Assignable cache update) (place : Nat) :
    ∃ next, cache.updateHost update place = some next ∧ Indexed next ∧
      (holds next true ∨ ∃ trimmed, Indexed trimmed ∧ holds trimmed false ∧
        (∀ node ∈ trimmed.byIpAddress, node.key ≠ update.ipAddress) ∧
        next = trimmed.insert update place) := by
  obtain ⟨trimmed, final, isLoop, isIndexed, trims, ends, isFinal⟩ :=
    updateHost_rule rule indexed start
  unfold updateHost
  rw [isLoop]
  cases final with
  | true =>
    obtain ⟨node, mem, isKey, isAddress⟩ := isFinal.mp rfl
    obtain ⟨other, isOther, sameEntry⟩ := indexed.address_of_name mem
    have otherKey : other.key = update.ipAddress := by
      rw [← (indexed.addressed other isOther).1, sameEntry, isAddress]
    refine ⟨trimmed, ?_, isIndexed, .inl ends⟩
    exact isIndexed.updateByIpAddress_updated (trims.kept other isOther otherKey) otherKey
  | false =>
    have absent : ∀ node ∈ trimmed.byIpAddress, node.key ≠ update.ipAddress := by
      intro node mem isKey
      have inCache := trims.addresses node mem
      obtain ⟨other, isOther, sameEntry⟩ := indexed.name_of_address inCache
      have isName := assignable node inCache isKey
      have found : false = true := isFinal.mpr ⟨other, isOther, by
        rw [← (indexed.named other isOther).1, sameEntry, isName], by
        rw [sameEntry, (indexed.addressed node inCache).1, isKey]⟩
      contradiction
    exact ⟨trimmed.insert update place, updateByIpAddress_absent absent,
      isIndexed.insert place absent, .inr ⟨trimmed, isIndexed, ends, absent, rfl⟩⟩

/-- An address that is held under another name leaves an entry that only the index of
domain names holds. -/
theorem Indexed.updateHost_unassignable {cache : Cache} (indexed : Indexed cache) {update : Update}
    (place : Nat) (conflict : ¬ Assignable cache update) :
    ∃ next, cache.updateHost update place = some next ∧
      ∃ node ∈ next.byDomainName, (next.entries node.entry).iteratorByIpAddress = none := by
  unfold Assignable at conflict
  push Not at conflict
  obtain ⟨node, mem, isKey, otherName⟩ := conflict
  obtain ⟨trimmed, final, isLoop, isIndexed, trims, _, isFinal⟩ :=
    @updateHost_rule update (fun _ _ => True)
      ⟨fun _ _ _ _ _ _ _ => trivial, fun _ _ _ _ _ _ _ _ => trivial⟩ cache indexed trivial
  unfold updateHost
  rw [isLoop]
  cases final with
  | true =>
    obtain ⟨named, isNamed, sameName, isAddress⟩ := isFinal.mp rfl
    obtain ⟨other, isOther, sameEntry⟩ := indexed.address_of_name isNamed
    have otherKey : other.key = node.key := by
      rw [← (indexed.addressed other isOther).1, sameEntry, isAddress, isKey]
    have nodeEntry := indexed.keys other isOther node mem otherKey
    refine absurd ?_ otherName
    rw [← nodeEntry, sameEntry, (indexed.named named isNamed).1, sameName]
  | false =>
    obtain ⟨found, _, isUpdated⟩ :=
      isIndexed.updateByIpAddress_present place (trims.kept node mem isKey) isKey
    refine ⟨_, isUpdated, trimmed.newNode update, mem_insertByDomainName.mpr (.inl rfl), ?_⟩
    rw [(refresh_keys _ update found.entry _).2.2.2]
    unfold newNode
    rw [insertByDomainName_entries, if_pos rfl]
    rfl

/-- The removal of an entry that has expired keeps the property. -/
def Removes (now : Int) (holds : Cache -> Prop) : Prop :=
  ∀ cache node, Indexed cache -> holds cache -> node ∈ cache.byDomainName ->
    (cache.entries node.entry).expiration ≤ now -> holds (cache.without node.entry)

/-- The rule for the loop of `getIpAddress`: what the removal of an expired entry keeps
holds behind it, and what is found is what the entries that have not expired say. -/
theorem getIpAddressLoop_rule {now : Int} {holds : Cache -> Prop}
    (removes : Removes now holds) (ipAddressType : Option IpAddressType) (found : Found)
    (indexed : Indexed cache) (start : holds cache)
    (members : ∀ node ∈ nodes, node ∈ cache.byDomainName) (nodup : (nodes.map entry).Nodup) :
    ∃ next, getIpAddressLoop ipAddressType now nodes cache found =
        some (next, (nodes.filter fun node => now < (cache.entries node.entry).expiration).foldl
          (fun found node => gather found ipAddressType (cache.entries node.entry) now) found) ∧
      Indexed next ∧ holds next := by
  induction nodes generalizing cache found with
  | nil => exact ⟨cache, rfl, indexed, start⟩
  | cons node rest ih =>
    have isNode := members node mem_cons_self
    have restMembers := fun other mem => members other (mem_cons_of_mem node mem)
    rw [map_cons, nodup_cons] at nodup
    rw [getIpAddressLoop]
    by_cases expired : (cache.entries node.entry).expiration ≤ now
    · have stillMembers : ∀ other ∈ rest, other ∈ (cache.without node.entry).byDomainName := by
        intro other mem
        refine mem_without_byDomainName.mpr ⟨restMembers other mem, fun sameEntry => ?_⟩
        exact nodup.1 (sameEntry ▸ mem_map_of_mem mem)
      rw [if_pos expired, indexed.removeByDomainName_eq isNode,
        filter_cons_of_neg (by simpa using expired)]
      exact ih found (indexed.without_indexed isNode)
        (removes cache node indexed start isNode expired) stillMembers nodup.2
    · rw [if_neg expired, filter_cons_of_pos (by simpa using expired), foldl_cons]
      exact ih _ indexed start restMembers nodup.2

theorem Indexed.equalRange_spec (indexed : Indexed cache) (domainName : List UInt8) :
    (∀ node ∈ cache.equalRange domainName, node ∈ cache.byDomainName) ∧
      ((cache.equalRange domainName).map entry).Nodup :=
  ⟨fun _ mem => mem_of_mem_filter mem, indexed.nodup.sublist (filter_sublist.map entry)⟩

theorem Indexed.getIpAddress_rule {now : Int} {holds : Cache -> Prop}
    (removes : Removes now holds) {cache : Cache} (indexed : Indexed cache) (start : holds cache)
    (domainName : List UInt8) (options : GetIpAddressOptions) :
    ∃ result next, cache.getIpAddress domainName options now = some (result, next) ∧
      Indexed next ∧ holds next := by
  unfold getIpAddress
  cases convert options with
  | error => exact ⟨_, cache, rfl, indexed, start⟩
  | ok ipAddressType =>
    obtain ⟨members, nodup⟩ := indexed.equalRange_spec domainName
    obtain ⟨next, isLoop, isIndexed, ends⟩ :=
      getIpAddressLoop_rule removes ipAddressType {} indexed start members nodup
    dsimp only
    rw [isLoop]
    exact ⟨_, next, rfl, isIndexed, ends⟩

theorem Indexed.getDomainName_rule {now : Int} {holds : Cache -> Prop}
    (removes : Removes now holds) {cache : Cache} (indexed : Indexed cache) (start : holds cache)
    (ipAddress : IpAddress) :
    ∃ result next, cache.getDomainName ipAddress now = some (result, next) ∧
      Indexed next ∧ holds next := by
  unfold getDomainName
  cases isFound : cache.findIpAddress ipAddress with
  | none => exact ⟨_, cache, rfl, indexed, start⟩
  | some node =>
    dsimp only
    by_cases expired : (cache.entries node.entry).expiration ≤ now
    · obtain ⟨other, isOther, sameEntry, isRemoved⟩ :=
        indexed.removeByIpAddress_eq (findIpAddress_some isFound).1
      rw [if_pos expired, isRemoved]
      exact ⟨_, _, rfl, indexed.without_indexed isOther,
        removes cache other indexed start isOther (sameEntry ▸ expired)⟩
    · rw [if_neg expired]
      split
      · exact ⟨_, cache, rfl, indexed, start⟩
      · exact ⟨_, cache, rfl, indexed, start⟩

def liveEntries (cache : Cache) : Finset Nat :=
  (cache.byDomainName.map entry ++ cache.byIpAddress.map entry).toFinset

structure Agrees (cache : Cache) : Prop where
  byDomainName : ∀ node ∈ cache.byDomainName, ∃ other ∈ cache.byIpAddress,
    (cache.entries node.entry).iteratorByIpAddress = some other.position ∧ other.entry = node.entry
  byIpAddress : ∀ node ∈ cache.byIpAddress, ∃ other ∈ cache.byDomainName,
    (cache.entries node.entry).iteratorByDomainName = some other.position ∧ other.entry = node.entry
  count : cache.numHostEntries = cache.liveEntries.card

theorem Indexed.agrees (indexed : Indexed cache) : Agrees cache where
  byDomainName := by
    intro node mem
    obtain ⟨other, isOther, sameEntry⟩ := indexed.address_of_name mem
    refine ⟨other, isOther, ?_, sameEntry⟩
    rw [← sameEntry]
    exact (indexed.addressed other isOther).2
  byIpAddress := by
    intro node mem
    obtain ⟨other, isOther, sameEntry⟩ := indexed.name_of_address mem
    refine ⟨other, isOther, ?_, sameEntry⟩
    rw [← sameEntry]
    exact (indexed.named other isOther).2
  count := by
    have isLive : cache.liveEntries = (cache.byDomainName.map entry).toFinset := by
      ext id
      unfold liveEntries
      rw [mem_toFinset, mem_toFinset, mem_append, ← indexed.same, or_self]
    rw [isLive, toFinset_card_of_nodup indexed.nodup, length_map]
    exact indexed.count

end Cache

namespace CacheSystem

open Cache

structure Consistent (system : CacheSystem) : Prop extends Agrees system.cache where
  sound : system.failed = false

def Assigns (system : CacheSystem) : Cache.Action -> Prop
  | .updateHost update _ => Assignable system.cache update
  | _ => True

structure Invariant (system : CacheSystem) : Prop extends Indexed system.cache where
  sound : system.failed = false

theorem Invariant.consistent {system : CacheSystem} (inv : Invariant system) : Consistent system :=
  ⟨inv.toIndexed.agrees, inv.sound⟩

section

variable (system : CacheSystem) (action : Cache.Action) (next : CacheSystem)
  (inv : Invariant system)
include inv

theorem step_invariant (assigns : system.Assigns action)
    (taken : system.step action = some next) : Invariant next := by
  have indexed := inv.toIndexed
  cases action with
  | updateHost update place =>
    obtain ⟨_, isUpdated, isIndexed, _⟩ := @Indexed.updateHost_spec update (fun _ _ => True)
        ⟨fun _ _ _ _ _ _ _ => trivial, fun _ _ _ _ _ _ _ _ => trivial⟩ _ indexed trivial assigns place
    obtain ⟨_, taken⟩ := Run.guarded taken
    rw [← taken, isUpdated]
    exact ⟨isIndexed, inv.sound⟩
  | getIpAddress domainName options now =>
    obtain ⟨result, queried, isQueried, isIndexed, _⟩ :=
      @Indexed.getIpAddress_rule now (fun _ => True) (fun _ _ _ _ _ _ => trivial) _ indexed
        trivial domainName options
    obtain ⟨_, taken⟩ := Run.guarded taken
    rw [← taken, isQueried]
    exact ⟨isIndexed, inv.sound⟩
  | getDomainName ipAddress now =>
    obtain ⟨_, _, isQueried, isIndexed, _⟩ :=
      @Indexed.getDomainName_rule now (fun _ => True) (fun _ _ _ _ _ _ => trivial) _ indexed
        trivial ipAddress
    obtain ⟨_, taken⟩ := Run.guarded taken
    rw [← taken, isQueried]
    exact ⟨isIndexed, inv.sound⟩
  | clear =>
    cases taken
    exact ⟨Indexed.clear system.cache, inv.sound⟩

theorem step_detects (taken : system.step action = some next)
    (consistent : Consistent next) : system.Assigns action := by
  cases action with
  | updateHost _ place =>
    by_contra conflict
    obtain ⟨updated, isUpdated, node, mem, isEnd⟩ :=
      inv.toIndexed.updateHost_unassignable place conflict
    obtain ⟨_, taken⟩ := Run.guarded taken
    rw [isUpdated] at taken
    rw [← taken] at consistent
    obtain ⟨_, _, isPosition, _⟩ := consistent.byDomainName node mem
    change (updated.entries node.entry).iteratorByIpAddress = _ at isPosition
    rw [isEnd] at isPosition
    contradiction
  | getIpAddress domainName options now | getDomainName ipAddress now | clear => trivial

end

/-- In every run the two indexes agree in all states, with no assertion failing, exactly
when no update assigns an address that is held under another domain name. -/
theorem indexes_agree_iff (start : Int) (actions : List Cache.Action) :
    Run.Always step Consistent { now := start } actions ↔
      Run.Along step Assigns { now := start } actions :=
  Run.always_iff_along (fun _ inv => inv.consistent) step_invariant step_detects
    ⟨Indexed.empty, rfl⟩

def sharedAddress : List Cache.Action :=
  let ipAddress := IpAddress.v4 ⟨#v[192, 168, 0, 100]⟩
  [.updateHost ⟨[97], ipAddress, .undefined, 2, 0⟩ 0,
    .updateHost ⟨[98], ipAddress, .undefined, 2, 0⟩ 0,
    .getIpAddress [98] {} 2000000000]

/-- The entry of the second domain name is not in the index of addresses, and the
assertion of `privateRemove` fails when it expires. -/
theorem sharedAddress_disagrees : ¬ Run.Always step Consistent { now := 0 } sharedAddress ∧
      ∃ final, Run.run step { now := 0 } sharedAddress = some final ∧ final.failed = true := by
  constructor
  · intro always
    obtain ⟨_, _, consistent, _⟩ := always
    obtain ⟨_, _, _, _⟩ := consistent.byDomainName ⟨2, [98], 1⟩ mem_cons_self
    contradiction
  · exact ⟨_, rfl, rfl⟩

end CacheSystem

end NtfCore.Ntcdns
