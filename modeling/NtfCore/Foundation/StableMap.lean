import Mathlib.Order.Lattice
import Mathlib.Data.List.Nodup

/-!
Contract: stable sorted association lists.

Entries are kept in the order of their keys, and entries with equal keys in the
order in which they were last inserted. An entry is known by its handle.

Owns: the entries, each with the time of its insertion; insertion, erasure,
update and clearing; and the theorem that these keep the order.
-/

namespace NtfCore.Foundation

open List

/-- An entry, with the time at which it was last inserted. -/
structure StableEntry (Handle Key Data : Type) where
  handle : Handle
  key : Key
  data : Data
  stamp : Nat

/-- The entries in order, and the time. -/
structure StableMap (Handle Key Data : Type) where
  entries : List (StableEntry Handle Key Data) := []
  clock : Nat := 0

variable {Handle Key Data : Type} [DecidableEq Handle] [LinearOrder Key]

namespace StableMap

def handles (map : StableMap Handle Key Data) : List Handle :=
  map.entries.map StableEntry.handle

/-- The handle of the first entry. -/
def first (map : StableMap Handle Key Data) : Option Handle :=
  map.handles.head?

/-- Insert an entry after every entry whose key is not greater. -/
def insert (map : StableMap Handle Key Data) (handle : Handle) (key : Key) (data : Data) :
    StableMap Handle Key Data where
  entries := (map.entries.filter fun entry => entry.key ≤ key) ++
    { handle := handle, key := key, data := data, stamp := map.clock } ::
      map.entries.filter fun entry => key < entry.key
  clock := map.clock + 1

/-- Erase the entry of a handle. -/
def erase (map : StableMap Handle Key Data) (handle : Handle) : StableMap Handle Key Data :=
  { map with entries := map.entries.filter fun entry => entry.handle ≠ handle }

def find (map : StableMap Handle Key Data) (handle : Handle) : Option (StableEntry Handle Key Data) :=
  map.entries.find? fun entry => entry.handle = handle

/-- Erase the entry of a handle and insert it again under a new key. -/
def update (map : StableMap Handle Key Data) (handle : Handle) (key : Key) :
    StableMap Handle Key Data :=
  match map.find handle with
  | some entry => (map.erase handle).insert handle key entry.data
  | none => map

def clear (map : StableMap Handle Key Data) : StableMap Handle Key Data :=
  { map with entries := [] }

/-- The entries are in order, of keys first and of insertion second. -/
structure Ordered (map : StableMap Handle Key Data) : Prop where
  increasing : map.entries.Pairwise fun a b => a.key < b.key ∨ a.key = b.key ∧ a.stamp < b.stamp
  past : ∀ entry ∈ map.entries, entry.stamp < map.clock
  distinct : map.handles.Nodup

variable {map : StableMap Handle Key Data}

omit [DecidableEq Handle] in
theorem mem_insert {handle : Handle} {key : Key} {data : Data} {entry : StableEntry Handle Key Data} :
    entry ∈ (map.insert handle key data).entries ↔ entry ∈ map.entries ∨
        entry = { handle := handle, key := key, data := data, stamp := map.clock } := by
  unfold insert
  simp only [mem_append, mem_cons, mem_filter, decide_eq_true_eq]
  have split := le_or_gt entry.key key
  tauto

omit [LinearOrder Key] in
theorem mem_erase {handle : Handle} {entry : StableEntry Handle Key Data} :
    entry ∈ (map.erase handle).entries ↔ entry ∈ map.entries ∧ entry.handle ≠ handle := by
  simp [erase]

omit [DecidableEq Handle] in
theorem empty_ordered : Ordered ({} : StableMap Handle Key Data) where
  increasing := Pairwise.nil
  past := by simp
  distinct := nodup_nil

omit [DecidableEq Handle] in
theorem Ordered.insert (ordered : map.Ordered) {handle : Handle} (fresh : handle ∉ map.handles)
    (key : Key) (data : Data) : (map.insert handle key data).Ordered where
  increasing := by
    apply pairwise_append.mpr
    refine ⟨ordered.increasing.sublist filter_sublist, ?_, ?_⟩
    · apply pairwise_cons.mpr
      refine ⟨?_, ordered.increasing.sublist filter_sublist⟩
      intro entry mem
      exact .inl (by simpa using (mem_filter.mp mem).2)
    · intro earlier inLower later inRest
      obtain ⟨inEntries, atMost⟩ := mem_filter.mp inLower
      have keyLe : earlier.key ≤ key := by simpa using atMost
      rcases mem_cons.mp inRest with isNew | inUpper
      · rw [isNew]
        rcases lt_or_eq_of_le keyLe with less | same
        · exact .inl less
        · exact .inr ⟨same, ordered.past earlier inEntries⟩
      · have greater : key < later.key := by simpa using (mem_filter.mp inUpper).2
        exact .inl (lt_of_le_of_lt keyLe greater)
  past := by
    intro entry mem
    rcases mem_insert.mp mem with inEntries | isNew
    · exact Nat.lt_succ_of_lt (ordered.past entry inEntries)
    · rw [isNew]
      exact Nat.lt_succ_self _
  distinct := by
    have parts := filter_append_perm (fun entry => decide (entry.key ≤ key)) map.entries
    have others : (fun entry : StableEntry Handle Key Data => !decide (entry.key ≤ key)) =
        fun entry => decide (key < entry.key) := by
      funext entry
      rw [← decide_not]
      simp only [not_le]
    rw [others] at parts
    have permuted : (map.insert handle key data).handles.Perm (handle :: map.handles) := by
      refine (perm_middle.map StableEntry.handle).trans ?_
      exact (parts.map StableEntry.handle).cons handle
    exact permuted.nodup_iff.mpr (nodup_cons.mpr ⟨fresh, ordered.distinct⟩)

theorem Ordered.erase (ordered : map.Ordered) (handle : Handle) : (map.erase handle).Ordered where
  increasing := ordered.increasing.sublist filter_sublist
  past := fun entry mem => ordered.past entry (mem_erase.mp mem).1
  distinct := ordered.distinct.sublist (filter_sublist.map StableEntry.handle)

omit [LinearOrder Key] in
theorem not_mem_erase (map : StableMap Handle Key Data) (handle : Handle) :
    handle ∉ (map.erase handle).handles := by
  intro mem
  obtain ⟨_, inErased, same⟩ := mem_map.mp mem
  exact (mem_erase.mp inErased).2 same

theorem Ordered.update (ordered : map.Ordered) (handle : Handle) (key : Key) :
    (map.update handle key).Ordered := by
  unfold StableMap.update
  split
  · exact (ordered.erase handle).insert (not_mem_erase map handle) key _
  · exact ordered

omit [DecidableEq Handle] in
theorem clear_ordered (map : StableMap Handle Key Data) : map.clear.Ordered where
  increasing := Pairwise.nil
  past := forall_mem_nil _
  distinct := nodup_nil

/-! ## Finding entries -/

omit [LinearOrder Key] in
theorem find_eq_none {handle : Handle} : map.find handle = none ↔ handle ∉ map.handles := by
  simp [find, handles]

omit [LinearOrder Key] in
theorem find_handle {handle : Handle} {entry : StableEntry Handle Key Data}
    (found : map.find handle = some entry) : entry ∈ map.entries ∧ entry.handle = handle :=
  ⟨mem_of_find?_eq_some found, by simpa using find?_some found⟩

variable {entry : StableEntry Handle Key Data}

theorem Ordered.split (ordered : map.Ordered) {handle : Handle}
    (found : map.find handle = some entry) :
    ∃ before after, map.entries = before ++ entry :: after ∧
      (map.erase handle).entries = before ++ after := by
  obtain ⟨mem, isHandle⟩ := find_handle found
  obtain ⟨before, after, entriesEq⟩ := append_of_mem mem
  refine ⟨before, after, entriesEq, ?_⟩
  have distinct := ordered.distinct
  unfold handles at distinct
  rw [entriesEq, map_append, map_cons] at distinct
  obtain ⟨_, restDistinct, apart⟩ := nodup_append.mp distinct
  have beforeKept : (before.filter fun other => decide (other.handle ≠ handle)) = before := by
    rw [filter_eq_self]
    intro other inBefore
    have different := apart other.handle (mem_map_of_mem inBefore) entry.handle mem_cons_self
    rw [isHandle] at different
    simpa using different
  have afterKept : (after.filter fun other => decide (other.handle ≠ handle)) = after := by
    rw [filter_eq_self]
    intro other inAfter
    have different : other.handle ≠ entry.handle := fun same =>
      (nodup_cons.mp restDistinct).1 (same ▸ mem_map_of_mem inAfter)
    rw [isHandle] at different
    simpa using different
  unfold StableMap.erase
  rw [entriesEq, filter_append, filter_cons_of_neg (by simpa using isHandle), beforeKept, afterKept]

variable {rest : List (StableEntry Handle Key Data)}

theorem Ordered.erase_head (ordered : map.Ordered) (entriesEq : map.entries = entry :: rest) :
    (map.erase entry.handle).entries = rest := by
  have distinct := ordered.distinct
  unfold handles at distinct
  rw [entriesEq, map_cons] at distinct
  unfold StableMap.erase
  rw [entriesEq, filter_cons_of_neg (by simp), filter_eq_self]
  intro other mem
  have apart : other.handle ≠ entry.handle := fun same =>
    (nodup_cons.mp distinct).1 (same ▸ mem_map_of_mem mem)
  simpa using apart

omit [LinearOrder Key] in
theorem find_head (entriesEq : map.entries = entry :: rest) :
    map.find entry.handle = some entry := by
  unfold find
  rw [entriesEq]
  simp

/-- Moving the first entry to a key that is not less than those of the entries that
follow it at once. -/
theorem Ordered.update_head (ordered : map.Ordered) {near far : List (StableEntry Handle Key Data)}
    (entriesEq : map.entries = entry :: (near ++ far)) (key : Key)
    (atMost : ∀ other ∈ near, other.key ≤ key) :
    (map.update entry.handle key).entries = near ++ ((far.filter fun other => other.key ≤ key) ++
        { handle := entry.handle, key := key, data := entry.data, stamp := map.clock } ::
          far.filter fun other => key < other.key) := by
  have nearKept : (near.filter fun other => decide (other.key ≤ key)) = near := by
    rw [filter_eq_self]
    intro other mem
    simpa using atMost other mem
  have nearDropped : (near.filter fun other => decide (key < other.key)) = [] := by
    rw [filter_eq_nil_iff]
    intro other mem
    simpa using atMost other mem
  unfold StableMap.update
  rw [find_head entriesEq]
  show ((map.erase entry.handle).entries.filter _) ++ _ ::
    ((map.erase entry.handle).entries.filter _) = _
  rw [ordered.erase_head entriesEq, filter_append, filter_append, nearKept, nearDropped,
    append_assoc]
  rfl

/-! ## Handles and data -/

/-- The entry of a handle holds the data. -/
def Maps (map : StableMap Handle Key Data) (handle : Handle) (data : Data) : Prop :=
  ∃ entry ∈ map.entries, entry.handle = handle ∧ entry.data = data

omit [DecidableEq Handle] [LinearOrder Key] in
theorem Maps.mem_handles {handle : Handle} {data : Data} (maps : map.Maps handle data) :
    handle ∈ map.handles := by
  obtain ⟨_, mem, isHandle, _⟩ := maps
  rw [← isHandle]
  exact mem_map_of_mem mem

theorem maps_find {handle : Handle} (ordered : map.Ordered)
    (found : map.find handle = some entry) (data : Data) :
    map.Maps handle data ↔ data = entry.data := by
  obtain ⟨inEntries, isHandle⟩ := find_handle found
  constructor
  · rintro ⟨_, mem, otherHandle, isData⟩
    have same := inj_on_of_nodup_map ordered.distinct mem inEntries
      (otherHandle.trans isHandle.symm)
    rw [← isData, same]
  · intro isData
    exact ⟨entry, inEntries, isHandle, isData.symm⟩

omit [DecidableEq Handle] in
theorem maps_insert {handle other : Handle} {key : Key} {data value : Data} :
    (map.insert handle key data).Maps other value ↔
      map.Maps other value ∨ other = handle ∧ value = data := by
  constructor
  · rintro ⟨entry, mem, isOther, isValue⟩
    rcases mem_insert.mp mem with inEntries | isNew
    · exact .inl ⟨entry, inEntries, isOther, isValue⟩
    · rw [isNew] at isOther isValue
      exact .inr ⟨isOther.symm, isValue.symm⟩
  · rintro (⟨entry, mem, isOther, isValue⟩ | ⟨isOther, isValue⟩)
    · exact ⟨entry, mem_insert.mpr (.inl mem), isOther, isValue⟩
    · exact ⟨_, mem_insert.mpr (.inr rfl), isOther.symm, isValue.symm⟩

omit [LinearOrder Key] in
theorem maps_erase {handle other : Handle} {value : Data} :
    (map.erase handle).Maps other value ↔ map.Maps other value ∧ other ≠ handle := by
  constructor
  · rintro ⟨entry, mem, isOther, isValue⟩
    obtain ⟨inEntries, apart⟩ := mem_erase.mp mem
    exact ⟨⟨entry, inEntries, isOther, isValue⟩, isOther ▸ apart⟩
  · rintro ⟨⟨entry, mem, isOther, isValue⟩, apart⟩
    exact ⟨entry, mem_erase.mpr ⟨mem, isOther ▸ apart⟩, isOther, isValue⟩

theorem maps_update (ordered : map.Ordered) {handle other : Handle} {key : Key} {value : Data} :
    (map.update handle key).Maps other value ↔ map.Maps other value := by
  unfold update
  cases found : map.find handle with
  | none => exact Iff.rfl
  | some =>
    simp only [maps_insert, maps_erase]
    by_cases same : other = handle
    · rw [same, maps_find ordered found]
      tauto
    · tauto

omit [DecidableEq Handle] in
theorem Ordered.head_le (ordered : map.Ordered) {front : StableEntry Handle Key Data}
    (isFront : map.entries.head? = some front) (mem : entry ∈ map.entries) :
    front.key ≤ entry.key := by
  obtain ⟨_, entriesEq⟩ := head?_eq_some_iff.mp isFront
  have increasing := ordered.increasing
  rw [entriesEq] at increasing mem
  rcases mem_cons.mp mem with isHead | inRest
  · rw [isHead]
  · rcases (pairwise_cons.mp increasing).1 entry inRest with less | ⟨same, _⟩
    · exact le_of_lt less
    · exact le_of_eq same

omit [DecidableEq Handle] in
theorem Ordered.min?_keys (ordered : map.Ordered) :
    (map.entries.map StableEntry.key).min? = map.entries.head?.map StableEntry.key := by
  rw [← head?_map]
  apply min?_eq_head?
  apply pairwise_map.mpr
  apply ordered.increasing.imp
  intro _ _ inOrder
  apply min_eq_left
  rcases inOrder with less | ⟨same, _⟩
  · exact le_of_lt less
  · exact le_of_eq same

omit [DecidableEq Handle] in
theorem Ordered.head?_insert (ordered : map.Ordered) (handle : Handle) (key : Key) (data : Data) :
    (map.insert handle key data).entries.head? = match map.entries.head? with
      | some front => if front.key ≤ key then some front
          else some { handle := handle, key := key, data := data, stamp := map.clock }
      | none => some { handle := handle, key := key, data := data, stamp := map.clock } := by
  unfold StableMap.insert
  cases isEntries : map.entries with
  | nil => rfl
  | cons front rest =>
    have isFront : map.entries.head? = some front := by rw [isEntries]; rfl
    simp only [head?_cons]
    by_cases atMost : front.key ≤ key
    · rw [if_pos atMost, filter_cons_of_pos (by simpa using atMost)]
      rfl
    · have none : ((front :: rest).filter fun entry => decide (entry.key ≤ key)) = [] := by
        rw [filter_eq_nil_iff]
        intro _ mem
        have frontLe := ordered.head_le isFront (isEntries ▸ mem)
        simp only [decide_eq_true_eq]
        intro entryLe
        exact atMost (le_trans frontLe entryLe)
      rw [if_neg atMost, none]
      rfl

end StableMap

end NtfCore.Foundation
