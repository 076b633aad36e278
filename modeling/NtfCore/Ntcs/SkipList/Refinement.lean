import NtfCore.Foundation.Run
import NtfCore.Foundation.StableMap
import NtfCore.Ntcs.SkipList.Moving

/-!
Contract: a skip list refines a stable sorted association list.

Owns: the operations of a skip list as actions, each taken by the list and by the
association list, with what the caller sees of either; what it means that the
two agree; and the theorem that they agree in every state of every run, for
every level handed to a new node.
-/

namespace NtfCore.Ntcs

open NtfCore.Foundation List StableMap
open NtfCore.Foundation.Linked

variable {Key Data : Type} [LinearOrder Key]

namespace SkipList

inductive Outcome where
  | added (newFront : Bool)
  | updated (status : SkipListStatus) (newFront : Option Bool)
  | removed (status : SkipListStatus)
  | cleared (count : Nat)

inductive Operation (Key Data : Type) where
  | addL (node level : Nat) (key : Key) (data : Data)
  | addR (node level : Nat) (key : Key) (data : Data)
  | updateR (reference : Option Nat) (newKey : Key)
  | remove (reference : Option Nat)
  | removeAll

/-- A skip list and the association list it stands for, with the outcomes of the
last operation on each. The skip list is absent after a null pointer was followed
or an assertion failed. -/
structure Paired (Key Data : Type) where
  list : Option (SkipList Key Data)
  map : StableMap Nat Key Data := {}
  observed : Option Outcome := none
  expected : Option Outcome := none

def Paired.start (sentinels : Sentinels) : Paired Key Data where
  list := some (initialList sentinels)

def apply (list : SkipList Key Data) : Operation Key Data -> Option (Outcome × SkipList Key Data)
  | .addL node level key data =>
    (list.addL node level key data).map fun (flag, after) => (.added flag, after)
  | .addR node level key data =>
    (list.addR node level key data).map fun (flag, after) => (.added flag, after)
  | .updateR reference newKey =>
    (list.updateR reference newKey).map fun (status, flag, after) => (.updated status flag, after)
  | .remove reference =>
    (list.remove reference).map fun (status, after) => (.removed status, after)
  | .removeAll => list.removeAll.map fun (count, after) => (.cleared count, after)

def specify (map : StableMap Nat Key Data) : Operation Key Data -> Outcome × StableMap Nat Key Data
  | .addL node _ key data | .addR node _ key data =>
    let inserted := map.insert node key data
    (.added (inserted.first == some node), inserted)
  | .updateR none _ => (.updated .invalid none, map)
  | .updateR (some node) newKey =>
    if node ∈ map.handles then
      let updated := map.update node newKey
      (.updated .success (some (updated.first == some node)), updated)
    else (.updated .notFound none, map)
  | .remove none => (.removed .invalid, map)
  | .remove (some node) =>
    if node ∈ map.handles then (.removed .success, map.erase node)
    else (.removed .notFound, map)
  | .removeAll => (.cleared map.entries.length, map.clear)

/-- The pool hands out addresses that are not in use, the random level is in
range, and a reference is never to the sentinel at the head. -/
def Operation.Allowed (list : SkipList Key Data) (map : StableMap Nat Key Data) :
    Operation Key Data -> Prop
  | .addL node level _ _ | .addR node level _ _ =>
    level ≤ maxLevel ∧ node ∉ list.head :: map.handles ++ [list.tail]
  | .updateR (some node) _ | .remove (some node) => node ≠ list.head
  | .updateR none _ | .remove none | .removeAll => True

instance (list : SkipList Key Data) (map : StableMap Nat Key Data)
    (operation : Operation Key Data) : Decidable (operation.Allowed list map) := by
  cases operation with
  | addL => exact inferInstanceAs (Decidable (_ ∧ _))
  | addR => exact inferInstanceAs (Decidable (_ ∧ _))
  | updateR reference =>
    cases reference with
    | none => exact inferInstanceAs (Decidable True)
    | some => exact inferInstanceAs (Decidable (_ ≠ _))
  | remove reference =>
    cases reference with
    | none => exact inferInstanceAs (Decidable True)
    | some => exact inferInstanceAs (Decidable (_ ≠ _))
  | removeAll => exact inferInstanceAs (Decidable True)

def Paired.step (paired : Paired Key Data) (operation : Operation Key Data) :
    Option (Paired Key Data) :=
  match paired.list with
  | none => none
  | some list =>
    if operation.Allowed list paired.map then
      let expected := specify paired.map operation
      match list.apply operation with
      | some (outcome, after) => some {
          list := some after
          map := expected.2
          observed := some outcome
          expected := some expected.1 }
      | none => some { paired with list := none }
    else none

/-- The skip list holds the pairs of the association list. From head to tail, the
nodes linked on each level are some of those on the level below, and on the lowest
level they are all of them, in order. -/
structure Agrees (list : SkipList Key Data) (map : StableMap Nat Key Data) : Prop where
  ordered : map.Ordered
  contents : ∀ entry ∈ map.entries,
    list.key entry.handle = some entry.key ∧ list.data entry.handle = some entry.data
  chains : ∃ chain : Nat -> List Nat, chain 0 = map.handles ∧
    (∀ k ≤ maxLevel, Connects (list.ptrs k) (list.head :: chain k ++ [list.tail])) ∧
    ∀ k < maxLevel, (chain (k + 1)).Sublist (chain k)
  ends : ∀ k ≤ maxLevel,
    (list.ptrs k).prev list.head = none ∧ (list.ptrs k).next list.tail = none
  length : list.length = map.entries.length

def Paired.Refines (paired : Paired Key Data) : Prop :=
  (∃ list, paired.list = some list ∧ list.Agrees paired.map) ∧
    paired.observed = paired.expected

structure Holds (list : SkipList Key Data) (map : StableMap Nat Key Data) : Prop where
  represents : list.Represents map.handles
  ordered : map.Ordered
  contents : ∀ entry ∈ map.entries,
    list.key entry.handle = some entry.key ∧ list.data entry.handle = some entry.data

def Paired.Invariant (paired : Paired Key Data) : Prop :=
  (∃ list, paired.list = some list ∧ list.Holds paired.map) ∧
    paired.observed = paired.expected

variable {list : SkipList Key Data} {map : StableMap Nat Key Data}

theorem Holds.agrees (holds : list.Holds map) : list.Agrees map := { holds with
  chains := by
    refine ⟨list.onLevel map.handles, onLevel_zero list map.handles, holds.represents.linked, ?_⟩
    intro k _
    apply monotone_filter_right
    intro node onUpper
    have atLeast : k + 1 ≤ list.level node := by simpa using onUpper
    simpa using Nat.le_of_succ_le atLeast
  ends := holds.represents.ends
  length := by
    rw [holds.represents.length_eq]
    exact length_map _ }

theorem Paired.Invariant.refines {paired : Paired Key Data} (inv : paired.Invariant) :
    paired.Refines := by
  obtain ⟨⟨list, isList, holds⟩, same⟩ := inv
  exact ⟨⟨list, isList, holds.agrees⟩, same⟩

theorem initialList_represents (sentinels : Sentinels) :
    (initialList sentinels : SkipList Key Data).Represents [] where
  distinct := by
    have apart := sentinels.distinct
    simpa [initialList] using apart
  linked := by
    intro k _
    apply isChain_cons_cons.mpr
    refine ⟨?_, isChain_singleton _⟩
    simp [initialList]
  ends := by
    intro k _
    have apart := sentinels.distinct
    simp [initialList, apart, apart.symm]
  level_le := by simp
  listLevel_le := Nat.zero_le _
  keyed := by simp
  sorted := Pairwise.nil
  length_eq := rfl
  unlisted := by
    intro node notListed
    apply Function.update_of_ne
    intro isHead
    exact notListed (isHead ▸ mem_cons_self)

theorem Paired.start_invariant (sentinels : Sentinels) :
    (Paired.start sentinels : Paired Key Data).Invariant := by
  refine ⟨⟨initialList sentinels, rfl, ?_⟩, rfl⟩
  exact {
    represents := initialList_represents sentinels
    ordered := empty_ordered
    contents := forall_mem_nil _ }

/-! ## The steps -/

/-- Putting a node into the sequence is inserting the entry. -/
theorem placed_handles (map : StableMap Nat Key Data)
    (contents : ∀ entry ∈ map.entries, list.key entry.handle = some entry.key)
    (node : Nat) (key : Key) (data : Data) :
    list.placed map.handles key node = (map.insert node key data).handles := by
  have isAbove : ∀ entry ∈ map.entries, list.above key entry.handle = decide (key < entry.key) := by
    intro entry mem
    simp [above, contents entry mem]
  unfold placed StableMap.handles StableMap.insert
  rw [map_append, map_cons, filter_map, filter_map]
  congr 1
  · apply congrArg (List.map _)
    apply List.filter_congr
    intro entry mem
    simp only [Function.comp_apply, isAbove entry mem, ← decide_not, not_lt]
  · apply congrArg (cons _)
    apply congrArg (List.map _)
    apply List.filter_congr
    intro entry mem
    simp [isAbove entry mem]

variable {node : Nat}

section

variable (holds : list.Holds map)
include holds

theorem Holds.added {result : SkipList Key Data} {key : Key} {data : Data}
    (fresh : node ∉ map.handles) (represents : result.Represents (list.placed map.handles key node))
    (added : Added list result node key data) : result.Holds (map.insert node key data) where
  represents := by
    rw [← placed_handles map (fun entry mem => (holds.contents entry mem).1) node key data]
    exact represents
  ordered := holds.ordered.insert fresh key data
  contents := by
    intro entry mem
    rw [added.key, added.data]
    rcases mem_insert.mp mem with inEntries | isNew
    · have apart : entry.handle ≠ node := fun same =>
        fresh (same ▸ mem_map_of_mem inEntries)
      rw [Function.update_of_ne apart, Function.update_of_ne apart]
      exact holds.contents entry inEntries
    · rw [isNew]
      exact ⟨Function.update_self _ _ _, Function.update_self _ _ _⟩

theorem Holds.apply_add {node level : Nat} (key : Key) (data : Data) (levelMax : level ≤ maxLevel)
    (fresh : node ∉ list.head :: map.handles ++ [list.tail]) (op : Operation Key Data)
    (isAdd : op = .addL node level key data ∨ op = .addR node level key data) :
    ∃ result, list.apply op = some ((specify map op).1, result) ∧
      result.Holds (specify map op).2 ∧ result.head = list.head := by
  have notHandle : node ∉ map.handles := fun mem => fresh (by simp [mem])
  have placedEq := placed_handles map (fun entry mem => (holds.contents entry mem).1) node key data
  rcases isAdd with isL | isR
  · obtain ⟨result, added, rep, fields⟩ := holds.represents.addL_eq fresh levelMax key data
    subst isL
    refine ⟨result, ?_, holds.added notHandle rep fields, fields.head⟩
    simp only [apply, added, Option.map_some, placedEq]
    rfl
  · obtain ⟨result, added, rep, fields⟩ := holds.represents.addR_eq fresh levelMax key data
    subst isR
    refine ⟨result, ?_, holds.added notHandle rep fields, fields.head⟩
    simp only [apply, added, Option.map_some, placedEq]
    rfl

theorem Holds.locate (live : node ∈ map.handles) :
    ∃ entry before after, map.find node = some entry ∧ map.handles = before ++ node :: after ∧
      (map.erase node).handles = before ++ after := by
  obtain ⟨entry, found⟩ : ∃ entry, map.find node = some entry := by
    rw [← Option.ne_none_iff_exists']
    exact fun isNone => find_eq_none.mp isNone live
  obtain ⟨_, isNode⟩ := find_handle found
  obtain ⟨before, after, entriesEq, erasedEq⟩ := holds.ordered.split found
  refine ⟨entry, before.map StableEntry.handle, after.map StableEntry.handle, found, ?_, ?_⟩
  · unfold handles
    rw [entriesEq, map_append, map_cons, isNode]
  · unfold handles
    rw [erasedEq, map_append]

theorem Holds.apply_updateR (newKey : Key) (live : node ∈ map.handles) :
    ∃ result, list.apply (.updateR (some node) newKey) =
        some ((specify map (.updateR (some node) newKey)).1, result) ∧
      result.Holds (specify map (.updateR (some node) newKey)).2 ∧ result.head = list.head := by
  obtain ⟨entry, before, after, found, split, erasedHandles⟩ := holds.locate live
  obtain ⟨inEntries, isNode⟩ := find_handle found
  obtain ⟨result, updated, rep, same, keyEq⟩ := holds.represents.updateNodeR_eq split newKey
  have placedEq : list.placed (before ++ after) newKey node = ((map.erase node).insert node newKey entry.data).handles := by
    rw [← erasedHandles]
    apply placed_handles
    intro other mem
    exact (holds.contents other (mem_erase.mp mem).1).1
  have updateEq : map.update node newKey = (map.erase node).insert node newKey entry.data := by
    unfold update
    rw [found]
  rw [placedEq, ← updateEq] at updated rep
  have specified : specify map (.updateR (some node) newKey) =
      (.updated .success (some ((map.update node newKey).first == some node)),
        map.update node newKey) := by
    simp only [specify, live, ↓reduceIte]
  rw [specified]
  refine ⟨result, ?_, ⟨rep, holds.ordered.update node newKey, ?_⟩, same.head⟩
  · simp only [apply, updateR, updated, Option.map_some]
    rfl
  · intro other mem
    rw [updateEq] at mem
    rw [keyEq, same.data]
    rcases mem_insert.mp mem with inErased | isNew
    · obtain ⟨inMap, apart⟩ := mem_erase.mp inErased
      rw [Function.update_of_ne apart]
      exact holds.contents other inMap
    · rw [isNew]
      refine ⟨Function.update_self _ _ _, ?_⟩
      rw [← isNode]
      exact (holds.contents entry inEntries).2

theorem Holds.apply_remove (live : node ∈ map.handles) :
    ∃ result, list.apply (.remove (some node)) =
        some ((specify map (.remove (some node))).1, result) ∧
      result.Holds (specify map (.remove (some node))).2 ∧ result.head = list.head := by
  obtain ⟨_, _, _, _, split, erasedHandles⟩ := holds.locate live
  obtain ⟨result, removed, rep, same, keyEq⟩ := holds.represents.removeNode_eq split
  rw [← erasedHandles] at rep
  have specified : specify map (.remove (some node)) = (.removed .success, map.erase node) := by
    simp only [specify, live, ↓reduceIte]
  rw [specified]
  refine ⟨result, ?_, ⟨rep, holds.ordered.erase node, ?_⟩, same.head⟩
  · simp only [apply, remove, removed, Option.map_some]
  · intro other mem
    rw [keyEq, same.data]
    exact holds.contents other (mem_erase.mp mem).1

theorem Holds.apply_stale (notHead : node ≠ list.head) (stale : node ∉ map.handles)
    (op : Operation Key Data)
    (refers : (∃ newKey, op = .updateR (some node) newKey) ∨ op = .remove (some node)) :
    list.apply op = some ((specify map op).1, list) ∧ (specify map op).2 = map := by
  have marked : (list.ptrs 0).next node = none := by
    apply holds.represents.unlisted
    simp [notHead, stale]
  rcases refers with ⟨_, isUpdate⟩ | isRemove
  · subst isUpdate
    simp [apply, specify, updateR, updateNodeR, marked, stale]
  · subst isRemove
    simp [apply, specify, remove, removeNode, marked, stale]

theorem Holds.apply_removeAll :
    ∃ result, list.apply .removeAll = some ((specify map .removeAll).1, result) ∧
      result.Holds (specify map .removeAll).2 ∧ result.head = list.head := by
  obtain ⟨result, cleared, rep, same, _⟩ := holds.represents.removeAll_eq
  refine ⟨result, ?_, ⟨rep, clear_ordered map, forall_mem_nil _⟩, same.head⟩
  have lengthEq : map.handles.length = map.entries.length := length_map _
  simp only [apply, cleared, Option.map_some, lengthEq]
  rfl

/-- One operation: the two do the same. -/
theorem Holds.apply_eq (op : Operation Key Data) (allowed : op.Allowed list map) :
    ∃ result, list.apply op = some ((specify map op).1, result) ∧
      result.Holds (specify map op).2 ∧ result.head = list.head := by
  cases op with
  | addL node level key data => exact holds.apply_add key data allowed.1 allowed.2 _ (.inl rfl)
  | addR node _ key data => exact holds.apply_add key data allowed.1 allowed.2 _ (.inr rfl)
  | updateR reference newKey =>
    cases reference with
    | none => exact ⟨list, rfl, holds, rfl⟩
    | some node =>
      by_cases live : node ∈ map.handles
      · exact holds.apply_updateR newKey live
      · obtain ⟨applied, sameMap⟩ := holds.apply_stale allowed live _ (.inl ⟨newKey, rfl⟩)
        exact ⟨list, applied, sameMap.symm ▸ holds, rfl⟩
  | remove reference =>
    cases reference with
    | none => exact ⟨list, rfl, holds, rfl⟩
    | some node =>
      by_cases live : node ∈ map.handles
      · exact holds.apply_remove live
      · obtain ⟨applied, sameMap⟩ := holds.apply_stale allowed live _ (.inr rfl)
        exact ⟨list, applied, sameMap.symm ▸ holds, rfl⟩
  | removeAll => exact holds.apply_removeAll

end

theorem Paired.step_invariant {paired next : Paired Key Data} {op : Operation Key Data}
    (inv : paired.Invariant) (taken : paired.step op = some next) : next.Invariant := by
  obtain ⟨⟨_, isList, holds⟩, _⟩ := inv
  unfold Paired.step at taken
  rw [isList] at taken
  dsimp only at taken
  split at taken
  · rename_i allowed
    obtain ⟨result, applied, resultHolds, _⟩ := holds.apply_eq op allowed
    rw [applied] at taken
    cases taken
    exact ⟨⟨result, rfl, resultHolds⟩, rfl⟩
  · contradiction

/-- In every state of every run of a skip list, whatever the levels of its nodes,
the list refines a stable sorted association list. -/
theorem skiplist_refines (sentinels : Sentinels) (operations : List (Operation Key Data)) :
    Run.Always Paired.step Paired.Refines (Paired.start sentinels) operations := by
  apply Run.Always.mono fun _ inv => Paired.Invariant.refines inv
  apply Run.always_of_keeps
  · exact fun _ _ _ inv taken => Paired.step_invariant inv taken
  · exact Paired.start_invariant sentinels

end SkipList

end NtfCore.Ntcs
