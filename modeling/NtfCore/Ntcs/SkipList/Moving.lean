import NtfCore.Ntcs.SkipList.Removal

/-!
Contract: moving a node of a skip list to the place of its new key.

Owns: when a level needs no relinking, and the theorem that `updateNodeR` succeeds
and leaves a list that represents, on every level, the sequence without the node
with the node put back in the new place.
-/

namespace NtfCore.Ntcs

open NtfCore.Foundation List Function Sublist
open NtfCore.Foundation.Linked

variable {Key Data : Type} [LinearOrder Key]

namespace SkipList

variable {list : SkipList Key Data} {nodes : List Nat}

/-! ## Moving -/

/-- On a level, every node before the moved one has a key that is not greater than
the new key, and every node after it has a greater one. -/
def Settled (list : SkipList Key Data) (before after : List Nat) (key : Key) (k : Nat) : Prop :=
  (∀ other ∈ before, k ≤ list.level other -> list.above key other = false) ∧
    ∀ other ∈ after, k ≤ list.level other -> list.above key other = true

variable {before after : List Nat} {key : Key}

theorem Settled.mono {k j : Nat} (settled : list.Settled before after key k) (atLeast : k ≤ j) :
    list.Settled before after key j :=
  ⟨fun other mem onLevel => settled.1 other mem (le_trans atLeast onLevel),
    fun other mem onLevel => settled.2 other mem (le_trans atLeast onLevel)⟩

variable {node k : Nat}

/-- A level on which the node stands right is left as it is. -/
theorem Settled.onLevel_eq (settled : list.Settled before after key k)
    (atMost : k ≤ list.level node) : list.onLevel (list.placed (before ++ after) key node) k =
      list.onLevel (before ++ node :: after) k := by
  have beforeLower : list.lower before key k = list.onLevel before k := by
    unfold lower
    rw [filter_eq_self]
    intro other mem
    obtain ⟨inBefore, onLevel⟩ := mem_onLevel.mp mem
    simp [settled.1 other inBefore onLevel]
  have afterLower : list.lower after key k = [] := by
    unfold lower
    rw [filter_eq_nil_iff]
    intro other mem
    obtain ⟨inAfter, onLevel⟩ := mem_onLevel.mp mem
    simp [settled.2 other inAfter onLevel]
  have beforeUpper : list.upper before key k = [] := by
    unfold upper
    rw [filter_eq_nil_iff]
    intro other mem
    obtain ⟨inBefore, onLevel⟩ := mem_onLevel.mp mem
    simp [settled.1 other inBefore onLevel]
  have afterUpper : list.upper after key k = list.onLevel after k := by
    unfold upper
    rw [filter_eq_self]
    intro other mem
    obtain ⟨inAfter, onLevel⟩ := mem_onLevel.mp mem
    exact settled.2 other inAfter onLevel
  rw [onLevel_placed atMost, onLevel_append_cons atMost, lower_append, upper_append, beforeLower,
    afterLower, beforeUpper, afterUpper]
  simp

variable {node : Nat}

section

variable (rep : list.Represents nodes) (split : nodes = before ++ node :: after)
include rep split

theorem Represents.apart : node ∉ before ∧ node ∉ after := by
  have distinct : nodes.Nodup := (nodup_append.mp (nodup_cons.mp rep.distinct).2).1
  rw [split] at distinct
  obtain ⟨_, restDistinct, disjoint⟩ := nodup_append.mp distinct
  exact ⟨fun mem => disjoint node mem node mem_cons_self rfl, (nodup_cons.mp restDistinct).1⟩

/-- When the new place is right before the node, the node stands right. -/
theorem Represents.settled_of_boundary
    (isBoundary : list.boundary nodes key k = node) : list.Settled before after key k := by
  have mono := rep.above_mono key
  have mem : node ∈ nodes := by simp [split]
  have nodeAbove : list.above key node = true := by
    have inUpper := boundary_mem list nodes key k
    rw [isBoundary] at inUpper
    rcases mem_append.mp inUpper with inUpper | isTail
    · exact (mem_upper.mp inUpper).2.2
    · exact absurd (mem_singleton.mp isTail) (rep.tail_ne mem)
  rw [split] at mono
  have fromNode := pairwise_cons.mp (pairwise_append.mp mono).2.1
  have none : list.upper before key k = [] := by
    cases found : list.upper before key k with
    | nil => rfl
    | cons first =>
      have isFirst : list.boundary nodes key k = first := by
        unfold boundary
        rw [split, upper_append, found]
        rfl
      have inBefore : first ∈ list.upper before key k := found ▸ mem_cons_self
      have same : node ∈ before := by
        rw [← isBoundary, isFirst]
        exact (mem_upper.mp inBefore).1
      exact absurd same (rep.apart split).1
  constructor
  · intro other inBefore onLevel
    apply Bool.eq_false_iff.mpr
    intro isAbove
    have inUpper := mem_upper.mpr ⟨inBefore, onLevel, isAbove⟩
    rw [none] at inUpper
    contradiction
  · intro other inAfter _
    exact fromNode.1 other inAfter nodeAbove

/-- When the new place is right after the node, the node stands right. -/
theorem Represents.settled_of_predecessor
    (isPredecessor : list.predecessor nodes key k = node) : list.Settled before after key k := by
  have mono := rep.above_mono key
  have mem : node ∈ nodes := by simp [split]
  have nodeBelow : list.above key node = false := by
    have inLower := predecessor_mem list nodes key k
    rw [isPredecessor] at inLower
    rcases mem_cons.mp inLower with isHead | inLower
    · exact absurd isHead (rep.head_ne mem)
    · exact (mem_lower.mp inLower).2.2
  rw [split] at mono
  have toNode := (pairwise_append.mp mono).2.2
  have none : list.lower after key k = [] := by
    rcases eq_nil_or_concat (list.lower after key k) with none | ⟨init, last, found⟩
    · exact none
    · rw [concat_eq_append] at found
      have isLast : list.predecessor nodes key k = last := by
        have lastOf := getLast?_lower list nodes key k
        have lowerEq : list.lower nodes key k =
            list.lower (before ++ [node]) key k ++ (init ++ [last]) := by
          rw [split, append_cons, lower_append, found]
        rw [lowerEq, ← append_assoc, ← cons_append, getLast?_concat] at lastOf
        exact (Option.some.inj lastOf).symm
      have inAfter : last ∈ list.lower after key k := by simp [found]
      have same : node ∈ after := by
        rw [← isPredecessor, isLast]
        exact (mem_lower.mp inAfter).1
      exact absurd same (rep.apart split).2
  constructor
  · intro other inBefore _
    apply Bool.eq_false_iff.mpr
    intro isAbove
    have nodeAbove := toNode other inBefore node mem_cons_self isAbove
    rw [nodeBelow] at nodeAbove
    contradiction
  · intro other inAfter onLevel
    apply Bool.not_eq_false _ |>.mp
    intro notAbove
    have inLower := mem_lower.mpr ⟨inAfter, onLevel, notAbove⟩
    rw [none] at inLower
    contradiction

end

def Threads (list : SkipList Key Data) (sequence : List Nat) (k : Nat) (links : Links Nat) : Prop :=
  Connects links (list.head :: list.onLevel sequence k ++ [list.tail]) ∧
    links.prev list.head = none ∧ links.next list.tail = none

theorem Represents.threads (rep : list.Represents nodes) {k : Nat} (bound : k ≤ maxLevel) :
    list.Threads nodes k (list.ptrs k) :=
  ⟨rep.linked k bound, rep.ends k bound⟩

theorem getLast?_drop {last : Nat}
    (isLast : (before ++ node :: after).getLast? = some last) (other : last ≠ node) :
    (before ++ after).getLast? = some last := by
  rcases eq_nil_or_concat after with none | ⟨_, _, isConcat⟩
  · rw [none, getLast?_concat] at isLast
    exact absurd (Option.some.inj isLast).symm other
  · rw [isConcat, concat_eq_append] at isLast ⊢
    rw [← cons_append, ← append_assoc, getLast?_concat] at isLast
    rw [← append_assoc, getLast?_concat]
    exact isLast

theorem head?_drop {first : Nat}
    (isFirst : (before ++ node :: after).head? = some first) (other : first ≠ node) :
    (before ++ after).head? = some first := by
  cases before with
  | nil => exact absurd (Option.some.inj isFirst).symm other
  | cons => exact isFirst

/-- The ends of the two sides of the new place, once the node is taken out. -/
theorem ends_drop (notBefore : list.predecessor (before ++ node :: after) key k ≠ node)
    (notAfter : list.boundary (before ++ node :: after) key k ≠ node) :
    (list.head :: list.lower (before ++ after) key k).getLast? =
        some (list.predecessor (before ++ node :: after) key k) ∧
      (list.upper (before ++ after) key k ++ [list.tail]).head? =
        some (list.boundary (before ++ node :: after) key k) := by
  have isLast := getLast?_lower list (before ++ node :: after) key k
  have isFirst := head?_upper list (before ++ node :: after) key k
  have cons : before ++ node :: after = before ++ ([node] ++ after) := rfl
  have lowerEq : list.lower (before ++ node :: after) key k = list.lower before key k ++
      (list.lower [node] key k ++ list.lower after key k) := by
    rw [cons, lower_append, lower_append]
  have upperEq : list.upper (before ++ node :: after) key k = list.upper before key k ++
      (list.upper [node] key k ++ list.upper after key k) := by
    rw [cons, upper_append, upper_append]
  rw [lowerEq] at isLast
  rw [upperEq] at isFirst
  have single : ∀ test : Nat -> Bool, ([node].filter test) = [] ∨ [node].filter test = [node] := by
    intro test
    cases tested : test node with
    | true => exact .inr (by simp [tested])
    | false => exact .inl (by simp [tested])
  constructor
  · rw [lower_append]
    have lowerSingle : list.lower [node] key k = [] ∨ list.lower [node] key k = [node] := by
      unfold lower onLevel
      rw [filter_filter]
      exact single _
    rcases lowerSingle with none | one
    · rw [none] at isLast
      exact isLast
    · rw [one, ← cons_append] at isLast
      exact getLast?_drop isLast notBefore
  · rw [upper_append]
    have upperSingle : list.upper [node] key k = [] ∨ list.upper [node] key k = [node] := by
      unfold upper onLevel
      rw [filter_filter]
      exact single _
    rcases upperSingle with none | one
    · rw [none] at isFirst
      exact isFirst
    · rw [one, append_assoc] at isFirst
      rw [append_assoc]
      exact head?_drop isFirst notAfter

theorem Represents.moved_level (rep : list.Represents nodes)
    (split : nodes = before ++ node :: after) (atMost : k ≤ list.level node) (bound : k ≤ maxLevel)
    (notBefore : list.predecessor nodes key k ≠ node)
    (notAfter : list.boundary nodes key k ≠ node) :
    list.Threads (list.placed (before ++ after) key node) k
      (((list.ptrs k).unlink (list.nodeBefore before k) (list.nodeAfter after k)).insert
        (list.predecessor nodes key k) node (list.boundary nodes key k)) := by
  obtain ⟨_, _, unlinked, headEnd, tailEnd⟩ := rep.unlinked split atMost bound
  have mem : node ∈ nodes := by simp [split]
  have onBoth : list.lower (before ++ after) key k ++ list.upper (before ++ after) key k =
      list.onLevel (before ++ after) k := by
    apply Lists.filter_append_filter
    refine ((rep.above_mono key).sublist ?_).sublist filter_sublist
    rw [split]
    exact (refl before).append (sublist_cons_self node after)
  have distinct : ((list.head :: list.lower (before ++ after) key k) ++
      (list.upper (before ++ after) key k ++ [list.tail])).Nodup := by
    have whole := rep.nodup_onLevel k
    rw [split, onLevel_append_cons atMost] at whole
    rw [← append_assoc, cons_append, onBoth, onLevel_append]
    refine whole.sublist ?_
    apply append _ (refl _)
    apply cons_cons
    exact (refl _).append (sublist_cons_self _ _)
  have fresh : node ∉ (list.head :: list.lower (before ++ after) key k) ++
      (list.upper (before ++ after) key k ++ [list.tail]) := by
    rw [← append_assoc, cons_append, onBoth]
    simp only [cons_append, mem_cons, mem_append, mem_onLevel, not_mem_nil,
      or_false, not_or, not_and]
    obtain ⟨notIn, notBehind⟩ := rep.apart split
    exact ⟨rep.head_ne mem, fun inRest => absurd inRest (not_or.mpr ⟨notIn, notBehind⟩),
      rep.tail_ne mem⟩
  have linked : Connects ((list.ptrs k).unlink (list.nodeBefore before k) (list.nodeAfter after k))
      ((list.head :: list.lower (before ++ after) key k) ++
        (list.upper (before ++ after) key k ++ [list.tail])) := by
    rw [← append_assoc, cons_append, onBoth]
    exact unlinked
  have ends : (list.head :: list.lower (before ++ after) key k).getLast? =
        some (list.predecessor nodes key k) ∧
      (list.upper (before ++ after) key k ++ [list.tail]).head? =
        some (list.boundary nodes key k) := by
    rw [split] at notBefore notAfter ⊢
    exact ends_drop notBefore notAfter
  refine ⟨?_, ?_, ?_⟩
  · have inserted := linked.insert_split distinct fresh ends.1 ends.2
    rw [onLevel_placed atMost]
    simpa using inserted
  · have headNode : list.head ≠ node := (rep.head_ne mem).symm
    simp only [Links.insert]
    rw [update_of_ne (rep.boundary_ne_head key k), update_of_ne headNode]
    exact headEnd
  · have tailNode : list.tail ≠ node := (rep.tail_ne mem).symm
    simp only [Links.insert]
    rw [update_of_ne (rep.predecessor_ne_tail key k), update_of_ne tailNode]
    exact tailEnd

variable {location : Nat -> Option Nat}

variable (rep : list.Represents nodes) (split : nodes = before ++ node :: after)
include rep split

section

variable (located : list.Located nodes key (list.listLevel + 1) location)
include located

/-- The loop of `moveImp` from level `k` on: below `k` it leaves the levels alone,
and from `k` on it threads the new sequence. -/
theorem Represents.moveLoop_eq
    (count k : Nat) (total : k + count = list.level node + 1) (ptrs : Nat -> Links Nat)
    (kept : ∀ j, k ≤ j -> ptrs j = list.ptrs j) :
    ∃ result, moveLoop location node count k ptrs = some result ∧ (∀ j < k, result j = ptrs j) ∧
      (∀ j, k ≤ j -> j ≤ list.level node ->
        list.Threads (list.placed (before ++ after) key node) j (result j)) ∧
      (∀ j, list.level node < j -> result j = list.ptrs j) ∧
      ∀ j other, other ∉ list.head :: nodes -> (result j).next other = (ptrs j).next other := by
  have mem : node ∈ nodes := by simp [split]
  have levelMax := rep.levelMax mem
  induction count generalizing k ptrs with
  | zero =>
    exact ⟨ptrs, rfl, fun _ _ => rfl, fun j atLeast atMost => by omega,
      fun j beyond => kept j (by omega), fun _ _ _ => rfl⟩
  | succ _ ih =>
    have atMost : k ≤ list.level node := by omega
    have bound : k ≤ maxLevel := le_trans atMost levelMax
    have isLocated : location k = some (list.boundary nodes key k) := by
      apply located
      have levelLe := rep.level_le node mem
      omega
    have precedes := rep.prev_boundary key bound
    obtain ⟨isPrev, isNext, _⟩ := rep.unlinked split atMost bound
    simp only [moveLoop, isLocated, kept k .refl, precedes, isPrev, isNext]
    by_cases stands : list.predecessor nodes key k = node ∨ list.boundary nodes key k = node
    · have settled : list.Settled before after key k :=
        stands.elim (rep.settled_of_predecessor split) (rep.settled_of_boundary split)
      rw [if_pos stands]
      refine ⟨ptrs, rfl, fun _ _ => rfl, ?_, fun j _ => kept j (by omega), fun _ _ _ => rfl⟩
      intro j atLeast levelLe
      unfold Threads
      rw [kept j atLeast, (settled.mono atLeast).onLevel_eq levelLe, ← split]
      exact rep.threads (le_trans levelLe levelMax)
    · rw [if_neg stands]
      obtain ⟨notBefore, notAfter⟩ := not_or.mp stands
      obtain ⟨result, looped, keptBelow, threads, keptAbove, unlisted⟩ := ih
        (k + 1) (by omega) (update ptrs k
          (((list.ptrs k).unlink (list.nodeBefore before k) (list.nodeAfter after k)).insert
            (list.predecessor nodes key k) node (list.boundary nodes key k)))
        (fun j atLeast => by
          rw [update_of_ne (by omega)]
          exact kept j (by omega))
      refine ⟨result, looped, ?_, ?_, keptAbove, ?_⟩
      · intro j below
        rw [keptBelow j (by omega), update_of_ne (by omega)]
      · intro j atLeast levelLe
        rcases Nat.eq_or_lt_of_le atLeast with same | greater
        · rw [← same, keptBelow k .refl, update_self]
          exact rep.moved_level split atMost bound notBefore notAfter
        · exact threads j greater levelLe
      · intro j other notListed
        rw [unlisted j other notListed]
        by_cases same : j = k
        · rw [same, update_self, kept k .refl]
          have notNode : other ≠ node := fun isNode =>
            notListed (isNode ▸ mem_cons_of_mem _ mem)
          have notOld : other ≠ list.nodeBefore before k := fun isOld =>
            notListed (isOld ▸ nodeBefore_listed split k)
          have notNew : other ≠ list.predecessor nodes key k := fun isNew =>
            notListed (isNew ▸ predecessor_listed list nodes key k)
          simp [Links.insert, Links.unlink, notNode, notOld, notNew]
        · rw [update_of_ne same]

/-- `moveImp` after the key of the node was changed. -/
theorem Represents.moveImp_eq : ∃ result, ({ list with key := update list.key node (some key) } :
        SkipList Key Data).moveImp location node =
        some ((list.placed (before ++ after) key node).head? == some node, result) ∧
      result.Represents (list.placed (before ++ after) key node) ∧ SameNodes list result ∧
      result.key = update list.key node (some key) := by
  have mem : node ∈ nodes := by simp [split]
  have levelLe := rep.level_le node mem
  obtain ⟨notBefore, notAfter⟩ := rep.apart split
  have sublist : (before ++ after).Sublist nodes := by
    rw [split]
    exact (refl before).append (sublist_cons_self node after)
  have sameKey : ∀ other ∈ before ++ after,
      list.key other = update list.key node (some key) other := by
    intro other inRest
    have apart : other ≠ node := fun same =>
      (mem_append.mp (same ▸ inRest)).elim notBefore notAfter
    rw [update_of_ne apart]
  obtain ⟨ptrs, looped, _, threads, keptAbove, unlisted⟩ := rep.moveLoop_eq split located
    (list.level node + 1) 0 (Nat.zero_add _) list.ptrs (fun _ _ => rfl)
  have threaded : ∀ k ≤ maxLevel,
      list.Threads (list.placed (before ++ after) key node) k (ptrs k) := by
    intro k bound
    by_cases atMost : k ≤ list.level node
    · exact threads k (Nat.zero_le k) atMost
    · have beyond : list.level node < k := by omega
      have sorted := ((rep.above_mono key).sublist sublist).sublist
        (filter_sublist (p := fun other => decide (k ≤ list.level other)))
      have sameLevel : list.onLevel (list.placed (before ++ after) key node) k =
          list.onLevel nodes k := by
        rw [onLevel_placed_drop beyond, split, onLevel_drop node beyond]
        exact Lists.filter_append_filter sorted
      unfold Threads
      rw [sameLevel, keptAbove k beyond]
      exact rep.threads bound
  have moved : ({ list with
      key := update list.key node (some key)
      ptrs := ptrs } : SkipList Key Data).Represents (list.placed (before ++ after) key node) := by
    constructor
    case distinct =>
      show (list.head :: list.placed (before ++ after) key node ++ [list.tail]).Nodup
      apply nodup_placed
      · exact rep.distinct.sublist ((sublist.cons_cons list.head).append (refl _))
      · simp only [cons_append, mem_cons, mem_append, not_mem_nil, or_false, not_or]
        exact ⟨rep.head_ne mem, ⟨notBefore, notAfter⟩, rep.tail_ne mem⟩
    case linked => exact fun k bound => (threaded k bound).1
    case ends => exact fun k bound => (threaded k bound).2
    case level_le =>
      intro other inPlaced
      rcases mem_placed.mp inPlaced with isNode | inRest
      · rw [isNode]
        exact levelLe
      · exact rep.level_le other (sublist.subset inRest)
    case listLevel_le => exact rep.listLevel_le
    case keyed =>
      intro other inPlaced
      rcases mem_placed.mp inPlaced with isNode | inRest
      · rw [isNode]
        exact ⟨key, update_self _ _ _⟩
      · obtain ⟨otherKey, isOther⟩ := rep.keyed other (sublist.subset inRest)
        exact ⟨otherKey, (sameKey other inRest).symm.trans isOther⟩
    case sorted =>
      refine sorted_placed ?_ sameKey (update_self _ _ _)
      refine (rep.sorted.sublist sublist).imp_of_mem ?_
      intro a b inA inB ordered first second isFirst isSecond
      exact ordered first second ((sameKey a inA).trans isFirst) ((sameKey b inB).trans isSecond)
    case length_eq =>
      rw [(placed_perm list (before ++ after) key node).length_eq, rep.length_eq, split]
      simp
      omega
    case unlisted =>
      intro other notListed
      have notMem : other ∉ list.head :: nodes := by
        intro isMem
        apply notListed
        rw [split] at isMem
        simp only [mem_cons, mem_append, mem_placed] at isMem ⊢
        tauto
      exact (unlisted 0 other notMem).trans (rep.unlisted other notMem)
  refine ⟨_, ?_, moved, ⟨rfl, rfl, rfl, rfl⟩, rfl⟩
  have inPlaced : node ∈ list.placed (before ++ after) key node := mem_placed.mpr (.inl rfl)
  have flag := moved.isFront_eq inPlaced
  unfold moveImp
  simp only [levelLe, ↓reduceIte, looped]
  rw [← flag]

end

theorem Represents.updateNodeR_eq (newKey : Key) : ∃ result, list.updateNodeR node newKey =
        some (.success, some ((list.placed (before ++ after) newKey node).head? == some node),
          result) ∧
      result.Represents (list.placed (before ++ after) newKey node) ∧ SameNodes list result ∧
      result.key = Function.update list.key node (some newKey) := by
  obtain ⟨_, looked, located⟩ := rep.lookupImpUpperBoundR_eq newKey
  obtain ⟨result, moved, shape⟩ := rep.moveImp_eq split located
  obtain ⟨_, isNext, _⟩ := rep.unlinked split (Nat.zero_le _) (Nat.zero_le _)
  refine ⟨result, ?_, shape⟩
  unfold updateNodeR
  simp only [isNext, looked, moved]

end SkipList

end NtfCore.Ntcs
