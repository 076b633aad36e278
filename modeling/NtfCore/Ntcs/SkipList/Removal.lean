import NtfCore.Ntcs.SkipList.Insertion

/-!
Contract: removing pairs from a skip list.

Owns: the theorems that `removeNode` and `removeAll` succeed and leave a list that
represents the remaining sequence on every level.
-/

namespace NtfCore.Ntcs

open NtfCore.Foundation.Linked List Function Links Sublist

variable {Key Data : Type} [LinearOrder Key]

namespace SkipList

variable {list : SkipList Key Data} {nodes : List Nat}

theorem unlinkLoop_eq (node : Nat) (p q : Nat -> Nat) (count : Nat) (ptrs : Nat -> Links Nat)
    (precedes : ∀ k < count, (ptrs k).prev node = some (p k))
    (follows : ∀ k < count, (ptrs k).next node = some (q k)) : unlinkLoop node count ptrs =
      some fun k => if k < count then (ptrs k).unlink (p k) (q k) else ptrs k := by
  induction count generalizing ptrs with
  | zero => simp [unlinkLoop]
  | succ k ih =>
    have below : k < k + 1 := Nat.lt_succ_self k
    simp only [unlinkLoop, precedes k below, follows k below]
    rw [ih]
    · apply congrArg some
      funext j
      rcases Nat.lt_trichotomy j k with smaller | same | greater
      · simp [smaller, Nat.lt_succ_of_lt smaller, update_of_ne (Nat.ne_of_lt smaller)]
      · simp [same]
      · have notBelow : ¬ j < k := Nat.not_lt_of_gt greater
        have notAtMost : ¬ j < k + 1 := by omega
        simp [notBelow, notAtMost, update_of_ne (Nat.ne_of_gt greater)]
    · intro j smaller
      rw [update_of_ne (Nat.ne_of_lt smaller)]
      exact precedes j (Nat.lt_succ_of_lt smaller)
    · intro j smaller
      rw [update_of_ne (Nat.ne_of_lt smaller)]
      exact follows j (Nat.lt_succ_of_lt smaller)

variable {before after : List Nat}

omit [LinearOrder Key] in
theorem onLevel_append_cons {node k : Nat} (atMost : k ≤ list.level node) :
    list.onLevel (before ++ node :: after) k =
      list.onLevel before k ++ node :: list.onLevel after k := by
  unfold onLevel
  rw [filter_append, filter_cons_of_pos (by simpa using atMost)]

omit [LinearOrder Key] in
theorem onLevel_append (list : SkipList Key Data) (before after : List Nat) (k : Nat) :
    list.onLevel (before ++ after) k = list.onLevel before k ++ list.onLevel after k :=
  filter_append _ _

theorem lower_append (list : SkipList Key Data) (before after : List Nat) (key : Key) (k : Nat) :
    list.lower (before ++ after) key k = list.lower before key k ++ list.lower after key k := by
  unfold lower
  rw [onLevel_append, filter_append]

theorem upper_append (list : SkipList Key Data) (before after : List Nat) (key : Key) (k : Nat) :
    list.upper (before ++ after) key k = list.upper before key k ++ list.upper after key k := by
  unfold upper
  rw [onLevel_append, filter_append]

def nodeBefore (list : SkipList Key Data) (before : List Nat) (k : Nat) : Nat :=
  (list.head :: list.onLevel before k).getLast (List.cons_ne_nil _ _)

def nodeAfter (list : SkipList Key Data) (after : List Nat) (k : Nat) : Nat :=
  (list.onLevel after k).head?.getD list.tail

omit [LinearOrder Key] in
theorem getLast?_nodeBefore (list : SkipList Key Data) (before : List Nat) (k : Nat) :
    (list.head :: list.onLevel before k).getLast? = some (list.nodeBefore before k) :=
  getLast?_eq_some_getLast _

omit [LinearOrder Key] in
theorem head?_nodeAfter (list : SkipList Key Data) (after : List Nat) (k : Nat) :
    (list.onLevel after k ++ [list.tail]).head? = some (list.nodeAfter after k) := by
  unfold nodeAfter
  cases list.onLevel after k with
  | nil | cons _ _ => rfl

theorem Represents.nodup_onLevel (rep : list.Represents nodes) (k : Nat) :
    (list.head :: list.onLevel nodes k ++ [list.tail]).Nodup := by
  refine rep.distinct.sublist ?_
  exact append (filter_sublist.cons_cons _) (refl _)

omit [LinearOrder Key] in
theorem nodeBefore_listed {node : Nat} (split : nodes = before ++ node :: after) (k : Nat) :
    list.nodeBefore before k ∈ list.head :: nodes := by
  have mem : list.nodeBefore before k ∈ list.head :: list.onLevel before k := getLast_mem _
  rcases mem_cons.mp mem with isHead | inBefore
  · rw [isHead]
    exact mem_cons_self
  · rw [split]
    exact mem_cons_of_mem _ (mem_append_left _ (mem_onLevel.mp inBefore).1)

theorem Represents.unlinked (rep : list.Represents nodes) {node k : Nat}
    (split : nodes = before ++ node :: after) (atMost : k ≤ list.level node)
    (bound : k ≤ maxLevel) : (list.ptrs k).prev node = some (list.nodeBefore before k) ∧
      (list.ptrs k).next node = some (list.nodeAfter after k) ∧
      Connects ((list.ptrs k).unlink (list.nodeBefore before k) (list.nodeAfter after k))
        (list.head :: list.onLevel (before ++ after) k ++ [list.tail]) ∧
      ((list.ptrs k).unlink (list.nodeBefore before k) (list.nodeAfter after k)).prev list.head =
        none ∧
      ((list.ptrs k).unlink (list.nodeBefore before k) (list.nodeAfter after k)).next list.tail =
        none := by
  have linked := rep.linked k bound
  have distinct := rep.nodup_onLevel k
  rw [split, onLevel_append_cons atMost] at linked distinct
  have linkedSplit : Connects (list.ptrs k)
      ((list.head :: list.onLevel before k) ++ node :: (list.onLevel after k ++ [list.tail])) := by
    simpa using linked
  have distinctSplit : ((list.head :: list.onLevel before k) ++
      node :: (list.onLevel after k ++ [list.tail])).Nodup := by simpa using distinct
  obtain ⟨isPrev, isNext, unlinked⟩ := linkedSplit.unlink_split distinctSplit
    (getLast?_nodeBefore list before k) (head?_nodeAfter list after k)
  refine ⟨isPrev, isNext, ?_, ?_, ?_⟩
  · rw [onLevel_append]
    simpa using unlinked
  · have notHead : list.head ≠ list.nodeAfter after k := by
      have mem : list.nodeAfter after k ∈ list.onLevel after k ++ [list.tail] :=
        mem_of_mem_head? (head?_nodeAfter list after k)
      rcases mem_append.mp mem with inAfter | isTail
      · have inNodes : list.nodeAfter after k ∈ nodes := by
          rw [split]
          exact mem_append_right _ (mem_cons_of_mem _ (mem_onLevel.mp inAfter).1)
        exact (rep.head_ne inNodes).symm
      · rw [mem_singleton.mp isTail]
        exact rep.head_ne_tail
    simp [unlink, notHead, (rep.ends k bound).1]
  · have notTail : list.tail ≠ list.nodeBefore before k := by
      rcases mem_cons.mp (nodeBefore_listed split k) with isHead | inNodes
      · rw [isHead]
        exact rep.head_ne_tail.symm
      · exact (rep.tail_ne inNodes).symm
    simp [unlink, notTail, (rep.ends k bound).2]

omit [LinearOrder Key] in
/-- A node is not seen on the levels above its own. -/
theorem onLevel_drop (node : Nat) {k : Nat} (beyond : list.level node < k) :
    list.onLevel (before ++ node :: after) k = list.onLevel (before ++ after) k := by
  unfold onLevel
  rw [filter_append, filter_cons_of_neg (by simpa using beyond), filter_append]

theorem Represents.levelMax (rep : list.Represents nodes) {node : Nat}
    (mem : node ∈ nodes) : list.level node ≤ maxLevel :=
  le_trans (rep.level_le node mem) rep.listLevel_le

theorem Represents.removeNode_eq (rep : list.Represents nodes) {node : Nat}
    (split : nodes = before ++ node :: after) :
    ∃ result, list.removeNode node = some (.success, result) ∧
      result.Represents (before ++ after) ∧ SameNodes list result ∧ result.key = list.key := by
  have mem : node ∈ nodes := by simp [split]
  have levelMax := rep.levelMax mem
  have unlinked := fun k (atMost : k ≤ list.level node) =>
    rep.unlinked split atMost (le_trans atMost levelMax)
  have looped := unlinkLoop_eq node (list.nodeBefore before) (list.nodeAfter after)
    (list.level node + 1) list.ptrs (fun k below => (unlinked k (by omega)).1)
    (fun k _ => (unlinked k (by omega)).2.1)
  have absent : node ∉ list.head :: (before ++ after) ++ [list.tail] := by
    intro inRest
    have distinct := rep.distinct
    rw [split] at distinct
    have permuted : (list.head :: (before ++ node :: after) ++ [list.tail]).Perm
        (node :: (list.head :: (before ++ after) ++ [list.tail])) := by
      refine ((perm_middle.cons list.head).append_right [list.tail]).trans ?_
      exact Perm.swap node list.head (before ++ after ++ [list.tail])
    exact (nodup_cons.mp (permuted.nodup_iff.mp distinct)).1 inRest
  have sublist : (before ++ after).Sublist nodes := by
    rw [split]
    exact (refl before).append (sublist_cons_self node after)
  refine ⟨{ (markRemoved { list with
    ptrs := fun k => if k < list.level node + 1 then
      (list.ptrs k).unlink (list.nodeBefore before k) (list.nodeAfter after k)
      else list.ptrs k } node) with length := list.length - 1 },
    ?_, ?_, ⟨rfl, rfl, rfl, rfl⟩, rfl⟩
  · unfold removeNode
    simp only [(unlinked 0 (Nat.zero_le _)).2.1, looped]
  · constructor
    case distinct =>
      refine rep.distinct.sublist ?_
      exact (sublist.cons_cons list.head).append (refl _)
    case linked =>
      intro k bound
      have chain : Connects (if k < list.level node + 1 then
          (list.ptrs k).unlink (list.nodeBefore before k) (list.nodeAfter after k)
          else list.ptrs k) (list.head :: list.onLevel (before ++ after) k ++ [list.tail]) := by
        split
        · exact (unlinked k (by omega)).2.2.1
        · rw [← onLevel_drop node (by omega), ← split]
          exact rep.linked k bound
      cases k with
      | zero =>
        refine Connects.forget chain ?_
        intro inChain
        rw [onLevel_zero] at inChain
        exact absent inChain
      | succ k => exact chain
    case ends =>
      intro k bound
      have ends : (if k < list.level node + 1 then
          (list.ptrs k).unlink (list.nodeBefore before k) (list.nodeAfter after k)
          else list.ptrs k).prev list.head = none ∧
          (if k < list.level node + 1 then
          (list.ptrs k).unlink (list.nodeBefore before k) (list.nodeAfter after k)
          else list.ptrs k).next list.tail = none := by
        split
        · exact (unlinked k (by omega)).2.2.2
        · exact rep.ends k bound
      cases k with
      | zero =>
        refine ⟨ends.1, ?_⟩
        have tailNode : list.tail ≠ node := (rep.tail_ne mem).symm
        exact (update_of_ne tailNode none _).trans ends.2
      | succ k => exact ends
    case level_le =>
      intro other inRest
      exact rep.level_le other (sublist.subset inRest)
    case listLevel_le => exact rep.listLevel_le
    case keyed =>
      intro other inRest
      exact rep.keyed other (sublist.subset inRest)
    case sorted => exact rep.sorted.sublist sublist
    case length_eq =>
      rw [rep.length_eq, split]
      simp
    case unlisted =>
      intro other notListed
      show update (if 0 < list.level node + 1 then
        (list.ptrs 0).unlink (list.nodeBefore before 0) (list.nodeAfter after 0)
        else list.ptrs 0).next node none other = none
      by_cases isNode : other = node
      · rw [isNode, update_self]
      · rw [update_of_ne isNode, if_pos (Nat.succ_pos _)]
        have notMem : other ∉ list.head :: nodes := by
          intro isMem
          rw [split] at isMem
          have inRest : other ∈ list.head :: (before ++ after) := by simpa [isNode] using isMem
          exact notListed inRest
        have notBefore : other ≠ list.nodeBefore before 0 := fun same =>
          notMem (same ▸ nodeBefore_listed split 0)
        simp [unlink, notBefore, rep.unlisted other notMem]

/-- The loops of `removeAll` visit the nodes from the last to the first. -/
theorem backward_eq {prev : Nat -> Option Nat} {head : Nat} (visited : List Nat) {first fuel : Nat}
    (path : (visited ++ [head]).IsChain fun a b => prev a = some b)
    (starts : (visited ++ [head]).head? = some first) (apart : head ∉ visited)
    (enough : visited.length < fuel) : backward prev head fuel first = some visited := by
  induction visited generalizing first fuel with
  | nil =>
    cases fuel with
    | zero => contradiction
    | succ fuel =>
      have isHead : first = head := (Option.some.inj starts).symm
      simp [backward, isHead]
  | cons node rest ih =>
    cases fuel with
    | zero => contradiction
    | succ =>
      have isNode : first = node := (Option.some.inj starts).symm
      have notHead : node ≠ head := fun same => apart (same ▸ mem_cons_self)
      have restPath := (isChain_cons.mp path).2
      obtain ⟨second, isSecond⟩ : ∃ second, (rest ++ [head]).head? = some second := by
        cases rest with
        | nil => exact ⟨head, rfl⟩
        | cons next => exact ⟨next, rfl⟩
      have edge : prev node = some second := (isChain_cons.mp path).1 second isSecond
      have visitedRest := ih restPath isSecond
        (fun mem => apart (mem_cons_of_mem _ mem)) (Nat.lt_of_succ_lt_succ enough)
      simp [backward, isNode, notHead, edge, visitedRest]

omit [LinearOrder Key] in
theorem foldl_markRemoved (removed : List Nat) (list : SkipList Key Data) :
    removed.foldl markRemoved list =
      { list with
        ptrs := update list.ptrs 0
          { list.ptrs 0 with
            next := fun node => if node ∈ removed then none else (list.ptrs 0).next node } } := by
  induction removed generalizing list with
  | nil => simp
  | cons first rest ih =>
    rw [foldl_cons, ih]
    simp only [markRemoved, update_self, update_idem]
    have nextEq : (fun node => if node ∈ rest then none
        else update (list.ptrs 0).next first none node) =
        fun node => if node ∈ first :: rest then none else (list.ptrs 0).next node := by
      funext node
      by_cases isFirst : node = first
      · simp [isFirst]
      · simp [isFirst, update_of_ne]
    rw [nextEq]

/-- The emptied list, before the marks. -/
theorem Represents.resetLevels_eq (rep : list.Represents nodes) {k : Nat} (bound : k ≤ maxLevel) :
    Connects (list.resetLevels k) [list.head, list.tail] ∧
      (list.resetLevels k).prev list.head = none ∧ (list.resetLevels k).next list.tail = none := by
  have apart := rep.head_ne_tail
  unfold resetLevels
  split
  · obtain ⟨headEnd, tailEnd⟩ := rep.ends k bound
    refine ⟨?_, ?_, ?_⟩
    · apply isChain_cons_cons.mpr
      refine ⟨⟨?_, ?_⟩, isChain_singleton _⟩
      · simp [unlink]
      · simp [unlink]
    · simp [unlink, apart, headEnd]
    · simp [unlink, apart.symm, tailEnd]
  · rename_i beyond
    have none := rep.onLevel_beyond (Nat.lt_of_not_le beyond)
    have linked := rep.linked k bound
    rw [none] at linked
    exact ⟨linked, rep.ends k bound⟩

theorem Represents.removeAll_eq (rep : list.Represents nodes) :
    ∃ result, list.removeAll = some (nodes.length, result) ∧ result.Represents [] ∧
      SameNodes list result ∧ result.key = list.key := by
  have linked := rep.linked 0 (Nat.zero_le _)
  rw [onLevel_zero] at linked
  have headApart : list.head ∉ nodes := fun mem => rep.head_ne mem rfl
  have tailApart : list.tail ∉ nodes := fun mem => rep.tail_ne mem rfl
  obtain ⟨last, isLast⟩ : ∃ last, (list.head :: nodes).getLast? = some last :=
    ⟨_, getLast?_eq_some_getLast (cons_ne_nil _ _)⟩
  have isPrev : (list.ptrs 0).prev list.tail = some last := (linked.across isLast rfl).2
  have prevEq : ∀ node ∈ nodes, (list.resetLevels 0).prev node = (list.ptrs 0).prev node := by
    intro node mem
    have apart := rep.tail_ne mem
    simp [resetLevels, unlink, apart]
  have path : (nodes.reverse ++ [list.head]).IsChain
      fun a b => (list.resetLevels 0).prev a = some b := by
    have backwards := Connects.backward [] (list.head :: nodes) [list.tail] linked
    rw [reverse_cons] at backwards
    refine (isChain_append.mpr ?_)
    obtain ⟨inner, _, joint⟩ := isChain_append.mp backwards
    refine ⟨?_, isChain_singleton _, ?_⟩
    · refine inner.imp_of_mem_imp ?_
      intro a b inNodes _ edge
      rw [prevEq a (mem_reverse.mp inNodes)]
      exact edge
    · intro a isLast b isFirst
      have inNodes : a ∈ nodes := mem_reverse.mp (mem_of_mem_getLast? isLast)
      rw [prevEq a inNodes]
      exact joint a isLast b isFirst
  have starts : (nodes.reverse ++ [list.head]).head? = some last := by
    rw [← reverse_cons, head?_reverse]
    exact isLast
  have enough : nodes.reverse.length < list.length + 1 := by
    rw [length_reverse, rep.length_eq]
    exact Nat.lt_succ_self _
  have visited := backward_eq nodes.reverse path starts
    (fun mem => headApart (mem_reverse.mp mem)) enough
  refine ⟨{ list with
    listLevel := 0
    length := 0
    ptrs := update list.resetLevels 0 { list.resetLevels 0 with
      next := fun node => if node ∈ nodes.reverse then none
        else (list.resetLevels 0).next node } }, ?_, ?_, ⟨rfl, rfl, rfl, rfl⟩, rfl⟩
  · unfold removeAll
    simp only [isPrev, visited, foldl_markRemoved]
    rw [rep.length_eq]
  · have threaded : ∀ k ≤ maxLevel, Connects (update list.resetLevels 0
        { list.resetLevels 0 with
          next := fun node => if node ∈ nodes.reverse then none
            else (list.resetLevels 0).next node } k) [list.head, list.tail] ∧
        (update list.resetLevels 0 { list.resetLevels 0 with
          next := fun node => if node ∈ nodes.reverse then none
            else (list.resetLevels 0).next node } k).prev list.head = none ∧
        (update list.resetLevels 0 { list.resetLevels 0 with
          next := fun node => if node ∈ nodes.reverse then none
            else (list.resetLevels 0).next node } k).next list.tail = none := by
      intro k bound
      obtain ⟨connects, headEnd, tailEnd⟩ := rep.resetLevels_eq bound
      cases k with
      | zero =>
        refine ⟨connects.congr ?_ (fun _ _ => rfl), headEnd, ?_⟩
        · intro node mem
          have isHead : node = list.head := by simpa using mem
          simp [isHead, headApart]
        · simp [tailApart, tailEnd]
      | succ k =>
        rw [update_of_ne (Nat.succ_ne_zero k)]
        exact ⟨connects, headEnd, tailEnd⟩
    exact {
      distinct := by simpa using rep.head_ne_tail
      linked := fun k bound => (threaded k bound).1
      ends := fun k bound => (threaded k bound).2
      level_le := by simp
      listLevel_le := Nat.zero_le _
      keyed := by simp
      sorted := Pairwise.nil
      length_eq := rfl
      unlisted := by
        intro other notListed
        have notHead : other ≠ list.head := fun same => notListed (same ▸ mem_cons_self)
        show (if other ∈ nodes.reverse then none else (list.resetLevels 0).next other) = none
        split
        · rfl
        · rename_i notVisited
          have notMem : other ∉ list.head :: nodes := by simpa [notHead] using notVisited
          simp [resetLevels, unlink, notHead, rep.unlisted other notMem] }

end SkipList

end NtfCore.Ntcs
