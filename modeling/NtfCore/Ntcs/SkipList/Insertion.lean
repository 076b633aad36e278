import NtfCore.Ntcs.SkipList.Lookup

/-!
Contract: adding a pair to a skip list.

Owns: the place of a key in a sequence of nodes, and the theorem that `addL` and
`addR` succeed and leave a list that represents the sequence with the new node
in that place, on every level.
-/

namespace NtfCore.Ntcs

open NtfCore.Foundation.Linked List Function

variable {Key Data : Type} [LinearOrder Key]

namespace SkipList

variable {list : SkipList Key Data} {nodes : List Nat}

def placed (list : SkipList Key Data) (nodes : List Nat) (key : Key) (node : Nat) : List Nat :=
  (nodes.filter fun other => !list.above key other) ++ node :: nodes.filter (list.above key)

omit [LinearOrder Key] in
theorem onLevel_zero (list : SkipList Key Data) (nodes : List Nat) :
    list.onLevel nodes 0 = nodes := by
  unfold onLevel
  rw [filter_eq_self]
  intro _ _
  simp

variable {key : Key} {node k : Nat}

/-- On the levels of the node the sequence is split where the key belongs. -/
theorem onLevel_placed (atMost : k ≤ list.level node) :
    list.onLevel (list.placed nodes key node) k =
      list.lower nodes key k ++ node :: list.upper nodes key k := by
  unfold placed lower upper onLevel
  rw [filter_append, filter_cons_of_pos (by simpa using atMost),
    filter_comm _ (fun other => !list.above key other),
    filter_comm _ (list.above key)]

theorem onLevel_placed_drop (beyond : list.level node < k) :
    list.onLevel (list.placed nodes key node) k =
      list.lower nodes key k ++ list.upper nodes key k := by
  unfold placed lower upper onLevel
  rw [filter_append, filter_cons_of_neg (by simpa using beyond),
    filter_comm _ (fun other => !list.above key other),
    filter_comm _ (list.above key)]

/-- On the other levels nothing changes. -/
theorem Represents.onLevel_placed_of_lt (rep : list.Represents nodes)
    (beyond : list.level node < k) :
    list.onLevel (list.placed nodes key node) k = list.onLevel nodes k := by
  rw [← rep.lower_append_upper key k]
  exact onLevel_placed_drop beyond

def predecessor (list : SkipList Key Data) (nodes : List Nat) (key : Key) (k : Nat) : Nat :=
  (list.head :: list.lower nodes key k).getLast (List.cons_ne_nil _ _)

section

variable (list : SkipList Key Data) (nodes : List Nat) (key : Key) (k : Nat)

theorem getLast?_lower :
    (list.head :: list.lower nodes key k).getLast? = some (list.predecessor nodes key k) :=
  getLast?_eq_some_getLast _

theorem head?_upper :
    (list.upper nodes key k ++ [list.tail]).head? = some (list.boundary nodes key k) := by
  obtain ⟨_, split⟩ := boundary_spec list nodes key k
  rw [split, head?_cons]

theorem predecessor_mem : list.predecessor nodes key k ∈ list.head :: list.lower nodes key k :=
  getLast_mem _

theorem predecessor_listed : list.predecessor nodes key k ∈ list.head :: nodes := by
  rcases mem_cons.mp (predecessor_mem list nodes key k) with isHead | inLower
  · rw [isHead]
    exact mem_cons_self
  · exact mem_cons_of_mem _ (mem_lower.mp inLower).1

end

section

variable (rep : list.Represents nodes)
include rep

variable (key : Key)

theorem Represents.predecessor_ne_tail (k : Nat) : list.tail ≠ list.predecessor nodes key k := by
  rcases mem_cons.mp (predecessor_mem list nodes key k) with isHead | inLower
  · rw [isHead]
    exact rep.head_ne_tail.symm
  · exact (rep.tail_ne (mem_lower.mp inLower).1).symm

theorem Represents.boundary_ne_head (k : Nat) : list.head ≠ list.boundary nodes key k := by
  rcases mem_append.mp (boundary_mem list nodes key k) with inUpper | isTail
  · exact (rep.head_ne (mem_upper.mp inUpper).1).symm
  · rw [mem_singleton.mp isTail]
    exact rep.head_ne_tail

theorem Represents.prev_boundary {k : Nat} (bound : k ≤ maxLevel) :
    (list.ptrs k).prev (list.boundary nodes key k) = some (list.predecessor nodes key k) :=
  ((rep.linked_split key bound).across (getLast?_lower list nodes key k)
    (head?_upper list nodes key k)).2

theorem Represents.nodup_split (k : Nat) :
    ((list.head :: list.lower nodes key k) ++ (list.upper nodes key k ++ [list.tail])).Nodup := by
  have whole := rep.distinct
  rw [← append_assoc, cons_append, rep.lower_append_upper key k]
  refine whole.sublist ?_
  exact Sublist.append (filter_sublist.cons_cons _) (Sublist.refl _)

end

variable {node : Nat}

/-- The flag of `insertImp` and `moveImp` tells whether the node comes first. -/
theorem Represents.isFront_eq (rep : list.Represents nodes) (mem : node ∈ nodes) :
    list.isFront node = (nodes.head? == some node) := by
  obtain ⟨before, after, split⟩ := append_of_mem mem
  have linked := rep.linked 0 (Nat.zero_le _)
  rw [onLevel_zero, split] at linked
  unfold isFront
  rcases eq_nil_or_concat before with none | ⟨others, last, isConcat⟩
  · rw [none] at linked
    have isPrev : (list.ptrs 0).prev node = some list.head := (Connects.neighbours [] _ linked).2
    rw [isPrev, split, none]
    simp
  · rw [concat_eq_append] at isConcat
    have isPrev : (list.ptrs 0).prev node = some last := by
      refine (Connects.neighbours (list.head :: others) (after ++ [list.tail]) ?_).2
      simpa [isConcat] using linked
    have lastMember : last ∈ nodes := by simp [split, isConcat]
    have notHead : (some last == some list.head) = false := by
      simpa using rep.head_ne lastMember
    have notFirst : (nodes.head? == some node) = false := by
      have distinct : nodes.Nodup := (nodup_append.mp (nodup_cons.mp rep.distinct).2).1
      rw [split, isConcat] at distinct
      cases others with
      | nil =>
        have apart : last ≠ node := fun same => by simp [same] at distinct
        simp [split, isConcat, apart]
      | cons first =>
        have apart : first ≠ node := fun same => by simp [same] at distinct
        simp [split, isConcat, apart]
    rw [isPrev, notHead, notFirst]

/-! ## Insertion -/

variable {location : Nat -> Option Nat}

theorem insertLoop_eq (node : Nat) (p q : Nat -> Nat) (count : Nat)
    (ptrs : Nat -> Links Nat) (locates : ∀ k < count, location k = some (q k))
    (precedes : ∀ k < count, (ptrs k).prev (q k) = some (p k)) :
    insertLoop location node count ptrs =
      some fun k => if k < count then (ptrs k).insert (p k) node (q k) else ptrs k := by
  induction count generalizing ptrs with
  | zero => simp [insertLoop]
  | succ k ih =>
    have below : k < k + 1 := Nat.lt_succ_self k
    simp only [insertLoop, locates k below, precedes k below]
    rw [ih _ (fun j smaller => locates j (Nat.lt_succ_of_lt smaller)) (fun j smaller => by
        rw [update_of_ne (Nat.ne_of_lt smaller)]
        exact precedes j (Nat.lt_succ_of_lt smaller))]
    apply congrArg some
    funext j
    rcases Nat.lt_trichotomy j k with smaller | same | greater
    · simp [smaller, Nat.lt_succ_of_lt smaller, update_of_ne (Nat.ne_of_lt smaller)]
    · simp [same]
    · have notBelow : ¬ j < k := Nat.not_lt_of_gt greater
      have notAtMost : ¬ j < k + 1 := by omega
      simp [notBelow, notAtMost, update_of_ne (Nat.ne_of_gt greater)]

def insertedPtrs (list : SkipList Key Data) (nodes : List Nat) (key : Key) (node : Nat) :
    Nat -> Links Nat := fun k =>
  if k ≤ list.level node then
    (list.ptrs k).insert (list.predecessor nodes key k) node (list.boundary nodes key k)
  else list.ptrs k

theorem Represents.onLevel_beyond (rep : list.Represents nodes) (beyond : list.listLevel < k) :
    list.onLevel nodes k = [] := by
  unfold onLevel
  rw [filter_eq_nil_iff]
  intro node mem
  have atMost := rep.level_le node mem
  simp only [decide_eq_true_eq]
  omega

theorem Represents.empty_of_listLevel_lt (rep : list.Represents nodes) (key : Key)
    (beyond : list.listLevel < k) :
    list.predecessor nodes key k = list.head ∧ list.boundary nodes key k = list.tail := by
  simp [predecessor, boundary, lower, upper, rep.onLevel_beyond beyond]

theorem Represents.insertImp_ptrs (rep : list.Represents nodes)
    (levelLe : list.level node ≤ list.listLevel + 1) (levelMax : list.level node ≤ maxLevel)
    (located : list.Located nodes key (list.listLevel + 1) location) :
    list.insertImp location node = some (({ list with ptrs := list.insertedPtrs nodes key node } :
            SkipList Key Data).isFront node,
        { list with
          listLevel := max list.listLevel (list.level node)
          length := list.length + 1
          ptrs := list.insertedPtrs nodes key node }) := by
  have precedes : ∀ k < list.level node + 1,
      (list.ptrs k).prev (list.boundary nodes key k) = some (list.predecessor nodes key k) :=
    fun k below => rep.prev_boundary key (by omega)
  unfold insertImp
  simp only [levelLe, ↓reduceIte]
  by_cases raises : list.level node > list.listLevel
  · have levelEq : list.level node = list.listLevel + 1 := by omega
    obtain ⟨isHead, isTail⟩ := rep.empty_of_listLevel_lt key raises
    have looped := insertLoop_eq node (list.predecessor nodes key)
      (list.boundary nodes key) (list.level node)
      (update list.ptrs (list.level node)
        ((list.ptrs (list.level node)).insert list.head node list.tail))
      (fun k below => located k (by omega))
      (fun k below => by
        rw [update_of_ne (Nat.ne_of_lt below)]
        exact precedes k (by omega))
    simp only [raises, ↓reduceIte, looped]
    have ptrsEq : (fun k => if k < list.level node then
        (update list.ptrs (list.level node)
          ((list.ptrs (list.level node)).insert list.head node list.tail) k).insert
            (list.predecessor nodes key k) node (list.boundary nodes key k)
        else update list.ptrs (list.level node)
          ((list.ptrs (list.level node)).insert list.head node list.tail) k) =
        list.insertedPtrs nodes key node := by
      funext k
      unfold insertedPtrs
      rcases Nat.lt_trichotomy k (list.level node) with smaller | same | greater
      · rw [if_pos smaller, if_pos (Nat.le_of_lt smaller), update_of_ne (Nat.ne_of_lt smaller)]
      · rw [same, if_neg (Nat.lt_irrefl _), if_pos .refl, update_self, isHead, isTail]
      · rw [if_neg (Nat.not_lt_of_gt greater), if_neg (by omega),
          update_of_ne (Nat.ne_of_gt greater)]
    have maxEq : max list.listLevel (list.level node) = list.level node := by omega
    rw [ptrsEq, maxEq]
    rfl
  · have looped := insertLoop_eq node (list.predecessor nodes key)
      (list.boundary nodes key) (list.level node + 1) list.ptrs
      (fun k _ => located k (by omega)) precedes
    simp only [raises, ↓reduceIte, looped]
    have ptrsEq : (fun k => if k < list.level node + 1 then
        (list.ptrs k).insert (list.predecessor nodes key k) node (list.boundary nodes key k)
        else list.ptrs k) = list.insertedPtrs nodes key node := by
      funext k
      unfold insertedPtrs
      simp only [Nat.lt_succ_iff]
    have maxEq : max list.listLevel (list.level node) = list.listLevel := by omega
    rw [ptrsEq, maxEq]
    rfl

/-- Keys in order around the place of a key. -/
theorem sorted_placed {keyOf : Nat -> Option Key} (sorted : nodes.Pairwise fun a b =>
      ∀ first second, keyOf a = some first -> keyOf b = some second -> first ≤ second)
    (same : ∀ other ∈ nodes, list.key other = keyOf other) (isKey : keyOf node = some key) :
    (list.placed nodes key node).Pairwise fun a b =>
      ∀ first second, keyOf a = some first -> keyOf b = some second -> first ≤ second := by
  have notAbove : ∀ other ∈ nodes.filter (fun other => !list.above key other),
      ∀ otherKey, keyOf other = some otherKey -> otherKey ≤ key := by
    intro other mem otherKey isOther
    obtain ⟨inNodes, below⟩ := mem_filter.mp mem
    simp only [above, same other inNodes, isOther, Bool.not_eq_true', decide_eq_false_iff_not]
      at below
    exact not_lt.mp below
  have isAbove : ∀ other ∈ nodes.filter (list.above key),
      ∀ otherKey, keyOf other = some otherKey -> key < otherKey := by
    intro other mem _ isOther
    obtain ⟨inNodes, beyond⟩ := mem_filter.mp mem
    simpa only [above, same other inNodes, isOther, decide_eq_true_eq] using beyond
  apply pairwise_append.mpr
  refine ⟨sorted.sublist filter_sublist, ?_, ?_⟩
  · apply pairwise_cons.mpr
    refine ⟨?_, sorted.sublist filter_sublist⟩
    intro other mem first second isFirst isSecond
    rw [isKey] at isFirst
    cases isFirst
    exact le_of_lt (isAbove other mem second isSecond)
  · intro a inLower b inRest first second isFirst isSecond
    have firstLe := notAbove a inLower first isFirst
    rcases mem_cons.mp inRest with isNode | inUpper
    · rw [isNode, isKey] at isSecond
      cases isSecond
      exact firstLe
    · exact le_trans firstLe (le_of_lt (isAbove b inUpper second isSecond))

theorem mem_placed {other : Nat} :
    other ∈ list.placed nodes key node ↔ other = node ∨ other ∈ nodes := by
  unfold placed
  simp only [mem_append, mem_cons, mem_filter, Bool.not_eq_true']
  constructor
  · rintro (⟨inNodes, _⟩ | isNode | ⟨inNodes, _⟩)
    · exact .inr inNodes
    · exact .inl isNode
    · exact .inr inNodes
  · rintro (isNode | inNodes)
    · exact .inr (.inl isNode)
    · cases beyond : list.above key other with
      | false => exact .inl ⟨inNodes, rfl⟩
      | true => exact .inr (.inr ⟨inNodes, rfl⟩)

theorem placed_perm (list : SkipList Key Data) (nodes : List Nat) (key : Key) (node : Nat) :
    (list.placed nodes key node).Perm (node :: nodes) := by
  refine perm_middle.trans (Perm.cons node ?_)
  have parts := filter_append_perm (fun other => !list.above key other) nodes
  simpa using parts

theorem nodup_placed (distinct : (list.head :: nodes ++ [list.tail]).Nodup)
    (fresh : node ∉ list.head :: nodes ++ [list.tail]) :
    (list.head :: list.placed nodes key node ++ [list.tail]).Nodup := by
  have permuted : (list.head :: list.placed nodes key node ++ [list.tail]).Perm
      (node :: (list.head :: nodes ++ [list.tail])) := by
    refine (((placed_perm list nodes key node).cons list.head).append_right [list.tail]).trans ?_
    exact Perm.swap node list.head (nodes ++ [list.tail])
  rw [permuted.nodup_iff]
  exact nodup_cons.mpr ⟨fresh, distinct⟩

theorem Represents.inserted (rep : list.Represents nodes)
    (fresh : node ∉ list.head :: nodes ++ [list.tail]) (isKey : list.key node = some key)
    (levelMax : list.level node ≤ maxLevel) :
    ({ list with
      listLevel := max list.listLevel (list.level node)
      length := list.length + 1
      ptrs := list.insertedPtrs nodes key node } : SkipList Key Data).Represents
        (list.placed nodes key node) := by
  have freshParts := fresh
  simp only [cons_append, mem_cons, mem_append, not_or, not_mem_nil, or_false] at freshParts
  obtain ⟨notHead, notNode, notTail⟩ := freshParts
  constructor
  case distinct => exact nodup_placed rep.distinct fresh
  case linked =>
    intro k bound
    show Connects (list.insertedPtrs nodes key node k)
      (list.head :: list.onLevel (list.placed nodes key node) k ++ [list.tail])
    unfold insertedPtrs
    split
    · rename_i atMost
      rw [onLevel_placed atMost]
      have freshSplit : node ∉ (list.head :: list.lower nodes key k) ++
          (list.upper nodes key k ++ [list.tail]) := by
        simp only [cons_append, mem_cons, mem_append, not_mem_nil, or_false, not_or]
        exact ⟨notHead, fun inLower => notNode (mem_lower.mp inLower).1,
          fun inUpper => notNode (mem_upper.mp inUpper).1, notTail⟩
      have inserted := (rep.linked_split key bound).insert_split
        (rep.nodup_split key k) freshSplit (getLast?_lower list nodes key k)
        (head?_upper list nodes key k)
      simpa using inserted
    · rw [rep.onLevel_placed_of_lt (by omega)]
      exact rep.linked k bound
  case ends =>
    intro k bound
    obtain ⟨headEnd, tailEnd⟩ := rep.ends k bound
    show (list.insertedPtrs nodes key node k).prev list.head = none ∧
      (list.insertedPtrs nodes key node k).next list.tail = none
    unfold insertedPtrs
    split
    · have headNode : list.head ≠ node := fun same => notHead same.symm
      have tailNode : list.tail ≠ node := fun same => notTail same.symm
      simp [Links.insert, headNode, tailNode, rep.boundary_ne_head key k,
        rep.predecessor_ne_tail key k, headEnd, tailEnd]
    · exact ⟨headEnd, tailEnd⟩
  case level_le =>
    intro other mem
    rcases mem_placed.mp mem with isNode | inNodes
    · rw [isNode]
      exact le_max_right _ _
    · exact le_trans (rep.level_le other inNodes) (le_max_left _ _)
  case listLevel_le => exact max_le rep.listLevel_le levelMax
  case keyed =>
    intro other mem
    rcases mem_placed.mp mem with isNode | inNodes
    · exact ⟨key, isNode ▸ isKey⟩
    · exact rep.keyed other inNodes
  case sorted =>
    exact sorted_placed rep.sorted (fun _ _ => rfl) isKey
  case length_eq =>
    rw [(placed_perm list nodes key node).length_eq, length_cons, rep.length_eq]
  case unlisted =>
    intro other notListed
    have notMem : other ∉ list.head :: nodes := fun mem => notListed (by
      rcases mem_cons.mp mem with isHead | inNodes
      · exact isHead ▸ mem_cons_self
      · exact mem_cons_of_mem _ (mem_placed.mpr (.inr inNodes)))
    have notNode : other ≠ node := fun same =>
      notListed (mem_cons_of_mem _ (mem_placed.mpr (.inl same)))
    have notBefore : other ≠ list.predecessor nodes key 0 := fun same =>
      notMem (same ▸ predecessor_listed list nodes key 0)
    unfold insertedPtrs
    simp [Links.insert, notBefore, notNode, rep.unlisted other notMem]

structure SameNodes (before after : SkipList Key Data) : Prop where
  head : after.head = before.head
  tail : after.tail = before.tail
  level : after.level = before.level
  data : after.data = before.data

section

variable (rep : list.Represents nodes) (fresh : node ∉ list.head :: nodes ++ [list.tail])
include rep fresh

theorem Represents.insertImp_eq (isKey : list.key node = some key)
    (levelLe : list.level node ≤ list.listLevel + 1) (levelMax : list.level node ≤ maxLevel)
    (located : list.Located nodes key (list.listLevel + 1) location) :
    ∃ result, list.insertImp location node =
        some ((list.placed nodes key node).head? == some node, result) ∧
      result.Represents (list.placed nodes key node) ∧ SameNodes list result ∧
      result.key = list.key := by
  have inserted := rep.inserted fresh isKey levelMax
  have flag := inserted.isFront_eq (mem_placed.mpr (.inl rfl))
  refine ⟨_, ?_, inserted, ⟨rfl, rfl, rfl, rfl⟩, rfl⟩
  rw [rep.insertImp_ptrs levelLe levelMax located, ← flag]
  rfl

/-! ## Addition -/

theorem Represents.allocated (level : Nat) (key : Key) (data : Data) :
    (list.allocateNode node level key data).Represents nodes := by
  have notNode : node ∉ nodes := fun mem => fresh (by simp [mem])
  have apart : ∀ other ∈ nodes, other ≠ node := fun other mem same =>
    notNode (same ▸ mem)
  have levelEq : ∀ other ∈ nodes,
      (list.allocateNode node level key data).level other = list.level other :=
    fun other mem => update_of_ne (apart other mem) _ _
  have keyEq : ∀ other ∈ nodes,
      (list.allocateNode node level key data).key other = list.key other :=
    fun other mem => update_of_ne (apart other mem) _ _
  have sameLevel : ∀ k, (list.allocateNode node level key data).onLevel nodes k =
      list.onLevel nodes k := by
    intro k
    apply filter_congr
    intro other mem
    rw [levelEq other mem]
  constructor
  case distinct => exact rep.distinct
  case linked =>
    intro k bound
    rw [sameLevel]
    have linked := rep.linked k bound
    cases k with
    | zero =>
      apply Connects.forget linked
      rw [onLevel_zero]
      exact fresh
    | succ k => exact linked
  case ends =>
    intro k bound
    obtain ⟨headEnd, tailEnd⟩ := rep.ends k bound
    cases k with
    | zero =>
      refine ⟨headEnd, ?_⟩
      have tailNode : list.tail ≠ node := fun same => fresh (by simp [same])
      exact (update_of_ne tailNode none _).trans tailEnd
    | succ k => exact ⟨headEnd, tailEnd⟩
  case level_le =>
    intro other mem
    rw [levelEq other mem]
    exact rep.level_le other mem
  case listLevel_le => exact rep.listLevel_le
  case keyed =>
    intro other mem
    rw [keyEq other mem]
    exact rep.keyed other mem
  case sorted =>
    refine rep.sorted.imp_of_mem ?_
    intro a b inA inB ordered first second isFirst isSecond
    rw [keyEq a inA] at isFirst
    rw [keyEq b inB] at isSecond
    exact ordered first second isFirst isSecond
  case length_eq => exact rep.length_eq
  case unlisted =>
    intro other notListed
    show update (list.ptrs 0).next node none other = none
    by_cases isNode : other = node
    · rw [isNode, update_self]
    · rw [update_of_ne isNode]
      exact rep.unlisted other notListed

end

structure Added (before after : SkipList Key Data) (node : Nat) (key : Key) (data : Data) :
    Prop where
  head : after.head = before.head
  tail : after.tail = before.tail
  key : after.key = Function.update before.key node (some key)
  data : after.data = Function.update before.data node (some data)

theorem placed_congr {other : SkipList Key Data}
    (same : ∀ item ∈ nodes, other.key item = list.key item) :
    other.placed nodes key node = list.placed nodes key node := by
  have aboveEq : ∀ item ∈ nodes, other.above key item = list.above key item := by
    intro item mem
    unfold above
    rw [same item mem]
  unfold placed
  rw [filter_congr aboveEq, filter_congr fun item mem => congrArg not (aboveEq item mem)]

section

variable (rep : list.Represents nodes)
include rep

variable {node level : Nat}

theorem Represents.insert_allocated {data : Data}
    (fresh : node ∉ list.head :: nodes ++ [list.tail]) (levelMax : level ≤ maxLevel)
    (located : (list.allocateNode node level key data).Located nodes key (list.listLevel + 1)
      location) : ∃ result, (list.allocateNode node level key data).insertImp location node =
        some ((list.placed nodes key node).head? == some node, result) ∧
      result.Represents (list.placed nodes key node) ∧ Added list result node key data := by
  have nodeLevel : (list.allocateNode node level key data).level node =
      if level > list.listLevel then list.listLevel + 1 else level :=
    update_self _ _ _
  have placedEq : (list.allocateNode node level key data).placed nodes key node =
      list.placed nodes key node := by
    apply placed_congr
    intro _ mem
    apply update_of_ne
    intro same
    exact fresh (by simp [← same, mem])
  obtain ⟨result, inserted, shape, same, sameKey⟩ := (rep.allocated fresh level key
    data).insertImp_eq fresh (update_self _ _ _)
    (by
      rw [nodeLevel]
      show _ ≤ list.listLevel + 1
      split
      · exact Nat.le_refl _
      · omega)
    (by
      rw [nodeLevel]
      split
      · omega
      · exact levelMax)
    located
  rw [placedEq] at inserted shape
  exact ⟨result, inserted, shape, same.head, same.tail, sameKey, same.data⟩

variable (fresh : node ∉ list.head :: nodes ++ [list.tail]) (levelMax : level ≤ maxLevel)
  (key : Key) (data : Data)
include fresh levelMax

theorem Represents.addL_eq : ∃ result, list.addL node level key data =
        some ((list.placed nodes key node).head? == some node, result) ∧
      result.Represents (list.placed nodes key node) ∧ Added list result node key data := by
  obtain ⟨_, looked, located⟩ := (rep.allocated fresh level key data).lookupImpUpperBoundL_eq key
  obtain ⟨result, inserted, shape⟩ := rep.insert_allocated fresh levelMax located
  refine ⟨result, ?_, shape⟩
  unfold addL
  simp only [looked, inserted]

theorem Represents.addR_eq : ∃ result, list.addR node level key data =
        some ((list.placed nodes key node).head? == some node, result) ∧
      result.Represents (list.placed nodes key node) ∧ Added list result node key data := by
  obtain ⟨_, looked, located⟩ := (rep.allocated fresh level key data).lookupImpUpperBoundR_eq key
  obtain ⟨result, inserted, shape⟩ := rep.insert_allocated fresh levelMax located
  refine ⟨result, ?_, shape⟩
  unfold addR
  simp only [looked, inserted]

end

end SkipList

end NtfCore.Ntcs
