import NtfCore.Foundation.Lists
import NtfCore.Ntcs.SkipList.Model

/-!
Contract: the shape of a skip list, and where its lookups end.

Owns: what it means that a skip list represents a sequence of nodes, level by
level; and the theorem that both lookups find, on every level, the first node
with a greater key.
-/

namespace NtfCore.Ntcs

open NtfCore.Foundation List Function
open NtfCore.Foundation.Linked

variable {Key Data : Type} [LinearOrder Key]

namespace SkipList

def onLevel (list : SkipList Key Data) (nodes : List Nat) (k : Nat) : List Nat :=
  nodes.filter fun node => k ≤ list.level node

/-- The list holds the nodes in order: on every level the nodes of at least that
level are linked, between the sentinels, and their keys do not decrease. All other
nodes are marked as removed. -/
structure Represents (list : SkipList Key Data) (nodes : List Nat) : Prop where
  distinct : (list.head :: nodes ++ [list.tail]).Nodup
  linked : ∀ k ≤ maxLevel,
    Connects (list.ptrs k) (list.head :: list.onLevel nodes k ++ [list.tail])
  ends : ∀ k ≤ maxLevel,
    (list.ptrs k).prev list.head = none ∧ (list.ptrs k).next list.tail = none
  level_le : ∀ node ∈ nodes, list.level node ≤ list.listLevel
  listLevel_le : list.listLevel ≤ maxLevel
  keyed : ∀ node ∈ nodes, ∃ key, list.key node = some key
  sorted : nodes.Pairwise fun a b =>
    ∀ first second, list.key a = some first -> list.key b = some second -> first ≤ second
  length_eq : list.length = nodes.length
  unlisted : ∀ node, node ∉ list.head :: nodes -> (list.ptrs 0).next node = none

def above (list : SkipList Key Data) (key : Key) (node : Nat) : Bool :=
  match list.key node with
  | some nodeKey => decide (key < nodeKey)
  | none => false

def lower (list : SkipList Key Data) (nodes : List Nat) (key : Key) (k : Nat) : List Nat :=
  (list.onLevel nodes k).filter fun node => !list.above key node

def upper (list : SkipList Key Data) (nodes : List Nat) (key : Key) (k : Nat) : List Nat :=
  (list.onLevel nodes k).filter (list.above key)

def boundary (list : SkipList Key Data) (nodes : List Nat) (key : Key) (k : Nat) : Nat :=
  (list.upper nodes key k).head?.getD list.tail

variable {list : SkipList Key Data} {nodes : List Nat} {node k : Nat}

omit [LinearOrder Key] in
theorem mem_onLevel : node ∈ list.onLevel nodes k ↔ node ∈ nodes ∧ k ≤ list.level node := by
  simp [onLevel]

variable {key : Key}

theorem mem_lower : node ∈ list.lower nodes key k ↔
      node ∈ nodes ∧ k ≤ list.level node ∧ list.above key node = false := by
  simp [lower, mem_onLevel, and_assoc]

theorem mem_upper : node ∈ list.upper nodes key k ↔
      node ∈ nodes ∧ k ≤ list.level node ∧ list.above key node = true := by
  simp [upper, mem_onLevel, and_assoc]

section

variable (rep : list.Represents nodes)
include rep

theorem Represents.head_ne {node : Nat} (mem : node ∈ nodes) : node ≠ list.head := by
  intro same
  have notMem := (nodup_cons.mp rep.distinct).1
  apply notMem
  rw [← same]
  exact mem_append_left _ mem

theorem Represents.tail_ne {node : Nat} (mem : node ∈ nodes) : node ≠ list.tail := by
  have apart := (nodup_append.mp rep.distinct).2.2
  exact apart node (mem_cons_of_mem _ mem) list.tail mem_cons_self

theorem Represents.head_ne_tail : list.head ≠ list.tail := by
  have apart := (nodup_append.mp rep.distinct).2.2
  exact apart list.head mem_cons_self list.tail mem_cons_self

variable (key : Key)

/-- Once a key is greater, so are the later ones. -/
theorem Represents.above_mono :
    nodes.Pairwise fun a b => list.above key a = true -> list.above key b = true := by
  refine rep.sorted.imp_of_mem ?_
  intro a b inA inB ordered aboveA
  obtain ⟨keyA, isKeyA⟩ := rep.keyed a inA
  obtain ⟨keyB, isKeyB⟩ := rep.keyed b inB
  simp only [above, isKeyA, isKeyB, decide_eq_true_eq] at aboveA ⊢
  exact lt_of_lt_of_le aboveA (ordered keyA keyB isKeyA isKeyB)

theorem Represents.lower_append_upper (k : Nat) :
    list.lower nodes key k ++ list.upper nodes key k = list.onLevel nodes k :=
  Lists.filter_append_filter ((rep.above_mono key).sublist filter_sublist)

theorem Represents.linked_split {k : Nat} (bound : k ≤ maxLevel) : Connects (list.ptrs k)
      ((list.head :: list.lower nodes key k) ++ (list.upper nodes key k ++ [list.tail])) := by
  have linked := rep.linked k bound
  rw [← rep.lower_append_upper key k] at linked
  rw [← append_assoc]
  exact linked

end

section

variable (list : SkipList Key Data) (nodes : List Nat) (key : Key) (k : Nat)

theorem boundary_spec :
    ∃ after, list.upper nodes key k ++ [list.tail] = list.boundary nodes key k :: after := by
  unfold boundary
  cases list.upper nodes key k with
  | nil => exact ⟨[], rfl⟩
  | cons _ rest => exact ⟨rest ++ [list.tail], rfl⟩

theorem boundary_mem : list.boundary nodes key k ∈ list.upper nodes key k ++ [list.tail] := by
  obtain ⟨_, split⟩ := boundary_spec list nodes key k
  rw [split]
  exact mem_cons_self

end

section

variable (rep : list.Represents nodes)
include rep

theorem Represents.onLevel_length_le (k : Nat) : (list.onLevel nodes k).length ≤ list.length := by
  rw [rep.length_eq]
  exact length_filter_le _ _

variable {k node : Nat}

theorem Represents.continuesL_lower (mem : node ∈ list.lower nodes key k) :
    list.continuesL key node = some true := by
  obtain ⟨inNodes, _, notAbove⟩ := mem_lower.mp mem
  obtain ⟨_, isKey⟩ := rep.keyed node inNodes
  simp only [above, isKey] at notAbove
  simp [continuesL, rep.tail_ne inNodes, isKey, notAbove]

theorem Represents.continuesL_boundary (key : Key) (k : Nat) :
    list.continuesL key (list.boundary nodes key k) = some false := by
  rcases mem_append.mp (boundary_mem list nodes key k) with inUpper | isTail
  · obtain ⟨inNodes, _, isAbove⟩ := mem_upper.mp inUpper
    obtain ⟨_, isKey⟩ := rep.keyed _ inNodes
    simp only [above, isKey] at isAbove
    simp [continuesL, rep.tail_ne inNodes, isKey, isAbove]
  · simp [continuesL, mem_singleton.mp isTail]

theorem Represents.continuesR_upper (mem : node ∈ list.upper nodes key k) :
    list.continuesR key node = some true := by
  obtain ⟨inNodes, _, isAbove⟩ := mem_upper.mp mem
  obtain ⟨_, isKey⟩ := rep.keyed node inNodes
  simp only [above, isKey] at isAbove
  simp [continuesR, rep.head_ne inNodes, isKey, isAbove]

theorem Represents.continuesR_lower (mem : node ∈ list.head :: list.lower nodes key k) :
    list.continuesR key node = some false := by
  rcases mem_cons.mp mem with isHead | inLower
  · simp [continuesR, isHead]
  · obtain ⟨inNodes, _, notAbove⟩ := mem_lower.mp inLower
    obtain ⟨_, isKey⟩ := rep.keyed node inNodes
    simp only [above, isKey] at notAbove
    simp [continuesR, rep.head_ne inNodes, isKey, notAbove]

end

/-! ## The lookups -/

variable {k p : Nat}

theorem Represents.walk_right (rep : list.Represents nodes) (key : Key)
    (bound : k ≤ maxLevel) (start : p ∈ list.head :: list.lower nodes key k) :
    ∃ first p', (list.ptrs k).next p = some first ∧
      walk (list.ptrs k).next (list.continuesL key) (list.length + 1) p first =
        some (p', list.boundary nodes key k) ∧ p' ∈ list.head :: list.lower nodes key k := by
  obtain ⟨before, passed, split⟩ := append_of_mem start
  obtain ⟨after, upperSplit⟩ := boundary_spec list nodes key k
  have passedLower : ∀ node ∈ passed, node ∈ list.lower nodes key k := by
    intro node mem
    cases before with
    | nil | cons _ _ =>
      obtain ⟨_, restEq⟩ := cons_eq_cons.mp split
      rw [restEq]
      simp [mem]
  have linked := rep.linked_split key bound
  rw [split, upperSplit] at linked
  have path : (p :: passed ++ [list.boundary nodes key k]).IsChain
      fun a b => (list.ptrs k).next a = some b := by
    apply Connects.forward before _ after
    simpa using linked
  have enough : passed.length < list.length + 1 := by
    have total := congrArg List.length split
    have whole := rep.onLevel_length_le k
    have parts := congrArg List.length (rep.lower_append_upper key k)
    simp only [List.length_cons, List.length_append] at total parts
    omega
  obtain ⟨first, edge, walked⟩ := walk_eq path
    (fun node mem => rep.continuesL_lower (passedLower node mem))
    (rep.continuesL_boundary key k) enough
  refine ⟨first, _, edge, walked, ?_⟩
  rw [split]
  exact mem_append_right _ (getLast_mem _)

theorem Represents.walk_left (rep : list.Represents nodes) (key : Key) {q : Nat}
    (bound : k ≤ maxLevel) (start : q ∈ list.upper nodes key k ++ [list.tail]) :
    ∃ first stop, (list.ptrs k).prev q = some first ∧
      walk (list.ptrs k).prev (list.continuesR key) (list.length + 1) q first =
        some (list.boundary nodes key k, stop) := by
  obtain ⟨passed, after, split⟩ := append_of_mem start
  have passedUpper : ∀ node ∈ passed, node ∈ list.upper nodes key k := by
    intro node mem
    rcases eq_nil_or_concat after with none | ⟨others, _, isConcat⟩
    · rw [none] at split
      have same := append_inj_left' split rfl
      rw [same]
      exact mem
    · rw [isConcat, concat_eq_append, ← cons_append, ← append_assoc] at split
      have same := append_inj_left' split rfl
      rw [same]
      exact mem_append_left _ mem
  have linked := rep.linked_split key bound
  obtain ⟨before, stop, lowerSplit⟩ : ∃ before stop,
      list.head :: list.lower nodes key k = before ++ [stop] :=
    ⟨_, _, (dropLast_append_getLast (cons_ne_nil _ _)).symm⟩
  have stopMember : stop ∈ list.head :: list.lower nodes key k := by
    rw [lowerSplit]
    simp
  rw [split, lowerSplit] at linked
  have path : (q :: passed.reverse ++ [stop]).IsChain fun a b => (list.ptrs k).prev a = some b := by
    have backwards := Connects.backward before (stop :: passed ++ [q]) after (by simpa using linked)
    simpa using backwards
  have enough : passed.reverse.length < list.length + 1 := by
    have total := congrArg List.length split
    have whole := rep.onLevel_length_le k
    have parts := congrArg List.length (rep.lower_append_upper key k)
    simp only [List.length_cons, List.length_append, List.length_nil] at total parts
    rw [length_reverse]
    omega
  obtain ⟨first, edge, walked⟩ := walk_eq path (fun node mem => rep.continuesR_upper
      (passedUpper node (mem_reverse.mp mem)))
    (rep.continuesR_lower stopMember) enough
  refine ⟨first, stop, edge, ?_⟩
  have reached : (q :: passed.reverse).getLast (cons_ne_nil _ _) = list.boundary nodes key k := by
    obtain ⟨_, upperSplit⟩ := boundary_spec list nodes key k
    rw [split] at upperSplit
    cases passed with
    | nil => exact (cons_eq_cons.mp upperSplit).1
    | cons =>
      rw [← (cons_eq_cons.mp upperSplit).1]
      simp
  rw [walked, reached]

def Located (list : SkipList Key Data) (nodes : List Nat) (key : Key) (count : Nat)
    (location : Nat -> Option Nat) : Prop :=
  ∀ k < count, location k = some (list.boundary nodes key k)

theorem lower_mono (mem : p ∈ list.head :: list.lower nodes key (k + 1)) :
    p ∈ list.head :: list.lower nodes key k := by
  rcases mem_cons.mp mem with isHead | inLower
  · rw [isHead]
    exact mem_cons_self
  · obtain ⟨inNodes, atLeast, notAbove⟩ := mem_lower.mp inLower
    exact mem_cons_of_mem _ (mem_lower.mpr ⟨inNodes, Nat.le_of_succ_le atLeast, notAbove⟩)

theorem upper_mono {q : Nat} (mem : q ∈ list.upper nodes key (k + 1) ++ [list.tail]) :
    q ∈ list.upper nodes key k ++ [list.tail] := by
  rcases mem_append.mp mem with inUpper | isTail
  · obtain ⟨inNodes, atLeast, isAbove⟩ := mem_upper.mp inUpper
    exact mem_append_left _ (mem_upper.mpr ⟨inNodes, Nat.le_of_succ_le atLeast, isAbove⟩)
  · exact mem_append_right _ isTail

section

variable (rep : list.Represents nodes)
include rep

variable (key : Key)

theorem Represents.lookupLoopL_eq (count : Nat) (bound : count ≤ maxLevel + 1) {p : Nat}
    (location : Nat -> Option Nat)
    (start : ∀ k, count = k + 1 -> p ∈ list.head :: list.lower nodes key k) :
    ∃ result, list.lookupLoopL key count p location = some result ∧
      list.Located nodes key count result ∧ ∀ k, count ≤ k -> result k = location k := by
  induction count generalizing p location with
  | zero => exact ⟨location, rfl, fun k impossible => absurd impossible (Nat.not_lt_zero k),
      fun _ _ => rfl⟩
  | succ k ih =>
    obtain ⟨_, p', edge, walked, mem⟩ :=
      rep.walk_right key (Nat.le_of_succ_le_succ bound) (start k rfl)
    obtain ⟨result, looked, located, kept⟩ := ih (Nat.le_of_succ_le bound)
      (p := p') (update location k (some (list.boundary nodes key k)))
      (fun j isSucc => lower_mono (isSucc ▸ mem))
    refine ⟨result, ?_, ?_, ?_⟩
    · simp only [lookupLoopL, edge, walked]
      exact looked
    · intro j below
      rcases Nat.lt_succ_iff_lt_or_eq.mp below with smaller | same
      · exact located j smaller
      · rw [same, kept k .refl, update_self]
    · intro j atLeast
      rw [kept j (Nat.le_of_succ_le atLeast), update_of_ne (Nat.ne_of_gt atLeast)]

theorem Represents.lookupLoopR_eq (count : Nat) (bound : count ≤ maxLevel + 1) {q : Nat}
    (location : Nat -> Option Nat)
    (start : ∀ k, count = k + 1 -> q ∈ list.upper nodes key k ++ [list.tail]) :
    ∃ result, list.lookupLoopR key count q location = some result ∧
      list.Located nodes key count result ∧ ∀ k, count ≤ k -> result k = location k := by
  induction count generalizing q location with
  | zero => exact ⟨location, rfl, fun k impossible => absurd impossible (Nat.not_lt_zero k),
      fun _ _ => rfl⟩
  | succ k ih =>
    obtain ⟨_, _, edge, walked⟩ := rep.walk_left key (Nat.le_of_succ_le_succ bound) (start k rfl)
    obtain ⟨result, looked, located, kept⟩ := ih (Nat.le_of_succ_le bound)
      (q := list.boundary nodes key k)
      (update location k (some (list.boundary nodes key k)))
      (fun j isSucc => upper_mono (isSucc ▸ boundary_mem list nodes key k))
    refine ⟨result, ?_, ?_, ?_⟩
    · simp only [lookupLoopR, edge, walked]
      exact looked
    · intro j below
      rcases Nat.lt_succ_iff_lt_or_eq.mp below with smaller | same
      · exact located j smaller
      · rw [same, kept k .refl, update_self]
    · intro j atLeast
      rw [kept j (Nat.le_of_succ_le atLeast), update_of_ne (Nat.ne_of_gt atLeast)]

theorem Represents.lookupImpUpperBoundL_eq :
    ∃ location, list.lookupImpUpperBoundL key = some location ∧
      list.Located nodes key (list.listLevel + 1) location := by
  obtain ⟨location, looked, located, _⟩ := rep.lookupLoopL_eq key (list.listLevel + 1)
    (Nat.succ_le_succ rep.listLevel_le) (p := list.head) (fun _ => none)
    (fun _ _ => mem_cons_self)
  exact ⟨location, looked, located⟩

theorem Represents.lookupImpUpperBoundR_eq :
    ∃ location, list.lookupImpUpperBoundR key = some location ∧
      list.Located nodes key (list.listLevel + 1) location := by
  obtain ⟨location, looked, located, _⟩ := rep.lookupLoopR_eq key (list.listLevel + 1)
    (Nat.succ_le_succ rep.listLevel_le) (q := list.tail) (fun _ => none)
    (fun _ _ => mem_append_right _ mem_cons_self)
  exact ⟨location, looked, located⟩

end

end SkipList

end NtfCore.Ntcs
