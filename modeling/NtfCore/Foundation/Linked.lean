import Mathlib.Data.List.Chain
import Mathlib.Data.List.Nodup

/-!
Contract: doubly linked lists as two pointer fields.

Owns: the next and previous pointers of the nodes of one list; when they connect
a sequence of nodes; insertion between two neighbours and unlinking of a node;
and walking along pointers until a test fails.
-/

namespace NtfCore.Foundation.Linked

open List

variable {Address : Type}

/-- The two pointers of each node. A null pointer is `none`. -/
structure Links (Address : Type) where
  next : Address -> Option Address
  prev : Address -> Option Address

/-- Neighbours in the sequence point at each other. -/
def Connects (links : Links Address) (nodes : List Address) : Prop :=
  nodes.IsChain fun left right => links.next left = some right ∧ links.prev right = some left

variable {links : Links Address}

/-- The pointers that matter are the next pointers of all nodes but the last, and
the previous pointers of all nodes but the first. -/
theorem Connects.congr {other : Links Address} {nodes : List Address}
    (connects : Connects links nodes)
    (sameNext : ∀ node ∈ nodes.dropLast, other.next node = links.next node)
    (samePrev : ∀ node ∈ nodes.tail, other.prev node = links.prev node) : Connects other nodes := by
  unfold Connects at connects ⊢
  induction nodes with
  | nil => exact IsChain.nil
  | cons first rest ih =>
    cases rest with
    | nil => exact isChain_singleton first
    | cons second =>
      rw [isChain_cons_cons] at connects ⊢
      obtain ⟨⟨firstNext, secondPrev⟩, restConnects⟩ := connects
      refine ⟨⟨?_, ?_⟩, ?_⟩
      · rw [sameNext first (by simp)]
        exact firstNext
      · rw [samePrev second (by simp)]
        exact secondPrev
      · apply ih restConnects
        · intro node mem
          apply sameNext
          exact mem_cons_of_mem _ mem
        · intro node mem
          apply samePrev
          exact mem_cons_of_mem _ mem

theorem Connects.neighbours (before after : List Address)
    {left right : Address} (connects : Connects links (before ++ left :: right :: after)) :
    links.next left = some right ∧ links.prev right = some left :=
  (isChain_append_cons_cons.mp connects).2.1

section

variable (before stretch after : List Address)
  (connects : Connects links (before ++ stretch ++ after))
include before after connects

/-- A stretch of the sequence can be followed forwards. -/
theorem Connects.forward : stretch.IsChain fun a b => links.next a = some b := by
  have inner : Connects links stretch := connects.infix ⟨before, after, rfl⟩
  exact inner.imp fun _ _ both => both.1

/-- A stretch of the sequence can be followed backwards. -/
theorem Connects.backward : stretch.reverse.IsChain fun a b => links.prev a = some b := by
  have inner : Connects links stretch := connects.infix ⟨before, after, rfl⟩
  rw [isChain_reverse]
  exact inner.imp fun _ _ both => both.2

end

/-! ## Insertion and unlinking -/

section Updates

variable [DecidableEq Address]

/-- Put `node` between `left` and `right`. -/
def Links.insert (links : Links Address) (left node right : Address) : Links Address where
  next := Function.update (Function.update links.next node (some right)) left (some node)
  prev := Function.update (Function.update links.prev node (some left)) right (some node)

/-- Make `left` and `right` neighbours. -/
def Links.unlink (links : Links Address) (left right : Address) : Links Address where
  next := Function.update links.next left (some right)
  prev := Function.update links.prev right (some left)

variable {links : Links Address} {node : Address}

/-- A node that is not in the sequence may lose its next pointer. -/
theorem Connects.forget {sequence : List Address}
    (connects : Connects links sequence) (absent : node ∉ sequence) :
    Connects { links with next := Function.update links.next node none } sequence := by
  apply connects.congr
  · intro other mem
    have apart : other ≠ node := fun same =>
      absent (same ▸ dropLast_subset _ mem)
    simp [apart]
  · intro _ _
    rfl

open Connects

variable {before after : List Address} {left right : Address}

omit [DecidableEq Address] in
theorem adjacent_ne (distinct : (before ++ left :: right :: after).Nodup) :
    (∀ other ∈ before, other ≠ left) ∧ (∀ other ∈ (before ++ [left]).tail, other ≠ right) ∧
      (∀ other ∈ (right :: after).dropLast, other ≠ left) ∧ ∀ other ∈ after, other ≠ right := by
  have pieces := nodup_append.mp distinct
  obtain ⟨leftOut, rest⟩ := nodup_cons.mp pieces.2.1
  refine ⟨fun other mem => pieces.2.2 other mem left mem_cons_self, ?_, ?_, ?_⟩
  · intro other mem
    rcases mem_append.mp (mem_of_mem_tail mem) with inBefore | isLeft
    · exact pieces.2.2 other inBefore right (mem_cons_of_mem _ mem_cons_self)
    · exact fun same => leftOut (mem_singleton.mp isLeft ▸ same ▸ mem_cons_self)
  · exact fun other mem same => leftOut (same ▸ dropLast_subset _ mem)
  · exact fun other mem same => (nodup_cons.mp rest).1 (same ▸ mem)

theorem Connects.insert (connects : Connects links (before ++ left :: right :: after))
    (distinct : (before ++ left :: right :: after).Nodup)
    (fresh : node ∉ before ++ left :: right :: after) :
    Connects (links.insert left node right) (before ++ left :: node :: right :: after) := by
  obtain ⟨beforeConnects, _, afterConnects⟩ := isChain_append_cons_cons.mp connects
  simp only [mem_append, mem_cons, not_or] at fresh
  obtain ⟨notBefore, notLeft, notRight, notAfter⟩ := fresh
  obtain ⟨beforeLeft, beforeRight, afterLeft, afterRight⟩ := adjacent_ne distinct
  apply isChain_append_cons_cons.mpr
  refine ⟨?_, ⟨?_, ?_⟩, ?_⟩
  · apply congr beforeConnects
    · intro other mem
      rw [dropLast_concat] at mem
      have otherLeft := beforeLeft other mem
      have otherNode : other ≠ node := fun same => notBefore (same ▸ mem)
      simp [Links.insert, otherLeft, otherNode]
    · intro other mem
      have otherRight := beforeRight other mem
      have inList := mem_of_mem_tail mem
      have otherNode : other ≠ node := fun same => by
        rcases mem_append.mp (same ▸ inList) with inBefore | isLeft
        · exact notBefore inBefore
        · exact notLeft (mem_singleton.mp isLeft)
      simp [Links.insert, otherRight, otherNode]
  · simp [Links.insert]
  · have nodeRight : node ≠ right := notRight
    simp [Links.insert, nodeRight]
  · apply isChain_cons_cons.mpr
    refine ⟨⟨?_, ?_⟩, ?_⟩
    · have nodeLeft : node ≠ left := notLeft
      simp [Links.insert, nodeLeft]
    · simp [Links.insert]
    · apply congr afterConnects
      · intro other mem
        have otherLeft := afterLeft other mem
        have inList := dropLast_subset _ mem
        have otherNode : other ≠ node := fun same => by
          rcases mem_cons.mp (same ▸ inList) with isRight | inAfter
          · exact notRight isRight
          · exact notAfter inAfter
        simp [Links.insert, otherLeft, otherNode]
      · intro other mem
        have otherRight := afterRight other mem
        have otherNode : other ≠ node := fun same => notAfter (same ▸ mem)
        simp [Links.insert, otherRight, otherNode]

theorem Connects.unlink (connects : Connects links (before ++ left :: node :: right :: after))
    (distinct : (before ++ left :: node :: right :: after).Nodup) :
    Connects (links.unlink left right) (before ++ left :: right :: after) := by
  obtain ⟨beforeConnects, _, rest⟩ := isChain_append_cons_cons.mp connects
  have afterConnects := (isChain_cons_cons.mp rest).2
  obtain ⟨beforeLeft, beforeRight, afterLeft, afterRight⟩ := adjacent_ne
    (distinct.sublist (((sublist_cons_self node _).cons_cons left).append_left before))
  apply isChain_append_cons_cons.mpr
  refine ⟨?_, ⟨?_, ?_⟩, ?_⟩
  · apply congr beforeConnects
    · intro other mem
      rw [dropLast_concat] at mem
      have otherLeft := beforeLeft other mem
      simp [Links.unlink, otherLeft]
    · intro other mem
      have otherRight := beforeRight other mem
      simp [Links.unlink, otherRight]
  · simp [Links.unlink]
  · simp [Links.unlink]
  · apply congr afterConnects
    · intro other mem
      have otherLeft := afterLeft other mem
      simp [Links.unlink, otherLeft]
    · intro other mem
      have otherRight := afterRight other mem
      simp [Links.unlink, otherRight]

end Updates

section Splits

variable [DecidableEq Address] {links : Links Address} {before after : List Address}
  {left node right : Address}

omit [DecidableEq Address] in
theorem eq_append_of_ends (isLeft : before.getLast? = some left)
    (isRight : after.head? = some right) :
    before ++ after = before.dropLast ++ left :: right :: after.tail := by
  obtain ⟨_, beforeEq⟩ := getLast?_eq_some_iff.mp isLeft
  obtain ⟨_, afterEq⟩ := head?_eq_some_iff.mp isRight
  rw [beforeEq, afterEq, dropLast_concat]
  simp

omit [DecidableEq Address] in
/-- The nodes on the two sides of a split point at each other. -/
theorem Connects.across (connects : Connects links (before ++ after))
    (isLeft : before.getLast? = some left) (isRight : after.head? = some right) :
    links.next left = some right ∧ links.prev right = some left := by
  rw [eq_append_of_ends isLeft isRight] at connects
  exact connects.neighbours _ _

theorem Connects.insert_split (connects : Connects links (before ++ after))
    (distinct : (before ++ after).Nodup) (fresh : node ∉ before ++ after)
    (isLeft : before.getLast? = some left) (isRight : after.head? = some right) :
    Connects (links.insert left node right) (before ++ node :: after) := by
  obtain ⟨_, beforeEq⟩ := getLast?_eq_some_iff.mp isLeft
  obtain ⟨_, afterEq⟩ := head?_eq_some_iff.mp isRight
  subst beforeEq afterEq
  simp only [append_assoc, singleton_append] at connects distinct fresh ⊢
  exact connects.insert distinct fresh

/-- Unlinking a node from between two parts, and what it points at. -/
theorem Connects.unlink_split (connects : Connects links (before ++ node :: after))
    (distinct : (before ++ node :: after).Nodup)
    (isLeft : before.getLast? = some left) (isRight : after.head? = some right) :
    links.prev node = some left ∧ links.next node = some right ∧
      Connects (links.unlink left right) (before ++ after) := by
  obtain ⟨_, beforeEq⟩ := getLast?_eq_some_iff.mp isLeft
  obtain ⟨_, afterEq⟩ := head?_eq_some_iff.mp isRight
  subst beforeEq afterEq
  simp only [append_assoc, singleton_append] at connects distinct ⊢
  obtain ⟨_, leftEdge, tail⟩ := isChain_append_cons_cons.mp connects
  have rightEdge := (isChain_cons_cons.mp tail).1
  exact ⟨leftEdge.2, rightEdge.1, connects.unlink distinct⟩

end Splits

/-- Follow `step` from `current` while `continues` holds of the node reached. The
result is the last node that was left and the node where the walk stopped. -/
def walk (step : Address -> Option Address) (continues : Address -> Option Bool) :
    Nat -> Address -> Address -> Option (Address × Address)
  | 0, _, _ => none
  | fuel + 1, previous, current =>
    match continues current with
    | some true =>
      match step current with
      | some following => walk step continues fuel current following
      | none => none
    | some false => some (previous, current)
    | none => none

theorem walk_eq {step : Address -> Option Address} {continues : Address -> Option Bool}
    {passed : List Address} {prev stop : Address} {fuel : Nat}
    (path : (prev :: passed ++ [stop]).IsChain fun a b => step a = some b)
    (passes : ∀ node ∈ passed, continues node = some true) (stops : continues stop = some false)
    (enough : passed.length < fuel) :
    ∃ first, step prev = some first ∧ walk step continues fuel prev first =
        some ((prev :: passed).getLast (List.cons_ne_nil _ _), stop) := by
  induction passed generalizing prev fuel with
  | nil =>
    have edge := (isChain_cons_cons.mp path).1
    refine ⟨stop, edge, ?_⟩
    cases fuel with
    | zero => contradiction
    | succ fuel => simp [walk, stops]
  | cons node rest ih =>
    obtain ⟨edge, restPath⟩ := isChain_cons_cons.mp path
    refine ⟨node, edge, ?_⟩
    cases fuel with
    | zero => contradiction
    | succ fuel =>
      have restEnough : rest.length < fuel := Nat.lt_of_succ_lt_succ enough
      obtain ⟨_, secondEdge, walked⟩ := ih restPath
        (fun other mem => passes other (mem_cons_of_mem _ mem)) restEnough
      simp only [walk, passes node mem_cons_self, secondEdge, walked]
      rw [getLast_cons (cons_ne_nil node rest)]

end NtfCore.Foundation.Linked
