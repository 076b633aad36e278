import Mathlib.Order.Lattice
import NtfCore.Foundation.Linked

/-!
Contract: the skip list of deadlines (`ntcs::SkipList`).

Owns: the nodes with their levels, keys, data and pointers on each level, and
`allocateNode`, the two lookups, `insertImp`, `moveImp`, `removeNode` and the
operations made of them, as `ntcs_skiplist.h` computes them. A null pointer that
is followed, a key that is read off a sentinel and a failed assertion are
`none`. A node is an address; the pool that hands out addresses and the random
levels are arguments.
-/

namespace NtfCore.Ntcs

open NtfCore.Foundation.Linked

/-- `SkipListConsts::k_MAX_LEVEL`. -/
def maxLevel : Nat := 31

inductive SkipListStatus where
  | success
  | notFound
  | invalid

/-- `ntcs::SkipList`. The fields of a node are functions of its address, and
`ptrs k` holds the pointers `d_ptrs[k]` of all nodes. The sentinels have no key
and no data. -/
structure SkipList (Key Data : Type) where
  head : Nat
  tail : Nat
  listLevel : Nat := 0
  length : Nat := 0
  level : Nat -> Nat
  key : Nat -> Option Key
  data : Nat -> Option Data
  ptrs : Nat -> Links Nat

structure Sentinels where
  head : Nat
  tail : Nat
  distinct : head ≠ tail

variable {Key Data : Type}

namespace SkipList

/-- `SkipList::initialize`. -/
def initialList (sentinels : Sentinels) : SkipList Key Data where
  head := sentinels.head
  tail := sentinels.tail
  level := fun _ => maxLevel
  key := fun _ => none
  data := fun _ => none
  ptrs := fun _ => {
    next := Function.update (fun _ => none) sentinels.head (some sentinels.tail)
    prev := Function.update (fun _ => none) sentinels.tail (some sentinels.head) }

/-- `SkipList::allocateNode`, with the address the pool hands out. -/
def allocateNode (list : SkipList Key Data) (node level : Nat) (key : Key) (data : Data) :
    SkipList Key Data :=
  let nodeLevel := if level > list.listLevel then list.listLevel + 1 else level
  { list with
    level := Function.update list.level node nodeLevel
    key := Function.update list.key node (some key)
    data := Function.update list.data node (some data)
    ptrs := Function.update list.ptrs 0
      { list.ptrs 0 with next := Function.update (list.ptrs 0).next node none } }

section Lookup

variable [LinearOrder Key]

/-- The test of the inner loop of `lookupImpUpperBoundL`. -/
def continuesL (list : SkipList Key Data) (key : Key) (q : Nat) : Option Bool :=
  if q = list.tail then some false else (list.key q).map fun nodeKey => !decide (key < nodeKey)

/-- The test of the inner loop of `lookupImpUpperBoundR`. -/
def continuesR (list : SkipList Key Data) (key : Key) (p : Nat) : Option Bool :=
  if p = list.head then some false else (list.key p).map fun nodeKey => decide (key < nodeKey)

/-- `lookupImpUpperBoundL` from the given number of levels down, with the node
from which the walk on the next level starts. The inner loop passes each pair
at most once. -/
def lookupLoopL (list : SkipList Key Data) (key : Key) :
    Nat -> Nat -> (Nat -> Option Nat) -> Option (Nat -> Option Nat)
  | 0, _, location => some location
  | k + 1, p, location =>
    match (list.ptrs k).next p with
    | none => none
    | some q =>
      match walk (list.ptrs k).next (list.continuesL key) (list.length + 1) p q with
      | none => none
      | some (p', q') => lookupLoopL list key k p' (Function.update location k (some q'))

/-- `SkipList::lookupImpUpperBoundL`. The array of locations starts out
unwritten. -/
def lookupImpUpperBoundL (list : SkipList Key Data) (key : Key) : Option (Nat -> Option Nat) :=
  lookupLoopL list key (list.listLevel + 1) list.head fun _ => none

/-- `lookupImpUpperBoundR` from the given number of levels down. -/
def lookupLoopR (list : SkipList Key Data) (key : Key) :
    Nat -> Nat -> (Nat -> Option Nat) -> Option (Nat -> Option Nat)
  | 0, _, location => some location
  | k + 1, q, location =>
    match (list.ptrs k).prev q with
    | none => none
    | some p =>
      match walk (list.ptrs k).prev (list.continuesR key) (list.length + 1) q p with
      | none => none
      | some (q', _) => lookupLoopR list key k q' (Function.update location k (some q'))

/-- `SkipList::lookupImpUpperBoundR`. -/
def lookupImpUpperBoundR (list : SkipList Key Data) (key : Key) : Option (Nat -> Option Nat) :=
  lookupLoopR list key (list.listLevel + 1) list.tail fun _ => none

end Lookup

/-- The loop of `insertImp` over the given number of levels, downwards. -/
def insertLoop (location : Nat -> Option Nat) (node : Nat) :
    Nat -> (Nat -> Links Nat) -> Option (Nat -> Links Nat)
  | 0, ptrs => some ptrs
  | k + 1, ptrs =>
    match location k with
    | none => none
    | some q =>
      match (ptrs k).prev q with
      | none => none
      | some p => insertLoop location node k (Function.update ptrs k ((ptrs k).insert p node q))

/-- The flag set by `insertImp` and `moveImp`. -/
def isFront (list : SkipList Key Data) (node : Nat) : Bool :=
  (list.ptrs 0).prev node == some list.head

/-- `SkipList::insertImp`, with the flag. -/
def insertImp (list : SkipList Key Data) (location : Nat -> Option Nat) (node : Nat) :
    Option (Bool × SkipList Key Data) :=
  let level := list.level node
  let raised :=
    if level > list.listLevel then
      { list with
        listLevel := level
        ptrs := Function.update list.ptrs level
          ((list.ptrs level).insert list.head node list.tail) }
    else list
  let count := if level > list.listLevel then level else level + 1
  if level ≤ list.listLevel + 1 then
    match insertLoop location node count raised.ptrs with
    | none => none
    | some ptrs =>
      let inserted := { raised with ptrs := ptrs, length := raised.length + 1 }
      some (inserted.isFront node, inserted)
  else none

/-- The loop of `moveImp` from level `k` upwards, over `count` levels. -/
def moveLoop (location : Nat -> Option Nat) (node : Nat) :
    Nat -> Nat -> (Nat -> Links Nat) -> Option (Nat -> Links Nat)
  | 0, _, ptrs => some ptrs
  | count + 1, k, ptrs =>
    match location k with
    | none => none
    | some newQ =>
      match (ptrs k).prev newQ with
      | none => none
      | some newP =>
        if newP = node ∨ newQ = node then some ptrs
        else
          match (ptrs k).prev node, (ptrs k).next node with
          | some oldP, some oldQ =>
            moveLoop location node count (k + 1)
              (Function.update ptrs k
                (((ptrs k).unlink oldP oldQ).insert newP node newQ))
          | _, _ => none

/-- `SkipList::moveImp`, with the flag. -/
def moveImp (list : SkipList Key Data) (location : Nat -> Option Nat) (node : Nat) :
    Option (Bool × SkipList Key Data) :=
  if list.level node ≤ list.listLevel then
    match moveLoop location node (list.level node + 1) 0 list.ptrs with
    | none => none
    | some ptrs =>
      let moved := { list with ptrs := ptrs }
      some (moved.isFront node, moved)
  else none

/-- The loop of `removeNode` over the given number of levels, downwards. -/
def unlinkLoop (node : Nat) : Nat -> (Nat -> Links Nat) -> Option (Nat -> Links Nat)
  | 0, ptrs => some ptrs
  | k + 1, ptrs =>
    match (ptrs k).prev node, (ptrs k).next node with
    | some p, some q => unlinkLoop node k (Function.update ptrs k ((ptrs k).unlink p q))
    | _, _ => none

def markRemoved (list : SkipList Key Data) (node : Nat) : SkipList Key Data :=
  { list with
    ptrs := Function.update list.ptrs 0
      { list.ptrs 0 with next := Function.update (list.ptrs 0).next node none } }

/-- `SkipList::removeNode`. -/
def removeNode (list : SkipList Key Data) (node : Nat) :
    Option (SkipListStatus × SkipList Key Data) :=
  match (list.ptrs 0).next node with
  | none => some (.notFound, list)
  | some _ =>
    match unlinkLoop node (list.level node + 1) list.ptrs with
    | none => none
    | some ptrs =>
      some (.success,
        { (markRemoved { list with ptrs := ptrs } node) with length := list.length - 1 })

/-- `SkipList::remove`. The node is then released to the pool, which only makes
its address available again. -/
def remove (list : SkipList Key Data) (reference : Option Nat) :
    Option (SkipListStatus × SkipList Key Data) :=
  match reference with
  | none => some (.invalid, list)
  | some node => list.removeNode node

/-- The nodes visited by the two loops of `removeAll` over the pairs, backwards
from `q`. The first of them writes next pointers only, so both visit the same
nodes. -/
def backward (prev : Nat -> Option Nat) (head : Nat) : Nat -> Nat -> Option (List Nat)
  | 0, _ => none
  | fuel + 1, q =>
    if q = head then some []
    else
      match prev q with
      | none => none
      | some p => (backward prev head fuel p).map (q :: ·)

/-- The loop of `removeAll` over the levels of the list. -/
def resetLevels (list : SkipList Key Data) : Nat -> Links Nat := fun k =>
  if k ≤ list.listLevel then (list.ptrs k).unlink list.head list.tail else list.ptrs k

/-- `SkipList::removeAll`: the number of pairs removed. -/
def removeAll (list : SkipList Key Data) : Option (Nat × SkipList Key Data) :=
  match (list.ptrs 0).prev list.tail with
  | none => none
  | some last =>
    let emptied := { list with ptrs := list.resetLevels, length := 0 }
    match backward (emptied.ptrs 0).prev list.head (list.length + 1) last with
    | none => none
    | some removed =>
      some (list.length,
        { (removed.foldl markRemoved emptied) with listLevel := 0 })

section Operations

variable [LinearOrder Key]

/-- `SkipList::addL`: the flag, and the list afterwards. The reference returned
is the address of the node. -/
def addL (list : SkipList Key Data) (node level : Nat) (key : Key) (data : Data) :
    Option (Bool × SkipList Key Data) :=
  let allocated := list.allocateNode node level key data
  match allocated.lookupImpUpperBoundL key with
  | none => none
  | some location => allocated.insertImp location node

/-- `SkipList::addR`. -/
def addR (list : SkipList Key Data) (node level : Nat) (key : Key) (data : Data) :
    Option (Bool × SkipList Key Data) :=
  let allocated := list.allocateNode node level key data
  match allocated.lookupImpUpperBoundR key with
  | none => none
  | some location => allocated.insertImp location node

/-- `SkipList::updateNodeR`. The flag is written on success only. -/
def updateNodeR (list : SkipList Key Data) (node : Nat) (newKey : Key) :
    Option (SkipListStatus × Option Bool × SkipList Key Data) :=
  match (list.ptrs 0).next node with
  | none => some (.notFound, none, list)
  | some _ =>
    match list.lookupImpUpperBoundR newKey with
    | none => none
    | some location =>
      let keyed := { list with key := Function.update list.key node (some newKey) }
      match keyed.moveImp location node with
      | none => none
      | some (newFrontFlag, moved) => some (.success, some newFrontFlag, moved)

/-- `SkipList::updateR`. -/
def updateR (list : SkipList Key Data) (reference : Option Nat) (newKey : Key) :
    Option (SkipListStatus × Option Bool × SkipList Key Data) :=
  match reference with
  | none => some (.invalid, none, list)
  | some node => list.updateNodeR node newKey

end Operations

end SkipList

end NtfCore.Ntcs
