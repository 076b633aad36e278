import Mathlib.Data.Finset.Card

/-!
Contract: the ring buffer of a timestamp correlator
(`ntcu::TimestampCorrelator::RingBuffer`), of the capacity that it is given.

Owns: the ring with its indices as the code computes them, where an index past the end
and a size below zero are `none`; the history of what is pushed; and that, over every run,
the ring answers as the last entries of the history do.
-/

namespace NtfCore.Ntcu

open Function Finset

def capacity : Nat := 128

/-- `2 ^ 64`, the modulus of `bsl::size_t`. -/
def sizeModulus : Nat := 18446744073709551616

/-- `static_cast<size_type>(value & ~d_buffer.size())`. -/
def mask (value : Nat) : Nat := (value &&& (sizeModulus - 1 - capacity)) % 65536

/-- `RingBuffer::Data`. A timestamp is a number of nanoseconds. -/
structure Data where
  free : Bool := true
  id : Nat := 0
  ts : Int := 0

/-- `TimestampCorrelator::RingBuffer`. -/
structure RingBuffer where
  currentSize : Nat := 0
  nextPush : Nat := 0
  buffer : Nat -> Data := fun _ => {}

inductive Action where
  | push (id : Nat) (ts : Int)
  | extract (id : Nat)
  | reset

namespace RingBuffer

/-- `RingBuffer::nextIndex`. -/
def nextIndex (value : Nat) : Nat := mask (value + 1)

/-- `RingBuffer::push`. -/
def push (ring : RingBuffer) (id : Nat) (ts : Int) : Option RingBuffer :=
  if ring.nextPush < capacity then
    some {
      currentSize :=
        if (ring.buffer ring.nextPush).free then ring.currentSize + 1 else ring.currentSize
      nextPush := nextIndex ring.nextPush
      buffer := update ring.buffer ring.nextPush { free := false, id, ts } }
  else none

/-- The loop of `RingBuffer::extract`, with the iterations left: the index found, if any. -/
def extractLoop (ring : RingBuffer) (id : Nat) : Nat -> Nat -> Option (Option Nat)
  | 0, _ => some none
  | count + 1, index =>
    if index < capacity then
      if (ring.buffer index).free = false ∧ (ring.buffer index).id = id then some (some index)
      else ring.extractLoop id count (nextIndex index)
    else none

/-- What `RingBuffer::extract` does at the index found. -/
def remove (ring : RingBuffer) : Option Nat -> Option (Option Int × RingBuffer)
  | none => some (none, ring)
  | some index =>
    if 0 < ring.currentSize then
      some ((ring.buffer index).ts,
        { ring with
          currentSize := ring.currentSize - 1
          buffer := update ring.buffer index { ring.buffer index with free := true } })
    else none

/-- `RingBuffer::extract`. -/
def extract (ring : RingBuffer) (id : Nat) : Option (Option Int × RingBuffer) :=
  (ring.extractLoop id capacity
    (mask ((capacity + ring.nextPush + sizeModulus - ring.currentSize) % sizeModulus))).bind
    ring.remove

/-- `RingBuffer::reset`. -/
def reset (ring : RingBuffer) : RingBuffer where
  buffer index := { ring.buffer index with free := true }

def step (ring : RingBuffer) : Action -> Option RingBuffer
  | .push id ts => ring.push id ts
  | .extract id => (ring.extract id).map Prod.snd
  | .reset => some ring.reset

end RingBuffer

/-! ## The history -/

structure Pushed where
  id : Nat
  ts : Int
  extracted : Bool := false

/-- What is pushed since the last reset, the last first. -/
abbrev History := List Pushed

namespace History

/-- An entry among the last that has not been extracted. -/
def Holds (history : History) (id : Nat) (place : Nat) (pushed : Pushed) : Prop :=
  place < capacity ∧ history[place]? = some pushed ∧ pushed.id = id ∧ pushed.extracted = false

def step (history : History) : Action -> History
  | .push id ts => { id, ts } :: history
  | .extract id => history.mapIdx fun place pushed =>
      if place < capacity ∧ pushed.id = id then { pushed with extracted := true } else pushed
  | .reset => []

/-- The last identifiers are distinct. -/
def Distinct (history : History) : Prop :=
  ∀ left < capacity, ∀ right < capacity, ∀ first second, history[left]? = some first ->
    history[right]? = some second -> first.id = second.id -> left = right

end History

namespace RingBuffer

def occupied (ring : RingBuffer) : Finset Nat :=
  (range capacity).filter fun index => (ring.buffer index).free = false

/-- How far back in the history the entry of a slot is. -/
def place (ring : RingBuffer) (index : Nat) : Nat :=
  (ring.nextPush + 127 - index) % 128

/-- The slots in use hold the last entries of the history. -/
structure Represents (ring : RingBuffer) (history : History) : Prop where
  within : ring.nextPush < capacity
  counted : ring.currentSize = ring.occupied.card
  slots : ∀ index < capacity, ∀ id ts,
    ((ring.buffer index).free = false ∧ (ring.buffer index).id = id ∧
        (ring.buffer index).ts = ts) ↔
      history[ring.place index]? = some ⟨id, ts, false⟩

variable {ring : RingBuffer} {history : History} {id : Nat}

set_option maxRecDepth 4096 in
theorem mask_of_lt : ∀ value < 256, mask value = value % 128 := by
  decide

theorem nextIndex_of_lt {index : Nat} (within : index < capacity) :
    nextIndex index = (index + 1) % 128 := by
  unfold capacity at within
  exact mask_of_lt _ (by omega)

theorem mem_occupied {index : Nat} :
    index ∈ ring.occupied ↔ index < capacity ∧ (ring.buffer index).free = false := by
  simp [occupied]

/-- The slot at an index holds the identifier. -/
def Matches (ring : RingBuffer) (id index : Nat) : Prop :=
  (ring.buffer index).free = false ∧ (ring.buffer index).id = id

theorem extractLoop_spec (ring : RingBuffer) (id : Nat) {count index : Nat}
    (within : index < capacity) : ∃ found, ring.extractLoop id count index = some found ∧
      (∀ place, found = some place -> place < capacity ∧ ring.Matches id place) ∧
      (found = none -> ∀ offset < count, ¬ ring.Matches id ((index + offset) % 128)) := by
  induction count generalizing index with
  | zero => exact ⟨none, rfl, nofun, fun _ _ impossible => absurd impossible (Nat.not_lt_zero _)⟩
  | succ count ih =>
    rw [extractLoop, if_pos within]
    split
    · rename_i isMatch
      refine ⟨some index, rfl, ?_, nofun⟩
      intro place isPlace
      cases isPlace
      exact ⟨within, isMatch⟩
    · rename_i noMatch
      have isNext := nextIndex_of_lt within
      obtain ⟨found, isLoop, matched, missed⟩ :=
        @ih (nextIndex index) (by rw [isNext]; exact Nat.mod_lt _ (by decide))
      refine ⟨found, isLoop, matched, fun isNone offset below => ?_⟩
      unfold capacity at within
      cases offset with
      | zero =>
        rw [Nat.add_zero, Nat.mod_eq_of_lt within]
        exact noMatch
      | succ offset =>
        have shifted := missed isNone offset (Nat.lt_of_succ_lt_succ below)
        have same : ((index + 1) % 128 + offset) % 128 = (index + (offset + 1)) % 128 := by omega
        rwa [isNext, same] at shifted

theorem place_lt (ring : RingBuffer) (index : Nat) : ring.place index < capacity :=
  Nat.mod_lt _ (by decide)

theorem exists_place {back : Nat} (within : ring.nextPush < capacity) (near : back < capacity) :
    ∃ index < capacity, ring.place index = back := by
  refine ⟨(ring.nextPush + 127 - back) % 128, Nat.mod_lt _ (by decide), ?_⟩
  unfold place
  unfold capacity at within near
  omega

theorem getElem?_extract {place : Nat} (near : place < capacity) (other : Nat) (ts : Int) :
    (history.step (.extract id))[place]? = some ⟨other, ts, false⟩ ↔
      history[place]? = some ⟨other, ts, false⟩ ∧ other ≠ id := by
  unfold History.step
  rw [List.getElem?_mapIdx]
  cases history[place]? with
  | none => simp
  | some pushed =>
    obtain ⟨pushedId, _, _⟩ := pushed
    by_cases same : pushedId = id <;> simp [near, same] <;> grind

theorem occupied_free {index : Nat} (data : Data) (isFree : data.free = true) (size : Nat) :
    occupied { ring with currentSize := size, buffer := update ring.buffer index data } =
      ring.occupied.erase index := by
  ext other
  rw [mem_erase, mem_occupied, mem_occupied]
  by_cases same : other = index <;> simp [same, isFree]

section

variable (rep : Represents ring history)
include rep

theorem Represents.currentSize_le : ring.currentSize ≤ capacity := by
  rw [rep.counted]
  exact (card_filter_le _ _).trans (card_range _).le

theorem Represents.push (id : Nat) (ts : Int) :
    ∃ next, ring.push id ts = some next ∧ Represents next ({ id, ts } :: history) := by
  have within := rep.within
  have isNext := nextIndex_of_lt within
  refine ⟨_, if_pos within, ?_, ?_, ?_⟩
  · dsimp only
    rw [isNext]
    exact Nat.mod_lt _ (by decide)
  · have filled : ∀ data : Data, data.free = false ->
        occupied { ring with buffer := update ring.buffer ring.nextPush data } =
          insert ring.nextPush ring.occupied := by
      intro data isFull
      ext index
      rw [mem_insert, mem_occupied, mem_occupied]
      by_cases isPush : index = ring.nextPush
      · simp [isPush, isFull, within]
      · simp [isPush]
    change _ = (occupied { ring with buffer := update ring.buffer ring.nextPush _ }).card
    rw [filled _ rfl]
    rw [rep.counted]
    split
    · rename_i isFree
      rw [card_insert_of_notMem (by simp [mem_occupied, isFree])]
    · rename_i isFull
      rw [insert_eq_of_mem (mem_occupied.mpr ⟨within, by simpa using isFull⟩)]
  · intro index inside id' ts'
    unfold place
    unfold capacity at within inside
    dsimp only
    rw [isNext]
    by_cases isPush : index = ring.nextPush
    · have isZero : ((ring.nextPush + 1) % 128 + 127 - ring.nextPush) % 128 = 0 := by omega
      rw [isPush, isZero, update_self]
      simp
    · have isSucc : ((ring.nextPush + 1) % 128 + 127 - index) % 128 =
          (ring.nextPush + 127 - index) % 128 + 1 := by omega
      rw [update_of_ne isPush, isSucc, List.getElem?_cons_succ]
      exact rep.slots index inside id' ts'

theorem Represents.start_eq :
    mask ((capacity + ring.nextPush + sizeModulus - ring.currentSize) % sizeModulus) =
      (128 + ring.nextPush - ring.currentSize) % 128 := by
  have within := rep.within
  have sizeBound := rep.currentSize_le
  have noWrap : (capacity + ring.nextPush + sizeModulus - ring.currentSize) % sizeModulus =
      128 + ring.nextPush - ring.currentSize := by
    unfold capacity at within sizeBound ⊢
    unfold sizeModulus
    omega
  rw [noWrap]
  unfold capacity at within
  exact mask_of_lt _ (by omega)

/-- A loop that finds nothing has looked at every slot. -/
theorem Represents.absent {start : Nat} (startBound : start < 128)
    (missed : ∀ offset < capacity, ¬ ring.Matches id ((start + offset) % 128))
    (back : Nat) (pushed : Pushed) : ¬ history.Holds id back pushed := by
  rintro ⟨near, isEntry, isId, notExtracted⟩
  obtain ⟨_, ts, _⟩ := pushed
  subst isId notExtracted
  obtain ⟨index, inside, rfl⟩ := exists_place rep.within near
  obtain ⟨isFull, isId, _⟩ := (rep.slots index inside _ ts).mpr isEntry
  have isOffset : (start + (index + 128 - start) % 128) % 128 = index := by
    unfold capacity at inside
    omega
  refine missed ((index + 128 - start) % 128) (Nat.mod_lt _ (by decide)) ?_
  rw [isOffset]
  exact ⟨isFull, isId⟩

theorem Represents.extracted (distinct : history.Distinct)
    {found : Nat} (inside : found < capacity) (isMatch : ring.Matches id found) :
    Represents { ring with
        currentSize := ring.currentSize - 1
        buffer := update ring.buffer found { ring.buffer found with free := true } }
      (history.step (.extract id)) := by
  have isEntry := (rep.slots found inside id _).mp ⟨isMatch.1, isMatch.2, rfl⟩
  have near := ring.place_lt found
  have within := rep.within
  refine ⟨within, ?_, ?_⟩
  · rw [occupied_free _ rfl, card_erase_of_mem (mem_occupied.mpr ⟨inside, isMatch.1⟩), rep.counted]
  · intro index inside' other ts
    have near' := ring.place_lt index
    change _ ↔ (history.step (.extract id))[ring.place index]? = _
    rw [getElem?_extract near']
    by_cases isFound : index = found
    · rw [isFound]
      dsimp only
      rw [update_self]
      refine iff_of_false (fun free => by cases free.1) ?_
      simp_all
    · dsimp only
      rw [update_of_ne isFound, rep.slots index inside']
      refine (and_iff_left_of_imp fun isOther same => isFound ?_).symm
      have samePlace := distinct _ near' _ near _ _ isOther isEntry same
      unfold place at samePlace
      unfold capacity at within inside inside'
      omega

/-- The answer is the timestamp pushed last, unless it has been extracted. -/
theorem Represents.extract (distinct : history.Distinct)
    (id : Nat) : ∃ result next, ring.extract id = some (result, next) ∧
      Represents next (history.step (.extract id)) ∧
      ∀ ts, result = some ts ↔ ∃ back pushed, history.Holds id back pushed ∧ pushed.ts = ts := by
  have startBound := Nat.mod_lt (128 + ring.nextPush - ring.currentSize) (by decide : 0 < 128)
  obtain ⟨found, isLoop, matched, missed⟩ := @extractLoop_spec ring id capacity _ startBound
  rw [RingBuffer.extract, rep.start_eq, isLoop, Option.bind_some]
  cases found with
  | none =>
    have absent := rep.absent startBound (missed rfl)
    refine ⟨none, ring, rfl, ⟨rep.within, rep.counted, ?_⟩, ?_⟩
    · intro index inside other ts
      rw [getElem?_extract (ring.place_lt index), rep.slots index inside]
      refine (and_iff_left_of_imp fun isEntry same => ?_).symm
      exact absent _ _ ⟨ring.place_lt index, isEntry, same, rfl⟩
    · intro ts
      refine iff_of_false nofun ?_
      rintro ⟨back, pushed, holds, _⟩
      exact absent back pushed holds
  | some found =>
    obtain ⟨inside, isMatch⟩ := matched found rfl
    have isEntry := (rep.slots found inside id _).mp ⟨isMatch.1, isMatch.2, rfl⟩
    have near := ring.place_lt found
    have positive : 0 < ring.currentSize := by
      rw [rep.counted]
      exact card_pos.mpr ⟨found, mem_occupied.mpr ⟨inside, isMatch.1⟩⟩
    rw [remove, if_pos positive]
    refine ⟨_, _, rfl, rep.extracted distinct inside isMatch, fun ts => ⟨?_, ?_⟩⟩
    · intro isTs
      exact ⟨_, _, ⟨near, isEntry, rfl, rfl⟩, Option.some.inj isTs⟩
    · rintro ⟨back, pushed, holds, rfl⟩
      have isPushed := holds.2.1
      rw [distinct back holds.1 _ near _ _ holds.2.1 isEntry holds.2.2.1, isEntry] at isPushed
      rw [← Option.some.inj isPushed]

end

theorem represents_reset : Represents ring.reset [] := by
  refine ⟨Nat.zero_lt_succ _, ?_, fun index _ id ts => ?_⟩
  · simp [RingBuffer.reset, occupied]
  · simp [RingBuffer.reset]

def run (actions : List Action) : Option RingBuffer :=
  actions.foldlM step {}

end RingBuffer

def History.run (actions : List Action) : History :=
  actions.foldl step []

/-- A run in which the last identifiers are distinct at every time. -/
structure Trace where
  actions : List Action
  distinct : ∀ earlier, earlier <+: actions -> (History.run earlier).Distinct

namespace RingBuffer

theorem Represents.step (rep : Represents ring history) (distinct : history.Distinct)
    (action : Action) :
    ∃ next, ring.step action = some next ∧ Represents next (history.step action) := by
  cases action with
  | push id ts => exact rep.push id ts
  | extract id =>
    obtain ⟨_, next, isNext, holds, _⟩ := rep.extract distinct id
    exact ⟨next, by rw [RingBuffer.step, isNext]; rfl, holds⟩
  | reset => exact ⟨ring.reset, rfl, represents_reset⟩

theorem run_represents (actions : List Action)
    (distinct : ∀ earlier, earlier <+: actions -> (History.run earlier).Distinct) :
    ∃ ring, run actions = some ring ∧ Represents ring (History.run actions) := by
  induction actions using List.reverseRecOn with
  | nil => exact ⟨{}, rfl, @represents_reset {}⟩
  | append_singleton actions action ih =>
    have within := List.prefix_append actions [action]
    obtain ⟨ring, isRing, rep⟩ := ih fun earlier isPrefix =>
      distinct earlier (isPrefix.trans within)
    obtain ⟨next, isNext, holds⟩ := rep.step (distinct actions within) action
    refine ⟨next, ?_, ?_⟩
    · rw [run, List.foldlM_append]
      rw [run] at isRing
      simp [isRing, isNext]
    · rw [History.run, List.foldl_append]
      exact holds

/-- Over every run the indices stay inside of the ring and its size is that of what it holds,
and an identifier is found exactly when it is among the last pushed and not extracted. -/
theorem run_extracts (trace : Trace) :
    ∃ ring, run trace.actions = some ring ∧ ring.nextPush < capacity ∧
      ring.currentSize = ring.occupied.card ∧
      ∀ id, ∃ result next, ring.extract id = some (result, next) ∧
        ∀ ts, result = some ts ↔ ∃ back pushed,
          (History.run trace.actions).Holds id back pushed ∧ pushed.ts = ts := by
  obtain ⟨ring, isRing, rep⟩ := run_represents trace.actions trace.distinct
  refine ⟨ring, isRing, rep.within, rep.counted, fun id => ?_⟩
  have distinct := trace.distinct trace.actions (List.prefix_refl _)
  obtain ⟨result, next, isNext, _, answers⟩ := rep.extract distinct id
  exact ⟨result, next, isNext, answers⟩

end RingBuffer

def Action.pushed? : Action -> Option Nat
  | .push id _ => some id
  | _ => none

/-- The history has the last identifiers that were pushed. -/
theorem History.ids_prefix (actions : List Action) :
    (History.run actions).map Pushed.id <+: (actions.filterMap Action.pushed?).reverse := by
  induction actions using List.reverseRecOn with
  | nil => exact List.nil_prefix
  | append_singleton actions action ih =>
    have isStep : History.run (actions ++ [action]) = (History.run actions).step action :=
      List.foldl_append
    rw [isStep, List.filterMap_append, List.reverse_append]
    cases action with
    | push id => exact (List.prefix_cons_inj id).mpr ih
    | extract id =>
      have sameIds : ((History.run actions).step (.extract id)).map Pushed.id =
          (History.run actions).map Pushed.id := by
        refine List.ext_getElem (by simp [History.step]) fun place _ _ => ?_
        simp only [History.step, List.getElem_map, List.getElem_mapIdx]
        split <;> rfl
      rw [sameIds]
      exact ih
    | reset => exact List.nil_prefix

/-- Identifiers that are pushed once are distinct at every time. -/
def Trace.ofNodup (actions : List Action) (once : (actions.filterMap Action.pushed?).Nodup) :
    Trace where
  actions := actions
  distinct := by
    intro earlier isPrefix left _ right _ first second isFirst isSecond same
    have nodup : ((History.run earlier).map Pushed.id).Nodup :=
      (List.nodup_reverse.mpr (once.sublist (isPrefix.filterMap _).sublist)).sublist
        (History.ids_prefix earlier).sublist
    have inside := (List.getElem?_eq_some_iff.mp isFirst).1
    refine (List.getElem?_inj (by simpa using inside) nodup).mp ?_
    rw [List.getElem?_map, List.getElem?_map, isFirst, isSecond, Option.map_some, Option.map_some,
      same]

/-- The ring is filled and two slots are written again, then two entries are extracted, the
later one first. -/
def wrapped : Trace :=
  .ofNodup ((List.range 130).map (fun id => .push id id) ++ [.extract 128, .extract 7])
    (by decide +kernel)

set_option maxRecDepth 4096 in
theorem RingBuffer.run_extracts_wrapped : ∃ ring next, run wrapped.actions = some ring ∧
    ring.extract 100 = some (some 100, next) := by
  obtain ⟨ring, isRing, _, _, extracts⟩ := run_extracts wrapped
  obtain ⟨_, next, isNext, answers⟩ := extracts 100
  have isResult := (answers 100).mpr
    ⟨29, ⟨100, 100, false⟩, ⟨by decide, rfl, rfl, rfl⟩, rfl⟩
  rw [isResult] at isNext
  exact ⟨ring, next, isRing, isNext⟩

end NtfCore.Ntcu
