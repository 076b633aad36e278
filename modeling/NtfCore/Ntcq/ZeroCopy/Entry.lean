import NtfCore.Ntcq.ZeroCopy.Range

/-!
Contract: one entry of a zero-copy queue (`ntcq::ZeroCopyEntry`).

Owns: the entry, the setters of its counters, `match` with its two branches,
and `complete`; the set of counters an entry still requires; and what `match`
and the setters do to that set for an entry whose ranges are well formed.
-/

namespace NtfCore.Ntcq

open ZeroCopyRange List

/-- `ntcq::ZeroCopyEntry`. A null callback is `none`. The error of an entry is
never set by the queue and is left out. -/
structure ZeroCopyEntry (Data Context Callback : Type) where
  group : Nat := 0
  range : ZeroCopyRange := {}
  rangeSet : List ZeroCopyRange := []
  framed : Bool := false
  data : Option Data := none
  context : Option Context := none
  callback : Option Callback := none

namespace ZeroCopyEntry

variable {Data Context Callback : Type}

/-- `ZeroCopyEntry::setMinCounter`: the first range of the set, if there is a
set, else the range. -/
def setMinCounter (entry : ZeroCopyEntry Data Context Callback) (counter : Nat) :
    ZeroCopyEntry Data Context Callback :=
  match entry.rangeSet with
  | [] => { entry with range := { entry.range with minCounter := counter } }
  | front :: rest => { entry with rangeSet := { front with minCounter := counter } :: rest }

def setBackMax (counter : Nat) : List ZeroCopyRange -> List ZeroCopyRange
  | [] => []
  | [back] => [{ back with maxCounter := counter }]
  | front :: second :: rest => front :: setBackMax counter (second :: rest)

/-- `ZeroCopyEntry::setMaxCounter`: the last range of the set, if there is a
set, else the range. -/
def setMaxCounter (entry : ZeroCopyEntry Data Context Callback) (counter : Nat) :
    ZeroCopyEntry Data Context Callback :=
  match entry.rangeSet with
  | [] => { entry with range := { entry.range with maxCounter := counter } }
  | front :: rest => { entry with rangeSet := setBackMax counter (front :: rest) }

/-- `ZeroCopyEntry::minCounter`. -/
def minCounter (entry : ZeroCopyEntry Data Context Callback) : Nat :=
  match entry.rangeSet with
  | [] => entry.range.minCounter
  | front :: _ => front.minCounter

/-- One iteration of the loop of `ZeroCopyEntry::match` over the range set: the
ranges that replace `required`. -/
def matchRange (completed required : ZeroCopyRange) : List ZeroCopyRange :=
  let intersection := intersect required completed
  if intersection.empty then
    [required]
  else
    let (pending, overflow) := difference required intersection
    (if pending.empty then [] else [pending]) ++ (if overflow.empty then [] else [overflow])

/-- `ZeroCopyEntry::match`. -/
def matchCompleted (entry : ZeroCopyEntry Data Context Callback) (completed : ZeroCopyRange) :
    ZeroCopyEntry Data Context Callback :=
  match entry.rangeSet with
  | [] =>
    let intersection := intersect entry.range completed
    if intersection.empty then
      entry
    else
      let (pending, overflow) := difference entry.range intersection
      if overflow.empty then
        { entry with range := pending }
      else
        { entry with rangeSet := [pending, overflow], range := reset }
  | front :: rest => { entry with rangeSet := (front :: rest).flatMap (matchRange completed) }

/-- `ZeroCopyEntry::complete`. -/
def complete (entry : ZeroCopyEntry Data Context Callback) : Bool :=
  if entry.framed then
    match entry.rangeSet with
    | [] => entry.range.empty
    | front :: rest => (front :: rest).all ZeroCopyRange.empty
  else false

/-! ## The counters an entry requires -/

def ranges (entry : ZeroCopyEntry Data Context Callback) : List ZeroCopyRange :=
  match entry.rangeSet with
  | [] => [entry.range]
  | front :: rest => front :: rest

def Requires (entry : ZeroCopyEntry Data Context Callback) (counter : Nat) : Prop :=
  ∃ range ∈ entry.ranges, range.Contains counter

def Separated (ranges : List ZeroCopyRange) : Prop :=
  (∀ range ∈ ranges, range.Proper) ∧
    ranges.Pairwise fun left right => left.maxCounter ≤ right.minCounter

def WellFormed (entry : ZeroCopyEntry Data Context Callback) : Prop :=
  Separated entry.rangeSet ∧
    ((entry.rangeSet = [] ∧ entry.range.Proper) ∨ entry.range = reset)

theorem separated_nil : Separated [] := ⟨by simp, Pairwise.nil⟩

theorem separated_singleton {range : ZeroCopyRange} (proper : range.Proper) : Separated [range] :=
  ⟨fun _ mem => (mem_singleton.mp mem) ▸ proper, pairwise_singleton _ _⟩

theorem Separated.append {left right : List ZeroCopyRange} (leftSeparated : Separated left)
    (rightSeparated : Separated right)
    (apart : ∀ lesser ∈ left, ∀ greater ∈ right, lesser.maxCounter ≤ greater.minCounter) :
    Separated (left ++ right) := by
  refine ⟨?_, pairwise_append.mpr ⟨leftSeparated.2, rightSeparated.2, apart⟩⟩
  intro range mem
  rcases mem_append.mp mem with inLeft | inRight
  · exact leftSeparated.1 range inLeft
  · exact rightSeparated.1 range inRight

/-! ## Matching one range -/

/-- What remains of a range after a completion: proper ranges in order, inside
the range, holding its counters that are not completed. -/
structure Remains (required completed : ZeroCopyRange) (remaining : List ZeroCopyRange) : Prop where
  separated : Separated remaining
  inside : ∀ range ∈ remaining,
    required.minCounter ≤ range.minCounter ∧ range.maxCounter ≤ required.maxCounter
  contains : ∀ counter, (∃ range ∈ remaining, range.Contains counter) ↔
    required.Contains counter ∧ ¬ completed.Contains counter

variable {required completed : ZeroCopyRange}

theorem remains_untouched (proper : required.Proper)
    (apart : ∀ counter, required.Contains counter -> ¬ completed.Contains counter) :
    Remains required completed [required] where
  separated := separated_singleton proper
  inside := by simp
  contains := by
    intro counter
    simp only [mem_singleton, exists_eq_left]
    exact ⟨fun inside => ⟨inside, apart counter inside⟩, fun both => both.1⟩

theorem overlap_of_intersect (proper : required.Proper) (completedProper : completed.Proper)
    (meets : ¬ (intersect required completed).empty = true) :
    max required.minCounter completed.minCounter <
      min required.maxCounter completed.maxCounter := by
  rw [intersect_empty_iff proper completedProper] at meets
  push Not at meets
  obtain ⟨_, inRequired, inCompleted⟩ := meets
  unfold Contains at inRequired inCompleted
  omega

def pieces (parts : ZeroCopyRange × ZeroCopyRange) : List ZeroCopyRange :=
  (if parts.1.empty then [] else [parts.1]) ++ (if parts.2.empty then [] else [parts.2])

theorem remains_difference (overlap : max required.minCounter completed.minCounter <
      min required.maxCounter completed.maxCounter) :
    Remains required completed (pieces (difference required (intersect required completed))) := by
  rw [difference_intersect overlap]
  obtain ⟨a, b⟩ := required
  obtain ⟨p, q⟩ := completed
  dsimp only at overlap ⊢
  by_cases left : a < p
  · rw [if_pos left]
    have leftPiece : ¬ a = p := by omega
    by_cases right : q < b
    · have rightPiece : ¬ q = b := by omega
      simp only [right, ↓reduceIte, pieces, empty, beq_iff_eq, leftPiece, rightPiece,
        singleton_append]
      constructor
      · show Separated ([⟨a, p⟩] ++ [⟨q, b⟩])
        refine Separated.append (separated_singleton left) (separated_singleton right) ?_
        simp only [mem_singleton, forall_eq]
        omega
      · simp only [mem_cons, not_mem_nil, or_false, forall_eq_or_imp, forall_eq]
        omega
      · intro counter
        simp only [mem_cons, not_mem_nil, or_false, exists_eq_or_imp, exists_eq_left, Contains]
        omega
    · simp only [right, ↓reduceIte, pieces, empty, beq_iff_eq, leftPiece, reset, append_nil]
      constructor
      · exact separated_singleton left
      · simp only [mem_singleton, forall_eq]
        omega
      · intro counter
        simp only [mem_singleton, exists_eq_left, Contains]
        omega
  · rw [if_neg left]
    by_cases right : q < b
    · have rightPiece : ¬ q = b := by omega
      simp only [right, ↓reduceIte, pieces, empty, beq_iff_eq, rightPiece, reset, append_nil]
      constructor
      · exact separated_singleton right
      · simp only [mem_singleton, forall_eq]
        omega
      · intro counter
        simp only [mem_singleton, exists_eq_left, Contains]
        omega
    · simp only [right, ↓reduceIte, pieces, empty, reset, beq_self_eq_true, append_nil]
      constructor
      · exact separated_nil
      · simp
      · intro _
        simp only [not_mem_nil, false_and, exists_false, Contains, false_iff]
        omega

theorem remains_matchRange (proper : required.Proper) (completedProper : completed.Proper) :
    Remains required completed (matchRange completed required) := by
  unfold matchRange
  dsimp only
  split
  · rename_i apart
    exact remains_untouched proper ((intersect_empty_iff proper completedProper).mp apart)
  · rename_i meets
    exact remains_difference (overlap_of_intersect proper completedProper meets)

/-! ## Matching an entry -/

variable {ranges : List ZeroCopyRange} {completed : ZeroCopyRange}

theorem separated_flatMap_matchRange (completedProper : completed.Proper)
    (separated : Separated ranges) : Separated (ranges.flatMap (matchRange completed)) := by
  induction ranges with
  | nil => exact separated_nil
  | cons front rest ih =>
    have frontProper := separated.1 front (by simp)
    have restSeparated : Separated rest :=
      ⟨fun range mem => separated.1 range (by simp [mem]), separated.2.of_cons⟩
    have frontRemains := remains_matchRange frontProper completedProper
    refine Separated.append frontRemains.separated (ih restSeparated) ?_
    intro lesser lesserMember greater greaterMember
    obtain ⟨source, sourceMem, inSource⟩ := mem_flatMap.mp greaterMember
    have sourceRemains := remains_matchRange (restSeparated.1 source sourceMem) completedProper
    have order := rel_of_pairwise_cons separated.2 sourceMem
    have below := (frontRemains.inside lesser lesserMember).2
    have above := (sourceRemains.inside greater inSource).1
    omega

theorem flatMap_matchRange_contains (completedProper : completed.Proper)
    (proper : ∀ range ∈ ranges, range.Proper) (counter : Nat) :
    (∃ range ∈ ranges.flatMap (matchRange completed), range.Contains counter) ↔
      (∃ range ∈ ranges, range.Contains counter) ∧ ¬ completed.Contains counter := by
  constructor
  · rintro ⟨range, mem, inside⟩
    obtain ⟨source, sourceMem, inSource⟩ := mem_flatMap.mp mem
    have remains := remains_matchRange (proper source sourceMem) completedProper
    have split := (remains.contains counter).mp ⟨range, inSource, inside⟩
    exact ⟨⟨source, sourceMem, split.1⟩, split.2⟩
  · rintro ⟨⟨source, sourceMem, inside⟩, notCompleted⟩
    have remains := remains_matchRange (proper source sourceMem) completedProper
    obtain ⟨range, inSource, inRange⟩ := (remains.contains counter).mpr ⟨inside, notCompleted⟩
    exact ⟨range, mem_flatMap.mpr ⟨source, sourceMem, inSource⟩, inRange⟩

/-- The ranges are proper, and no two share a counter, in whatever order they are. -/
def Apart (ranges : List ZeroCopyRange) : Prop :=
  (∀ range ∈ ranges, range.Proper) ∧
    ranges.Pairwise fun left right => ∀ counter, left.Contains counter -> ¬ right.Contains counter

theorem Separated.apart (separated : Separated ranges) : Apart ranges := by
  refine ⟨separated.1, separated.2.imp fun before counter inLeft inRight => ?_⟩
  unfold Contains at inLeft inRight
  omega

theorem Apart.flatMap_matchRange (apart : Apart ranges) (proper : completed.Proper) :
    Apart (ranges.flatMap (matchRange completed)) := by
  have remains := fun source mem => remains_matchRange (apart.1 source mem) proper
  refine ⟨?_, pairwise_flatMap.mpr ⟨?_, ?_⟩⟩
  · intro range mem
    obtain ⟨source, isSource, inSource⟩ := mem_flatMap.mp mem
    exact (remains source isSource).separated.1 range inSource
  · exact fun source mem => (remains source mem).separated.apart.2
  · refine apart.2.imp_of_mem ?_
    intro _ _ isLeft isRight disjoint left inLeft right inRight counter inside within
    exact disjoint counter (((remains _ isLeft).contains counter).mp ⟨left, inLeft, inside⟩).1
      (((remains _ isRight).contains counter).mp ⟨right, inRight, within⟩).1

theorem intersect_of_improper (improper : ¬ completed.Proper) (required : ZeroCopyRange) :
    (intersect required completed).empty = true := by
  unfold Proper at improper
  unfold intersect
  dsimp only
  split
  · rw [empty_iff]
    dsimp only
    omega
  · rfl

variable {entry : ZeroCopyEntry Data Context Callback}

theorem requires_of_nil (noSet : entry.rangeSet = []) (counter : Nat) :
    entry.Requires counter ↔ entry.range.Contains counter := by
  simp [Requires, ranges, noSet]

theorem requires_of_ne_nil (someSet : entry.rangeSet ≠ []) (counter : Nat) :
    entry.Requires counter ↔ ∃ range ∈ entry.rangeSet, range.Contains counter := by
  obtain ⟨_, _, split⟩ := exists_cons_of_ne_nil someSet
  simp [Requires, ranges, split]

/-- With the range outside of the set reset, only the set matters. -/
theorem requires_of_reset (isReset : entry.range = reset) (counter : Nat) :
    entry.Requires counter ↔ ∃ range ∈ entry.rangeSet, range.Contains counter := by
  by_cases noSet : entry.rangeSet = []
  · rw [requires_of_nil noSet, isReset, noSet]
    simp
  · exact requires_of_ne_nil noSet counter

/-- The fields `match` does not touch. -/
structure SameHeader (left right : ZeroCopyEntry Data Context Callback) : Prop where
  group : left.group = right.group
  framed : left.framed = right.framed
  data : left.data = right.data
  context : left.context = right.context
  callback : left.callback = right.callback

theorem matchCompleted_header (entry : ZeroCopyEntry Data Context Callback)
    (completed : ZeroCopyRange) : SameHeader (entry.matchCompleted completed) entry := by
  unfold matchCompleted
  split
  · dsimp only
    split
    · exact ⟨rfl, rfl, rfl, rfl, rfl⟩
    · split <;> exact ⟨rfl, rfl, rfl, rfl, rfl⟩
  · exact ⟨rfl, rfl, rfl, rfl, rfl⟩

/-- The branch of `match` without a range set, on a range that overlaps. -/
theorem matchCompleted_of_overlap (noSet : entry.rangeSet = [])
    (overlap : max entry.range.minCounter completed.minCounter <
      min entry.range.maxCounter completed.maxCounter) :
    (entry.matchCompleted completed).WellFormed ∧
      ∀ counter, (entry.matchCompleted completed).Requires counter ↔
        entry.range.Contains counter ∧ ¬ completed.Contains counter := by
  have remains := remains_difference overlap
  have meets : (intersect entry.range completed).empty = false := by
    rw [intersect_of_overlap overlap]
    exact Proper.not_empty overlap
  cases parts : difference entry.range (intersect entry.range completed) with
  | mk pending overflow =>
    rw [parts] at remains
    have matched : entry.matchCompleted completed =
        if overflow.empty then { entry with range := pending }
        else { entry with rangeSet := [pending, overflow], range := reset } := by
      unfold matchCompleted
      simp only [noSet, meets, parts, Bool.false_eq_true, ↓reduceIte]
    have shape := difference_intersect overlap
    rw [parts] at shape
    by_cases whole : overflow.empty = true
    · rw [matched, if_pos whole]
      by_cases nothing : pending.empty = true
      · have pendingReset : pending = reset := by
          split at shape
          · rename_i left
            rw [Prod.mk.injEq] at shape
            rw [shape.1, empty_iff] at nothing
            dsimp only at nothing
            omega
          · split at shape
            · rename_i right
              rw [Prod.mk.injEq] at shape
              rw [shape.1, empty_iff] at nothing
              dsimp only at nothing
              omega
            · exact (Prod.mk.inj shape).1
        refine ⟨⟨by simpa [noSet] using separated_nil, .inr pendingReset⟩, ?_⟩
        intro counter
        rw [← remains.contains counter, requires_of_reset pendingReset]
        simp [noSet, pieces, nothing, whole]
      · have pendingOnly : pieces (pending, overflow) = [pending] := by
          simp [pieces, nothing, whole]
        rw [pendingOnly] at remains
        have pendingProper := remains.separated.1 pending (by simp)
        refine ⟨⟨by simpa [noSet] using separated_nil, .inl ⟨noSet, pendingProper⟩⟩, ?_⟩
        intro counter
        rw [← remains.contains counter, requires_of_nil (by exact noSet)]
        simp
    · rw [matched, if_neg whole]
      have pendingKept : pending.empty = false := by
        split at shape
        · rename_i left
          rw [(Prod.mk.inj shape).1]
          exact Proper.not_empty left
        · split at shape
          · exact absurd (by rw [(Prod.mk.inj shape).2]; rfl) whole
          · exact absurd (by rw [(Prod.mk.inj shape).2]; rfl) whole
      have both : pieces (pending, overflow) = [pending, overflow] := by
        simp [pieces, pendingKept, whole]
      rw [both] at remains
      refine ⟨⟨remains.separated, .inr rfl⟩, ?_⟩
      intro counter
      rw [← remains.contains counter, requires_of_reset rfl]

theorem matchCompleted_of_ne_nil (someSet : entry.rangeSet ≠ []) (completed : ZeroCopyRange) :
    entry.matchCompleted completed =
      { entry with rangeSet := entry.rangeSet.flatMap (matchRange completed) } := by
  obtain ⟨_, _, split⟩ := exists_cons_of_ne_nil someSet
  unfold matchCompleted
  simp only [split]

section

variable (wellFormed : entry.WellFormed)
include wellFormed

/-- `match` keeps an entry well formed and removes exactly the completed
counters from those it requires. -/
theorem matchCompleted_spec (completedProper : completed.Proper) :
    (entry.matchCompleted completed).WellFormed ∧
      ∀ counter, (entry.matchCompleted completed).Requires counter ↔
        entry.Requires counter ∧ ¬ completed.Contains counter := by
  obtain ⟨separated, rangeCases⟩ := wellFormed
  by_cases noSet : entry.rangeSet = []
  · by_cases apart : (intersect entry.range completed).empty = true
    · have unchanged : entry.matchCompleted completed = entry := by
        unfold matchCompleted
        simp only [noSet, apart, ↓reduceIte]
      rw [unchanged]
      refine ⟨⟨separated, rangeCases⟩, ?_⟩
      intro counter
      rw [requires_of_nil noSet]
      rcases rangeCases with ⟨_, proper⟩ | isReset
      · have disjoint := (intersect_empty_iff proper completedProper).mp apart
        exact ⟨fun inside => ⟨inside, disjoint counter inside⟩, fun both => both.1⟩
      · rw [isReset]
        simp
    · rcases rangeCases with ⟨_, proper⟩ | isReset
      · have spec := matchCompleted_of_overlap noSet
          (overlap_of_intersect proper completedProper apart)
        refine ⟨spec.1, ?_⟩
        intro counter
        rw [spec.2 counter, requires_of_nil noSet]
      · rw [isReset] at apart
        exact absurd (intersect_reset completed) apart
  · have isReset : entry.range = reset := by
      rcases rangeCases with ⟨empty, _⟩ | isReset
      · contradiction
      · exact isReset
    rw [matchCompleted_of_ne_nil noSet]
    refine ⟨⟨separated_flatMap_matchRange completedProper separated, .inr isReset⟩, ?_⟩
    intro counter
    rw [requires_of_reset isReset, requires_of_reset (by exact isReset)]
    exact flatMap_matchRange_contains completedProper separated.1 counter

/-- An entry is complete exactly when it is framed and requires nothing. -/
theorem complete_iff :
    entry.complete = true ↔ entry.framed = true ∧ ∀ counter, ¬ entry.Requires counter := by
  obtain ⟨separated, rangeCases⟩ := wellFormed
  unfold complete
  by_cases framed : entry.framed = true
  · simp only [framed, ↓reduceIte, true_and]
    cases noSet : entry.rangeSet with
    | nil =>
      simp only [requires_of_nil noSet]
      rcases rangeCases with ⟨_, proper⟩ | isReset
      · simp only [proper.not_empty, Bool.false_eq_true, false_iff, not_forall, not_not]
        exact ⟨entry.range.minCounter, .refl, proper⟩
      · simp [isReset]
    | cons front =>
      have frontProper := separated.1 front (by simp [noSet])
      have required : entry.Requires front.minCounter := by
        rw [requires_of_ne_nil (by simp [noSet])]
        exact ⟨front, by simp [noSet], .refl, frontProper⟩
      simp only [all_cons, frontProper.not_empty, Bool.false_and, Bool.false_eq_true,
        false_iff, not_forall, not_not]
      exact ⟨_, required⟩
  · simp [framed]

theorem minCounter_le {counter : Nat} (required : entry.Requires counter) :
    entry.minCounter ≤ counter := by
  cases noSet : entry.rangeSet with
  | nil =>
    rw [requires_of_nil noSet] at required
    simpa only [minCounter, noSet] using required.1
  | cons front =>
    rw [requires_of_ne_nil (by simp [noSet])] at required
    obtain ⟨_, mem, inside⟩ := required
    have separated := wellFormed.1
    rw [noSet] at mem separated
    simp only [minCounter, noSet]
    rcases mem_cons.mp mem with isFront | inRest
    · rw [← isFront]
      exact inside.1
    · have order := rel_of_pairwise_cons separated.2 inRest
      have proper := separated.1 front (by simp)
      have lower := inside.1
      unfold Proper at proper
      omega

end

/-- An entry with ranges to wait for, in any order. -/
def Pending (entry : ZeroCopyEntry Data Context Callback) : Prop :=
  Apart entry.rangeSet ∧ ((entry.rangeSet = [] ∧ entry.range.Proper) ∨ entry.range = reset)

theorem matchCompleted_of_improper (improper : ¬ completed.Proper) :
    entry.matchCompleted completed = entry := by
  have kept : matchRange completed = fun required => [required] := by
    funext required
    unfold matchRange
    rw [if_pos (intersect_of_improper improper required)]
  by_cases noSet : entry.rangeSet = []
  · unfold matchCompleted
    simp only [noSet, intersect_of_improper improper, ↓reduceIte]
  · rw [matchCompleted_of_ne_nil noSet, kept, flatMap_singleton']

theorem matchCompleted_pending (pending : entry.Pending) (completed : ZeroCopyRange) :
    (entry.matchCompleted completed).Pending ∧
      (Separated entry.rangeSet -> Separated (entry.matchCompleted completed).rangeSet) ∧
      ∀ counter, (entry.matchCompleted completed).Requires counter ↔
        entry.Requires counter ∧ ¬ completed.Contains counter := by
  by_cases proper : completed.Proper
  · by_cases noSet : entry.rangeSet = []
    · obtain ⟨⟨separated, rangeCases⟩, requires⟩ :=
        matchCompleted_spec ⟨noSet ▸ separated_nil, pending.2⟩ proper
      exact ⟨⟨separated.apart, rangeCases⟩, fun _ => separated, requires⟩
    · have isReset := pending.2.resolve_left fun both => noSet both.1
      rw [matchCompleted_of_ne_nil noSet]
      refine ⟨⟨pending.1.flatMap_matchRange proper, .inr isReset⟩,
        separated_flatMap_matchRange proper, ?_⟩
      intro counter
      rw [requires_of_reset isReset, requires_of_reset (by exact isReset)]
      exact flatMap_matchRange_contains proper pending.1.1 counter
  · rw [matchCompleted_of_improper proper]
    refine ⟨pending, id, fun counter => ?_⟩
    have outside : ¬ completed.Contains counter :=
      fun inside => proper (Nat.lt_of_le_of_lt inside.1 inside.2)
    exact (and_iff_left outside).symm

/-! ## Extending an entry -/

theorem setBackMax_concat (counter : Nat) (init : List ZeroCopyRange) (back : ZeroCopyRange) :
    setBackMax counter (init ++ [back]) = init ++ [{ back with maxCounter := counter }] := by
  induction init with
  | nil => rfl
  | cons _ rest ih =>
    cases rest with
    | nil => rfl
    | cons =>
      simp only [cons_append, setBackMax] at ih ⊢
      rw [ih]

theorem setMaxCounter_header (entry : ZeroCopyEntry Data Context Callback) (counter : Nat) :
    SameHeader (entry.setMaxCounter counter) entry := by
  unfold setMaxCounter
  split <;> exact ⟨rfl, rfl, rfl, rfl, rfl⟩

theorem setMaxCounter_of_nil (noSet : entry.rangeSet = []) (counter : Nat) :
    entry.setMaxCounter counter =
      { entry with range := { entry.range with maxCounter := counter } } := by
  unfold setMaxCounter
  simp only [noSet]

theorem setMaxCounter_of_concat {init : List ZeroCopyRange} {back : ZeroCopyRange}
    (shape : entry.rangeSet = init ++ [back]) (counter : Nat) : entry.setMaxCounter counter =
      { entry with rangeSet := init ++ [{ back with maxCounter := counter }] } := by
  rw [← setBackMax_concat, ← shape]
  cases split : entry.rangeSet with
  | nil => simp [split] at shape
  | cons => simp only [setMaxCounter, split]

variable {last : Nat} (wellFormed : entry.WellFormed)
  (greatest : ∀ counter, entry.Requires counter -> counter ≤ last)
include wellFormed greatest

/-- Extending an entry whose greatest required counter is `last` by the next
counter adds that counter and nothing else. -/
theorem setMaxCounter_spec (required : entry.Requires last) :
    (entry.setMaxCounter (last + 2)).WellFormed ∧
      ∀ counter, (entry.setMaxCounter (last + 2)).Requires counter ↔
        entry.Requires counter ∨ counter = last + 1 := by
  obtain ⟨separated, rangeCases⟩ := wellFormed
  rcases eq_nil_or_concat entry.rangeSet with noSet | ⟨init, back, split⟩
  · have extended := setMaxCounter_of_nil noSet (last + 2)
    rw [requires_of_nil noSet] at required
    have top := greatest (entry.range.maxCounter - 1)
    rw [requires_of_nil noSet] at top
    unfold Contains at required top
    have maxEq : entry.range.maxCounter = last + 1 := by omega
    rw [extended]
    refine ⟨⟨by simpa [noSet] using separated_nil, .inl ⟨noSet, ?_⟩⟩, ?_⟩
    · unfold Proper
      dsimp only
      omega
    · intro counter
      rw [requires_of_nil noSet counter, requires_of_nil (by exact noSet)]
      unfold Contains
      dsimp only
      omega
  · rw [concat_eq_append] at split
    have isReset : entry.range = reset := by
      rcases rangeCases with ⟨empty, _⟩ | isReset
      · simp [split] at empty
      · exact isReset
    have extended := setMaxCounter_of_concat split (last + 2)
    rw [split] at separated
    have backProper := separated.1 back (by simp)
    have order := (pairwise_append.mp separated.2).2.2
    have initSeparated : Separated init :=
      ⟨fun range mem => separated.1 range (by simp [mem]), (pairwise_append.mp separated.2).1⟩
    have top := greatest (back.maxCounter - 1)
    rw [requires_of_reset isReset, split] at top
    rw [requires_of_reset isReset, split] at required
    unfold Proper at backProper
    have backLe : back.maxCounter ≤ last + 1 := by
      have := top ⟨back, by simp, by unfold Contains; omega⟩
      omega
    have maxEq : back.maxCounter = last + 1 := by
      obtain ⟨range, mem, inside⟩ := required
      unfold Contains at inside
      rcases mem_append.mp mem with inInit | isBack
      · have := order range inInit back (by simp)
        omega
      · rw [mem_singleton.mp isBack] at inside
        omega
    rw [extended]
    refine ⟨⟨?_, .inr isReset⟩, ?_⟩
    · refine Separated.append initSeparated (separated_singleton (by unfold Proper; dsimp only; omega)) ?_
      intro lesser mem _ isBack
      rw [mem_singleton.mp isBack]
      exact order lesser mem back (by simp)
    · intro _
      rw [requires_of_reset (by exact isReset), requires_of_reset isReset, split]
      simp only [mem_append, mem_singleton, or_and_right, exists_or, exists_eq_left]
      rw [or_assoc]
      apply or_congr_right
      unfold Contains
      dsimp only
      omega

/-- Extending an entry up to and including the counter after `last`, when no
required counter exceeds `last`, always makes it require `last`. -/
theorem setMaxCounter_requires_last : (entry.setMaxCounter (last + 2)).Requires last := by
  obtain ⟨separated, rangeCases⟩ := wellFormed
  rcases eq_nil_or_concat entry.rangeSet with noSet | ⟨_, back, split⟩
  · have extended := setMaxCounter_of_nil noSet (last + 2)
    rw [extended, requires_of_nil (by exact noSet)]
    rcases rangeCases with ⟨_, proper⟩ | isReset
    · have low := greatest entry.range.minCounter
      rw [requires_of_nil noSet] at low
      have := low ⟨.refl, proper⟩
      unfold Contains
      dsimp only
      omega
    · rw [isReset]
      exact ⟨Nat.zero_le _, by dsimp only; omega⟩
  · rw [concat_eq_append] at split
    have extended := setMaxCounter_of_concat split (last + 2)
    have someSet : entry.rangeSet ≠ [] := by simp [split]
    have backProper := separated.1 back (by simp [split])
    have low := greatest back.minCounter
    rw [requires_of_ne_nil someSet] at low
    have := low ⟨back, by simp [split], .refl, backProper⟩
    rw [extended, requires_of_ne_nil (by simp)]
    exact ⟨_, mem_append_right _ (mem_singleton.mpr rfl), by
      unfold Contains
      dsimp only
      omega⟩

end ZeroCopyEntry

end NtfCore.Ntcq
