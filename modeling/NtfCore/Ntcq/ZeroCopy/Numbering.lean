import NtfCore.Ntcq.ZeroCopy.Queue

/-!
Contract: which system calls the entries of a zero-copy queue wait for.

Owns: the relation between a queue and the numbers of the system calls that have not
been acknowledged, for an arbitrary assignment of calls to groups; and that each
operation of the queue keeps it, whatever the order in which calls are acknowledged.
-/

namespace NtfCore.Ntcq

open List ZeroCopyEntry

variable {Data Context Callback : Type}

open ZeroCopyRange

namespace ZeroCopyEntry

/-- Extending an entry past all that it requires adds the counter in front of the new
end, and loses nothing. Counters in between may be added too. -/
theorem setMaxCounter_covers {entry : ZeroCopyEntry Data Context Callback} {next : Nat}
    (wellFormed : entry.WellFormed) (below : ∀ counter, entry.Requires counter -> counter < next) :
    (entry.setMaxCounter (next + 1)).WellFormed ∧ (entry.setMaxCounter (next + 1)).Requires next ∧
      (∀ counter, entry.Requires counter -> (entry.setMaxCounter (next + 1)).Requires counter) ∧
      ∀ counter, (entry.setMaxCounter (next + 1)).Requires counter -> counter < next + 1 := by
  obtain ⟨separated, rangeCases⟩ := wellFormed
  rcases eq_nil_or_concat entry.rangeSet with noSet | ⟨init, back, split⟩
  · have lower : entry.range.minCounter ≤ next := by
      rcases rangeCases with ⟨_, proper⟩ | isReset
      · refine Nat.le_of_lt (below _ ((requires_of_nil noSet _).mpr ?_))
        exact ⟨.refl, proper⟩
      · rw [isReset]
        exact Nat.zero_le _
    rw [setMaxCounter_of_nil noSet (next + 1)]
    refine ⟨⟨separated, .inl ⟨noSet, ?_⟩⟩, ?_, ?_, ?_⟩
    · unfold Proper
      dsimp only
      omega
    · rw [requires_of_nil (by exact noSet)]
      exact ⟨lower, Nat.lt_succ_self _⟩
    · intro counter required
      have bound := below counter required
      rw [requires_of_nil noSet] at required
      rw [requires_of_nil (by exact noSet)]
      exact ⟨required.1, Nat.lt_succ_of_lt bound⟩
    · intro counter required
      rw [requires_of_nil (by exact noSet)] at required
      exact required.2
  · rw [concat_eq_append] at split
    have isReset : entry.range = reset := by
      rcases rangeCases with ⟨empty, _⟩ | isReset
      · simp [split] at empty
      · exact isReset
    rw [split] at separated
    have backProper := separated.1 back (by simp)
    have order := (pairwise_append.mp separated.2).2.2
    have initSeparated : Separated init :=
      ⟨fun range mem => separated.1 range (by simp [mem]), (pairwise_append.mp separated.2).1⟩
    have backRequired : ∀ counter, back.Contains counter -> counter < next := by
      intro counter inside
      refine below counter ?_
      rw [requires_of_reset isReset, split]
      exact ⟨back, by simp, inside⟩
    have lower := backRequired back.minCounter ⟨.refl, backProper⟩
    rw [setMaxCounter_of_concat split (next + 1)]
    refine ⟨⟨?_, .inr isReset⟩, ?_, ?_, ?_⟩
    · refine Separated.append initSeparated
        (separated_singleton (by unfold Proper; dsimp only; omega)) ?_
      intro lesser mem _ isBack
      rw [mem_singleton.mp isBack]
      exact order lesser mem back (by simp)
    · rw [requires_of_reset (by exact isReset)]
      exact ⟨_, mem_append_right _ (mem_singleton.mpr rfl), Nat.le_of_lt lower, Nat.lt_succ_self _⟩
    · intro counter required
      have bound := below counter required
      rw [requires_of_reset isReset, split] at required
      rw [requires_of_reset (by exact isReset)]
      obtain ⟨range, mem, inside⟩ := required
      rcases mem_append.mp mem with inInit | isBack
      · exact ⟨range, mem_append_left _ inInit, inside⟩
      · rw [mem_singleton.mp isBack] at inside
        exact ⟨_, mem_append_right _ (mem_singleton.mpr rfl), inside.1, Nat.lt_succ_of_lt bound⟩
    · intro _ required
      rw [requires_of_reset (by exact isReset)] at required
      obtain ⟨range, mem, inside⟩ := required
      rcases mem_append.mp mem with inInit | isBack
      · have upper := order range inInit back (by simp)
        have inRange := inside.2
        omega
      · rw [mem_singleton.mp isBack] at inside
        exact inside.2

end ZeroCopyEntry

namespace ZeroCopyQueue

/-- Each entry that waits does so for numbers that were issued, each call of a group that
is awaited is one that the entry of the group requires, and there is one entry for a
group. -/
structure Covered (queue : ZeroCopyQueue Data Context Callback) (awaits : Nat -> Nat -> Prop) :
    Prop where
  wellFormed : ∀ entry ∈ queue.waitList, entry.WellFormed
  below : ∀ entry ∈ queue.waitList, ∀ counter, entry.Requires counter ->
    counter < queue.generator.next
  covers : ∀ group number, awaits group number ->
    ∃ entry ∈ queue.waitList, entry.group = group ∧ entry.Requires number
  increasing : (queue.waitList.map ZeroCopyEntry.group).Pairwise (· < ·)

variable {queue : ZeroCopyQueue Data Context Callback}

theorem Covered.mono {more fewer : Nat -> Nat -> Prop} (covered : Covered queue more)
    (implies : ∀ group number, fewer group number -> more group number) : Covered queue fewer :=
  { covered with covers := fun group number awaited =>
      covered.covers group number (implies group number awaited) }

variable {queue next : ZeroCopyQueue Data Context Callback} {awaits : Nat -> Nat -> Prop}

theorem Covered.of_eq (covered : Covered queue awaits) (sameWait : next.waitList = queue.waitList)
    (sameNext : next.generator.next = queue.generator.next) : Covered next awaits where
  wellFormed := sameWait ▸ covered.wellFormed
  below := by
    rw [sameWait, sameNext]
    exact covered.below
  covers := sameWait ▸ covered.covers
  increasing := sameWait ▸ covered.increasing

variable {group number : Nat} {callback : Option Callback} {context : Option Context}

theorem push_cases {data : Data}
    (taken : queue.push group data context callback = some (number, next)) :
    next = { queue with
      generator := queue.generator.issue.2
      waitList := queue.waitList ++
        [create group data context callback queue.generator.next] } := by
  unfold push at taken
  split at taken
  · exact (Prod.mk.inj (Option.some.inj taken)).2.symm
  · contradiction

theorem issue_next {gen : ZeroCopyCounterGenerator}
    (bound : gen.next + 1 < uint64Modulus) : gen.issue.2.next = gen.next + 1 :=
  Nat.mod_eq_of_lt bound

theorem Covered.push (covered : Covered queue awaits) {data : Data}
    (bound : queue.generator.next + 1 < uint64Modulus)
    (above : ∀ other ∈ queue.waitList.map ZeroCopyEntry.group, other < group)
    (taken : queue.push group data context callback = some (number, next)) :
    next.generator.next = queue.generator.next + 1 ∧
      next.waitList.map ZeroCopyEntry.group = queue.waitList.map ZeroCopyEntry.group ++ [group] ∧
      Covered next fun other number =>
        awaits other number ∨ other = group ∧ number = queue.generator.next := by
  obtain ⟨isGroup, _, noSet, isRange, _⟩ := create_spec group data context callback bound
  have isNext := issue_next bound
  have isCreated : ∀ counter, (create group data context callback
      queue.generator.next).Requires counter ↔ counter = queue.generator.next := by
    intro counter
    rw [requires_of_nil noSet, isRange]
    unfold Contains
    dsimp only
    omega
  have isGroups : next.waitList.map ZeroCopyEntry.group =
      queue.waitList.map ZeroCopyEntry.group ++ [group] := by
    rw [push_cases taken, map_append, map_singleton, isGroup]
  rw [push_cases taken] at isGroups ⊢
  refine ⟨isNext, isGroups, ?_⟩
  constructor
  case wellFormed =>
    intro entry mem
    rcases mem_append.mp mem with before | isNew
    · exact covered.wellFormed entry before
    · rw [mem_singleton.mp isNew]
      refine ⟨?_, .inl ⟨noSet, ?_⟩⟩
      · rw [noSet]
        exact separated_nil
      · rw [isRange]
        exact Nat.lt_succ_self _
  case below =>
    intro entry mem counter required
    rw [isNext]
    rcases mem_append.mp mem with before | isNew
    · exact Nat.lt_succ_of_lt (covered.below entry before counter required)
    · rw [mem_singleton.mp isNew, isCreated] at required
      rw [required]
      exact Nat.lt_succ_self _
  case covers =>
    rintro other number (awaited | ⟨isOther, isNumber⟩)
    · obtain ⟨entry, mem, sameGroup, required⟩ := covered.covers other number awaited
      exact ⟨entry, mem_append_left _ mem, sameGroup, required⟩
    · refine ⟨_, mem_append_right _ (mem_singleton.mpr rfl), ?_, ?_⟩
      · rw [isGroup, isOther]
      · exact (isCreated number).mpr isNumber
  case increasing =>
    rw [isGroups]
    refine pairwise_append.mpr ⟨covered.increasing, pairwise_singleton _ _, ?_⟩
    intro other mem _ isLast
    rw [mem_singleton.mp isLast]
    exact above other mem

theorem Covered.extend (covered : Covered queue awaits)
    (bound : queue.generator.next + 1 < uint64Modulus)
    (taken : queue.extend group = some (number, next)) :
    next.generator.next = queue.generator.next + 1 ∧
      next.waitList.map ZeroCopyEntry.group = queue.waitList.map ZeroCopyEntry.group ∧
      Covered next fun other number =>
        awaits other number ∨ other = group ∧ number = queue.generator.next := by
  unfold ZeroCopyQueue.extend at taken
  cases isLast : queue.waitList.getLast? with
  | none =>
    rw [isLast] at taken
    contradiction
  | some last =>
    obtain ⟨_, isWait⟩ := getLast?_eq_some_iff.mp isLast
    rw [isLast] at taken
    dsimp only at taken
    by_cases isGroup : last.group = group
    · rw [if_pos isGroup, isWait, dropLast_concat,
        show (queue.generator.issue.1 + 1) % uint64Modulus = queue.generator.next + 1 from
          Nat.mod_eq_of_lt bound] at taken
      have isNext := (Prod.mk.inj (Option.some.inj taken)).2
      have isMem : last ∈ queue.waitList := by
        rw [isWait]
        exact mem_append_right _ (mem_singleton.mpr rfl)
      obtain ⟨wellFormed, requiresNext, keeps, stays⟩ := setMaxCounter_covers
        (covered.wellFormed last isMem) (covered.below last isMem)
      have header := setMaxCounter_header last (queue.generator.next + 1)
      have isGroups : next.waitList.map ZeroCopyEntry.group =
          queue.waitList.map ZeroCopyEntry.group := by
        rw [← isNext, isWait, map_append, map_append, map_singleton, map_singleton, header.group]
      have isIssued : next.generator.next = queue.generator.next + 1 := by
        rw [← isNext]
        exact issue_next bound
      refine ⟨isIssued, isGroups, ?_⟩
      constructor
      case wellFormed =>
        rw [← isNext]
        intro entry mem
        rcases mem_append.mp mem with before | isNew
        · refine covered.wellFormed entry ?_
          rw [isWait]
          exact mem_append_left _ before
        · rw [mem_singleton.mp isNew]
          exact wellFormed
      case below =>
        rw [isIssued, ← isNext]
        intro entry mem counter required
        rcases mem_append.mp mem with before | isNew
        · refine Nat.lt_succ_of_lt (covered.below entry ?_ counter required)
          rw [isWait]
          exact mem_append_left _ before
        · rw [mem_singleton.mp isNew] at required
          exact stays counter required
      case covers =>
        rw [← isNext]
        rintro other number (awaited | ⟨isOther, isNumber⟩)
        · obtain ⟨entry, mem, sameGroup, required⟩ := covered.covers other number awaited
          rw [isWait] at mem
          rcases mem_append.mp mem with before | isOld
          · exact ⟨entry, mem_append_left _ before, sameGroup, required⟩
          · rw [mem_singleton.mp isOld] at sameGroup required
            exact ⟨_, mem_append_right _ (mem_singleton.mpr rfl),
              header.group.trans sameGroup, keeps number required⟩
        · refine ⟨_, mem_append_right _ (mem_singleton.mpr rfl), ?_, ?_⟩
          · rw [header.group, isGroup, isOther]
          · rw [isNumber]
            exact requiresNext
      case increasing =>
        rw [isGroups]
        exact covered.increasing
    · rw [if_neg isGroup] at taken
      contradiction

/-! ## The end of calls, and acknowledgements -/

variable {entry : ZeroCopyEntry Data Context Callback} {counter : Nat}

theorem incomplete_of_requires (wellFormed : entry.WellFormed) (required : entry.Requires counter) :
    entry.complete = false := by
  rw [Bool.eq_false_iff]
  intro complete
  exact ((complete_iff wellFormed).mp complete).2 counter required

theorem Covered.frame (covered : Covered queue awaits) {group : Nat}
    (taken : queue.frame group = some next) : next.generator = queue.generator ∧
      (next.waitList.map ZeroCopyEntry.group).Sublist (queue.waitList.map ZeroCopyEntry.group) ∧
      Covered next awaits := by
  unfold ZeroCopyQueue.frame at taken
  cases isLast : queue.waitList.getLast? with
  | none =>
    rw [isLast] at taken
    contradiction
  | some last =>
    obtain ⟨init, isWait⟩ := getLast?_eq_some_iff.mp isLast
    have inWait : ∀ entry ∈ init, entry ∈ queue.waitList := by
      intro entry mem
      rw [isWait]
      exact mem_append_left _ mem
    have lastInWait : last ∈ queue.waitList := by
      rw [isWait]
      exact mem_append_right _ (mem_singleton.mpr rfl)
    rw [isLast] at taken
    dsimp only at taken
    split at taken
    · rw [isWait, dropLast_concat] at taken
      have wellFormed : ({ last with framed := true } :
          ZeroCopyEntry Data Context Callback).WellFormed := covered.wellFormed last lastInWait
      split at taken
      · rename_i complete
        cases taken
        have fewer : (init.map ZeroCopyEntry.group).Sublist
            (queue.waitList.map ZeroCopyEntry.group) := by
          rw [isWait, map_append]
          exact sublist_append_left _ _
        refine ⟨rfl, fewer, ?_⟩
        constructor
        case wellFormed => exact fun entry mem => covered.wellFormed entry (inWait entry mem)
        case below => exact fun entry mem => covered.below entry (inWait entry mem)
        case covers =>
          intro other number awaited
          obtain ⟨entry, mem, sameGroup, required⟩ := covered.covers other number awaited
          rw [isWait] at mem
          rcases mem_append.mp mem with before | isOld
          · exact ⟨entry, before, sameGroup, required⟩
          · rw [mem_singleton.mp isOld] at required
            exact absurd complete (Bool.eq_false_iff.mp (incomplete_of_requires wellFormed required))
        case increasing => exact covered.increasing.sublist fewer
      · cases taken
        have same : (init ++ [{ last with framed := true }]).map ZeroCopyEntry.group =
            queue.waitList.map ZeroCopyEntry.group := by
          rw [isWait, map_append, map_append]
          rfl
        refine ⟨rfl, same ▸ Sublist.refl _, ?_⟩
        constructor
        case wellFormed =>
          intro entry mem
          rcases mem_append.mp mem with before | isNew
          · exact covered.wellFormed entry (inWait entry before)
          · rw [mem_singleton.mp isNew]
            exact wellFormed
        case below =>
          intro entry mem counter required
          rcases mem_append.mp mem with before | isNew
          · exact covered.below entry (inWait entry before) counter required
          · rw [mem_singleton.mp isNew] at required
            exact covered.below last lastInWait counter required
        case covers =>
          intro other number awaited
          obtain ⟨entry, mem, sameGroup, required⟩ := covered.covers other number awaited
          rw [isWait] at mem
          rcases mem_append.mp mem with before | isOld
          · exact ⟨entry, mem_append_left _ before, sameGroup, required⟩
          · rw [mem_singleton.mp isOld] at sameGroup required
            exact ⟨_, mem_append_right _ (mem_singleton.mpr rfl), sameGroup, required⟩
        case increasing =>
          rw [same]
          exact covered.increasing
    · contradiction

variable {entries : List (ZeroCopyEntry Data Context Callback)} {range : ZeroCopyRange}

section

variable (proper : range.Proper) (wellFormed : ∀ entry ∈ entries, entry.WellFormed)
include proper wellFormed

/-- What the loop leaves in the wait list: entries that require what they did, but for
the completed range. -/
theorem updateLoop_origin : ∀ left ∈ (updateLoop range entries).1, left.WellFormed ∧
      ∃ entry ∈ entries, left.group = entry.group ∧
        ∀ counter, left.Requires counter -> entry.Requires counter := by
  induction entries with
  | nil => exact forall_mem_nil _
  | cons entry _ ih =>
    have inRest := ih fun other mem => wellFormed other (mem_cons_of_mem _ mem)
    obtain ⟨isWell, requires⟩ := matchCompleted_spec (wellFormed entry mem_cons_self) proper
    intro left mem
    rw [updateLoop] at mem
    split at mem
    · exact ⟨wellFormed left mem, left, mem, rfl, fun _ required => required⟩
    · dsimp only at mem
      split at mem
      · obtain ⟨leftWell, origin, isOrigin, found⟩ := inRest left mem
        exact ⟨leftWell, origin, mem_cons_of_mem _ isOrigin, found⟩
      · rcases mem_cons.mp mem with isMatched | inLater
        · rw [isMatched]
          exact ⟨isWell, entry, mem_cons_self, (matchCompleted_header entry range).group,
            fun counter required => ((requires counter).mp required).1⟩
        · obtain ⟨leftWell, origin, isOrigin, found⟩ := inRest left inLater
          exact ⟨leftWell, origin, mem_cons_of_mem _ isOrigin, found⟩

theorem updateLoop_stays (outside : ¬ range.Contains counter) (mem : entry ∈ entries)
    (required : entry.Requires counter) :
    ∃ left ∈ (updateLoop range entries).1, left.group = entry.group ∧ left.Requires counter := by
  induction entries with
  | nil => contradiction
  | cons first _ ih =>
    rw [updateLoop]
    split
    · exact ⟨entry, mem, rfl, required⟩
    · dsimp only
      rcases mem_cons.mp mem with isFirst | inRest
      · obtain ⟨isWell, requires⟩ := matchCompleted_spec (wellFormed first mem_cons_self) proper
        rw [isFirst] at required
        have remains := (requires counter).mpr ⟨required, outside⟩
        rw [if_neg (Bool.eq_false_iff.mp (incomplete_of_requires isWell remains)), isFirst]
        exact ⟨_, mem_cons_self, (matchCompleted_header first range).group, remains⟩
      · obtain ⟨left, isLeft, sameGroup, remains⟩ := ih
          (fun other isOther => wellFormed other (mem_cons_of_mem _ isOther)) inRest
        split
        · exact ⟨left, isLeft, sameGroup, remains⟩
        · exact ⟨left, mem_cons_of_mem _ isLeft, sameGroup, remains⟩

end

theorem updateLoop_groups (range : ZeroCopyRange)
    (entries : List (ZeroCopyEntry Data Context Callback)) :
    ((updateLoop range entries).1.map ZeroCopyEntry.group).Sublist
      (entries.map ZeroCopyEntry.group) := by
  induction entries with
  | nil => exact Sublist.refl _
  | cons entry _ ih =>
    rw [updateLoop]
    by_cases past : range.maxCounter < entry.minCounter
    · rw [if_pos past]
    · rw [if_neg past]
      dsimp only
      split
      · exact ih.cons _
      · rw [map_cons, map_cons, (matchCompleted_header entry range).group]
        exact ih.cons_cons _

theorem update_next (gen : ZeroCopyCounterGenerator) (zeroCopy : ZeroCopy) :
    (gen.update zeroCopy).2.next = gen.next := by
  unfold ZeroCopyCounterGenerator.update
  split
  · exact gen.bump_next
  · dsimp only
    split
    · exact gen.bump_next
    · rfl

theorem Covered.update (covered : Covered queue awaits) {zeroCopy : ZeroCopy}
    (proper : (queue.generator.update zeroCopy).1.Proper) :
    (queue.update zeroCopy).generator.next = queue.generator.next ∧
      ((queue.update zeroCopy).waitList.map ZeroCopyEntry.group).Sublist
        (queue.waitList.map ZeroCopyEntry.group) ∧
      Covered (queue.update zeroCopy) fun group number =>
        awaits group number ∧ ¬ (queue.generator.update zeroCopy).1.Contains number := by
  have isNext : (queue.update zeroCopy).generator.next = queue.generator.next :=
    update_next queue.generator zeroCopy
  have fewer : ((queue.update zeroCopy).waitList.map group).Sublist (queue.waitList.map group) :=
    updateLoop_groups _ _
  refine ⟨isNext, fewer, ?_⟩
  constructor
  case wellFormed =>
    exact fun left mem => (updateLoop_origin proper covered.wellFormed left mem).1
  case below =>
    intro left mem counter required
    obtain ⟨_, entry, isEntry, _, implied⟩ := updateLoop_origin proper covered.wellFormed left mem
    rw [isNext]
    exact covered.below entry isEntry counter (implied counter required)
  case covers =>
    rintro group number ⟨awaited, outside⟩
    obtain ⟨_, mem, sameGroup, required⟩ := covered.covers group number awaited
    obtain ⟨left, isLeft, same, remains⟩ :=
      updateLoop_stays proper covered.wellFormed outside mem required
    exact ⟨left, isLeft, same.trans sameGroup, remains⟩
  case increasing => exact covered.increasing.sublist fewer

end ZeroCopyQueue

end NtfCore.Ntcq
