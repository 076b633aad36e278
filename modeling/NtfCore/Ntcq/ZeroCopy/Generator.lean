import NtfCore.Foundation.Run
import NtfCore.Ntcq.ZeroCopy.Range
import Mathlib.Data.List.Nodup

/-!
Contract: widening of the 32-bit counters of the kernel to 64-bit counters
(`ntcq::ZeroCopyCounterGenerator`).

Owns: `configure`, `next` and `update` with the 64-bit arithmetic of the
source; the session of a generator with a kernel that reports its own 32-bit
counters in order; and the theorem that the reported 64-bit ranges are exactly
the issued counters, through any number of wraparounds.
-/

namespace NtfCore.Ntcq

open NtfCore.Foundation List

/-- The largest `bsl::uint32_t`. -/
def uint32Max : Nat := 2 ^ 32 - 1

/-- `ntsa::ZeroCopy`: one notification of the kernel, for the 32-bit counters
`first` through `thru`, both inclusive. The bounds are those of the type of the
fields. The code of the notification is not read by the functions here. -/
structure ZeroCopy where
  first : Nat
  thru : Nat
  first_le : first ≤ uint32Max
  thru_le : thru ≤ uint32Max

/-- `ntcq::ZeroCopyCounterGenerator`. -/
structure ZeroCopyCounterGenerator where
  next : Nat := 0
  bias : Nat := 0
  generation : Nat := 0

namespace ZeroCopyCounterGenerator

/-- `ZeroCopyCounterGenerator::configure`. -/
def configure (next generation : Nat) : ZeroCopyCounterGenerator where
  next := next
  bias := generation * uint32Max % uint64Modulus
  generation := generation

/-- `ZeroCopyCounterGenerator::next`: the counter before the increment, and the
generator after it. -/
def issue (generator : ZeroCopyCounterGenerator) : Nat × ZeroCopyCounterGenerator :=
  (generator.next, { generator with next := (generator.next + 1) % uint64Modulus })

def bump (generator : ZeroCopyCounterGenerator) : ZeroCopyCounterGenerator :=
  { generator with
    bias := (generator.bias + uint32Max) % uint64Modulus
    generation := (generator.generation + 1) % uint64Modulus }

@[simp] theorem bump_next (generator : ZeroCopyCounterGenerator) :
    generator.bump.next = generator.next := by
  cases generator
  rfl

/-- `ZeroCopyCounterGenerator::update`. -/
def update (generator : ZeroCopyCounterGenerator) (zeroCopy : ZeroCopy) :
    ZeroCopyRange × ZeroCopyCounterGenerator :=
  let offset := (generator.bias + generator.generation) % uint64Modulus
  let minCounter := (offset + zeroCopy.first) % uint64Modulus
  if zeroCopy.thru < zeroCopy.first then
    let size := (uint32Max - zeroCopy.first) + zeroCopy.thru + 2
    (⟨minCounter, (minCounter + size) % uint64Modulus⟩, generator.bump)
  else
    (⟨minCounter, (offset + zeroCopy.thru + 1) % uint64Modulus⟩,
      if zeroCopy.thru = uint32Max then generator.bump else generator)

end ZeroCopyCounterGenerator

/-- The number of counters a notification reports, counting modulo `2 ^ 32`. -/
def ZeroCopy.size (zeroCopy : ZeroCopy) : Nat :=
  (zeroCopy.thru + 2 ^ 32 - zeroCopy.first) % 2 ^ 32 + 1

/-- A generator together with what it has returned, and with what the kernel
knows: the 32-bit counter its next notification starts from, and how many
issued counters it has not reported. -/
structure Session where
  generator : ZeroCopyCounterGenerator
  issued : List Nat := []
  ranges : List ZeroCopyRange := []
  expected : Nat
  outstanding : Nat := 0

/-- A session whose first counter is `first`, in the generation of `first`. The
generator of a new queue is the one for zero. -/
def Session.start (first : UInt64) : Session where
  generator := .configure first.toNat (first.toNat / 2 ^ 32)
  expected := first.toNat % 2 ^ 32

inductive GeneratorAction where
  | next
  | update (zeroCopy : ZeroCopy)

/-- One call. The kernel never has more than `2 ^ 32` counters outstanding, its
notification starts one after the end of the previous one, and it reports no
counter that was not issued. -/
def Session.step (session : Session) : GeneratorAction -> Option Session
  | .next =>
    if session.outstanding < 2 ^ 32 then
      let (counter, generator) := session.generator.issue
      some { session with
        generator := generator
        issued := session.issued ++ [counter]
        outstanding := session.outstanding + 1 }
    else none
  | .update zeroCopy =>
    if zeroCopy.first = session.expected ∧ zeroCopy.size ≤ session.outstanding then
      let (range, generator) := session.generator.update zeroCopy
      some { session with
        generator := generator
        ranges := session.ranges ++ [range]
        expected := (zeroCopy.thru + 1) % 2 ^ 32
        outstanding := session.outstanding - zeroCopy.size }
    else none

/-- The counters issued by `count` calls, starting at `first`. -/
def countersFrom (first count : Nat) : List Nat :=
  (List.range count).map fun index => (first + index) % uint64Modulus

theorem countersFrom_length (first count : Nat) : (countersFrom first count).length = count := by
  simp [countersFrom]

theorem countersFrom_add (first left right : Nat) : countersFrom first (left + right) =
      countersFrom first left ++ countersFrom (first + left) right := by
  simp only [countersFrom, range_add, map_append, map_map]
  congr 1
  apply map_congr_left
  intro _ _
  simp [Nat.add_assoc]

/-- Fewer than `2 ^ 64` consecutive counters are distinct. -/
theorem countersFrom_nodup (first count : Nat) (small : count ≤ uint64Modulus) :
    (countersFrom first count).Nodup := by
  refine Nodup.map_on ?_ nodup_range
  intro _ leftBelow _ rightBelow equal
  simp only [mem_range] at leftBelow rightBelow
  simp only [uint64Modulus] at small equal
  omega

/-- A range that starts at `start` modulo `2 ^ 64` and ends `size` later holds
exactly the counters issued there. -/
theorem counters_of_bounds {range : ZeroCopyRange} {start size : Nat}
    (lower : range.minCounter = start % uint64Modulus)
    (upper : range.maxCounter = (start + size) % uint64Modulus) (small : size < uint64Modulus) :
    range.counters = countersFrom start size := by
  have sizeEq : range.size = size := by
    simp only [ZeroCopyRange.size, lower, upper]
    simp only [uint64Modulus] at small ⊢
    omega
  unfold ZeroCopyRange.counters countersFrom
  rw [sizeEq, lower]
  apply map_congr_left
  intro _ _
  simp only [uint64Modulus]
  omega

/-- The generator is at unbounded position `reported`: the next notification
starts with the counter `reported`. -/
structure AtPosition (generator : ZeroCopyCounterGenerator) (expected reported : Nat) : Prop where
  expected_eq : expected = reported % 2 ^ 32
  generation_eq : generator.generation = reported / 2 ^ 32 % uint64Modulus
  bias_eq : generator.bias = reported / 2 ^ 32 * uint32Max % uint64Modulus

variable {generator : ZeroCopyCounterGenerator}

theorem AtPosition.offset {expected reported : Nat} (pos : AtPosition generator expected reported) :
    (generator.bias + generator.generation) % uint64Modulus =
      reported / 2 ^ 32 * 2 ^ 32 % uint64Modulus := by
  rw [pos.bias_eq, pos.generation_eq]
  simp only [uint32Max, uint64Modulus]
  omega

theorem ZeroCopy.size_pos (zeroCopy : ZeroCopy) : 0 < zeroCopy.size := Nat.succ_pos _

open ZeroCopy

theorem ZeroCopy.size_le (zeroCopy : ZeroCopy) : zeroCopy.size ≤ 2 ^ 32 := by
  unfold size
  omega

theorem AtPosition.same_generation {expected reported later : Nat}
    (pos : AtPosition generator expected reported) (same : later / 2 ^ 32 = reported / 2 ^ 32) :
    AtPosition generator (later % 2 ^ 32) later where
  expected_eq := rfl
  generation_eq := by rw [pos.generation_eq, same]
  bias_eq := by rw [pos.bias_eq, same]

open ZeroCopyCounterGenerator

/-- Reporting counters up to the next generation is what `bump` records. -/
theorem AtPosition.next_generation {expected reported later : Nat}
    (pos : AtPosition generator expected reported) (next : later / 2 ^ 32 = reported / 2 ^ 32 + 1) :
    AtPosition generator.bump (later % 2 ^ 32) later where
  expected_eq := rfl
  generation_eq := by
    rw [next, bump, pos.generation_eq, Nat.mod_add_mod]
  bias_eq := by
    rw [next, bump, pos.bias_eq, Nat.mod_add_mod, Nat.add_mul, Nat.one_mul]

variable {zeroCopy : ZeroCopy}

/-- A notification that starts at the position is widened to the counters that
follow it, and moves the position past them. -/
theorem update_atPosition {reported : Nat} (pos : AtPosition generator zeroCopy.first reported) :
    (generator.update zeroCopy).1.minCounter = reported % uint64Modulus ∧
      (generator.update zeroCopy).1.maxCounter = (reported + zeroCopy.size) % uint64Modulus ∧
      (generator.update zeroCopy).2.next = generator.next ∧
      AtPosition (generator.update zeroCopy).2 ((zeroCopy.thru + 1) % 2 ^ 32)
        (reported + zeroCopy.size) := by
  have expectedEq := pos.expected_eq
  have firstLe := zeroCopy.first_le
  have thruLe := zeroCopy.thru_le
  have lower : (reported / 2 ^ 32 * 2 ^ 32 % uint64Modulus + zeroCopy.first) % uint64Modulus =
      reported % uint64Modulus := by rw [Nat.mod_add_mod, expectedEq, Nat.div_add_mod']
  have expectedNext : (zeroCopy.thru + 1) % 2 ^ 32 = (reported + zeroCopy.size) % 2 ^ 32 := by
    simp only [size]
    omega
  rw [expectedNext]
  by_cases wraps : zeroCopy.thru < zeroCopy.first
  · have size : uint32Max - zeroCopy.first + zeroCopy.thru + 2 = zeroCopy.size := by
      simp only [uint32Max] at firstLe thruLe ⊢
      simp only [size]
      omega
    have generation : (reported + zeroCopy.size) / 2 ^ 32 = reported / 2 ^ 32 + 1 := by
      simp only [ZeroCopy.size]
      omega
    have updated : generator.update zeroCopy =
        (⟨reported % uint64Modulus, (reported + zeroCopy.size) % uint64Modulus⟩,
          generator.bump) := by
      unfold update
      rw [if_pos wraps, pos.offset, size, lower]
      dsimp only
      rw [Nat.mod_add_mod]
    rw [updated]
    exact ⟨rfl, rfl, generator.bump_next, pos.next_generation generation⟩
  · have size : zeroCopy.size = zeroCopy.thru - zeroCopy.first + 1 := by
      simp only [uint32Max] at firstLe thruLe
      simp only [size]
      omega
    have upper : (reported / 2 ^ 32 * 2 ^ 32 % uint64Modulus + zeroCopy.thru + 1) %
        uint64Modulus = (reported + zeroCopy.size) % uint64Modulus := by
      have total : reported / 2 ^ 32 * 2 ^ 32 + (zeroCopy.thru + 1) = reported + zeroCopy.size := by
        omega
      rw [Nat.add_assoc, Nat.mod_add_mod, total]
    have updated : generator.update zeroCopy =
        (⟨reported % uint64Modulus, (reported + zeroCopy.size) % uint64Modulus⟩,
          if zeroCopy.thru = uint32Max then generator.bump else generator) := by
      unfold update
      rw [if_neg wraps, pos.offset, lower, upper]
    rw [updated]
    by_cases last : zeroCopy.thru = uint32Max
    · have generation : (reported + zeroCopy.size) / 2 ^ 32 = reported / 2 ^ 32 + 1 := by
        simp only [uint32Max] at last firstLe
        omega
      rw [if_pos last]
      exact ⟨rfl, rfl, generator.bump_next, pos.next_generation generation⟩
    · have generation : (reported + zeroCopy.size) / 2 ^ 32 = reported / 2 ^ 32 := by
        simp only [uint32Max] at last thruLe
        omega
      rw [if_neg last]
      exact ⟨rfl, rfl, rfl, pos.same_generation generation⟩

def Session.reported (session : Session) : Nat := session.issued.length - session.outstanding

/-- The inductive invariant of a session that started at `first`. -/
structure Session.Invariant (first : Nat) (session : Session) : Prop where
  outstanding_le : session.outstanding ≤ session.issued.length
  next_eq : session.generator.next = (first + session.issued.length) % uint64Modulus
  issued_eq : session.issued = countersFrom first session.issued.length
  position : AtPosition session.generator session.expected (first + session.reported)
  reported_eq : session.ranges.flatMap ZeroCopyRange.counters =
    countersFrom first session.reported
  nonempty : ∀ range ∈ session.ranges, range.counters ≠ []
  contiguous : session.ranges.IsChain fun earlier later => earlier.maxCounter = later.minCounter
  last_eq : ∀ range ∈ session.ranges.getLast?,
    range.maxCounter = (first + session.reported) % uint64Modulus

open Session

theorem Session.start_invariant (first : UInt64) : (start first).Invariant first.toNat where
  outstanding_le := Nat.le_refl 0
  next_eq := by
    have bound := first.toNat_lt
    exact (Nat.mod_eq_of_lt bound).symm
  issued_eq := by simp [start, countersFrom]
  position := by
    have bound := first.toNat_lt
    have generation : first.toNat / 2 ^ 32 < uint64Modulus :=
      lt_of_le_of_lt (Nat.div_le_self _ _) bound
    refine ⟨rfl, ?_, rfl⟩
    exact (Nat.mod_eq_of_lt generation).symm
  reported_eq := by simp [start, reported, countersFrom]
  nonempty := by simp [start]
  contiguous := by simp [start]
  last_eq := by simp [start]

variable {session : Session} {first : Nat}

theorem Session.next_invariant (holds : session.Invariant first) : ({ session with
      generator := session.generator.issue.2
      issued := session.issued ++ [session.generator.issue.1]
      outstanding := session.outstanding + 1 } : Session).Invariant first := by
  have outstandingLe := holds.outstanding_le
  have reportedEq : ({ session with
      generator := session.generator.issue.2
      issued := session.issued ++ [session.generator.issue.1]
      outstanding := session.outstanding + 1 } : Session).reported = session.reported := by
    simp only [reported, length_append, length_singleton]
    omega
  constructor
  case outstanding_le => simpa using outstandingLe
  case next_eq =>
    simp only [issue, holds.next_eq, length_append,
      length_singleton, Nat.mod_add_mod, Nat.add_assoc]
  case issued_eq =>
    simp only [length_append, length_singleton, countersFrom_add, ← holds.issued_eq,
      issue, holds.next_eq]
    simp [countersFrom]
  case position =>
    rw [reportedEq]
    exact ⟨holds.position.expected_eq, holds.position.generation_eq, holds.position.bias_eq⟩
  case reported_eq => rw [reportedEq]; exact holds.reported_eq
  case nonempty => exact holds.nonempty
  case contiguous => exact holds.contiguous
  case last_eq => rw [reportedEq]; exact holds.last_eq

theorem Session.update_invariant (holds : session.Invariant first)
    (starts : zeroCopy.first = session.expected) (issued : zeroCopy.size ≤ session.outstanding) :
    ({ session with
      generator := (session.generator.update zeroCopy).2
      ranges := session.ranges ++ [(session.generator.update zeroCopy).1]
      expected := (zeroCopy.thru + 1) % 2 ^ 32
      outstanding := session.outstanding - zeroCopy.size } : Session).Invariant first := by
  have outstandingLe := holds.outstanding_le
  have sizePositive := zeroCopy.size_pos
  have position := holds.position
  rw [← starts] at position
  obtain ⟨lower, upper, next, after⟩ := update_atPosition position
  have small : zeroCopy.size < uint64Modulus := lt_of_le_of_lt zeroCopy.size_le (by decide)
  have countersEq := counters_of_bounds lower (by rw [upper]) small
  have reportedEq : ({ session with
      generator := (session.generator.update zeroCopy).2
      ranges := session.ranges ++ [(session.generator.update zeroCopy).1]
      expected := (zeroCopy.thru + 1) % 2 ^ 32
      outstanding := session.outstanding - zeroCopy.size } : Session).reported =
        session.reported + zeroCopy.size := by
    simp only [reported]
    omega
  constructor
  case outstanding_le => exact Nat.le_trans (Nat.sub_le _ _) outstandingLe
  case next_eq => rw [next]; exact holds.next_eq
  case issued_eq => exact holds.issued_eq
  case position =>
    rw [reportedEq, ← Nat.add_assoc]
    exact after
  case reported_eq =>
    rw [reportedEq, countersFrom_add, flatMap_append, holds.reported_eq,
      flatMap_singleton, countersEq]
  case nonempty =>
    intro range mem
    rcases mem_append.mp mem with earlier | newest
    · exact holds.nonempty range earlier
    · rw [mem_singleton.mp newest, countersEq]
      intro isEmpty
      have length := countersFrom_length (first + session.reported) zeroCopy.size
      rw [isEmpty, length_nil] at length
      omega
  case contiguous =>
    refine holds.contiguous.append (isChain_singleton _) ?_
    intro range mem _ newestMem
    rw [head?_cons, Option.mem_some_iff] at newestMem
    rw [← newestMem, lower]
    exact holds.last_eq range mem
  case last_eq =>
    intro _ mem
    rw [getLast?_concat, Option.mem_some_iff] at mem
    rw [reportedEq, ← mem, upper, Nat.add_assoc]

theorem Session.step_invariant (session : Session) (action : GeneratorAction)
    (next : Session) (holds : session.Invariant first) (taken : session.step action = some next) :
    next.Invariant first := by
  cases action with
  | next =>
    obtain ⟨_, rfl⟩ := Run.guarded taken
    exact next_invariant holds
  | update =>
    obtain ⟨guard, rfl⟩ := Run.guarded taken
    exact update_invariant holds guard.1 guard.2

/-- The ranges returned so far follow one another without gap, are not empty,
and hold in order the issued counters but for the outstanding ones. They are
disjoint as long as the 64-bit counter itself has not come around. -/
structure Session.Covered (first : Nat) (session : Session) : Prop where
  issued_in_order : session.issued = countersFrom first session.issued.length
  contiguous : session.ranges.IsChain fun earlier later => earlier.maxCounter = later.minCounter
  nonempty : ∀ range ∈ session.ranges, range.counters ≠ []
  exact_cover : ∃ unreported, unreported.length = session.outstanding ∧
    session.issued = session.ranges.flatMap ZeroCopyRange.counters ++ unreported
  disjoint : session.issued.length ≤ uint64Modulus ->
    session.ranges.Pairwise fun left right => left.counters.Disjoint right.counters

theorem Session.Invariant.covered (holds : session.Invariant first) : session.Covered first := by
  have outstandingLe := holds.outstanding_le
  have total : session.issued.length = session.reported + session.outstanding := by
    simp only [reported]
    omega
  constructor
  case issued_in_order => exact holds.issued_eq
  case contiguous => exact holds.contiguous
  case nonempty => exact holds.nonempty
  case exact_cover =>
    refine ⟨countersFrom (first + session.reported) session.outstanding,
      countersFrom_length _ _, ?_⟩
    rw [holds.reported_eq, ← countersFrom_add, ← total]
    exact holds.issued_eq
  case disjoint =>
    intro _
    have distinct : (session.ranges.flatMap ZeroCopyRange.counters).Nodup := by
      rw [holds.reported_eq]
      exact countersFrom_nodup _ _ (by omega)
    exact (nodup_flatMap.mp distinct).2

/-- Along every run of `next` and of in-order notifications, through any number
of wraparounds of the 32-bit counter of the kernel, the widened ranges are
contiguous, disjoint, and cover exactly the issued counters. -/
theorem update_covers_issued (first : UInt64) (actions : List GeneratorAction) :
    Run.Always Session.step (Session.Covered first.toNat) (Session.start first) actions := by
  refine Run.Always.mono (fun _ holds => Invariant.covered holds) ?_
  exact Run.always_of_keeps step_invariant (start_invariant first)

end NtfCore.Ntcq
