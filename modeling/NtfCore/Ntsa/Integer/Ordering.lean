import NtfCore.Foundation.Run
import NtfCore.Ntsa.Integer.Codec
import NtfCore.Ntsa.Integer.Product

/-!
Contract: the order of integers, over every sequence of operations.

Owns: what `compare`, `add` and `subtract` compute; the operations on a set of
integers; when no integer is a negative zero and every comparison is right.
-/

namespace NtfCore.Ntsa.AbstractInteger

open NtfCore.Foundation Option List
open NtfCore.Foundation.Text
open AbstractIntegerRepresentation
open AbstractInteger

theorem toInt_positive (magnitude : Blocks) : toInt ⟨.positive, magnitude⟩ = value magnitude :=
  Int.one_mul _

theorem toInt_negative (magnitude : Blocks) : toInt ⟨.negative, magnitude⟩ = -value magnitude :=
  Int.neg_one_mul _

variable {integer : AbstractInteger}

theorem Canonical.value_pos (canon : integer.Canonical)
    (negative : integer.sign = .negative) : 0 < value integer.magnitude := by
  refine Nat.pos_of_ne_zero fun isZero => ?_
  rw [canon.zero_positive isZero] at negative
  contradiction

/-- The magnitudes of two negative integers are compared as if they were not
negative, so their order is right only when they are the same. -/
theorem compare_eq_sign_iff {integer other : AbstractInteger} (canon : integer.Canonical)
    (canonical' : other.Canonical) :
    integer.compare other = Int.sign (integer.toInt - other.toInt) ↔
      (integer.sign = .negative -> other.sign = .negative -> integer.toInt = other.toInt) := by
  have magnitudes := compare_eq canon.normal canonical'.normal
  have positive := canon.value_pos
  have positive' := canonical'.value_pos
  obtain ⟨sign, magnitude⟩ := integer
  obtain ⟨sign', magnitude'⟩ := other
  dsimp only at magnitudes positive positive'
  cases sign with
  | positive =>
    apply iff_of_true _ (fun negative => AbstractIntegerSign.noConfusion negative)
    cases sign' with
    | positive =>
      rw [toInt_positive, toInt_positive, ← magnitudes]
      rfl
    | negative =>
      rw [toInt_positive, toInt_negative]
      refine (Int.sign_eq_one_iff_pos.mpr ?_).symm
      have begun := positive' rfl
      omega
  | negative =>
    cases sign' with
    | positive =>
      apply iff_of_true _ (fun _ negative => AbstractIntegerSign.noConfusion negative)
      rw [toInt_positive, toInt_negative]
      refine (Int.sign_eq_neg_one_iff_neg.mpr ?_).symm
      have begun := positive rfl
      omega
    | negative =>
      have compared : compare ⟨.negative, magnitude⟩ ⟨.negative, magnitude'⟩ =
        Int.sign (value magnitude - value magnitude') := magnitudes
      have flipped : (-(value magnitude : Int) - -(value magnitude' : Int)) =
        -(value magnitude - value magnitude') := by ring
      rw [compared, toInt_negative, toInt_negative, flipped, Int.sign_neg]
      constructor
      · intro same _ _
        have isZero : Int.sign ((value magnitude : Int) - value magnitude') = 0 := by omega
        have noDifference := Int.sign_eq_zero_iff_zero.mp isZero
        omega
      · intro same
        have noDifference : (value magnitude : Int) - value magnitude' = 0 := by
          have equal := same rfl rfl
          omega
        rw [noDifference]
        rfl

/-! ## Sums, differences, products and quotients -/

theorem canonical_zero : Canonical {} := ⟨normal_nil, fun _ => rfl⟩

theorem toInt_normalize (normal : Normal integer.magnitude) :
    integer.normalize.toInt = integer.toInt := by
  unfold normalize
  split
  · rename_i zero
    rw [toInt, toInt, normal.isZero_iff.mp zero]
    simp
  · rfl

theorem canonical_normalize (normal : Normal integer.magnitude) : integer.normalize.Canonical := by
  unfold normalize
  split
  · exact ⟨normal, fun _ => rfl⟩
  · rename_i ne
    exact ⟨normal, fun isZero => absurd (normal.isZero_iff.mpr isZero) ne⟩

/-- What `add` leaves before it is normalized, with the sign of the second addend
given: `subtract` flips it. -/
def combine (u v : AbstractInteger) : AbstractInteger :=
  if isZero u.magnitude then ⟨v.sign, v.magnitude⟩
  else if isZero v.magnitude then ⟨u.sign, u.magnitude⟩
  else if u.sign = v.sign then ⟨u.sign, AbstractIntegerRepresentation.add u.magnitude v.magnitude⟩
  else
    let comparison := AbstractIntegerRepresentation.compare u.magnitude v.magnitude
    if comparison = 0 then {}
    else if comparison > 0 then
      ⟨u.sign, AbstractIntegerRepresentation.subtract u.magnitude v.magnitude⟩
    else ⟨v.sign, AbstractIntegerRepresentation.subtract v.magnitude u.magnitude⟩

theorem add_eq (u v : AbstractInteger) : add u v = normalize (combine u v) := rfl

theorem subtract_eq (u v : AbstractInteger) : subtract u v = normalize (combine u v.negate) := by
  have flips : u.sign ≠ v.sign ↔ u.sign = v.sign.flip := by cases u.sign <;> cases v.sign <;> decide
  unfold subtract combine negate
  simp only [flips]

theorem toInt_negate (integer : AbstractInteger) : integer.negate.toInt = -integer.toInt := by
  obtain ⟨sign, magnitude⟩ := integer
  cases sign with
  | positive => exact (toInt_negative magnitude).trans (by rw [toInt_positive])
  | negative => exact (toInt_positive magnitude).trans (by rw [toInt_negative, Int.neg_neg])

theorem toInt_eq_zero (normal : Normal integer.magnitude)
    (zero : isZero integer.magnitude = true) : integer.toInt = 0 := by
  rw [toInt, normal.isZero_iff.mp zero]
  simp

variable {u v : AbstractInteger}

theorem normal_combine (normal : Normal u.magnitude)
    (normal' : Normal v.magnitude) : Normal (combine u v).magnitude := by
  unfold combine
  split
  · exact normal'
  · split
    · exact normal
    · split
      · exact normal_add normal normal'
      · dsimp only
        split
        · exact normal_nil
        · split
          · exact normal_subtract normal
          · exact normal_subtract normal'

theorem toInt_combine (normal : Normal u.magnitude)
    (normal' : Normal v.magnitude) : (combine u v).toInt = u.toInt + v.toInt := by
  unfold combine
  split
  · rename_i zero
    rw [toInt_eq_zero normal zero, Int.zero_add]
  · split
    · rename_i zero
      rw [toInt_eq_zero normal' zero, Int.add_zero]
    · split
      · rename_i sameSign
        rw [toInt, toInt, toInt, sameSign, value_add normal normal', Nat.cast_add]
        ring
      · rename_i differ
        -- The signs are opposite: the smaller magnitude is taken from the greater.
        have opposite : v.sign.multiplier = -u.sign.multiplier := by
          revert differ
          cases u.sign <;> cases v.sign <;> decide
        have compared := compare_eq normal normal'
        dsimp only
        split
        · rename_i same
          rw [compared] at same
          have noDifference := Int.sign_eq_zero_iff_zero.mp same
          have isSame : (value u.magnitude : Int) = value v.magnitude := by omega
          rw [toInt, toInt, toInt, opposite, isSame]
          simp
        · split
          · rename_i greater
            rw [compared] at greater
            have pos := Int.sign_pos_iff.mp greater
            rw [toInt, toInt, toInt, opposite, value_subtract normal normal' (by omega),
              Nat.cast_sub (by omega)]
            ring
          · rename_i different notGreater
            rw [compared] at different notGreater
            have notPositive : ¬ (0 : Int) < value u.magnitude - value v.magnitude :=
              fun pos => notGreater (Int.sign_pos_iff.mpr pos)
            rw [toInt, toInt, toInt, opposite, value_subtract normal' normal (by omega),
              Nat.cast_sub (by omega)]
            ring

section

variable (canon : u.Canonical) (canonical' : v.Canonical)
include canon canonical'

theorem toInt_add : (add u v).toInt = u.toInt + v.toInt := by
  rw [add_eq, toInt_normalize (normal_combine canon.normal canonical'.normal),
    toInt_combine canon.normal canonical'.normal]

theorem canonical_add : (add u v).Canonical :=
  canonical_normalize (normal_combine canon.normal canonical'.normal)

theorem canonical_subtract : (subtract u v).Canonical := by
  have normal' : Normal v.negate.magnitude := canonical'.normal
  rw [subtract_eq]
  exact canonical_normalize (normal_combine canon.normal normal')

end

/-- Whatever the product held before, no negative zero results. -/
theorem canonical_multiply (product : AbstractInteger) (canon : u.Canonical)
    (canonical' : v.Canonical) : (multiply product u v).Canonical := by
  apply canonical_normalize
  split
  · exact normal_nil
  · exact normal_multiply canon.normal canonical'.normal

theorem canonical_divide (canon : u.Canonical)
    (canonical' : v.Canonical) : (divide u v).1.Canonical ∧ (divide u v).2.Canonical := by
  have parts := normal_divide canon.normal v.magnitude
  unfold divide
  split
  · exact ⟨canonical_zero, canonical_zero⟩
  · split
    · exact ⟨canonical_zero, canonical_normalize canonical'.normal⟩
    · generalize AbstractIntegerRepresentation.divide u.magnitude v.magnitude = result at parts ⊢
      dsimp only at parts ⊢
      split
      · exact ⟨canonical_normalize parts.1, canonical_normalize parts.2⟩
      · exact ⟨canonical_normalize parts.1, canonical_normalize parts.2⟩

theorem canonical_negate (canon : integer.Canonical) :
    integer.negate.Canonical ↔ isZero integer.magnitude = false := by
  constructor
  · intro negated
    refine Bool.eq_false_iff.mpr fun zero => ?_
    have isZero := canon.normal.isZero_iff.mp zero
    have flipped := negated.zero_positive isZero
    have pos := canon.zero_positive isZero
    unfold negate at flipped
    rw [pos] at flipped
    contradiction
  · intro ne
    refine ⟨canon.normal, fun isZero => ?_⟩
    have zero := canon.normal.isZero_iff.mpr isZero
    rw [ne] at zero
    contradiction

/-! ## Values of 64 bits and texts -/

theorem canonical_decode (data : List UInt8) : (decode data).Canonical := by
  cases data with
  | nil => exact canonical_zero
  | cons first rest => exact (decode_eq (cons_ne_nil first rest)).1

theorem canonical_assigned (sign : AbstractIntegerSign) {word : UInt64} (ne : word ≠ 0) :
    Canonical ⟨sign, assign word⟩ := by
  refine ⟨normal_assign word, fun isZero => ?_⟩
  rw [value_assign] at isZero
  exact absurd (UInt64.toNat_inj.mp isZero) ne

theorem canonical_assignUnsigned (word : UInt64) : (assignUnsigned word).Canonical := by
  unfold assignUnsigned
  split
  · exact canonical_zero
  · rename_i ne
    exact canonical_assigned .positive ne

theorem canonical_assignSigned (word : Int64) : (assignSigned word).Canonical := by
  unfold assignSigned
  split
  · exact canonical_zero
  · rename_i ne
    split
    · apply canonical_assigned .positive
      intro isZero
      apply ne
      exact Int64.toBitVec_inj.mp (UInt64.toBitVec_inj.mpr isZero)
    · apply canonical_assigned .negative
      intro isZero
      apply ne
      have negated : -1 * word = 0 := Int64.toBitVec_inj.mp (UInt64.toBitVec_inj.mpr isZero)
      rw [← Int64.neg_eq_neg_one_mul] at negated
      rw [← Int64.neg_neg (a := word), negated]
      rfl

def MinusWithoutNumber (text : List UInt8) : Prop :=
  ∃ rest, text = ascii '-' :: rest ∧ (rest = [] ∨ ∃ ch ∈ rest, digitValue 10 ch = none)

variable {text : List UInt8} {success : Bool}

theorem parse_normal (parsed : parse text = some (success, integer)) :
    Normal integer.magnitude ∧ integer.sign = (parseHead text).sign := by
  unfold parse AbstractIntegerRepresentation.parse at parsed
  cases isHead : parseHead text with
  | failed sign | zero =>
    simp only [isHead, some.injEq, Prod.mk.injEq] at parsed
    rw [← parsed.2]
    exact ⟨normal_nil, rfl⟩
  | digits base _ rest =>
    simp only [isHead] at parsed
    cases isDigits : rest.mapM (digitValue base) with
    | none =>
      simp only [isDigits, some.injEq, Prod.mk.injEq] at parsed
      rw [← parsed.2]
      exact ⟨normal_nil, rfl⟩
    | some values =>
      simp only [isDigits] at parsed
      by_cases isEmpty : values.dropWhile (· == 0) = []
      · simp [isEmpty] at parsed
      · simp only [if_neg isEmpty, some.injEq, Prod.mk.injEq] at parsed
        rw [← parsed.2]
        exact ⟨normal_normalize _, rfl⟩

/-- `parse` leaves a negative zero if and only if it reads a minus and fails. -/
theorem canonical_parse (parsed : parse text = some (success, integer)) :
    integer.Canonical ↔ ¬ MinusWithoutNumber text := by
  obtain ⟨normal, isSign⟩ := parse_normal parsed
  by_cases minus : ∃ rest, text = ascii '-' :: rest
  · obtain ⟨rest, isText⟩ := minus
    have without : MinusWithoutNumber text ↔ rest = [] ∨ ∃ ch ∈ rest, digitValue 10 ch = none := by
      unfold MinusWithoutNumber
      simp [isText]
    rw [without, ← Lists.mapM_eq_none]
    unfold parse AbstractIntegerRepresentation.parse at parsed
    rw [isText, parseHead_minus] at parsed
    by_cases isEmpty : rest = []
    · simp only [if_pos isEmpty, some.injEq, Prod.mk.injEq] at parsed
      rw [← parsed.2]
      exact iff_of_false (fun canon => absurd (canon.zero_positive rfl) (by decide))
        (fun other => other (.inl isEmpty))
    · simp only [if_neg isEmpty] at parsed
      cases isDigits : rest.mapM (digitValue 10) with
      | none =>
        simp only [isDigits, some.injEq, Prod.mk.injEq] at parsed
        rw [← parsed.2]
        exact iff_of_false (fun canon => absurd (canon.zero_positive rfl) (by decide))
          (fun other => other (.inr rfl))
      | some values =>
        simp only [isDigits] at parsed
        by_cases noDigit : values.dropWhile (· == 0) = []
        · simp [noDigit] at parsed
        · simp only [if_neg noDigit, some.injEq, Prod.mk.injEq] at parsed
          rw [← parsed.2]
          refine iff_of_true ⟨normal_normalize _, fun isZero => ?_⟩ (by simp [isEmpty])
          rw [value_normalize] at isZero
          exact absurd isZero (value_numeral isDigits noDigit)
  · have pos : ∀ rest, text ≠ ascii '-' :: rest := fun rest isText => minus ⟨rest, isText⟩
    rw [sign_parseHead pos] at isSign
    refine iff_of_true ⟨normal, fun _ => isSign⟩ ?_
    rintro ⟨rest, isText, _⟩
    exact minus ⟨rest, isText⟩

/-! ## Sequences of operations -/

/-- An outcome of `compare` and `equals`. -/
structure Comparison where
  left : AbstractInteger
  right : AbstractInteger
  order : Int
  equal : Bool

/-- An outcome of `add`. -/
structure Sum where
  left : AbstractInteger
  right : AbstractInteger
  sum : AbstractInteger

structure Workspace where
  integers : Nat -> AbstractInteger := fun _ => {}
  compared : List Comparison := []
  sums : List Sum := []

namespace Workspace

inductive Operation where
  | parse (target : Nat) (text : List UInt8)
  | decode (target : Nat) (data : List UInt8)
  | assignSigned (target : Nat) (word : Int64)
  | assignUnsigned (target : Nat) (word : UInt64)
  | assign (target source : Nat)
  | add (sum u v : Nat)
  | subtract (difference u v : Nat)
  | multiply (product u v : Nat)
  | divide (quotient remainder u v : Nat)
  | negate (target : Nat)
  | compare (left right : Nat)

def write (workspace : Workspace) (target : Nat) (integer : AbstractInteger) : Workspace :=
  { workspace with integers := Function.update workspace.integers target integer }

/-- Take one operation. There is no next state when an assertion fails. A product
that is one of the factors is computed in a new object. -/
def step (workspace : Workspace) : Operation -> Option Workspace
  | .parse target text =>
    (parse text).map fun result => workspace.write target result.2
  | .decode target data => some (workspace.write target (decode data))
  | .assignSigned target word => some (workspace.write target (assignSigned word))
  | .assignUnsigned target word =>
    some (workspace.write target (assignUnsigned word))
  | .assign target source => some (workspace.write target (workspace.integers source))
  | .add sum u v =>
    let left := workspace.integers u
    let right := workspace.integers v
    let total := add left right
    some { workspace.write sum total with sums := ⟨left, right, total⟩ :: workspace.sums }
  | .subtract difference u v =>
    some (workspace.write difference
      (subtract (workspace.integers u) (workspace.integers v)))
  | .multiply product u v =>
    let target := if product = u ∨ product = v then {} else workspace.integers product
    some (workspace.write product
      (multiply target (workspace.integers u) (workspace.integers v)))
  | .divide quotient remainder u v =>
    let result := divide (workspace.integers u) (workspace.integers v)
    some ((workspace.write quotient result.1).write remainder result.2)
  | .negate target =>
    some (workspace.write target (negate (workspace.integers target)))
  | .compare left right =>
    let u := workspace.integers left
    let v := workspace.integers right
    some { workspace with
      compared := ⟨u, v, compare u v, equals u v⟩ ::
        workspace.compared }

structure Ordered (workspace : Workspace) : Prop where
  noNegativeZero : ∀ name, isZero (workspace.integers name).magnitude = true ->
    (workspace.integers name).sign = .positive
  signed : ∀ outcome ∈ workspace.compared,
    outcome.order = Int.sign (outcome.left.toInt - outcome.right.toInt)
  equal_iff : ∀ outcome ∈ workspace.compared,
    (outcome.equal = true ↔ outcome.left.toInt = outcome.right.toInt)
  total : ∀ outcome ∈ workspace.compared,
    outcome.order < 0 ∨ outcome.equal = true ∨ 0 < outcome.order
  antisymmetric : ∀ outcome ∈ workspace.compared, ∀ other ∈ workspace.compared,
    other.left = outcome.right -> other.right = outcome.left -> other.order = -outcome.order
  translated : ∀ outcome ∈ workspace.compared, ∀ other ∈ workspace.compared,
    ∀ first ∈ workspace.sums, ∀ second ∈ workspace.sums,
      first.left = outcome.left -> second.left = outcome.right -> first.right = second.right ->
      other.left = first.sum -> other.right = second.sum -> other.order = outcome.order

def Sound (workspace : Workspace) : Operation -> Prop
  | .parse _ text => ¬ MinusWithoutNumber text
  | .negate target => isZero (workspace.integers target).magnitude = false
  | .compare left right =>
    (workspace.integers left).sign = .negative -> (workspace.integers right).sign = .negative ->
      (workspace.integers left).toInt = (workspace.integers right).toInt
  | _ => True

structure Invariant (workspace : Workspace) : Prop where
  canonical : ∀ name, (workspace.integers name).Canonical
  signed : ∀ outcome ∈ workspace.compared,
    outcome.order = Int.sign (outcome.left.toInt - outcome.right.toInt)
  equal_iff : ∀ outcome ∈ workspace.compared,
    (outcome.equal = true ↔ outcome.left.toInt = outcome.right.toInt)
  added : ∀ outcome ∈ workspace.sums,
    outcome.sum.toInt = outcome.left.toInt + outcome.right.toInt

variable {workspace : Workspace}

theorem Invariant.ordered (inv : workspace.Invariant) : workspace.Ordered := { inv with
  noNegativeZero := by
    intro name zero
    have canon := inv.canonical name
    exact canon.zero_positive (canon.normal.isZero_iff.mp zero)
  total := by
    intro outcome mem
    rw [inv.signed outcome mem, inv.equal_iff outcome mem, Int.sign_neg_iff, Int.sign_pos_iff]
    omega
  antisymmetric := by
    intro outcome mem other otherMem isLeft isRight
    rw [inv.signed outcome mem, inv.signed other otherMem, isLeft, isRight,
      ← Int.sign_neg, Int.neg_sub]
  translated := by
    intro outcome mem other otherMem first firstMember second secondMember
      isFirst isSecond sameRight isLeft isRight
    rw [inv.signed outcome mem, inv.signed other otherMem, isLeft, isRight,
      inv.added first firstMember, inv.added second secondMember, isFirst, isSecond,
      sameRight, Int.add_sub_add_right] }

theorem write_canonical (inv : workspace.Invariant)
    {integer : AbstractInteger} (canon : integer.Canonical) (target : Nat) :
    (workspace.write target integer).Invariant := { inv with
  canonical := by
    intro name
    unfold write
    dsimp only
    rw [Function.update_apply]
    split
    · exact canon
    · exact inv.canonical name }

variable {workspace next : Workspace} {op : Operation}

theorem step_invariant (inv : workspace.Invariant) (sound : workspace.Sound op)
    (taken : step workspace op = some next) : next.Invariant := by
  cases op with
  | parse target =>
    obtain ⟨_, parsed, isNext⟩ := map_eq_some_iff.mp taken
    rw [← isNext]
    exact write_canonical inv ((canonical_parse parsed).mpr sound) target
  | decode target data =>
    cases taken
    exact write_canonical inv (canonical_decode data) target
  | assignSigned target word =>
    cases taken
    exact write_canonical inv (canonical_assignSigned word) target
  | assignUnsigned target word =>
    cases taken
    exact write_canonical inv (canonical_assignUnsigned word) target
  | assign target source =>
    cases taken
    exact write_canonical inv (inv.canonical source) target
  | add sum u v =>
    cases taken
    have written := write_canonical inv (canonical_add (inv.canonical u) (inv.canonical v)) sum
    refine ⟨written.canonical, written.signed, written.equal_iff, ?_⟩
    refine forall_mem_cons.mpr ⟨?_, inv.added⟩
    exact toInt_add (inv.canonical u) (inv.canonical v)
  | subtract difference u v =>
    cases taken
    exact write_canonical inv (canonical_subtract (inv.canonical u) (inv.canonical v)) difference
  | multiply product u v =>
    cases taken
    exact write_canonical inv (canonical_multiply _ (inv.canonical u) (inv.canonical v)) product
  | divide quotient remainder u v =>
    cases taken
    have parts := canonical_divide (inv.canonical u) (inv.canonical v)
    exact write_canonical (write_canonical inv parts.1 quotient) parts.2 remainder
  | negate target =>
    cases taken
    exact write_canonical inv ((canonical_negate (inv.canonical target)).mpr sound) target
  | compare left right =>
    cases taken
    have canonicalLeft := inv.canonical left
    have canonicalRight := inv.canonical right
    refine ⟨inv.canonical, ?_, ?_, inv.added⟩
    · refine forall_mem_cons.mpr ⟨?_, inv.signed⟩
      exact (compare_eq_sign_iff canonicalLeft canonicalRight).mpr sound
    · refine forall_mem_cons.mpr ⟨?_, inv.equal_iff⟩
      exact equals_iff canonicalLeft canonicalRight

theorem step_sound (inv : workspace.Invariant) (taken : step workspace op = some next)
    (ordered : next.Ordered) : workspace.Sound op := by
  have written : ∀ target integer, next = workspace.write target integer ->
      Normal integer.magnitude -> integer.Canonical := by
    intro target _ isNext normal
    have pos := ordered.noNegativeZero target
    rw [isNext, write] at pos
    dsimp only at pos
    rw [Function.update_self] at pos
    exact ⟨normal, fun isZero => pos (normal.isZero_iff.mpr isZero)⟩
  cases op with
  | parse target =>
    obtain ⟨_, parsed, isNext⟩ := map_eq_some_iff.mp taken
    exact (canonical_parse parsed).mp (written target _ isNext.symm (parse_normal parsed).1)
  | negate target =>
    have canon := inv.canonical target
    exact (canonical_negate canon).mp (written target _ (some.inj taken).symm canon.normal)
  | compare left right =>
    rw [← some.inj taken] at ordered
    have signed := ordered.signed _ mem_cons_self
    exact (compare_eq_sign_iff (inv.canonical left) (inv.canonical right)).mp signed
  | _ => trivial

/-- In every sequence of operations, no integer is ever a negative zero and every
comparison is that of the integers, if and only if a minus is parsed only before a
number, zero is never negated, and two different negative integers are never
compared. -/
theorem order_kept_iff (operations : List Operation) :
    Run.Always step Ordered {} operations ↔ Run.Along step Sound {} operations := by
  have start : Invariant {} := ⟨fun _ => canonical_zero, by simp, by simp, by simp⟩
  exact Run.always_iff_along (fun _ inv => inv.ordered)
    (fun _ _ _ inv sound taken => step_invariant inv sound taken)
    (fun _ _ _ inv taken ordered => step_sound inv taken ordered) start

/-- The integer -1 comes out less than -2, the negation of zero is a negative zero,
and so is what a text of a lone minus leaves. -/
theorem negatives_misordered :
    ¬ Run.Always step Ordered {} [.decode 1 [0xFF], .decode 2 [0xFE], .compare 1 2] ∧
    ¬ Run.Always step Ordered {} [.negate 0] ∧
    ¬ Run.Always step Ordered {} [.parse 0 [ascii '-']] := by
  refine ⟨fun always => ?_, fun always => ?_, fun always => ?_⟩
  · have signed := always.2.2.2.signed _ mem_cons_self
    contradiction
  · have pos := always.2.noNegativeZero 0 rfl
    contradiction
  · have pos := always.2.noNegativeZero 0 rfl
    contradiction

end Workspace

end NtfCore.Ntsa.AbstractInteger
