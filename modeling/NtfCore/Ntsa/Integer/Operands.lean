import NtfCore.Ntsa.Integer.Ordering

/-!
Contract: sums, differences and products of integers in memory (`ntsa::AbstractIntegerUtil`,
`ntsa::AbstractIntegerQuantityUtil`), where the result may be an operand and holds another number
before.

Owns: the temporary of an aliased operation, that sums and differences are exact, and when a
product is.
-/

namespace NtfCore.Ntsa.AbstractInteger

open AbstractIntegerRepresentation Function

/-! ## Integers in memory -/

inductive Place where
  | object (address : Nat)
  | temporary
deriving DecidableEq

abbrev Memory := Place -> AbstractInteger

namespace Memory

/-- The assignment `w->d_magnitude = magnitude`. -/
def setMagnitude (memory : Memory) (w : Place) (magnitude : Blocks) : Memory :=
  Function.update memory w { memory w with magnitude }

/-- The assignment `w->d_sign = sign`. -/
def setSign (memory : Memory) (w : Place) (sign : AbstractIntegerSign) : Memory :=
  Function.update memory w { memory w with sign }

/-- The part that the operations have in common: the result is computed in a temporary if it is
an operand, is swapped with it then, and is normalized. -/
def compute (branches : Memory -> Place -> Place -> Place -> Memory) (memory : Memory)
    (result left right : Nat) : Memory :=
  let isNotAlias := result ≠ left ∧ result ≠ right
  let w := if isNotAlias then .object result else .temporary
  let memory := if isNotAlias then memory else Function.update memory .temporary {}
  let memory := branches memory w (.object left) (.object right)
  let memory := if w ≠ .object result then
      Function.update (Function.update memory (.object result) (memory w)) w
        (memory (.object result))
    else memory
  Function.update memory (.object result) (normalize (memory (.object result)))

/-- The branches of `AbstractIntegerUtil::add`. -/
def addAt (memory : Memory) (w u v : Place) : Memory :=
  if isZero (memory u).magnitude then
    let memory := memory.setMagnitude w (memory v).magnitude
    memory.setSign w (memory v).sign
  else if isZero (memory v).magnitude then
    let memory := memory.setMagnitude w (memory u).magnitude
    memory.setSign w (memory u).sign
  else if (memory u).sign = (memory v).sign then
    let memory := memory.setMagnitude w
      (AbstractIntegerRepresentation.add (memory u).magnitude (memory v).magnitude)
    memory.setSign w (memory u).sign
  else
    let comparison := AbstractIntegerRepresentation.compare (memory u).magnitude
      (memory v).magnitude
    if comparison = 0 then Function.update memory w {}
    else if comparison > 0 then
      let memory := memory.setMagnitude w
        (AbstractIntegerRepresentation.subtract (memory u).magnitude (memory v).magnitude)
      memory.setSign w (memory u).sign
    else
      let memory := memory.setMagnitude w
        (AbstractIntegerRepresentation.subtract (memory v).magnitude (memory u).magnitude)
      memory.setSign w (memory v).sign

/-- `AbstractIntegerUtil::add`. -/
def add (memory : Memory) (sum addend1 addend2 : Nat) : Memory :=
  compute addAt memory sum addend1 addend2

/-- The branches of `AbstractIntegerUtil::subtract`. -/
def subtractAt (memory : Memory) (w u v : Place) : Memory :=
  if isZero (memory u).magnitude then
    let memory := memory.setMagnitude w (memory v).magnitude
    memory.setSign w (memory v).sign.flip
  else if isZero (memory v).magnitude then
    let memory := memory.setMagnitude w (memory u).magnitude
    memory.setSign w (memory u).sign
  else if (memory u).sign ≠ (memory v).sign then
    let memory := memory.setMagnitude w
      (AbstractIntegerRepresentation.add (memory u).magnitude (memory v).magnitude)
    memory.setSign w (memory u).sign
  else
    let comparison := AbstractIntegerRepresentation.compare (memory u).magnitude
      (memory v).magnitude
    if comparison = 0 then Function.update memory w {}
    else if comparison > 0 then
      let memory := memory.setMagnitude w
        (AbstractIntegerRepresentation.subtract (memory u).magnitude (memory v).magnitude)
      memory.setSign w (memory u).sign
    else
      let memory := memory.setMagnitude w
        (AbstractIntegerRepresentation.subtract (memory v).magnitude (memory u).magnitude)
      memory.setSign w (memory v).sign.flip

/-- `AbstractIntegerUtil::subtract`. -/
def subtract (memory : Memory) (difference minuend subtrahend : Nat) : Memory :=
  compute subtractAt memory difference minuend subtrahend

/-- The branches of `AbstractIntegerUtil::multiply`. The magnitude of the product is not reset
before it is computed. -/
def multiplyAt (memory : Memory) (w u v : Place) : Memory :=
  if isZero (memory u).magnitude ∨ isZero (memory v).magnitude then Function.update memory w {}
  else
    let memory := memory.setMagnitude w (AbstractIntegerRepresentation.multiply
      (memory w).magnitude (memory u).magnitude (memory v).magnitude)
    memory.setSign w (if (memory u).sign = (memory v).sign then .positive else .negative)

/-- `AbstractIntegerUtil::multiply`. -/
def multiply (memory : Memory) (product multiplicand multiplier : Nat) : Memory :=
  compute multiplyAt memory product multiplicand multiplier

/-! ## Aliases -/

section Aliases

variable {memory : Memory} {w u v : Place}

/-- Both fields of an integer are assigned, from operands that are other objects. -/
theorem assigned_eq (magnitude : Blocks) (sign : AbstractIntegerSign) :
    (memory.setMagnitude w magnitude).setSign w sign = update memory w ⟨sign, magnitude⟩ := by
  unfold setMagnitude setSign
  rw [update_self, update_idem]

theorem setMagnitude_of_ne {other : Place} (different : other ≠ w) (magnitude : Blocks) :
    (memory.setMagnitude w magnitude) other = memory other :=
  update_of_ne different _ memory

theorem addAt_eq (notLeft : u ≠ w) (notRight : v ≠ w) :
    memory.addAt w u v = update memory w (combine (memory u) (memory v)) := by
  unfold addAt combine
  simp only [setMagnitude_of_ne notLeft, setMagnitude_of_ne notRight, assigned_eq]
  split_ifs
  all_goals rfl

theorem subtractAt_eq (notLeft : u ≠ w) (notRight : v ≠ w) : memory.subtractAt w u v =
      update memory w (combine (memory u) (memory v).negate) := by
  have flips : (memory u).sign ≠ (memory v).sign ↔ (memory u).sign = (memory v).sign.flip := by
    cases (memory u).sign <;> cases (memory v).sign <;> decide
  unfold subtractAt combine negate
  simp only [setMagnitude_of_ne notLeft, setMagnitude_of_ne notRight, assigned_eq, flips]
  split_ifs
  all_goals rfl

/-- What `multiply` leaves before it is normalized. -/
def scale (product u v : AbstractInteger) : AbstractInteger :=
  if isZero u.magnitude ∨ isZero v.magnitude then {}
  else
    ⟨if u.sign = v.sign then .positive else .negative,
      AbstractIntegerRepresentation.multiply product.magnitude u.magnitude v.magnitude⟩

theorem multiplyAt_eq (notLeft : u ≠ w) (notRight : v ≠ w) : memory.multiplyAt w u v =
      update memory w (scale (memory w) (memory u) (memory v)) := by
  unfold multiplyAt scale
  simp only [setMagnitude_of_ne notLeft, setMagnitude_of_ne notRight, assigned_eq]
  split_ifs
  all_goals rfl

def initial (memory : Memory) (result left right : Nat) : AbstractInteger :=
  if result ≠ left ∧ result ≠ right then memory (.object result) else {}

open Place

theorem compute_eq {branches : Memory -> Place -> Place -> Place -> Memory}
    {op : AbstractInteger -> AbstractInteger -> AbstractInteger -> AbstractInteger}
    (spec : ∀ memory w u v, u ≠ w -> v ≠ w ->
      branches memory w u v = update memory w (op (memory w) (memory u) (memory v)))
    (memory : Memory) (result left right address : Nat) :
    (compute branches memory result left right) (.object address) = if address = result then
        normalize (op (memory.initial result left right) (memory (.object left))
          (memory (.object right))) else memory (.object address) := by
  have distinct : ∀ other, object other ≠ temporary := fun _ => nofun
  unfold compute initial
  by_cases isNotAlias : result ≠ left ∧ result ≠ right
  · have notLeft : object left ≠ .object result := fun same =>
      isNotAlias.1 (object.inj same).symm
    have notRight : object right ≠ .object result := fun same =>
      isNotAlias.2 (object.inj same).symm
    simp only [if_pos isNotAlias, ne_eq, not_true_eq_false, if_false]
    rw [spec _ _ _ _ notLeft notRight]
    split
    · rename_i isResult
      rw [isResult, update_self, update_self]
    · rename_i other
      have notResult : object address ≠ .object result := fun same =>
        other (object.inj same)
      rw [update_of_ne notResult, update_of_ne notResult]
  · simp only [if_neg isNotAlias, ne_eq, (distinct result).symm, not_false_eq_true, if_true]
    rw [spec _ _ _ _ (distinct left) (distinct right)]
    simp only [update_self, update_of_ne (distinct _)]
    split
    · rename_i isResult
      rw [isResult, update_self]
    · rename_i other
      have notResult : object address ≠ .object result := fun same =>
        other (object.inj same)
      rw [update_of_ne notResult, update_of_ne (distinct address),
        update_of_ne notResult, update_of_ne (distinct address),
        update_of_ne (distinct address)]

variable (memory : Memory)

theorem add_apply (sum addend1 addend2 address : Nat) :
    (memory.add sum addend1 addend2) (.object address) = if address = sum then
        normalize (combine (memory (.object addend1)) (memory (.object addend2)))
      else memory (.object address) :=
  @compute_eq _ (fun _ => combine) (fun _ _ _ _ => addAt_eq) memory sum addend1 addend2 address

theorem subtract_apply (difference minuend subtrahend address : Nat) :
    (memory.subtract difference minuend subtrahend) (.object address) = if address = difference then
        normalize (combine (memory (.object minuend)) (memory (.object subtrahend)).negate)
      else memory (.object address) :=
  @compute_eq _ (fun _ u v => combine u v.negate) (fun _ _ _ _ => subtractAt_eq) memory
    difference minuend subtrahend address

theorem multiply_apply (product multiplicand multiplier address : Nat) :
    (memory.multiply product multiplicand multiplier) (.object address) = if address = product then
        normalize (scale (memory.initial product multiplicand multiplier)
          (memory (.object multiplicand)) (memory (.object multiplier)))
      else memory (.object address) :=
  compute_eq (fun _ _ _ _ => multiplyAt_eq) memory product multiplicand multiplier address

end Aliases

structure Yields (before after : Memory) (result : Nat) (integer : Int) : Prop where
  isInt : (after (.object result)).toInt = integer
  canonical : (after (.object result)).Canonical
  others : ∀ address ≠ result, after (.object address) = before (.object address)

theorem add_yields (memory : Memory) (sum addend1 addend2 : Nat)
    (normal : Normal (memory (.object addend1)).magnitude)
    (normal' : Normal (memory (.object addend2)).magnitude) :
    Yields memory (memory.add sum addend1 addend2) sum
      ((memory (.object addend1)).toInt + (memory (.object addend2)).toInt) where
  isInt := by
    rw [add_apply, if_pos rfl, toInt_normalize (normal_combine normal normal'),
      toInt_combine normal normal']
  canonical := by
    rw [add_apply, if_pos rfl]
    exact canonical_normalize (normal_combine normal normal')
  others := by
    intro _ other
    rw [add_apply, if_neg other]

theorem subtract_yields (memory : Memory) (difference minuend subtrahend : Nat)
    (normal : Normal (memory (.object minuend)).magnitude)
    (normal' : Normal (memory (.object subtrahend)).magnitude) :
    Yields memory (memory.subtract difference minuend subtrahend) difference
      ((memory (.object minuend)).toInt - (memory (.object subtrahend)).toInt) where
  isInt := by
    have negated : Normal (memory (.object subtrahend)).negate.magnitude := normal'
    rw [subtract_apply, if_pos rfl, toInt_normalize (normal_combine normal negated),
      toInt_combine normal negated, toInt_negate]
    rfl
  canonical := by
    have negated : Normal (memory (.object subtrahend)).negate.magnitude := normal'
    rw [subtract_apply, if_pos rfl]
    exact canonical_normalize (normal_combine normal negated)
  others := by
    intro _ other
    rw [subtract_apply, if_neg other]

/-- A magnitude that is too great to be subtracted leaves zero. -/
theorem value_subtract_clamped {minuend subtrahend : Blocks} (normal : Normal minuend)
    (normal' : Normal subtrahend) :
    (value (AbstractIntegerRepresentation.subtract minuend subtrahend) : Int) =
      max 0 (value minuend - value subtrahend) := by
  by_cases ordered : value subtrahend ≤ value minuend
  · rw [value_subtract normal normal' ordered]
    omega
  · have pos : isZero subtrahend = false := by
      refine Bool.eq_false_iff.mpr fun zero => ordered ?_
      rw [normal'.isZero_iff.mp zero]
      exact Nat.zero_le _
    have less : AbstractIntegerRepresentation.compare minuend subtrahend < 0 := by
      rw [compare_eq normal normal']
      exact Int.sign_neg_iff.mpr (by omega)
    unfold AbstractIntegerRepresentation.subtract
    rw [if_neg (by simp [pos]), if_pos less, ite_self, value_nil]
    omega

/-- Sums and differences are exact for integers of any size, also when the result is one of the
operands or both; magnitudes are subtracted down to zero. -/
theorem sums_exact (memory : Memory) (result left right : Nat) (u v : Blocks)
    (normalLeft : Normal (memory (.object left)).magnitude)
    (normalRight : Normal (memory (.object right)).magnitude)
    (normal : Normal u) (normal' : Normal v) : Yields memory (memory.add result left right) result
        ((memory (.object left)).toInt + (memory (.object right)).toInt) ∧
      Yields memory (memory.subtract result left right) result
        ((memory (.object left)).toInt - (memory (.object right)).toInt) ∧
      value (AbstractIntegerRepresentation.add u v) = value u + value v ∧
      Normal (AbstractIntegerRepresentation.add u v) ∧
      (value (AbstractIntegerRepresentation.subtract u v) : Int) = max 0 (value u - value v) ∧
      Normal (AbstractIntegerRepresentation.subtract u v) :=
  ⟨add_yields memory result left right normalLeft normalRight,
    subtract_yields memory result left right normalLeft normalRight, value_add normal normal',
    normal_add normal normal', value_subtract_clamped normal normal', normal_subtract normal⟩

/-- An integer less itself, in its own place, with a carry through a block on the way. -/
theorem sums_exact_same : Yields (fun _ => ⟨.negative, [0, 1]⟩)
      (Memory.subtract (fun _ => ⟨.negative, [0, 1]⟩) 0 0 0) 0
      (toInt ⟨.negative, [0, 1]⟩ - toInt ⟨.negative, [0, 1]⟩) :=
  (sums_exact (fun _ => ⟨.negative, [0, 1]⟩) 0 0 0 [0, 1] [0, 1] (by decide) (by decide)
    (by decide) (by decide)).2.1

end Memory

/-! ## Products -/

/-- The carries of `AbstractIntegerRepresentation::multiply`. -/
def carries (product multiplicand multiplier : Blocks) : List Nat :=
  if isZero multiplicand ∨ isOne multiplicand ∨ isZero multiplier ∨ isOne multiplier then []
  else loopCarries multiplicand multiplier multiplier.length 0 product

/-- What `AbstractIntegerRepresentation::multiply` is for. -/
structure Multiplies (product u v : Blocks) : Prop where
  isProduct : value (AbstractIntegerRepresentation.multiply product u v) = value u * value v
  normal : Normal (AbstractIntegerRepresentation.multiply product u v)
  carries : ∀ carry ∈ carries product u v, carry < radix

/-- Every block that the product holds before is zero, or lies where one of the rows puts its last
carry: the `n` blocks behind the first `m`. -/
def Vacant (product : Blocks) (m n : Nat) : Prop :=
  ∀ index, index < m ∨ m + n ≤ index -> get product index = 0

def Clean (product u v : Blocks) : Prop :=
  isZero u = true ∨
    if isOne u then Normal v
    else isZero v = true ∨ if isOne v then Normal u else Vacant product u.length v.length

theorem carries_lt (product u v : Blocks) : ∀ carry ∈ carries product u v, carry < radix := by
  unfold carries
  split
  · exact by simp
  · exact loopCarries_lt u v v.length 0 product

/-- The product is added to what the object holds below and behind the last carries. -/
theorem multiplyLoop_eq_iff (product u v : Blocks) :
    value (multiplyLoop u v v.length 0 product) = value u * value v ↔
      Vacant product u.length v.length := by
  have looped := value_multiplyLoop u v v.length 0 product (by omega)
  have whole : value product = window product 0 u.length +
      radix ^ u.length * (window product u.length v.length +
        radix ^ v.length * window product (u.length + v.length) product.length) := by
    rw [@value_eq_window _ (u.length + (v.length + product.length)) (by omega), window_add,
      window_add, Nat.zero_add]
  rw [whole, List.drop_zero, pow_zero, Nat.one_mul, Nat.zero_add] at looped
  have vacant : Vacant product u.length v.length ↔ window product 0 u.length = 0 ∧
      window product (u.length + v.length) product.length = 0 := by
    rw [window_eq_zero_iff, window_eq_zero_iff]
    constructor
    · intro all
      exact ⟨fun i below => all _ (.inl (by omega)), fun i _ => all _ (.inr (by omega))⟩
    · rintro ⟨low, high⟩ index (below | behind)
      · have here := low index below
        rwa [Nat.zero_add] at here
      · by_cases inside : index < u.length + v.length + product.length
        · have here := high (index - (u.length + v.length)) (by omega)
          rwa [Nat.add_sub_cancel' behind] at here
        · exact get_eq_zero (by omega)
  have weight : 0 < radix ^ u.length * radix ^ v.length :=
    Nat.mul_pos (Nat.pow_pos (by decide)) (Nat.pow_pos (by decide))
  rw [vacant, Nat.mul_add, ← Nat.mul_assoc] at *
  constructor
  · intro _
    have nothing : window product 0 u.length + radix ^ u.length * radix ^ v.length *
        window product (u.length + v.length) product.length = 0 := by omega
    obtain ⟨low, high⟩ := Nat.add_eq_zero_iff.mp nothing
    exact ⟨low, (Nat.mul_eq_zero.mp high).resolve_left weight.ne'⟩
  · rintro ⟨low, high⟩
    rw [low, high] at looped
    omega

variable {data : Blocks}

theorem value_of_isOne (one : isOne data = true) : value data = 1 := by
  rw [beq_iff_eq.mp one]
  rfl

theorem value_of_isZero (zero : isZero data = true) : value data = 0 := by
  rcases Bool.or_eq_true_iff.mp zero with empty | single
  · rw [List.isEmpty_iff.mp empty]
    rfl
  · rw [beq_iff_eq.mp single]
    rfl

theorem multiplies_iff (product u v : Blocks) : Multiplies product u v ↔ Clean product u v := by
  have onlyValue : Multiplies product u v ↔
      value (AbstractIntegerRepresentation.multiply product u v) = value u * value v ∧
        Normal (AbstractIntegerRepresentation.multiply product u v) :=
    ⟨fun multiplies => ⟨multiplies.isProduct, multiplies.normal⟩,
      fun both => ⟨both.1, both.2, carries_lt product u v⟩⟩
  rw [onlyValue]
  unfold AbstractIntegerRepresentation.multiply Clean
  by_cases zero : isZero u = true
  · simp [zero, value_of_isZero zero, normal_nil]
  · by_cases one : isOne u = true
    · simp [zero, one, value_of_isOne one]
    · by_cases zero' : isZero v = true
      · simp [zero, one, zero', value_of_isZero zero', normal_nil]
      · by_cases one' : isOne v = true
        · simp [zero, one, zero', one', value_of_isOne one']
        · simp only [zero, one, zero', one', Bool.false_eq_true, if_false, false_or, value_normalize,
            normal_normalize, and_true]
          exact multiplyLoop_eq_iff product u v

/-- `AbstractIntegerQuantityUtil::multiply`, on quantities by their addresses: a product that is a
factor is computed in a temporary. -/
def multiplyQuantity (quantities : Nat -> Blocks) (product multiplicand multiplier : Nat) :
    Nat -> Blocks :=
  if product ≠ multiplicand ∧ product ≠ multiplier then
    Function.update quantities product (AbstractIntegerRepresentation.multiply
      (quantities product) (quantities multiplicand) (quantities multiplier))
  else
    Function.update quantities product (AbstractIntegerRepresentation.multiply []
      (quantities multiplicand) (quantities multiplier))

def initialQuantity (quantities : Nat -> Blocks) (product multiplicand multiplier : Nat) : Blocks :=
  if product ≠ multiplicand ∧ product ≠ multiplier then quantities product else []

theorem multiplyQuantity_eq (quantities : Nat -> Blocks) (product multiplicand multiplier : Nat) :
    multiplyQuantity quantities product multiplicand multiplier product =
      AbstractIntegerRepresentation.multiply
        (initialQuantity quantities product multiplicand multiplier) (quantities multiplicand)
        (quantities multiplier) := by
  unfold multiplyQuantity initialQuantity
  split
  · exact update_self ..
  · exact update_self ..

variable {product u v : AbstractInteger}

theorem scale_of_zero (zero : isZero u.magnitude = true ∨ isZero v.magnitude = true) :
    Memory.scale product u v = {} ∧ u.toInt * v.toInt = 0 := by
  refine ⟨if_pos zero, ?_⟩
  unfold toInt
  rcases zero with left | right
  · simp [value_of_isZero left]
  · simp [value_of_isZero right]

theorem toInt_scale (zero : ¬ isZero u.magnitude = true) (zero' : ¬ isZero v.magnitude = true) :
    (Memory.scale product u v).toInt = u.sign.multiplier * v.sign.multiplier *
      value (AbstractIntegerRepresentation.multiply product.magnitude u.magnitude v.magnitude) := by
  unfold Memory.scale toInt
  rw [if_neg (by simp [zero, zero'])]
  cases u.sign <;> cases v.sign <;> simp [AbstractIntegerSign.multiplier]

theorem canonical_normalize_iff {integer : AbstractInteger} :
    integer.normalize.Canonical ↔ Normal integer.magnitude := by
  refine ⟨fun canon => ?_, canonical_normalize⟩
  have isMagnitude : integer.normalize.magnitude = integer.magnitude := by
    unfold normalize
    split
    · rfl
    · rfl
  rw [← isMagnitude]
  exact canon.normal

theorem scale_exact_iff (zero : ¬ isZero u.magnitude = true) (zero' : ¬ isZero v.magnitude = true) :
    (normalize (Memory.scale product u v)).toInt = u.toInt * v.toInt ∧
        (normalize (Memory.scale product u v)).Canonical ↔
      Clean product.magnitude u.magnitude v.magnitude := by
  have isMagnitude : (Memory.scale product u v).magnitude =
      AbstractIntegerRepresentation.multiply product.magnitude u.magnitude v.magnitude := by
    unfold Memory.scale
    rw [if_neg (by simp [zero, zero'])]
  have isSign : u.sign.multiplier * v.sign.multiplier ≠ 0 := by
    cases u.sign <;> cases v.sign <;> decide
  have isFactors : u.toInt * v.toInt = u.sign.multiplier * v.sign.multiplier *
      (value u.magnitude * value v.magnitude : Nat) := by
    unfold toInt
    push_cast
    ring
  rw [← multiplies_iff, canonical_normalize_iff, isMagnitude]
  constructor
  · rintro ⟨isInt, normal⟩
    rw [toInt_normalize (isMagnitude ▸ normal), toInt_scale zero zero', isFactors] at isInt
    exact ⟨Int.ofNat_inj.mp (mul_left_cancel₀ isSign isInt), normal, carries_lt _ _ _⟩
  · intro multiplies
    refine ⟨?_, multiplies.normal⟩
    rw [toInt_normalize (isMagnitude ▸ multiplies.normal), toInt_scale zero zero', isFactors,
      multiplies.isProduct]

namespace Memory

theorem multiply_yields_iff (memory : Memory) (product multiplicand multiplier : Nat) :
    Yields memory (memory.multiply product multiplicand multiplier) product
        ((memory (.object multiplicand)).toInt * (memory (.object multiplier)).toInt) ↔
      isZero (memory (.object multiplier)).magnitude = true ∨
        Clean (memory.initial product multiplicand multiplier).magnitude
          (memory (.object multiplicand)).magnitude (memory (.object multiplier)).magnitude := by
  have others : ∀ address ≠ product, (memory.multiply product multiplicand multiplier)
      (.object address) = memory (.object address) := by
    intro _ other
    rw [multiply_apply, if_neg other]
  have isResult := multiply_apply memory product multiplicand multiplier product
  rw [if_pos rfl] at isResult
  generalize memory.initial product multiplicand multiplier = held at isResult ⊢
  generalize memory (.object multiplicand) = u at isResult ⊢
  generalize memory (.object multiplier) = v at isResult ⊢
  by_cases zero : isZero u.magnitude = true ∨ isZero v.magnitude = true
  · obtain ⟨isZeroScale, isZeroProduct⟩ := @scale_of_zero held _ _ zero
    rw [isZeroScale] at isResult
    refine iff_of_true ⟨?_, ?_, others⟩ ?_
    · rw [isResult, isZeroProduct]
      rfl
    · rw [isResult]
      exact canonical_normalize normal_nil
    · exact zero.symm.imp_right .inl
  · obtain ⟨ne, nonzero'⟩ := not_or.mp zero
    rw [or_iff_right nonzero', ← scale_exact_iff ne nonzero', ← isResult]
    exact ⟨fun yields => ⟨yields.isInt, yields.canonical⟩, fun both => ⟨both.1, both.2, others⟩⟩

/-- A product is exact and normalized, on magnitudes, quantities and integers, if and only if what
the result holds before is out of the way. -/
theorem products_exact_iff (product u v : Blocks) (quantities : Nat -> Blocks) (memory : Memory)
    (result left right : Nat) : (Multiplies product u v ↔ Clean product u v) ∧
      (value (multiplyQuantity quantities result left right result) =
            value (quantities left) * value (quantities right) ∧
          Normal (multiplyQuantity quantities result left right result) ∧
          (∀ carry ∈ carries (initialQuantity quantities result left right) (quantities left)
            (quantities right), carry < radix) ↔
        Clean (initialQuantity quantities result left right) (quantities left) (quantities right)) ∧
      (Yields memory (memory.multiply result left right) result
            ((memory (.object left)).toInt * (memory (.object right)).toInt) ∧
          (∀ carry ∈ carries (memory.initial result left right).magnitude
            (memory (.object left)).magnitude (memory (.object right)).magnitude, carry < radix) ↔
        isZero (memory (.object right)).magnitude = true ∨
          Clean (memory.initial result left right).magnitude (memory (.object left)).magnitude
            (memory (.object right)).magnitude) := by
  refine ⟨multiplies_iff product u v, ?_, ?_⟩
  · rw [multiplyQuantity_eq, ← multiplies_iff]
    exact ⟨fun all => ⟨all.1, all.2.1, all.2.2⟩,
      fun multiplies => ⟨multiplies.isProduct, multiplies.normal, multiplies.carries⟩⟩
  · rw [← multiply_yields_iff]
    exact and_iff_left (carries_lt _ _ _)

/-- Two times three is eleven in an object that held five. -/
theorem product_added_to_held : (¬ ∀ product u v, Multiplies product u v) ∧
      AbstractIntegerRepresentation.multiply [5] [2] [3] = [11] := by
  have eleven : AbstractIntegerRepresentation.multiply [5] [2] [3] = [11] := by decide
  refine ⟨fun all => ?_, eleven⟩
  have isProduct := (all [5] [2] [3]).isProduct
  contradiction

end Memory

end NtfCore.Ntsa.AbstractInteger
