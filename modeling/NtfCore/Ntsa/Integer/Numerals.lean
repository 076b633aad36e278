import NtfCore.Ntsa.Integer.Division

/-!
Contract: numerals of integers of any size.

Owns: the texts that `generate` writes, the numerals of the decimal and the hexadecimal system, the
texts on which `parse` agrees with them, and that `parse` reads back what `generate` writes.
-/

namespace NtfCore.Ntsa

open NtfCore.Foundation List Lists Option
open NtfCore.Foundation.Text

/-- `AbstractIntegerBase`. -/
inductive AbstractIntegerBase where
  | native
  | binary
  | octal
  | decimal
  | hexadecimal
deriving DecidableEq

namespace AbstractIntegerBase

/-- `AbstractIntegerBase::radix`. -/
def radix : AbstractIntegerBase -> UInt64
  | .native => UInt64.ofNat AbstractIntegerRepresentation.radix
  | .binary => 2
  | .octal => 8
  | .decimal => 10
  | .hexadecimal => 16

end AbstractIntegerBase

namespace AbstractIntegerRepresentation

def digitChar (digit : Nat) : UInt8 :=
  if digit < 10 then UInt8.ofNat ((ascii '0').toNat + digit)
  else UInt8.ofNat ((ascii 'a').toNat + (digit - 10))

/-- The loop of `generate` over the digits, from the least significant, which is stopped after a
number of rounds. -/
def generateLoop (divisor : Blocks) : Nat -> Blocks -> Option (List Nat)
  | 0, dividend => if isZero dividend then some [] else none
  | rounds + 1, dividend =>
    if isZero dividend then some []
    else
      let (quotient, remainder) := divide dividend divisor
      (generateLoop divisor rounds quotient).map ((get remainder 0).toNat :: ·)

/-- `generate`. The loop has no more rounds than the magnitude has bits. -/
def generate (value : Blocks) (sign : AbstractIntegerSign) (base : AbstractIntegerBase) :
    Option (List UInt8) :=
  let minus := if sign = .negative then [ascii '-'] else []
  if value.length = 0 then some [ascii '0']
  else if base = .native then some (minus ++ value.reverse.map fun block => digitChar block.toNat)
  else
    (generateLoop (assign base.radix) (bitsPerBlock * value.length) value).map fun digits =>
      (digits.map digitChar ++ minus).reverse

variable {base : Nat}

/-- The digits of a magnitude are those of its value. -/
theorem generateLoop_eq {divisor : Blocks} (several : 1 < base)
    (normalDivisor : Normal divisor) (isDivisor : value divisor = base)
    (single : divisor.length = 1) {rounds : Nat} {dividend : Blocks} (normal : Normal dividend)
    (enough : value dividend < 2 ^ rounds) :
    generateLoop divisor rounds dividend = some (Nat.digits base (value dividend)) := by
  induction rounds generalizing dividend with
  | zero =>
    have zero : value dividend = 0 := by omega
    rw [generateLoop, if_pos (normal.isZero_iff.mpr zero), zero, Nat.digits_zero]
  | succ rounds ih =>
    rw [generateLoop]
    split
    · rename_i zero
      rw [normal.isZero_iff.mp zero, Nat.digits_zero]
    · rename_i ne
      have pos : 0 < value dividend :=
        Nat.pos_of_ne_zero fun zero => ne (normal.isZero_iff.mpr zero)
      obtain ⟨isQuotient, isRemainder⟩ := divide_by_block normal normalDivisor (by omega) single
      obtain ⟨quotientNormal, _⟩ := normal_divide normal divisor
      rw [isDivisor] at isQuotient isRemainder
      have smaller : value (divide dividend divisor).1 < 2 ^ rounds := by
        rw [isQuotient]
        refine Nat.div_lt_of_lt_mul (Nat.lt_of_lt_of_le enough ?_)
        rw [pow_succ, Nat.mul_comm]
        exact Nat.mul_le_mul_right _ several
      have isDigit : (get (divide dividend divisor).2 0).toNat = value dividend % base := by
        have baseBound : base < radix := by
          have bound := value_lt divisor
          rwa [isDivisor, single, pow_one] at bound
        have parts := value_drop (divide dividend divisor).2 0
        have digitBound := Nat.mod_lt (value dividend) (Nat.zero_lt_of_lt several)
        rw [drop_zero, isRemainder, Nat.zero_add] at parts
        rcases Nat.eq_zero_or_pos (value ((divide dividend divisor).2.drop 1)) with rest | rest
        · rw [rest, Nat.mul_zero, Nat.add_zero] at parts
          exact parts.symm
        · have scaled := Nat.mul_le_mul_left radix rest
          omega
      dsimp only
      rw [ih quotientNormal smaller, isQuotient, isDigit, Nat.digits_def' several pos]
      rfl

/-! ## Positional values -/

def positional (base : Nat) (digits : List Nat) : Nat :=
  digits.foldl (fun total digit => total * base + digit) 0

theorem positional_dropWhile (base : Nat) (digits : List Nat) :
    positional base (digits.dropWhile (· == 0)) = positional base digits := by
  induction digits with
  | nil => rfl
  | cons digit _ ih =>
    by_cases isZero : digit = 0
    · rw [dropWhile_cons_of_pos (by simp [isZero]), ih]
      simp [positional, isZero]
    · rw [dropWhile_cons_of_neg (by simp [isZero])]

theorem positional_reverse (base : Nat) (digits : List Nat) :
    positional base digits.reverse = Nat.ofDigits base digits := by
  unfold positional
  rw [foldl_reverse, Nat.ofDigits_eq_foldr]
  congr 1
  funext digit total
  rw [Nat.mul_comm, Nat.add_comm]
  rfl

theorem foldl_le {total total' : Nat} (pos : 0 < base) (begun : total ≤ total')
    {digits digits' : List Nat} (related : Forall₂ (· ≤ ·) digits digits') :
    digits.foldl (fun total digit => total * base + digit) total ≤
        digits'.foldl (fun total digit => total * base + digit) total' ∧
      (digits.foldl (fun total digit => total * base + digit) total =
          digits'.foldl (fun total digit => total * base + digit) total' ->
        total = total' ∧ digits = digits') := by
  induction related generalizing total total' with
  | nil => exact ⟨begun, fun same => ⟨same, rfl⟩⟩
  | @cons _ _ _ _ less _ ih =>
    have scaled : total * base ≤ total' * base := Nat.mul_le_mul_right base begun
    obtain ⟨bound, equal⟩ := ih (Nat.add_le_add scaled less)
    refine ⟨bound, fun same => ?_⟩
    obtain ⟨_, sameDigits⟩ := equal same
    have sameScaled : total * base = total' * base := by omega
    exact ⟨Nat.eq_of_mul_eq_mul_right pos sameScaled, by rw [sameDigits]; congr 1; omega⟩

/-- `parse` adds up the digits that it takes characters for. -/
theorem value_parseLoop_positional (isBase : base = 10 ∨ base = 16)
    {digits : List Nat} (small : ∀ digit ∈ digits, digit < 16) :
    Normal (parseLoop base [] digits) ∧ value (parseLoop base [] digits)
    = positional base digits := by
  obtain ⟨normal, isValue⟩ := value_parseLoop base normal_nil digits
  refine ⟨normal, ?_⟩
  rw [isValue]
  refine foldl_ext _ _ _ fun _ digit mem => ?_
  have digitBound := small digit mem
  have isDigit : (UInt64.ofNat digit).toNat = digit := by
    rw [UInt64.toNat_ofNat']
    omega
  have isRadix : (UInt64.ofNat base).toNat = base := by
    rw [UInt64.toNat_ofNat']
    omega
  rw [isDigit, isRadix]

theorem digitValues_lt {text : List UInt8} {values : List Nat}
    (isValues : text.mapM (digitValue base) = some values) : ∀ digit ∈ values, digit < 16 := by
  intro _ mem
  have related := Forall₂.flip (mapM_eq_some.mp isValues)
  obtain ⟨_, _, isDigit⟩ := related_of_mem related mem
  exact digitValue_lt isDigit

end AbstractIntegerRepresentation

namespace AbstractInteger

open AbstractIntegerRepresentation

/-! ## The digits that are parsed -/

section Digits

variable {base : Nat} {sign : AbstractIntegerSign} {text digits : List UInt8}

theorem parse_of_failed (head : parseHead text = .failed sign) :
    parse text = some (false, ⟨sign, []⟩) := by
  unfold parse AbstractIntegerRepresentation.parse
  rw [head]

theorem parse_of_zero (head : parseHead text = .zero) : parse text = some (true, {}) := by
  unfold parse AbstractIntegerRepresentation.parse
  rw [head]

section

variable (head : parseHead text = .digits base sign digits)
include head

theorem parse_of_none (refused : digits.mapM (digitValue base) = none) :
    parse text = some (false, ⟨sign, []⟩) := by
  unfold parse AbstractIntegerRepresentation.parse
  simp only [head, refused]

variable {values : List Nat}

/-- The assertion fails when every digit is taken for zero. -/
theorem parse_of_zeros (isValues : digits.mapM (digitValue base) = some values)
    (zeros : ∀ digit ∈ values, digit = 0) : parse text = none := by
  have nothing : values.dropWhile (· == 0) = [] :=
    dropWhile_eq_nil_iff.mpr fun digit mem => by simpa using zeros digit mem
  unfold parse AbstractIntegerRepresentation.parse
  simp only [head, isValues, nothing, if_true]

theorem parse_of_digits (isBase : base = 10 ∨ base = 16)
    (isValues : digits.mapM (digitValue base) = some values) (ne : ¬∀ digit ∈ values, digit = 0) :
    ∃ magnitude, parse text = some (true, ⟨sign, magnitude⟩) ∧ Normal magnitude ∧
      value magnitude = positional base values := by
  have something : ¬values.dropWhile (· == 0) = [] := fun nothing =>
    ne fun digit mem => by
      simpa using dropWhile_eq_nil_iff.mp nothing digit mem
  have small : ∀ digit ∈ values.dropWhile (· == 0), digit < 16 := fun digit mem =>
    digitValues_lt isValues digit ((dropWhile_sublist _).subset mem)
  obtain ⟨_, isValue⟩ := value_parseLoop_positional isBase small
  refine ⟨AbstractIntegerRepresentation.normalize (parseLoop base [] (values.dropWhile (· == 0))),
    ?_, normal_normalize _, ?_⟩
  · unfold parse AbstractIntegerRepresentation.parse
    simp only [head, isValues, if_neg something]
  · rw [value_normalize, isValue, positional_dropWhile]

end

end Digits

/-- `AbstractInteger::generate`. -/
def generate (integer : AbstractInteger) (base : AbstractIntegerBase) : Option (List UInt8) :=
  AbstractIntegerRepresentation.generate integer.magnitude integer.sign base

theorem digitValue_digitChar {digit : Nat} (small : digit < 10) :
    digitValue 10 (digitChar digit) = some digit := by
  have every : ∀ digit : Fin 10, digitValue 10 (digitChar digit) = some digit.val := by decide
  exact every ⟨digit, small⟩

theorem parseHead_generated (sign : AbstractIntegerSign) {first : Nat} (small : first < 10)
    (ne : first ≠ 0) (rest : List UInt8) :
    parseHead ((if sign = .negative then [ascii '-'] else []) ++ digitChar first :: rest) =
      .digits 10 sign (digitChar first :: rest) := by
  have every : ∀ digit : Fin 10, digit.val ≠ 0 -> digitChar digit ≠ ascii '0' ∧
      digitChar digit ≠ ascii '+' ∧ digitChar digit ≠ ascii '-' := by decide
  obtain ⟨notZero, notPlus, notMinus⟩ := every ⟨first, small⟩ ne
  cases sign with
  | negative =>
    have isMinus := parseHead_minus (digitChar first :: rest)
    exact isMinus
  | positive =>
    rw [if_neg (by decide), nil_append, parseHead.eq_def]
    dsimp only
    rw [if_neg notZero, parseSign.eq_def]
    dsimp only
    rw [if_neg notPlus, if_neg notMinus]

theorem parse_generate {integer : AbstractInteger} (canon : integer.Canonical) :
    ∃ text, generate integer .decimal = some text ∧ parse text = some (true, integer) := by
  obtain ⟨sign, magnitude⟩ := integer
  have normal : Normal magnitude := canon.normal
  unfold generate AbstractIntegerRepresentation.generate
  by_cases empty : magnitude.length = 0
  · rw [if_pos empty]
    have isNil := length_eq_zero_iff.mp empty
    have isPos := canon.zero_positive (by rw [isNil]; rfl)
    dsimp only at isPos
    exact ⟨_, rfl, by rw [isNil, isPos]; decide⟩
  · have ne : value magnitude ≠ 0 := fun zero =>
      empty (by rw [normal.inj normal_nil zero]; rfl)
    have enough : value magnitude < 2 ^ (bitsPerBlock * magnitude.length) := by
      have bound := value_lt magnitude
      rwa [radix, ← pow_mul] at bound
    have isTen : assign AbstractIntegerBase.decimal.radix = [10] := by
      exact (normal_assign _).inj (by decide) (value_assign _)
    have loop := @generateLoop_eq 10 [10] (by decide) (by decide) (by decide) rfl _ _ normal enough
    rw [if_neg empty, if_neg (by decide), isTen, loop]
    refine ⟨_, rfl, ?_⟩
    -- The most significant digit is not zero.
    obtain ⟨first, rest, isDigits⟩ : ∃ first rest,
        (Nat.digits 10 (value magnitude)).reverse = first :: rest := by
      refine exists_cons_of_ne_nil fun isNil => ne ?_
      exact Nat.digits_eq_nil_iff_eq_zero.mp (reverse_eq_nil_iff.mp isNil)
    have digitBound : ∀ digit ∈ first :: rest, digit < 10 := by
      intro digit mem
      rw [← isDigits, mem_reverse] at mem
      exact Nat.digits_lt_base (by decide) mem
    have firstNonzero : first ≠ 0 := by
      have last := Nat.getLast_digit_ne_zero 10 ne
      rw [getLast_eq_head_reverse] at last
      simpa only [isDigits, head_cons] using last
    have isText : (map digitChar (Nat.digits 10 (value magnitude)) ++
        if sign = .negative then [ascii '-'] else []).reverse =
        (if sign = .negative then [ascii '-'] else []) ++ digitChar first :: rest.map digitChar := by
      rw [reverse_append, ← map_reverse, isDigits, map_cons]
      congr 1
      split
      · rfl
      · rfl
    have head := parseHead_generated sign (digitBound first mem_cons_self) firstNonzero
      (rest.map digitChar)
    have isValues : (digitChar first :: rest.map digitChar).mapM (digitValue 10) =
        some (first :: rest) := by
      rw [← map_cons, mapM_eq_some, forall₂_map_left_iff, forall₂_same]
      exact fun digit mem => digitValue_digitChar (digitBound digit mem)
    obtain ⟨_, isParsed, normal', isValue⟩ := parse_of_digits head (.inl rfl) isValues
      fun zeros => firstNonzero (zeros first mem_cons_self)
    rw [← isDigits, positional_reverse, Nat.ofDigits_digits] at isValue
    beta_reduce
    rw [isText, isParsed, normal'.inj normal isValue]

/-! ## Numerals -/

def decimalDigit (ch : UInt8) : Option Nat :=
  if isDigit ch then some (ch.toNat - (ascii '0').toNat) else none

def hexadecimalDigit (ch : UInt8) : Option Nat :=
  if isDigit ch then some (ch.toNat - (ascii '0').toNat)
  else if ascii 'a' ≤ ch ∧ ch ≤ ascii 'f' then some (10 + (ch.toNat - (ascii 'a').toNat))
  else if ascii 'A' ≤ ch ∧ ch ≤ ascii 'F' then some (10 + (ch.toNat - (ascii 'A').toNat))
  else none

def signed : List UInt8 -> AbstractIntegerSign × List UInt8
  | [] => (.positive, [])
  | first :: rest =>
    if first = ascii '+' then (.positive, rest)
    else if first = ascii '-' then (.negative, rest)
    else (.positive, first :: rest)

def DecimalNumeral (text : List UInt8) (integer : Int) : Prop :=
  (signed text).2 ≠ [] ∧
    ((signed text).2.head? = some (ascii '0') -> (signed text).2 = [ascii '0']) ∧
    ∃ values, (signed text).2.mapM decimalDigit = some values ∧
      integer = (signed text).1.multiplier * positional 10 values

def HexadecimalNumeral (text : List UInt8) (integer : Int) : Prop :=
  ∃ x digits, text = ascii '0' :: x :: digits ∧ (x = ascii 'x' ∨ x = ascii 'X') ∧ digits ≠ [] ∧
    ∃ values, digits.mapM hexadecimalDigit = some values ∧ integer = positional 16 values

def Numeral (text : List UInt8) (integer : Int) : Prop :=
  DecimalNumeral text integer ∨ HexadecimalNumeral text integer

def ReadsNumeral (text : List UInt8) : Prop :=
  parse text ≠ none ∧ ∀ integer,
    (∃ result, parse text = some (true, result) ∧ result.toInt = integer) ↔ Numeral text integer

/-- A sign before decimal digits the first of which is zero, or hexadecimal digits that are all zero
or among which there is a letter. -/
def Misread (text : List UInt8) : Prop :=
  (signed text).2 ≠ text ∧ (signed text).2.head? = some (ascii '0') ∧
      (∀ ch ∈ (signed text).2, decimalDigit ch ≠ none) ∨
    ∃ x digits, text = ascii '0' :: x :: digits ∧ (x = ascii 'x' ∨ x = ascii 'X') ∧ digits ≠ [] ∧
      (∀ ch ∈ digits, hexadecimalDigit ch ≠ none) ∧
      ((∀ ch ∈ digits, ch = ascii '0') ∨ ∃ ch ∈ digits, decimalDigit ch = none)

theorem digitValue_ten (ch : UInt8) : digitValue 10 ch = decimalDigit ch := by
  revert ch
  apply forall_byte
  decide +kernel

theorem zero_of_digit {ch : UInt8} (isZero : digitValue 10 ch = some 0) : ch = ascii '0' := by
  revert ch
  apply forall_byte
  decide +kernel

/-- A digit is taken for what it is, unless it is a letter, which is taken for less. -/
theorem digitValue_sixteen (ch : UInt8) : (digitValue 16 ch = none ↔ hexadecimalDigit ch = none) ∧
      ∀ digit ∈ digitValue 16 ch, ∃ digit' ∈ hexadecimalDigit ch,
        digit ≤ digit' ∧ (digit = digit' ↔ decimalDigit ch ≠ none) ∧
        (digit = 0 -> ch = ascii '0' ∨ decimalDigit ch = none) := by
  revert ch
  apply forall_byte
  decide +kernel

/-- The digits that characters are taken for, and those that they are. -/
theorem hexadecimalDigits {digits : List UInt8} {values : List Nat}
    (isValues : digits.mapM (digitValue 16) = some values) :
    ∃ values', digits.mapM hexadecimalDigit = some values' ∧ Forall₂ (· ≤ ·) values values' ∧
      (values = values' ↔ ∀ ch ∈ digits, decimalDigit ch ≠ none) ∧
      ((∀ digit ∈ values, digit = 0) -> ∀ ch ∈ digits, ch = ascii '0' ∨ decimalDigit ch = none) := by
  have related := mapM_eq_some.mp isValues
  clear isValues
  induction related with
  | nil => exact ⟨[], rfl, .nil, by simp, by simp⟩
  | @cons ch digit _ _ isDigit _ ih =>
    obtain ⟨values', isValues', less, same, zeros⟩ := ih
    obtain ⟨digit', isDigit', lessDigit, sameDigit, zeroDigit⟩ :=
      (digitValue_sixteen ch).2 digit isDigit
    refine ⟨digit' :: values', ?_, .cons lessDigit less, ?_, ?_⟩
    · rw [mapM_eq_some] at isValues' ⊢
      exact .cons isDigit' isValues'
    · rw [cons.injEq, sameDigit, same, forall_mem_cons]
    · intro allZero
      rw [forall_mem_cons] at allZero ⊢
      exact ⟨zeroDigit allZero.1, zeros allZero.2⟩

variable {result : AbstractInteger} {text : List UInt8}

theorem reads_of_refused (parsed : parse text = some (false, result))
    (none : ∀ integer, ¬Numeral text integer) : ReadsNumeral text := by
  refine ⟨by simp [parsed], fun integer => iff_of_false ?_ (none integer)⟩
  simp [parsed]

theorem reads_iff_of_accepted (parsed : parse text = some (true, result)) :
    ReadsNumeral text ↔ ∀ integer, result.toInt = integer ↔ Numeral text integer := by
  unfold ReadsNumeral
  simp [parsed]

/-! ## Texts with a leading zero -/

section Zero

variable {x : UInt8} {rest : List UInt8}

theorem signed_zero (rest : List UInt8) :
    signed (ascii '0' :: rest) = (.positive, ascii '0' :: rest) := by
  rw [signed, if_neg (by decide), if_neg (by decide)]

/-- A zero that something follows begins no decimal number. -/
theorem not_decimal_of_zero {integer : Int} (more : rest ≠ []) :
    ¬DecimalNumeral (ascii '0' :: rest) integer := by
  rintro ⟨_, short, _⟩
  exact more (cons.inj (short rfl)).2

theorem not_misread_of_zero (other : ∀ x digits, rest = x :: digits ->
    (x = ascii 'x' ∨ x = ascii 'X') -> digits = []) : ¬Misread (ascii '0' :: rest) := by
  rintro (⟨isSigned, _⟩ | ⟨x, digits, isText, isX, ne, _⟩)
  · exact isSigned (by rw [signed_zero])
  · exact ne (other x digits (cons.inj isText).2 isX)

section

variable (isX : x = ascii 'x' ∨ x = ascii 'X')
include isX

section

variable (ne : rest ≠ [])
include ne

/-- Characters that are no hexadecimal digits are refused behind the mark, a sign among them. -/
theorem parseHead_mark : parseHead (ascii '0' :: x :: rest) = parseSign 16 rest := by
  rw [parseHead.eq_def]
  dsimp only
  rw [if_pos rfl, if_pos isX, if_neg ne]

theorem parse_mark_none (refused : rest.mapM (digitValue 16) = none) :
    ∃ result, parse (ascii '0' :: x :: rest) = some (false, result) := by
  have head := parseHead_mark isX ne
  cases rest with
  | nil => contradiction
  | cons =>
    rw [parseSign.eq_def] at head
    dsimp only at head
    split at head
    · rw [if_pos (by decide)] at head
      exact ⟨_, parse_of_failed head⟩
    · split at head
      · rw [if_pos (by decide)] at head
        exact ⟨_, parse_of_failed head⟩
      · exact ⟨_, parse_of_none head refused⟩

theorem parseHead_mark_some {values : List Nat} (isValues : rest.mapM (digitValue 16) = some values) :
    parseHead (ascii '0' :: x :: rest) = .digits 16 .positive rest := by
  rw [parseHead_mark isX ne]
  cases rest with
  | nil => contradiction
  | cons first rest =>
    have noSign : ∀ sign, digitValue 16 sign = none -> first ≠ sign := by
      intro _ noDigit isSign
      have refused := mapM_eq_none.mpr
        ⟨first, mem_cons_self (l := rest), by rw [isSign]; exact noDigit⟩
      rw [isValues] at refused
      contradiction
    rw [parseSign.eq_def]
    dsimp only
    rw [if_neg (noSign _ (by decide)), if_neg (noSign _ (by decide))]

theorem reads_mark_iff :
    ReadsNumeral (ascii '0' :: x :: rest) ↔ ¬Misread (ascii '0' :: x :: rest) := by
  have numeral : ∀ integer, Numeral (ascii '0' :: x :: rest) integer ↔
      ∃ values, rest.mapM hexadecimalDigit = some values ∧ integer = positional 16 values := by
    intro integer
    unfold Numeral
    rw [or_iff_right (not_decimal_of_zero (cons_ne_nil _ _))]
    unfold HexadecimalNumeral
    simp only [cons.injEq, true_and]
    constructor
    · rintro ⟨_, _, ⟨rfl, rfl⟩, _, _, values⟩
      exact values
    · exact fun values => ⟨x, rest, ⟨rfl, rfl⟩, isX, ne, values⟩
  have misread : Misread (ascii '0' :: x :: rest) ↔ (∀ ch ∈ rest, hexadecimalDigit ch ≠ none) ∧
        ((∀ ch ∈ rest, ch = ascii '0') ∨ ∃ ch ∈ rest, decimalDigit ch = none) := by
    unfold Misread
    rw [signed_zero]
    simp only [ne_eq, not_true_eq_false, false_and, false_or, cons.injEq, true_and]
    constructor
    · rintro ⟨_, _, ⟨rfl, rfl⟩, _, _, parts⟩
      exact parts
    · exact fun parts => ⟨x, rest, ⟨rfl, rfl⟩, isX, ne, parts⟩
  cases isValues : rest.mapM (digitValue 16) with
  | none =>
    obtain ⟨_, parsed⟩ := parse_mark_none isX ne isValues
    obtain ⟨ch, mem, noDigit⟩ := mapM_eq_none.mp isValues
    have noNumber := (digitValue_sixteen ch).1.mp noDigit
    refine iff_of_true (reads_of_refused parsed fun integer isNumeral => ?_) ?_
    · obtain ⟨values, isNumber, _⟩ := (numeral integer).mp isNumeral
      rw [mapM_eq_none.mpr ⟨ch, mem, noNumber⟩] at isNumber
      contradiction
    · rw [misread]
      exact fun parts => parts.1 ch mem noNumber
  | some values =>
    have head := parseHead_mark_some isX ne isValues
    obtain ⟨values', isValues', less, same, zeros⟩ := hexadecimalDigits isValues
    have allDigits : ∀ ch ∈ rest, hexadecimalDigit ch ≠ none := fun ch mem noDigit => by
      rw [mapM_eq_none.mpr ⟨ch, mem, noDigit⟩] at isValues'
      contradiction
    rw [misread, and_iff_right allDigits]
    by_cases allZero : ∀ digit ∈ values, digit = 0
    · refine iff_of_false (fun reads => reads.1 (parse_of_zeros head isValues allZero)) ?_
      refine not_not.mpr ?_
      by_cases letter : ∃ ch ∈ rest, decimalDigit ch = none
      · exact .inr letter
      · exact .inl fun ch mem =>
          (zeros allZero ch mem).resolve_right fun noDigit => letter ⟨ch, mem, noDigit⟩
    · obtain ⟨magnitude, parsed, _, isValue⟩ := parse_of_digits head (.inr rfl) isValues allZero
      have isInt : toInt ⟨.positive, magnitude⟩ = positional 16 values := by
        rw [toInt_positive, isValue]
      have someNotZero : ¬∀ ch ∈ rest, ch = ascii '0' := fun allZeros => allZero fun _ mem => by
        have related := Forall₂.flip (mapM_eq_some.mp isValues)
        obtain ⟨ch, isMem, isDigit⟩ := related_of_mem related mem
        rw [allZeros ch isMem] at isDigit
        exact (some.inj isDigit).symm
      rw [reads_iff_of_accepted parsed, isInt, or_iff_right someNotZero]
      simp only [numeral, isValues', some.injEq, exists_eq_left']
      have lettersMatter : positional 16 values = positional 16 values' ↔
          ∀ ch ∈ rest, decimalDigit ch ≠ none := by
        rw [← same]
        exact ⟨fun equal => ((foldl_le (by decide) (le_refl 0) less).2 equal).2,
          fun equal => by rw [equal]⟩
      simp only [not_exists, not_and]
      rw [← lettersMatter]
      constructor
      · intro all
        exact_mod_cast (all _).mp rfl
      · intro equal _
        rw [equal, eq_comm]

end

end

theorem reads_zero_alone : ReadsNumeral [ascii '0'] ∧ ¬Misread [ascii '0'] := by
  have parsed : parse [ascii '0'] = some (true, {}) := parse_of_zero rfl
  refine ⟨?_, not_misread_of_zero fun _ _ isText => by contradiction⟩
  rw [reads_iff_of_accepted parsed]
  intro _
  constructor
  · intro isInt
    refine .inl ⟨by decide, fun _ => rfl, [0], rfl, ?_⟩
    rw [← isInt]
    rfl
  · rintro (⟨_, _, _, isValues, isInt⟩ | ⟨_, _, isText, _⟩)
    · rw [isInt, ← some.inj isValues]
      rfl
    · simp at isText

/-- Behind a leading zero that is no mark of hexadecimal digits, every text is refused. -/
theorem reads_zero_other (more : rest ≠ [])
    (other : ∀ x digits, rest = x :: digits -> (x = ascii 'x' ∨ x = ascii 'X') -> digits = []) :
    ReadsNumeral (ascii '0' :: rest) ∧ ¬Misread (ascii '0' :: rest) := by
  refine ⟨?_, not_misread_of_zero other⟩
  have head : parseHead (ascii '0' :: rest) = .failed .positive := by
    rw [parseHead.eq_def]
    dsimp only
    rw [if_pos rfl]
    cases rest with
    | nil => contradiction
    | cons x digits =>
      dsimp only
      split
      · rename_i isX
        rw [if_pos (other x digits rfl isX)]
      · rfl
  refine reads_of_refused (parse_of_failed head) fun _ isNumeral => ?_
  rcases isNumeral with isDecimal | ⟨x, digits, isText, isX, ne, _⟩
  · exact not_decimal_of_zero more isDecimal
  · exact ne (other x digits (cons.inj isText).2 isX)

end Zero

section Plain

variable {first : UInt8} {rest : List UInt8} (plain : first ≠ ascii '0')
include plain

theorem not_hexadecimal_of_plain (integer : Int) : ¬HexadecimalNumeral (first :: rest) integer := by
  rintro ⟨x, _, isText, _⟩
  exact plain (cons.inj isText).1

theorem parseHead_plain : parseHead (first :: rest) =
      if (signed (first :: rest)).2 = [] then .failed (signed (first :: rest)).1
      else .digits 10 (signed (first :: rest)).1 (signed (first :: rest)).2 := by
  rw [parseHead.eq_def, signed]
  dsimp only
  rw [if_neg plain, parseSign.eq_def]
  dsimp only
  split
  · rw [if_neg (by decide)]
  · split
    · rw [if_neg (by decide)]
    · rw [if_neg (cons_ne_nil _ _)]

theorem reads_plain_iff : ReadsNumeral (first :: rest) ↔ ¬Misread (first :: rest) := by
  have head := @parseHead_plain _ rest plain
  have numeral : ∀ integer, Numeral (first :: rest) integer ↔
      DecimalNumeral (first :: rest) integer :=
    fun integer => or_iff_left (not_hexadecimal_of_plain plain integer)
  have misread : Misread (first :: rest) ↔ (signed (first :: rest)).2 ≠ first :: rest ∧
      (signed (first :: rest)).2.head? = some (ascii '0') ∧
      ∀ ch ∈ (signed (first :: rest)).2, decimalDigit ch ≠ none := by
    refine or_iff_left ?_
    rintro ⟨x, digits, isText, _⟩
    exact plain (cons.inj isText).1
  rw [misread]
  unfold DecimalNumeral at numeral
  have leading : (signed (first :: rest)).2.head? = some (ascii '0') ->
      (signed (first :: rest)).2 ≠ first :: rest := by
    intro isZero isText
    rw [isText] at isZero
    exact plain (some.inj isZero)
  generalize signed (first :: rest) = parts at *
  obtain ⟨_, digits⟩ := parts
  by_cases empty : digits = []
  · rw [if_pos empty] at head
    refine iff_of_true (reads_of_refused (parse_of_failed head) fun integer isNumeral => ?_) ?_
    · exact ((numeral integer).mp isNumeral).1 empty
    · rw [empty]
      exact fun parts => absurd parts.2.1 (by simp)
  · rw [if_neg empty] at head
    have sameDigits : digitValue 10 = decimalDigit := funext digitValue_ten
    cases isValues : digits.mapM (digitValue 10) with
    | none =>
      refine iff_of_true (reads_of_refused (parse_of_none head isValues)
        fun integer isNumeral => ?_) ?_
      · obtain ⟨_, _, values, isNumber, _⟩ := (numeral integer).mp isNumeral
        rw [← sameDigits, isValues] at isNumber
        cases isNumber
      · obtain ⟨ch, mem, noDigit⟩ := mapM_eq_none.mp isValues
        exact fun parts => parts.2.2 ch mem ((digitValue_ten ch).symm.trans noDigit)
    | some values =>
      have allDigits : ∀ ch ∈ digits, decimalDigit ch ≠ none := fun ch mem noDigit => by
        rw [sameDigits, mapM_eq_none.mpr ⟨ch, mem, noDigit⟩] at isValues
        cases isValues
      have related := mapM_eq_some.mp isValues
      by_cases allZero : ∀ digit ∈ values, digit = 0
      · refine iff_of_false (fun reads => reads.1 (parse_of_zeros head isValues allZero)) ?_
        have isZero : digits.head? = some (ascii '0') := by
          cases related with
          | nil => exact absurd rfl empty
          | @cons _ digit digits values isDigit =>
            rw [allZero digit mem_cons_self] at isDigit
            rw [head?_cons, zero_of_digit isDigit]
        exact not_not.mpr ⟨leading isZero, isZero, allDigits⟩
      · obtain ⟨_, parsed, _, isValue⟩ := parse_of_digits head (.inl rfl) isValues allZero
        rw [reads_iff_of_accepted parsed]
        simp only [numeral, toInt, isValue, ← sameDigits, isValues, some.injEq,
          exists_eq_left', ne_eq, empty, not_false_eq_true, true_and]
        by_cases isZero : digits.head? = some (ascii '0')
        · have longer : digits ≠ [ascii '0'] := fun isSingle => by
            rw [isSingle] at isValues
            have single : values = [0] := (some.inj isValues).symm
            exact allZero (by rw [single]; simp)
          refine iff_of_false (fun all => ?_)
            (not_not.mpr ⟨leading isZero, isZero, by rw [sameDigits]; exact allDigits⟩)
          exact longer (((all _).mp rfl).1 isZero)
        · refine iff_of_true (fun _ => ?_) fun parts => isZero parts.2.1
          rw [and_iff_right (fun zero => absurd zero isZero), eq_comm]

end Plain

theorem reads_iff (text : List UInt8) : ReadsNumeral text ↔ ¬Misread text := by
  cases text with
  | nil =>
    refine iff_of_true (reads_of_refused (parse_of_failed rfl) ?_) ?_
    · rintro _ (⟨ne, _⟩ | ⟨_, _, isText, _⟩)
      · exact ne rfl
      · contradiction
    · rintro (⟨isSigned, _⟩ | ⟨_, _, _, _⟩)
      · exact isSigned rfl
      · contradiction
  | cons first rest =>
    by_cases plain : first = ascii '0'
    · rw [plain]
      by_cases marked : ∃ x digits, rest = x :: digits ∧ (x = ascii 'x' ∨ x = ascii 'X') ∧ digits ≠ []
      · obtain ⟨x, digits, isRest, isX, ne⟩ := marked
        rw [isRest]
        exact reads_mark_iff isX ne
      · have other : ∀ x digits, rest = x :: digits -> (x = ascii 'x' ∨ x = ascii 'X') ->
            digits = [] := fun x digits isRest isX =>
          by_contra fun ne => marked ⟨x, digits, isRest, isX, ne⟩
        by_cases alone : rest = []
        · rw [alone]
          exact iff_of_true reads_zero_alone.1 reads_zero_alone.2
        · obtain ⟨reads, notMisread⟩ := reads_zero_other alone other
          exact iff_of_true reads notMisread
    · exact reads_plain_iff plain

/-- `parse` agrees with the numerals on exactly the texts that are not misread, and reads back what
`generate` writes. -/
theorem numerals_read_iff (text : List UInt8) (integer : AbstractInteger)
    (canonical : integer.Canonical) :
    (ReadsNumeral text ↔ ¬Misread text) ∧ ∃ generated, generate integer .decimal = some generated ∧
        parse generated = some (true, integer) :=
  ⟨reads_iff text, parse_generate canonical⟩

theorem numerals_read_ten :
    (ReadsNumeral [ascii '1', ascii '0'] ↔ ¬Misread [ascii '1', ascii '0']) ∧
      ∃ generated, generate ⟨.negative, [10]⟩ .decimal = some generated ∧
        parse generated = some (true, ⟨.negative, [10]⟩) :=
  numerals_read_iff [ascii '1', ascii '0'] ⟨.negative, [10]⟩
    ⟨by decide, fun isZero => absurd isZero (by decide)⟩

/-- The letter of ten is read as zero, and the assertion fails for a number of zeros. -/
theorem letters_misread : (¬∀ text, ReadsNumeral text) ∧
      Numeral [ascii '0', ascii 'x', ascii '1', ascii 'a'] 26 ∧
      (∃ result, parse [ascii '0', ascii 'x', ascii '1', ascii 'a'] = some (true, result) ∧
        result.toInt = 16) ∧ parse [ascii '+', ascii '0'] = none := by
  have asserted : parse [ascii '+', ascii '0'] = none := by decide
  refine ⟨fun all => (all [ascii '+', ascii '0']).1 asserted, ?_, ?_, asserted⟩
  · exact .inr ⟨ascii 'x', [ascii '1', ascii 'a'], rfl, .inl rfl, by decide, [1, 10], by decide,
      by decide⟩
  · have head : parseHead [ascii '0', ascii 'x', ascii '1', ascii 'a'] =
        .digits 16 .positive [ascii '1', ascii 'a'] := rfl
    have isValues : [ascii '1', ascii 'a'].mapM (digitValue 16) = some [1, 0] := by decide
    obtain ⟨_, parsed, _, isValue⟩ := parse_of_digits head (.inr rfl) isValues (by decide)
    exact ⟨_, parsed, by rw [toInt_positive, isValue]; rfl⟩

end AbstractInteger

end NtfCore.Ntsa
