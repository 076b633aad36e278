import NtfCore.Ntsa.HostText
import NtfCore.Ntsa.Ipv6Accesses

/-!
Contract: which texts are ports and scope identifiers (`ntsa::PortUtil::parse` and
`ntsa::Ipv6ScopeIdUtil::parse`).

Owns: the grammar of numerals with blanks and a sign, what the two functions make of any
text with what follows it in memory, and the texts on which they differ from the grammar.
-/

namespace NtfCore.Ntsa.Ipv6ScopeIdUtil

open NtfCore.Foundation.Text List Option

/-! ## Grammar -/

def Numeral (text : List UInt8) (value : Int) : Prop :=
  ∃ blanks sign digits : List UInt8, text = blanks ++ sign ++ digits ∧
    (∀ chr ∈ blanks, isSpace chr = true) ∧
    (sign = [] ∨ sign = [ascii '+'] ∨ sign = [ascii '-']) ∧
    digits ≠ [] ∧ (∀ chr ∈ digits, isDigit chr = true) ∧
    value = if sign = [ascii '-'] then -(decimalNumber 0 digits : Int) else decimalNumber 0 digits

def ReadsNumerals (parsed : Option Nat) (text : List UInt8) : Prop :=
  ∀ result : Nat, parsed = some result ↔
    ∃ value : Int, Numeral text value ∧ value ≤ ushortMax ∧ (result : Int) = value

def Wraps (digits : List UInt8) : Prop :=
  (∀ chr ∈ digits, isDigit chr = true) ∧ 2 ^ 64 ≤ decimalNumber 0 digits ∧
    decimalNumber 0 digits % 2 ^ 64 ≤ ushortMax

/-- The texts that are misread, given what follows them in memory: blanks without anything else,
unless a blank or a sign follows them, and nothing at all, unless a null character follows it; a
plus without a digit; numerals that wrap to one within the limit; and a negative zero. -/
def Misread (text after : List UInt8) : Prop :=
  match text.dropWhile isSpace with
  | [] =>
    (text = [] -> after.headD 0 ≠ 0) ∧ isSpace (after.headD 0) = false ∧
      after.headD 0 ≠ ascii '-' ∧ after.headD 0 ≠ ascii '+'
  | chr :: rest =>
    if chr = ascii '-' then
      rest ≠ [] ∧ (∀ digit ∈ rest, isDigit digit = true) ∧ decimalNumber 0 rest = 0
    else if chr = ascii '+' then rest = [] ∨ Wraps rest
    else Wraps (chr :: rest)

def SignedDigits (body : List UInt8) (value : Int) : Prop :=
  ∃ sign digits : List UInt8, body = sign ++ digits ∧
    (sign = [] ∨ sign = [ascii '+'] ∨ sign = [ascii '-']) ∧
    digits ≠ [] ∧ (∀ chr ∈ digits, isDigit chr = true) ∧
    value = if sign = [ascii '-'] then -(decimalNumber 0 digits : Int) else decimalNumber 0 digits

theorem not_isSpace_of_isDigit (chr : UInt8) : isDigit chr = true -> isSpace chr = false := by
  revert chr
  exact forall_byte (by decide +kernel)

theorem signedDigits_head {body : List UInt8} {value : Int} (isSigned : SignedDigits body value) :
    ∃ chr rest, body = chr :: rest ∧ isSpace chr = false := by
  obtain ⟨_, digits, isBody, isSign, ne, all, _⟩ := isSigned
  rcases isSign with isSign | isSign | isSign
  · obtain ⟨digit, rest, isDigits⟩ := exists_cons_of_ne_nil ne
    refine ⟨digit, rest, ?_, ?_⟩
    · rw [isBody, isSign, isDigits, nil_append]
    · exact not_isSpace_of_isDigit digit (all digit (isDigits ▸ mem_cons_self))
  · exact ⟨_, digits, by rw [isBody, isSign]; rfl, by decide⟩
  · exact ⟨_, digits, by rw [isBody, isSign]; rfl, by decide⟩

theorem numeral_iff (text : List UInt8) (value : Int) :
    Numeral text value ↔ SignedDigits (text.dropWhile isSpace) value := by
  constructor
  · rintro ⟨_, sign, digits, isText, allBlank, rest⟩
    have isSigned : SignedDigits (sign ++ digits) value := ⟨sign, digits, rfl, rest⟩
    obtain ⟨chr, _, isBody, notBlank⟩ := signedDigits_head isSigned
    rw [isText, append_assoc, dropWhile_append_of_pos allBlank]
    rwa [isBody, dropWhile_cons_of_neg (Bool.not_eq_true _ ▸ notBlank), ← isBody]
  · rintro ⟨sign, digits, isBody, rest⟩
    refine ⟨text.takeWhile isSpace, sign, digits, ?_, ?_, rest⟩
    · rw [append_assoc, ← isBody, takeWhile_append_dropWhile]
    · exact fun _ mem => mem_takeWhile_imp mem

/-! ## The scan -/

/-- `parse` from the first character that is no blank on. -/
def signedLoop (e : Nat) (skipped : Nat × UInt8 × List UInt8) : Option Nat :=
  let (position, c, rest) := skipped
  if c = ascii '-' then none
  else
    let (position, c, rest) :=
      if c = ascii '+' then (position + 1, rest.headD 0, rest.tail) else (position, c, rest)
    digitLoop e position c rest 0

theorem parse_cons (first : UInt8) (rest : List UInt8) (size : Nat) :
    (parse (first :: rest) size).map UInt32.toNat = if first = 0 then none
      else (signedLoop (size + 1) (skipSpaces 1 first rest)).filter (· ≤ ushortMax) := by
  rw [parse]
  by_cases isNull : first = 0
  · rw [if_pos isNull, if_pos isNull]
    rfl
  · rw [if_neg isNull, if_neg isNull, signedLoop]
    generalize skipSpaces 1 first rest = skipped
    obtain ⟨_, c, _⟩ := skipped
    dsimp only
    by_cases minus : c = ascii '-'
    · rw [if_pos minus, if_pos minus]
      rfl
    · rw [if_neg minus, if_neg minus]
      generalize digitLoop _ _ _ _ 0 = looped
      cases looped with
      | none => rfl
      | some value =>
        dsimp only
        by_cases large : value > ushortMax
        · rw [if_pos large, filter_some_neg (by simpa using large)]
          rfl
        · have isValue : (UInt32.ofNat value).toNat = value := by
            rw [UInt32.toNat_ofNat']
            unfold ushortMax at large
            omega
          rw [if_neg large, filter_some_pos (by simpa using large), map_some, isValue]

theorem digitLoop_end (e : Nat) (c : UInt8) (rest : List UInt8) (value : Nat) :
    digitLoop e e c rest value = some value := by
  cases rest with
  | nil | cons _ _ => exact if_pos rfl

variable {e p : Nat} {c : UInt8}

theorem digitLoop_refused (inside : p ≠ e) (other : isDigit c = false)
    (rest : List UInt8) (value : Nat) : digitLoop e p c rest value = none := by
  have refused : (!isDigit c) = true := by rw [other]; rfl
  cases rest with
  | nil | cons _ _ => rw [digitLoop, if_neg inside, if_pos refused]

/-- Behind the end nothing stops the loop but a character that is no digit. -/
theorem digitLoop_beyond (beyond : e < p) (c : UInt8) (rest : List UInt8)
    (value : Nat) : digitLoop e p c rest value = none := by
  induction rest generalizing p c value with
  | nil => rw [digitLoop, if_neg (by omega), if_neg (show p + 1 ≠ e by omega), ite_self]
  | cons _ _ ih => rw [digitLoop, if_neg (by omega), ih (by omega), ite_self]

theorem decimalNumber_mod (text : List UInt8) (start modulus : Nat) :
    decimalNumber (start % modulus) text % modulus = decimalNumber start text % modulus := by
  induction text generalizing start with
  | nil => exact Nat.mod_mod start modulus
  | cons chr _ ih =>
    have same : (start % modulus * 10 + (chr.toNat - (ascii '0').toNat)) % modulus =
        (start * 10 + (chr.toNat - (ascii '0').toNat)) % modulus := by
      rw [Nat.add_mod, Nat.mod_mul_mod, ← Nat.add_mod]
    rw [decimalNumber_cons, decimalNumber_cons, ← ih (start % modulus * 10 + _), same, ih]

/-- The loop up to the end of the text: digits modulo the word, anything else is refused. -/
theorem digitLoop_text (chr : UInt8) (digits after : List UInt8) (p value : Nat) :
    digitLoop (p + digits.length + 1) p chr (digits ++ after) value =
      if (chr :: digits).all isDigit then some (decimalNumber value (chr :: digits) % 2 ^ 64)
      else none := by
  induction digits generalizing p chr value with
  | nil =>
    by_cases digit : isDigit chr = true
    · have accepted : ¬ (!isDigit chr) = true := by simp [digit]
      rw [if_pos (by simp [digit]), nil_append, length_nil, Nat.add_zero, decimalNumber_cons]
      cases after with
      | nil =>
        rw [digitLoop, if_neg (Nat.succ_ne_self p).symm, if_neg accepted, if_pos rfl]
        rfl
      | cons next =>
        rw [digitLoop, if_neg (Nat.succ_ne_self p).symm, if_neg accepted, digitLoop_end]
        rfl
    · rw [Bool.not_eq_true] at digit
      rw [digitLoop_refused (by omega) digit, if_neg (by simp [digit])]
  | cons next digits ih =>
    by_cases digit : isDigit chr = true
    · have accepted : ¬ (!isDigit chr) = true := by simp [digit]
      have behind : p + (next :: digits).length + 1 = p + 1 + digits.length + 1 := by
        rw [length_cons]
        omega
      rw [cons_append, digitLoop, if_neg (by omega), if_neg accepted, behind,
        ih, decimalNumber_mod, ← decimalNumber_cons,
        all_cons (a := chr), digit, Bool.true_and]
    · rw [Bool.not_eq_true] at digit
      rw [digitLoop_refused (by omega) digit, if_neg (by simp [digit])]

theorem signedLoop_plain (notMinus : c ≠ ascii '-') (notPlus : c ≠ ascii '+')
    (e pos : Nat) (rest : List UInt8) : signedLoop e (pos, c, rest) = digitLoop e pos c rest 0 := by
  rw [signedLoop]
  rw [if_neg notMinus, if_neg notPlus]

theorem signedLoop_beyond {pos : Nat} (beyond : e < pos) (c : UInt8)
    (rest : List UInt8) : signedLoop e (pos, c, rest) = none := by
  rw [signedLoop]
  dsimp only
  split
  · rfl
  · split
    · exact digitLoop_beyond (by dsimp only; omega) _ _ 0
    · exact digitLoop_beyond beyond c rest 0

/-- What follows the text in memory, when there are only blanks in the text. -/
theorem signedLoop_behind (e : Nat) (c : UInt8) (rest : List UInt8) :
    signedLoop e (skipSpaces e c rest) =
      if isSpace c = false ∧ c ≠ ascii '-' ∧ c ≠ ascii '+' then some 0 else none := by
  by_cases blank : isSpace c = true
  · have beyond : e < (skipSpaces e c rest).1 := by
      cases rest with
      | nil =>
        rw [skipSpaces, if_pos blank]
        exact Nat.lt_succ_self e
      | cons next rest =>
        rw [skipSpaces, if_pos blank]
        exact le_skipSpaces (e + 1) next rest
    rw [if_neg (by simp [blank])]
    exact signedLoop_beyond beyond _ _
  · rw [skipSpaces_of_not_blank blank]
    rw [Bool.not_eq_true] at blank
    by_cases minus : c = ascii '-'
    · rw [if_neg (fun plain => plain.2.1 minus), signedLoop]
      exact if_pos minus
    · by_cases plus : c = ascii '+'
      · rw [if_neg (fun plain => plain.2.2 plus), signedLoop]
        rw [if_neg minus, if_pos plus]
        exact digitLoop_beyond .refl _ _ 0
      · rw [signedLoop_plain minus plus, digitLoop_end, if_pos ⟨blank, minus, plus⟩]

variable {chr : UInt8} {rest : List UInt8}

theorem skipSpaces_through (pos : Nat)
    (after : List UInt8) (blank : ∀ other ∈ chr :: rest, isSpace other = true) :
    skipSpaces pos chr (rest ++ after) =
      skipSpaces (pos + rest.length + 1) (after.headD 0) after.tail := by
  induction rest generalizing pos chr with
  | nil =>
    have isBlank := blank chr mem_cons_self
    cases after with
    | nil =>
      rw [nil_append, skipSpaces, if_pos isBlank, headD_nil, tail_nil,
        skipSpaces, if_neg (by decide)]
      rfl
    | cons next =>
      rw [nil_append, skipSpaces, if_pos isBlank]
      rfl
  | cons _ rest ih =>
    have isBlank := blank chr mem_cons_self
    have later := ih (pos + 1) (fun other mem => blank other (mem_cons_of_mem _ mem))
    rw [cons_append, skipSpaces, if_pos isBlank, later, length_cons,
      Nat.add_right_comm pos 1, Nat.add_assoc pos rest.length 1]

def bodyValue (chr : UInt8) (rest : List UInt8) : Option Nat :=
  if chr = ascii '-' then none
  else
    let digits := if chr = ascii '+' then rest else chr :: rest
    if digits.all isDigit then some (decimalNumber 0 digits % 2 ^ 64) else none

theorem signedLoop_text (chr : UInt8) (rest after : List UInt8) (pos : Nat) :
    signedLoop (pos + rest.length + 1) (pos, chr, rest ++ after) = bodyValue chr rest := by
  rw [signedLoop, bodyValue]
  by_cases minus : chr = ascii '-'
  · rw [if_pos minus, if_pos minus]
  · rw [if_neg minus, if_neg minus]
    by_cases plus : chr = ascii '+'
    · rw [if_pos plus, if_pos plus]
      dsimp only
      cases rest with
      | nil =>
        rw [length_nil, Nat.add_zero, digitLoop_end]
        rfl
      | cons digit digits =>
        have behind : pos + (digit :: digits).length + 1 = pos + 1 + digits.length + 1 := by
          rw [length_cons]
          omega
        rw [behind]
        exact digitLoop_text digit digits after (pos + 1) 0
    · rw [if_neg plus, if_neg plus]
      exact digitLoop_text chr rest after pos 0

variable {text : List UInt8}

/-- What `parse` makes of a text that has more than blanks. -/
theorem parse_body_eq (isBody : text.dropWhile isSpace = chr :: rest) (after : List UInt8) :
    (parse (text ++ after) text.length).map UInt32.toNat =
      (bodyValue chr rest).filter (· ≤ ushortMax) := by
  cases text with
  | nil => contradiction
  | cons first others =>
    obtain ⟨blanks, isLength, isSkipped⟩ := skipSpaces_other 1 after isBody
    have behind : (first :: others).length + 1 = 1 + blanks + rest.length + 1 := by
      rw [length_cons, isLength]
      omega
    rw [cons_append, parse_cons, isSkipped, behind, signedLoop_text]
    by_cases isNull : first = 0
    · have isFirst : (first :: others).dropWhile isSpace = first :: others := by
        rw [isNull]
        exact dropWhile_cons_of_neg (by decide)
      rw [isFirst, cons_eq_cons] at isBody
      have null : chr = 0 := isBody.1 ▸ isNull
      have refused : bodyValue chr rest = none := by
        have notMinus : (0 : UInt8) ≠ ascii '-' := by decide
        have notPlus : (0 : UInt8) ≠ ascii '+' := by decide
        have notDigit : isDigit 0 = false := by decide
        simp [bodyValue, null, notMinus, notPlus, notDigit]
      rw [if_pos isNull, refused]
      rfl
    · rw [if_neg isNull]

/-- What `parse` makes of blanks, of which there may be none. -/
theorem parse_blanks_eq (blank : ∀ chr ∈ text, isSpace chr = true) (after : List UInt8) :
    (parse (text ++ after) text.length).map UInt32.toNat =
      if (text = [] -> after.headD 0 ≠ 0) ∧ isSpace (after.headD 0) = false ∧
        after.headD 0 ≠ ascii '-' ∧ after.headD 0 ≠ ascii '+' then some 0 else none := by
  have kept : ∀ condition : Prop, ∀ [Decidable condition],
      (if condition then some 0 else none : Option Nat).filter (· ≤ ushortMax) =
        if condition then some 0 else none := by
    intro _ _
    split <;> rfl
  cases text with
  | nil =>
    cases after with
    | nil => rfl
    | cons next after =>
      rw [nil_append, parse_cons, headD_cons, length_nil, signedLoop_behind, kept]
      by_cases isNull : next = 0
      · rw [if_pos isNull, if_neg (fun accepted => accepted.1 rfl isNull)]
      · rw [if_neg isNull]
        exact if_congr (and_iff_right fun _ => isNull).symm rfl rfl
  | cons first rest =>
    have notNull : first ≠ 0 := by
      intro isNull
      have isBlank := blank first mem_cons_self
      rw [isNull] at isBlank
      contradiction
    have behind : (first :: rest).length + 1 = 1 + rest.length + 1 := by
      rw [length_cons, Nat.add_comm 1]
    rw [cons_append, parse_cons, if_neg notNull, skipSpaces_through 1 after blank, behind,
      signedLoop_behind, kept]
    exact if_congr (and_iff_right fun isNil => absurd isNil (cons_ne_nil _ _)).symm rfl rfl

/-! ## The texts that are misread -/

theorem signedDigits_cons_iff (chr : UInt8) (rest : List UInt8) (value : Int) :
    SignedDigits (chr :: rest) value ↔ if chr = ascii '-' then
        rest ≠ [] ∧ (∀ digit ∈ rest, isDigit digit = true) ∧ value = -(decimalNumber 0 rest : Int)
      else let digits := if chr = ascii '+' then rest else chr :: rest
        digits ≠ [] ∧ (∀ digit ∈ digits, isDigit digit = true) ∧ value = decimalNumber 0 digits := by
  have noDigit : ∀ mark ∈ [ascii '-', ascii '+'], isDigit mark = false := by
    rw [forall_mem_cons, forall_mem_singleton]
    decide
  constructor
  · rintro ⟨_, _, isBody, isSign | isSign | isSign, ne, all, isValue⟩
    · rw [isSign, nil_append] at isBody
      have digit := all chr (isBody ▸ mem_cons_self)
      have notMark : ∀ mark ∈ [ascii '-', ascii '+'], chr ≠ mark := fun mark mem same =>
        Bool.false_ne_true ((noDigit mark mem).symm.trans (same ▸ digit))
      rw [if_neg (notMark _ (by decide)), if_neg (notMark _ (by decide)), isBody]
      rw [isSign, if_neg (by decide)] at isValue
      exact ⟨ne, all, isValue⟩
    · rw [isSign] at isBody isValue
      obtain ⟨rfl, rfl⟩ := cons_eq_cons.mp isBody
      exact ⟨ne, all, isValue⟩
    · rw [isSign] at isBody isValue
      obtain ⟨rfl, rfl⟩ := cons_eq_cons.mp isBody
      exact ⟨ne, all, isValue⟩
  · split
    · rename_i minus
      rintro ⟨ne, all, isValue⟩
      exact ⟨[ascii '-'], rest, minus ▸ rfl, .inr (.inr rfl), ne, all, isValue⟩
    · split
      · rename_i plus
        rintro ⟨ne, all, isValue⟩
        exact ⟨[ascii '+'], rest, plus ▸ rfl, .inr (.inl rfl), ne, all, isValue⟩
      · rintro ⟨ne, all, isValue⟩
        exact ⟨[], chr :: rest, rfl, .inl rfl, ne, all, isValue⟩

theorem digits_read_iff (digits : List UInt8) :
    (∀ result : Nat, (if digits.all isDigit then some (decimalNumber 0 digits % 2 ^ 64)
        else none : Option Nat).filter (· ≤ ushortMax) = some result ↔
      ∃ value : Int, (digits ≠ [] ∧ (∀ digit ∈ digits, isDigit digit = true) ∧
        value = decimalNumber 0 digits) ∧ value ≤ ushortMax ∧ (result : Int) = value) ↔
      ¬ (digits = [] ∨ Wraps digits) := by
  by_cases all : digits.all isDigit = true
  · have allDigits := all_eq_true.mp all
    simp only [if_pos all, filter_eq_some_iff, some.injEq, decide_eq_true_eq]
    constructor
    · intro law
      rintro (isNil | ⟨_, large, fits⟩)
      · obtain ⟨_, ⟨ne, _⟩, _⟩ := (law 0).mp (by rw [isNil]; decide)
        exact ne isNil
      · obtain ⟨value, ⟨_, _, isValue⟩, bound, _⟩ := (law _).mp ⟨rfl, fits⟩
        omega
    · intro regular _
      rw [not_or] at regular
      have notWraps : 2 ^ 64 ≤ decimalNumber 0 digits ->
          ushortMax < decimalNumber 0 digits % 2 ^ 64 := fun large =>
        Nat.lt_of_not_le fun fits => regular.2 ⟨allDigits, large, fits⟩
      constructor
      · rintro ⟨isResult, _⟩
        have isSmall : decimalNumber 0 digits < 2 ^ 64 := by
          by_contra large
          omega
        exact ⟨_, ⟨regular.1, allDigits, rfl⟩, by omega, by omega⟩
      · rintro ⟨_, ⟨_, _, _⟩, _, _⟩
        have isSmall : decimalNumber 0 digits < 2 ^ 64 := by omega
        omega
  · rw [if_neg all]
    refine iff_of_true (fun _ => iff_of_false nofun ?_) ?_
    · rintro ⟨_, ⟨_, allDigits, _⟩, _⟩
      exact all (all_eq_true.mpr allDigits)
    · rintro (isNil | ⟨allDigits, _⟩)
      · exact all (isNil ▸ rfl)
      · exact all (all_eq_true.mpr allDigits)

/-- The scope identifiers that are read are the numerals within the limit, unless the text is
misread. -/
theorem readsNumerals_iff (text after : List UInt8) :
    ReadsNumerals ((parse (text ++ after) text.length).map UInt32.toNat) text ↔
      ¬ Misread text after := by
  unfold ReadsNumerals Misread
  simp only [numeral_iff]
  cases isBody : text.dropWhile isSpace with
  | nil =>
    have noNumeral : ∀ value, ¬ SignedDigits [] value := fun value isSigned => by
      obtain ⟨_, _, isCons, _⟩ := signedDigits_head isSigned
      exact absurd isCons (cons_ne_nil _ _).symm
    simp only [noNumeral, false_and, exists_false, iff_false,
      parse_blanks_eq (dropWhile_eq_nil_iff.mp isBody)]
    split
    · rename_i accepted
      exact iff_of_false (fun refused => refused 0 rfl) (not_not_intro accepted)
    · rename_i refused
      exact iff_of_true (fun _ => nofun) refused
  | cons chr rest =>
    simp only [signedDigits_cons_iff, parse_body_eq isBody, bodyValue]
    by_cases minus : chr = ascii '-'
    · simp only [if_pos minus]
      constructor
      · rintro law ⟨ne, all, isZero⟩
        have read := (law 0).mpr ⟨0, ⟨ne, all, by rw [isZero]; rfl⟩, by decide, rfl⟩
        contradiction
      · intro regular _
        refine iff_of_false nofun ?_
        rintro ⟨_, ⟨ne, all, _⟩, _, _⟩
        exact regular ⟨ne, all, by omega⟩
    · simp only [if_neg minus]
      by_cases plus : chr = ascii '+'
      · simp only [if_pos plus]
        exact digits_read_iff rest
      · simp only [if_neg plus]
        exact (digits_read_iff (chr :: rest)).trans (not_congr (or_iff_right (cons_ne_nil _ _)))

theorem parse_le {source : List UInt8} {size : Nat} {result : UInt32}
    (parsed : parse source size = some result) : result.toNat ≤ ushortMax := by
  cases source with
  | nil => contradiction
  | cons first rest =>
    have asNumber := parse_cons first rest size
    rw [parsed, map_some] at asNumber
    split at asNumber
    · contradiction
    · exact of_decide_eq_true (filter_eq_some_iff.mp asNumber.symm).2

/-- Ports and scope identifiers are numerals within the limit, unless the text is misread, and no
character behind the text is read exactly when the text is not numeric. -/
theorem ports_read_iff (text after : List UInt8) :
    (ReadsNumerals ((PortUtil.parse (text ++ after) text.length).map UInt16.toNat) text ↔
        ¬ Misread text after) ∧
      (ReadsNumerals ((parse (text ++ after) text.length).map UInt32.toNat) text ↔
        ¬ Misread text after) ∧
      (extent (text ++ after) text.length ≤ text.length ↔ ¬ Numeric text) := by
  have same : (PortUtil.parse (text ++ after) text.length).map UInt16.toNat =
      (parse (text ++ after) text.length).map UInt32.toNat := by
    rw [PortUtil.parse, Option.map_map]
    apply Option.map_congr
    intro _ parsed
    have bound := parse_le parsed
    unfold ushortMax at bound
    rw [Function.comp_apply, UInt32.toNat_toUInt16, Nat.mod_eq_of_lt (by omega)]
  rw [same]
  exact ⟨readsNumerals_iff text after, readsNumerals_iff text after, extent_le_iff text after⟩

/-- A plus is read as the port zero. -/
theorem plus_read :
    ¬ ReadsNumerals ((PortUtil.parse [ascii '+'] 1).map UInt16.toNat) [ascii '+'] := by
  intro law
  obtain ⟨_, isNumeral, _⟩ := (law 0).mp (by decide)
  exact ((signedDigits_cons_iff _ _ _).mp ((numeral_iff _ _).mp isNumeral)).1 rfl

end NtfCore.Ntsa.Ipv6ScopeIdUtil
