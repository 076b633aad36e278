import NtfCore.Ntsa.Uri.Components

/-!
Contract: which texts are IPv4 addresses (`ntsa::Ipv4Address::parse`).

Owns: the grammar of one to four decimal parts with the value of each form, what the parser
reads of any text, and the texts on which the two differ.
-/

namespace NtfCore.Ntsa.Ipv4Address

open NtfCore.Foundation.Text Option

/-! ## Grammar -/

def parts (text : List UInt8) : List (List UInt8) :=
  text.splitOnP (· == ascii '.')

def lastNumber (parts : List (List UInt8)) : Nat :=
  decimalNumber 0 (parts.getLast?.getD [])

structure Bounded (parts : List (List UInt8)) : Prop where
  count : parts.length ≤ 4
  digits : ∀ part ∈ parts, ∀ ch ∈ part, isDigit ch = true
  leading : ∀ part ∈ parts.dropLast, decimalNumber 0 part ≤ 255
  last : lastNumber parts < 256 ^ (5 - parts.length)

structure Shorthand (text : List UInt8) : Prop where
  bounded : Bounded (parts text)
  nonempty : ∀ part ∈ parts text, part ≠ []

def number (parts : List (List UInt8)) : Nat :=
  parts.dropLast.foldl (fun total part => total * 256 + decimalNumber 0 part) 0 *
    256 ^ (5 - parts.length) + lastNumber parts

def ofNumber (number : Nat) : Ipv4Address where
  value := Vector.ofFn fun index : Fin 4 => UInt8.ofNat (number / 256 ^ (3 - index.val))

/-! ## The scan, part by part -/

/-- The loop of `parse`, by parts: the first one continues a number. -/
def readParts (index start : Nat) (value : Vector UInt8 4) :
    List (List UInt8) -> Option (Nat × Nat × Vector UInt8 4)
  | [] => none
  | part :: rest =>
    if ¬ part.all isDigit then none
    else if rest = [] then
      if decimalNumber start part > 2 ^ 32 - 1 then none
      else some (index, decimalNumber start part, value)
    else if decimalNumber start part > 255 ∨ index + 1 > 3 then none
    else
      readParts (index + 1) 0
        (value.setIfInBounds index (UInt8.ofNat (decimalNumber start part))) rest

theorem readParts_digit {ch : UInt8} (digit : isDigit ch = true) (index start : Nat)
    (value : Vector UInt8 4) (part : List UInt8) (rest : List (List UInt8)) :
    readParts index start value ((ch :: part) :: rest) =
      readParts index (start * 10 + (ch.toNat - (ascii '0').toNat)) value (part :: rest) := by
  rw [readParts, readParts, List.all_cons, digit, Bool.true_and, decimalNumber_cons]

theorem readParts_refused {ch : UInt8} (other : isDigit ch = false) (index start : Nat)
    (value : Vector UInt8 4) (part : List UInt8) (rest : List (List UInt8)) :
    readParts index start value ((ch :: part) :: rest) = none := by
  rw [readParts, List.all_cons, other, Bool.false_and, if_pos Bool.false_ne_true]

theorem readParts_large {start : Nat} (large : 2 ^ 32 - 1 < start) (index : Nat)
    (value : Vector UInt8 4) (part : List UInt8) (rest : List (List UInt8)) :
    readParts index start value (part :: rest) = none := by
  have later := decimalNumber_mono part start
  rw [readParts]
  split_ifs <;> first | rfl | omega

theorem parseLoop_eq (text : List UInt8) (index start : Nat) (value : Vector UInt8 4)
    (small : start ≤ 2 ^ 32 - 1) :
    parseLoop index start value text = readParts index start value (parts text) := by
  induction text generalizing index start value with
  | nil =>
    have same : decimalNumber start [] = start := rfl
    have digits : ¬ ¬ [].all isDigit = true := by decide
    rw [parts, List.splitOnP_nil, parseLoop, readParts, if_neg digits, if_pos rfl, same,
      if_neg (Nat.not_lt.mpr small)]
  | cons ch rest ih =>
    obtain ⟨part, others, isParts⟩ := List.exists_cons_of_ne_nil
      (List.splitOnP_ne_nil (· == ascii '.') rest)
    change parts rest = part :: others at isParts
    have split : parts (ch :: rest) =
        if ch == ascii '.' then [] :: parts rest else (parts rest).modifyHead (ch :: ·) :=
      List.splitOnP_cons_eq_if_modifyHead ch rest
    rw [parseLoop, split]
    by_cases digit : isDigit ch = true
    · have notDot : (ch == ascii '.') = false := by
        apply Bool.eq_false_iff.mpr
        intro isDot
        rw [eq_of_beq isDot] at digit
        contradiction
      rw [if_pos digit, notDot, if_neg Bool.false_ne_true, isParts, List.modifyHead_cons,
        readParts_digit digit]
      dsimp only
      split
      · rename_i large
        exact (readParts_large large index value part others).symm
      · rw [ih _ _ _ (by omega), isParts]
    · rw [if_neg digit]
      by_cases isDot : ch = ascii '.'
      · have same : decimalNumber start [] = start := rfl
        have digits : ¬ ¬ [].all isDigit = true := by decide
        rw [if_pos isDot, if_pos (beq_iff_eq.mpr isDot), isParts, readParts,
          if_neg digits, if_neg (List.cons_ne_nil _ _), same]
        by_cases large : start > 255
        · rw [if_pos large, if_pos (.inl large)]
        · by_cases noRoom : index + 1 > 3
          · rw [if_neg large, if_pos noRoom, if_pos (.inr noRoom)]
          · rw [if_neg large, if_neg noRoom, if_neg (not_or.mpr ⟨large, noRoom⟩),
              ih _ _ _ (by omega), isParts]
      · rw [if_neg isDot, if_neg (fun same => isDot (eq_of_beq same)), isParts,
          List.modifyHead_cons, readParts_refused (Bool.eq_false_iff.mpr digit)]

def storeParts : Nat -> Vector UInt8 4 -> List (List UInt8) -> Vector UInt8 4
  | _, value, [] => value
  | index, value, part :: rest =>
    storeParts (index + 1) (value.setIfInBounds index (UInt8.ofNat (decimalNumber 0 part))) rest

section

variable {parts : List (List UInt8)} (nonempty : parts ≠ [])
include nonempty

theorem readParts_eq_some_iff {index : Nat}
    (inside : index ≤ 3) (value : Vector UInt8 4) (result : Nat × Nat × Vector UInt8 4) :
    readParts index 0 value parts = some result ↔
      (index + parts.length ≤ 4 ∧ (∀ part ∈ parts, part.all isDigit = true) ∧
        (∀ part ∈ parts.dropLast, decimalNumber 0 part ≤ 255) ∧ lastNumber parts ≤ 2 ^ 32 - 1) ∧
      result = (index + parts.length - 1, lastNumber parts,
        storeParts index value parts.dropLast) := by
  induction parts generalizing index value with
  | nil => contradiction
  | cons part rest ih =>
    rw [readParts]
    cases rest with
    | nil =>
      have last : lastNumber [part] = decimalNumber 0 part := rfl
      rw [ite_none_left_eq_some, if_pos rfl, ite_none_left_eq_some,
        some_inj, last, not_not, Nat.not_lt, @eq_comm _ _ result]
      constructor
      · rintro ⟨digits, small, isResult⟩
        exact ⟨⟨Nat.add_le_add_right inside 1, List.forall_mem_singleton.mpr digits,
          List.forall_mem_nil _, small⟩, isResult⟩
      · rintro ⟨⟨_, digits, _, small⟩, isResult⟩
        exact ⟨digits part (List.mem_singleton.mpr rfl), small, isResult⟩
    | cons next rest =>
      have last : lastNumber (part :: next :: rest) = lastNumber (next :: rest) := rfl
      have leading : (part :: next :: rest).dropLast = part :: (next :: rest).dropLast := rfl
      have count : index + (part :: next :: rest).length = index + 1 + (next :: rest).length := by
        rw [List.length_cons, Nat.add_right_comm, Nat.add_assoc]
      rw [ite_none_left_eq_some, if_neg (List.cons_ne_nil _ _),
        ite_none_left_eq_some, last, leading, count, not_not, not_or, Nat.not_lt,
        Nat.not_lt, List.forall_mem_cons (a := part), List.forall_mem_cons (a := part), storeParts]
      constructor
      · rintro ⟨digits, ⟨small, more⟩, read⟩
        obtain ⟨⟨room, restDigits, restSmall, lastSmall⟩, isResult⟩ :=
          (ih (List.cons_ne_nil _ _) more _).mp read
        exact ⟨⟨room, ⟨digits, restDigits⟩, ⟨small, restSmall⟩, lastSmall⟩, isResult⟩
      · rintro ⟨⟨room, ⟨digits, restDigits⟩, ⟨small, restSmall⟩, lastSmall⟩, isResult⟩
        have more : index + 1 ≤ 3 := by
          rw [List.length_cons] at room
          omega
        exact ⟨digits, ⟨small, more⟩, (ih (List.cons_ne_nil _ _) more _).mpr
          ⟨⟨room, restDigits, restSmall, lastSmall⟩, isResult⟩⟩

variable (few : parts.length ≤ 4) (leading : ∀ part ∈ parts.dropLast, decimalNumber 0 part ≤ 255)
include few leading

/-- The octets that the parser makes of at most four parts are those of their number. -/
theorem octets_eq (last : lastNumber parts < 256 ^ (5 - parts.length)) : (if parts.length = 4 then
      (storeParts 0 (Vector.replicate 4 0) parts.dropLast).setIfInBounds 3
        (UInt8.ofNat (lastNumber parts)) else spreadLoop (5 - parts.length) 0 (lastNumber parts)
        (storeParts 0 (Vector.replicate 4 0) parts.dropLast)) =
      (ofNumber (number parts)).value := by
  rw [number]
  ext index inside
  rcases parts with _ | ⟨p, _ | ⟨q, _ | ⟨r, _ | ⟨s, _ | ⟨t, _⟩⟩⟩⟩⟩
  · contradiction
  · simp only [List.length_cons, List.length_nil] at last
    interval_cases index <;> simp [storeParts, spreadLoop, ofNumber] <;> omega
  · simp at leading last
    interval_cases index <;> simp [storeParts, spreadLoop, ofNumber] <;> omega
  · simp at leading last
    interval_cases index <;> simp [storeParts, spreadLoop, ofNumber] <;> omega
  · simp at leading last
    interval_cases index <;> simp [storeParts, ofNumber] <;> omega
  · simp only [List.length_cons] at few
    omega

theorem finish_eq_some_iff (address : Ipv4Address) : (if parts.length - 1 = 3 then
      if lastNumber parts > 255 then none
      else some ⟨(storeParts 0 (Vector.replicate 4 0) parts.dropLast).setIfInBounds
        (parts.length - 1) (UInt8.ofNat (lastNumber parts))⟩ else
      let numOctetsLeft := 4 - (parts.length - 1)
      if lastNumber parts ≥ 256 ^ numOctetsLeft then none
      else some (⟨spreadLoop numOctetsLeft 0 (lastNumber parts)
        (storeParts 0 (Vector.replicate 4 0) parts.dropLast)⟩ : Ipv4Address)) = some address ↔
      lastNumber parts < 256 ^ (5 - parts.length) ∧ address = ofNumber (number parts) := by
  have pos : 0 < parts.length := List.length_pos_iff.mpr nonempty
  have octets := octets_eq nonempty few leading
  have isOctets : ∀ value : Vector UInt8 4, value = (ofNumber (number parts)).value ->
      (some (⟨value⟩ : Ipv4Address) = some address ↔ address = ofNumber (number parts)) := by
    intro _ same
    rw [same, some_inj, eq_comm]
  by_cases four : parts.length = 4
  · have index : parts.length - 1 = 3 := by omega
    rw [if_pos index, ite_none_left_eq_some, Nat.not_lt, index, four]
    rw [four] at octets
    constructor
    · rintro ⟨small, isAddress⟩
      have last : lastNumber parts < 256 ^ (5 - 4) := Nat.lt_succ_of_le small
      exact ⟨last, (isOctets _ (octets last)).mp isAddress⟩
    · rintro ⟨last, isAddress⟩
      exact ⟨Nat.le_of_lt_succ last, (isOctets _ (octets last)).mpr isAddress⟩
  · have left : 4 - (parts.length - 1) = 5 - parts.length := by omega
    rw [if_neg four] at octets
    rw [if_neg (by omega), left]
    rw [ite_none_left_eq_some, Nat.not_le]
    exact and_congr_right fun last => isOctets _ (octets last)

end

/-- A text is read exactly when its parts are bounded, whether or not some are empty, and then
with the value of the shorthand. -/
theorem parse_eq_some_iff (text : List UInt8) (address : Ipv4Address) : parse text = some address ↔
      Bounded (parts text) ∧ address = ofNumber (number (parts text)) := by
  have nonempty : parts text ≠ [] := List.splitOnP_ne_nil _ _
  have read := readParts_eq_some_iff nonempty (Nat.zero_le 3) (Vector.replicate 4 0)
  rw [parse, parseLoop_eq text 0 0 _ (by decide)]
  generalize parts text = parts at nonempty read ⊢
  rw [Nat.zero_add] at read
  constructor
  · intro parsed
    cases isRead : readParts 0 0 (Vector.replicate 4 0) parts with
    | none =>
      rw [isRead] at parsed
      contradiction
    | some result =>
      obtain ⟨⟨few, digits, leading, _⟩, rfl⟩ := (read result).mp isRead
      rw [isRead] at parsed
      obtain ⟨last, isAddress⟩ := (finish_eq_some_iff nonempty few leading address).mp parsed
      exact ⟨⟨few, fun part mem => List.all_eq_true.mp (digits part mem), leading, last⟩, isAddress⟩
  · rintro ⟨bounded, isAddress⟩
    have small : lastNumber parts ≤ 2 ^ 32 - 1 := by
      have power : 256 ^ (5 - parts.length) ≤ 256 ^ 4 := by
        have pos : 0 < parts.length := List.length_pos_iff.mpr nonempty
        exact Nat.pow_le_pow_right (by decide) (by omega)
      exact Nat.le_pred_of_lt (Nat.lt_of_lt_of_le bounded.last power)
    rw [(read _).mpr ⟨⟨bounded.count,
      fun part mem => List.all_eq_true.mpr (bounded.digits part mem), bounded.leading,
      small⟩, rfl⟩]
    exact (finish_eq_some_iff nonempty bounded.count bounded.leading address).mpr
      ⟨bounded.last, isAddress⟩

/-- Every address is read back from its text, and a text is read by the grammar exactly when none
of its parts is empty, or it is refused for another reason. -/
theorem shorthand_read_iff (address : Ipv4Address) (text : List UInt8) :
    parse address.format = some address ∧ ((∀ address, parse text = some address ↔
          Shorthand text ∧ address = ofNumber (number (parts text))) ↔
        ((∀ part ∈ parts text, part ≠ []) ∨ ¬ Bounded (parts text))) := by
  refine ⟨parse_format address, fun agrees => ?_, fun condition _ => ?_⟩
  · by_cases bounded : Bounded (parts text)
    · have parsed := (parse_eq_some_iff text _).mpr ⟨bounded, rfl⟩
      exact .inl ((agrees _).mp parsed).1.nonempty
    · exact .inr bounded
  · rw [parse_eq_some_iff]
    constructor
    · rintro ⟨bounded, isAddress⟩
      exact ⟨⟨bounded, condition.resolve_right (not_not.mpr bounded)⟩, isAddress⟩
    · rintro ⟨shorthand, isAddress⟩
      exact ⟨shorthand.bounded, isAddress⟩

theorem empty_text_read : ¬ ∀ address, parse [] = some address ↔
      Shorthand [] ∧ address = ofNumber (number (parts [])) := by
  intro agrees
  have read := (agrees ⟨Vector.replicate 4 0⟩).mp (by decide)
  exact read.1.nonempty [] (by decide) rfl

end NtfCore.Ntsa.Ipv4Address
