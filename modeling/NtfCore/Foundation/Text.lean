import Mathlib.Data.Nat.Log

/-!
Contract: texts as sequences of bytes in ASCII.

Owns: the bytes of characters, the classes of characters of the C library, the
leading part of a text that is made of given characters, and decimal numerals.
-/

namespace NtfCore.Foundation.Text

open List

/-- The byte of a character in ASCII. -/
def ascii (character : Char) : UInt8 :=
  character.toUInt8

/-- `isspace` in the C locale. -/
def isSpace (chr : UInt8) : Bool :=
  chr == ascii ' ' || (0x09 ≤ chr && chr ≤ 0x0D)

/-- `isdigit` in the C locale. -/
def isDigit (chr : UInt8) : Bool :=
  ascii '0' ≤ chr && chr ≤ ascii '9'

/-- `isupper` in the C locale. -/
def isUpper (ch : UInt8) : Bool :=
  ascii 'A' ≤ ch && ch ≤ ascii 'Z'

/-- `islower` in the C locale. -/
def isLower (ch : UInt8) : Bool :=
  ascii 'a' ≤ ch && ch ≤ ascii 'z'

/-- `isalnum` in the C locale. -/
def isAlnum (ch : UInt8) : Bool :=
  isDigit ch || isUpper ch || isLower ch

/-- `tolower` in the C locale. -/
def toLower (ch : UInt8) : UInt8 :=
  if isUpper ch then ch + 32 else ch

/-- What holds of the bytes of all numbers below 256 holds of every byte. -/
theorem forall_byte {property : UInt8 -> Prop}
    (every : ∀ value : Fin 256, property (UInt8.ofNat value)) (byte : UInt8) : property byte := by
  have isByte := every ⟨byte.toNat, byte.toNat_lt⟩
  rwa [UInt8.ofNat_toNat] at isByte

/-- `strspn`: the length of the leading part made of accepted characters. -/
def spanLength (accepts : UInt8 -> Bool) (text : List UInt8) : Nat :=
  (text.takeWhile accepts).length

variable {accepts : UInt8 -> Bool} {chr : UInt8}

theorem spanLength_cons_of_pos (text : List UInt8) (accepted : accepts chr = true) :
    spanLength accepts (chr :: text) = spanLength accepts text + 1 := by
  simp [spanLength, accepted]

theorem spanLength_cons_of_neg (text : List UInt8)
    (refused : accepts chr = false) : spanLength accepts (chr :: text) = 0 := by
  simp [spanLength, refused]

theorem spanLength_le (accepts : UInt8 -> Bool) (text : List UInt8) :
    spanLength accepts text ≤ text.length :=
  (List.takeWhile_prefix accepts).length_le

/-- The digits of a number as characters, least significant first. -/
def decimalLoop (value : Nat) : List UInt8 :=
  (ascii '0' + UInt8.ofNat (value % 10)) ::
    if value / 10 = 0 then [] else decimalLoop (value / 10)
termination_by value
decreasing_by omega

/-- The numeral of a number. -/
def decimal (value : Nat) : List UInt8 :=
  (decimalLoop value).reverse

/-- The number that a numeral continues to from `start`. -/
def decimalNumber (start : Nat) (text : List UInt8) : Nat :=
  text.foldl (fun value chr => value * 10 + (chr.toNat - (ascii '0').toNat)) start

theorem decimalNumber_cons (start : Nat) (chr : UInt8) (text : List UInt8) :
    decimalNumber start (chr :: text) =
      decimalNumber (start * 10 + (chr.toNat - (ascii '0').toNat)) text := by
  unfold decimalNumber
  rw [foldl_cons]

section

variable (value : Nat)

theorem decimalLoop_spec : decimalNumber 0 (decimalLoop value).reverse = value ∧
      (decimalLoop value).length = Nat.log 10 value + 1 ∧
      ∀ chr ∈ decimalLoop value, isDigit chr = true := by
  have digit : ∀ digit : Fin 10, isDigit (ascii '0' + UInt8.ofNat digit) = true ∧
      (ascii '0' + UInt8.ofNat digit).toNat - (ascii '0').toNat = digit := by decide
  induction value using Nat.strong_induction_on with
  | _ value ih =>
    obtain ⟨isDigit, isValue⟩ := digit ⟨value % 10, Nat.mod_lt _ (by decide)⟩
    dsimp only at isDigit isValue
    rw [decimalLoop]
    split
    · have small : value < 10 := by omega
      refine ⟨?_, ?_, ?_⟩
      · show 0 * 10 + _ = value
        omega
      · rw [Nat.log_of_lt small]
        rfl
      · intro chr mem
        rw [mem_singleton.mp mem]
        exact isDigit
    · obtain ⟨number, length, digits⟩ := ih (value / 10) (by omega)
      refine ⟨?_, ?_, ?_⟩
      · unfold decimalNumber at number ⊢
        rw [reverse_cons, foldl_append, number]
        show value / 10 * 10 + _ = value
        omega
      · rw [length_cons, length, Nat.log_div_base]
        have pos : 0 < Nat.log 10 value := Nat.log_pos (by decide) (by omega)
        omega
      · intro chr mem
        rcases mem_cons.mp mem with isFirst | later
        · rw [isFirst]
          exact isDigit
        · exact digits chr later

/-- A numeral is read back. -/
theorem decimalNumber_decimal : decimalNumber 0 (decimal value) = value :=
  (decimalLoop_spec value).1

theorem decimal_length : (decimal value).length = Nat.log 10 value + 1 := by
  rw [decimal, length_reverse]
  exact (decimalLoop_spec value).2.1

theorem decimal_ne_nil : decimal value ≠ [] := by
  intro isNil
  have length := decimal_length value
  rw [isNil] at length
  contradiction

end

theorem isDigit_of_mem_decimal {value : Nat} (mem : chr ∈ decimal value) : isDigit chr = true :=
  (decimalLoop_spec value).2.2 chr (mem_reverse.mp mem)

theorem decimalNumber_mono (text : List UInt8) (start : Nat) :
    start ≤ decimalNumber start text := by
  induction text generalizing start with
  | nil => exact le_rfl
  | cons chr _ ih =>
    have later := ih (start * 10 + (chr.toNat - (ascii '0').toNat))
    rw [decimalNumber_cons]
    omega

end NtfCore.Foundation.Text
