import Mathlib.Data.Nat.Digits.Lemmas

/-!
Contract: numbers as sequences of bytes.

Owns: the value of a sequence of bytes in little-endian and in network order,
that sequences of one length are told apart by either value, and the bytes of a
number of given width.
-/

namespace NtfCore.Foundation.Bytes

open List

/-- The value of the bytes, least significant first. -/
def loadLittleEndian (bytes : List UInt8) : Nat :=
  Nat.ofDigits 256 (bytes.map UInt8.toNat)

/-- The value of the bytes, most significant first. -/
def loadBigEndian (bytes : List UInt8) : Nat :=
  loadLittleEndian bytes.reverse

variable {left right : List UInt8}

theorem loadLittleEndian_inj (sameLength : left.length = right.length) :
    loadLittleEndian left = loadLittleEndian right ↔ left = right := by
  constructor
  · intro same
    have digits : ∀ bytes : List UInt8, ∀ digit ∈ bytes.map UInt8.toNat, digit < 256 := by
      intro _ _ mem
      obtain ⟨byte, _, isDigit⟩ := mem_map.mp mem
      rw [← isDigit]
      exact byte.toNat_lt
    have mapped := Nat.ofDigits_inj_of_len_eq (by decide) (by simp [sameLength])
      (digits left) (digits right) same
    exact map_injective_iff.mpr (fun a b equal => UInt8.toNat_inj.mp equal) mapped
  · intro same
    rw [same]

theorem loadBigEndian_inj (sameLength : left.length = right.length) :
    loadBigEndian left = loadBigEndian right ↔ left = right := by
  unfold loadBigEndian
  rw [loadLittleEndian_inj (by simp [sameLength]), reverse_inj]

/-- The bytes of a number, least significant first. -/
def storeLittleEndian : Nat -> Nat -> List UInt8
  | 0, _ => []
  | width + 1, value => UInt8.ofNat (value % 256) :: storeLittleEndian width (value / 256)

/-- The bytes of a number, most significant first. -/
def storeBigEndian (width value : Nat) : List UInt8 :=
  (storeLittleEndian width value).reverse

@[simp] theorem storeLittleEndian_length (width value : Nat) :
    (storeLittleEndian width value).length = width := by
  induction width generalizing value with
  | zero => rfl
  | succ _ ih => simp [storeLittleEndian, ih]

@[simp] theorem storeBigEndian_length (width value : Nat) :
    (storeBigEndian width value).length = width := by
  simp [storeBigEndian]

theorem load_storeLittleEndian {width value : Nat} (fits : value < 256 ^ width) :
    loadLittleEndian (storeLittleEndian width value) = value := by
  induction width generalizing value with
  | zero =>
    have isZero : value = 0 := by simpa using fits
    simp [storeLittleEndian, loadLittleEndian, isZero]
  | succ width ih =>
    have quotientFits : value / 256 < 256 ^ width := by
      apply Nat.div_lt_of_lt_mul
      rw [← Nat.pow_succ']
      exact fits
    have quotient := ih quotientFits
    unfold loadLittleEndian at quotient ⊢
    simp only [storeLittleEndian, map_cons, Nat.ofDigits_cons, quotient]
    simp only [UInt8.toNat_ofNat', Nat.reducePow, Nat.mod_mod]
    exact Nat.mod_add_div value 256

theorem load_storeBigEndian {width value : Nat} (fits : value < 256 ^ width) :
    loadBigEndian (storeBigEndian width value) = value := by
  unfold loadBigEndian storeBigEndian
  rw [reverse_reverse]
  exact load_storeLittleEndian fits

variable (bytes : List UInt8)

theorem loadLittleEndian_lt : loadLittleEndian bytes < 256 ^ bytes.length := by
  have bound := Nat.ofDigits_lt_base_pow_length (b := 256) (l := bytes.map UInt8.toNat) (by decide)
    (by
      intro _ mem
      obtain ⟨byte, _, isDigit⟩ := mem_map.mp mem
      rw [← isDigit]
      exact byte.toNat_lt)
  rw [length_map] at bound
  exact bound

theorem store_loadLittleEndian : storeLittleEndian bytes.length (loadLittleEndian bytes) = bytes :=
  (loadLittleEndian_inj (storeLittleEndian_length _ _)).mp
    (load_storeLittleEndian (loadLittleEndian_lt bytes))

theorem store_loadBigEndian : storeBigEndian bytes.length (loadBigEndian bytes) = bytes := by
  unfold storeBigEndian loadBigEndian
  rw [← length_reverse, store_loadLittleEndian, reverse_reverse]

end NtfCore.Foundation.Bytes
