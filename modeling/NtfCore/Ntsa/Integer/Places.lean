import Mathlib.Data.List.GetD
import NtfCore.Ntsa.Integer.Magnitude

/-!
Contract: the blocks of a magnitude by their places.

Owns: what `set` leaves at each place, and the number that consecutive blocks stand for.
-/

namespace NtfCore.Ntsa.AbstractIntegerRepresentation

open List

/-! ## Places -/

variable {data : Blocks} {index : Nat}

theorem get_eq_zero (outside : data.length ≤ index) : get data index = 0 := by
  rw [get, getD_eq_getElem?_getD, getElem?_eq_none outside]
  rfl

section

variable (data : Blocks)

theorem set_length (index : Nat) (place : Block) :
    (set data index place).length = max data.length (index + 1) := by
  unfold set
  rw [length_set, length_append, length_replicate]
  omega

theorem get_padded (count index : Nat) :
    get (data ++ List.replicate count 0) index = get data index := by
  by_cases inside : index < data.length
  · rw [get, get, getD_append _ _ _ _ inside]
  · rw [get_eq_zero (Nat.le_of_not_lt inside), get, getD_append_right _ _ _ _
      (Nat.le_of_not_lt inside), getD_eq_getElem?_getD, getElem?_getD_replicate_default_eq]

theorem get_set (index other : Nat) (place : Block) :
    get (set data index place) other = if other = index then place else get data other := by
  have inside : index < (data ++ replicate (index + 1 - data.length) (0 : Block)).length := by
    rw [length_append, length_replicate]
    omega
  unfold set
  split
  · rename_i same
    rw [same, get, getD_eq_getElem?_getD, getElem?_set_self inside]
    rfl
  · rename_i different
    rw [get, getD_eq_getElem?_getD, getElem?_set_ne (Ne.symm different), ← getD_eq_getElem?_getD]
    exact get_padded data _ other

theorem get_set_self (index : Nat) (place : Block) : get (set data index place) index = place := by
  rw [get_set, if_pos rfl]

end

theorem get_set_of_ne {other : Nat} (different : other ≠ index) (data : Blocks)
    (place : Block) : get (set data index place) other = get data other := by
  rw [get_set, if_neg different]

/-! ## Consecutive places -/

/-- The number that `count` blocks from `start` on stand for. -/
def window (data : Blocks) (start : Nat) : Nat -> Nat
  | 0 => 0
  | count + 1 => window data start count + (get data (start + count)).toNat * radix ^ count

theorem window_succ (data : Blocks) (start count : Nat) : window data start (count + 1) =
      window data start count + (get data (start + count)).toNat * radix ^ count := rfl

theorem window_lt (data : Blocks) (start count : Nat) :
    window data start count < radix ^ count := by
  induction count with
  | zero => exact Nat.one_pos
  | succ count =>
    have bound := (get data (start + count)).toNat_lt
    have scaled : (get data (start + count)).toNat * radix ^ count ≤
        (radix - 1) * radix ^ count := Nat.mul_le_mul_right _ (Nat.le_sub_one_of_lt bound)
    have split : radix ^ (count + 1) = (radix - 1) * radix ^ count + radix ^ count := by
      rw [pow_succ]
      have isRadix : radix = radix - 1 + 1 := rfl
      nth_rewrite 2 [isRadix]
      ring
    rw [window_succ, split]
    omega

variable {start count : Nat}

theorem window_congr {data data' : Blocks} {start' : Nat}
    (same : ∀ i < count, get data (start + i) = get data' (start' + i)) :
    window data start count = window data' start' count := by
  induction count with
  | zero => rfl
  | succ count ih =>
    rw [window_succ, window_succ, same count .refl,
      ih fun i below => same i (Nat.lt_succ_of_lt below)]

theorem window_add (data : Blocks) (start first rest : Nat) : window data start (first + rest) =
      window data start first + radix ^ first * window data (start + first) rest := by
  induction rest with
  | zero => rfl
  | succ _ ih =>
    rw [← Nat.add_assoc, window_succ, ih, window_succ, pow_add, Nat.add_assoc start]
    ring

theorem window_cons (data : Blocks) (start count : Nat) : window data start (count + 1) =
      (get data start).toNat + radix * window data (start + 1) count := by
  rw [Nat.add_comm count, window_add, window_succ]
  simp [window]

theorem window_set_of_outside (outside : index < start ∨ start + count ≤ index) (place : Block) :
    window (set data index place) start count = window data start count := by
  apply window_congr
  intro i below
  exact get_set_of_ne (by omega) data place

theorem window_set_of_inside {i : Nat} (inside : i < count) (place : Block) :
    window (set data (start + i) place) start count + (get data (start + i)).toNat * radix ^ i =
      window data start count + place.toNat * radix ^ i := by
  induction count with
  | zero => contradiction
  | succ count ih =>
    rw [window_succ, window_succ]
    by_cases last : i = count
    · rw [last, window_set_of_outside (.inr (le_refl _)), get_set_self]
      omega
    · have earlier := ih (by omega)
      rw [get_set_of_ne (by omega)]
      omega

theorem window_eq_zero_iff :
    window data start count = 0 ↔ ∀ i < count, get data (start + i) = 0 := by
  induction count with
  | zero => simp [window]
  | succ count ih =>
    have weight : radix ^ count ≠ 0 := (Nat.pow_pos (by decide)).ne'
    rw [window_succ, Nat.add_eq_zero_iff, Nat.mul_eq_zero, or_iff_left weight, ih,
      ← UInt32.toNat_zero, UInt32.toNat_inj]
    constructor
    · rintro ⟨earlier, last⟩ i below
      rcases Nat.lt_succ_iff_lt_or_eq.mp below with isEarlier | isLast
      · exact earlier i isEarlier
      · exact isLast ▸ last
    · exact fun all => ⟨fun i below => all i (Nat.lt_succ_of_lt below), all count .refl⟩

theorem window_digit (data : Blocks) (start : Nat) {i : Nat} (inside : i < count) :
    window data start count / radix ^ i % radix = (get data (start + i)).toNat := by
  obtain ⟨rest, isCount⟩ : ∃ rest, count = i + (rest + 1) := ⟨count - i - 1, by omega⟩
  rw [isCount, window_add, window_cons, Nat.add_mul_div_left _ _ (Nat.pow_pos (by decide)),
    Nat.div_eq_of_lt (window_lt data start i), Nat.zero_add, Nat.add_mul_mod_self_left]
  exact Nat.mod_eq_of_lt (get data (start + i)).toNat_lt

/-- What follows a place is a number of enough blocks. -/
theorem value_drop_eq_window (data : Blocks) {start count : Nat}
    (enough : data.length ≤ start + count) : value (data.drop start) = window data start count := by
  induction count generalizing start with
  | zero => exact value_drop_of_le enough
  | succ _ ih => rw [value_drop, window_cons, ih (by omega)]

theorem value_eq_window {count : Nat} (enough : data.length ≤ count) :
    value data = window data 0 count := by
  have whole := @value_drop_eq_window data 0 count (by omega)
  rwa [drop_zero] at whole

theorem value_eq_window_of_zero
    (behind : ∀ index, count ≤ index -> get data index = 0) : value data = window data 0 count := by
  have rest : window data (0 + count) data.length = 0 :=
    window_eq_zero_iff.mpr fun i _ => behind _ (by omega)
  rw [value_eq_window (Nat.le_add_left data.length count), window_add, rest, Nat.mul_zero,
    Nat.add_zero]

/-- The most significant block of a normalized magnitude. -/
theorem Normal.get_last (normal : Normal data) (ne : 0 < data.length) :
    get data (data.length - 1) ≠ 0 := by
  refine normal _ ?_
  rw [getLast?_eq_getElem?, get, getD_eq_getElem?_getD,
    getElem?_eq_getElem (Nat.sub_lt ne Nat.one_pos)]
  rfl

theorem Normal.pow_le (normal : Normal data) (ne : 0 < data.length) :
    radix ^ (data.length - 1) ≤ value data := by
  have isLast := normal.get_last ne
  have pos : 0 < (get data (data.length - 1)).toNat :=
    Nat.pos_of_ne_zero fun isZero => isLast (UInt32.toNat_inj.mp isZero)
  have whole := window_succ data 0 (data.length - 1)
  rw [Nat.sub_add_cancel ne, Nat.zero_add, ← value_eq_window (le_refl _)] at whole
  have scaled := Nat.mul_le_mul_right (radix ^ (data.length - 1)) pos
  omega

theorem value_set (data : Blocks) (index : Nat) (place : Block) :
    value (set data index place) + (get data index).toNat * radix ^ index =
      value data + place.toNat * radix ^ index := by
  have replaced := @window_set_of_inside data 0 (max data.length (index + 1)) index (by omega) place
  rw [Nat.zero_add] at replaced
  rw [value_eq_window (set_length data index place).le,
    value_eq_window (Nat.le_max_left data.length (index + 1))]
  exact replaced

end NtfCore.Ntsa.AbstractIntegerRepresentation
