import Mathlib.Tactic.LinearCombination
import NtfCore.Foundation.Lists
import NtfCore.Ntsa.Integer.Places

/-!
Contract: products of magnitudes and the numerals that `parse` reads.

Owns: what `multiply` adds to an object that holds another number, that it computes
the product in an empty one, and the number that a parsed text stands for.
-/

namespace NtfCore.Ntsa.AbstractIntegerRepresentation

open NtfCore.Foundation List UInt32
open NtfCore.Foundation.Text

/-! ## Products -/

/-- A row does not reach the places behind its carry. -/
theorem get_multiplyRow (u : Blocks) (v : Block) (j count i k : Nat) (w : Blocks) {index : Nat}
    (behind : i + count + j < index) : get (multiplyRow u v j count i k w) index = get w index := by
  induction count generalizing i k w with
  | zero => exact get_set_of_ne (by omega) w _
  | succ _ ih =>
    rw [multiplyRow, ih (i + 1) _ _ (by omega)]
    exact get_set_of_ne (by omega) w _

/-- The carry stays below the radix: a product of two blocks leaves room for two more. -/
theorem carry_lt {u v w : Block} {k : Nat} (carry : k < radix) :
    (u.toNat * v.toNat + w.toNat + k) / radix < radix := by
  have isRadix : radix = 2 ^ 32 := rfl
  have uBound := u.toNat_lt
  have vBound := v.toNat_lt
  have wBound := w.toNat_lt
  have product : u.toNat * v.toNat ≤ (radix - 1) * (radix - 1) :=
    Nat.mul_le_mul (by omega) (by omega)
  have square : (radix - 1) * (radix - 1) + 2 * (radix - 1) + 1 = radix * radix := by decide
  apply Nat.div_lt_of_lt_mul
  omega

/-- One row adds a multiple of what follows a position, in place of the block where it puts its
last carry. -/
theorem value_multiplyRow (u : Blocks) (v : Block) (j count i k : Nat) (w : Blocks)
    (carry : k < radix) (enough : u.length ≤ i + count) : value (multiplyRow u v j count i k w) +
        (get w (i + count + j)).toNat * radix ^ (i + count + j) =
      value w + radix ^ (i + j) * (value (u.drop i) * v.toNat + k) := by
  induction count generalizing i k w with
  | zero =>
    have isBlock : k % 2 ^ 32 = k := Nat.mod_eq_of_lt carry
    have replaced := value_set w (i + j) (ofNat k)
    rw [toNat_ofNat', isBlock] at replaced
    rw [multiplyRow, value_drop_of_le (by omega), Nat.add_zero, replaced]
    ring
  | succ count ih =>
    rw [multiplyRow]
    have nextCarry := carry_lt (u := get u i) (v := v) (w := get w (i + j)) carry
    generalize isTotal : (get u i).toNat * v.toNat + (get w (i + j)).toNat + k = t at nextCarry
    have replaced := value_set w (i + j) (ofNat (t % radix))
    have remainder : t % radix % 2 ^ 32 = t % radix := Nat.mod_eq_of_lt (Nat.mod_lt _ (by decide))
    rw [toNat_ofNat', remainder] at replaced
    have later := ih (i + 1) (t / radix) (set w (i + j) (ofNat (t % radix))) nextCarry (by omega)
    have last : i + 1 + count + j = i + (count + 1) + j := by omega
    rw [get_set_of_ne (by omega), last] at later
    have weight : radix ^ (i + 1 + j) = radix ^ (i + j) * radix := by
      rw [← pow_succ]
      congr 1
      omega
    have total : t % radix + radix * (t / radix) =
        (get u i).toNat * v.toNat + (get w (i + j)).toNat + k :=
      (Nat.mod_add_div t radix).trans isTotal.symm
    rw [later, value_drop u i, weight]
    zify at replaced total ⊢
    linear_combination replaced + (radix : Int) ^ (i + j) * total

/-- The rows add the product to what is there, in place of the blocks where they put their last
carries. -/
theorem value_multiplyLoop (u v : Blocks) (count j : Nat) (w : Blocks)
    (enough : v.length ≤ j + count) :
    value (multiplyLoop u v count j w) + radix ^ (j + u.length) * window w (j + u.length) count =
      value w + radix ^ j * (value u * value (v.drop j)) := by
  induction count generalizing j w with
  | zero =>
    rw [multiplyLoop, value_drop_of_le (by omega)]
    simp [window]
  | succ count ih =>
    have next : j + 1 + u.length = j + u.length + 1 := by omega
    -- What one row changes, whichever way it is computed.
    have row : ∀ w', (∀ index, j + u.length < index -> get w' index = get w index) ->
        value w' + (get w (j + u.length)).toNat * radix ^ (j + u.length) =
          value w + radix ^ j * (value u * (get v j).toNat) ->
        value (multiplyLoop u v count (j + 1) w') +
            radix ^ (j + u.length) * window w (j + u.length) (count + 1) =
          value w + radix ^ j * (value u * value (v.drop j)) := by
      intro w' frame isRow
      have later := ih (j + 1) w' (by omega)
      have kept : window w' (j + 1 + u.length) count = window w (j + u.length + 1) count :=
        window_congr fun i _ => by rw [next]; exact frame _ (by omega)
      rw [kept, next, pow_succ, pow_succ] at later
      rw [window_cons, value_drop v j]
      zify at isRow later ⊢
      linear_combination isRow + later
    rw [multiplyLoop]
    split
    · rename_i isZero
      refine row _ (fun index behind => get_set_of_ne (by omega) w 0) ?_
      rw [value_set, isZero]
      simp
    · refine row _ (fun _ _ => get_multiplyRow u _ j _ 0 0 w (by omega)) ?_
      have isRow := value_multiplyRow u (get v j) j u.length 0 0 w (by decide) (by omega)
      rw [drop_zero, Nat.zero_add, Nat.add_comm u.length, Nat.zero_add, Nat.add_zero] at isRow
      exact isRow

/-- The carries `k` of a row, in their order. -/
def rowCarries (u : Blocks) (v : Block) (j : Nat) : Nat -> Nat -> Nat -> Blocks -> List Nat
  | 0, _, _, _ => []
  | count + 1, i, k, w =>
    let t := (get u i).toNat * v.toNat + (get w (i + j)).toNat + k
    t / radix ::
      rowCarries u v j count (i + 1) (t / radix) (set w (i + j) (UInt32.ofNat (t % radix)))

def loopCarries (u v : Blocks) : Nat -> Nat -> Blocks -> List Nat
  | 0, _, _ => []
  | count + 1, j, w =>
    if get v j = 0 then loopCarries u v count (j + 1) (set w (j + u.length) 0)
    else rowCarries u (get v j) j u.length 0 0 w ++
      loopCarries u v count (j + 1) (multiplyRow u (get v j) j u.length 0 0 w)

theorem rowCarries_lt (u : Blocks) (v : Block) (j count i : Nat) {k : Nat} (w : Blocks)
    (carry : k < radix) : ∀ next ∈ rowCarries u v j count i k w, next < radix := by
  induction count generalizing i k w with
  | zero => exact forall_mem_nil _
  | succ _ ih =>
    have nextCarry := carry_lt (u := get u i) (v := v) (w := get w (i + j)) carry
    exact forall_mem_cons.mpr ⟨nextCarry, ih (i + 1) _ nextCarry⟩

/-- No carry reaches the radix, whatever the product holds before. -/
theorem loopCarries_lt (u v : Blocks) (count j : Nat) (w : Blocks) :
    ∀ carry ∈ loopCarries u v count j w, carry < radix := by
  induction count generalizing j w with
  | zero => exact forall_mem_nil _
  | succ _ ih =>
    rw [loopCarries]
    split
    · exact ih (j + 1) _
    · exact forall_mem_append.mpr ⟨rowCarries_lt u _ j _ 0 w (by decide), ih (j + 1) _⟩

theorem value_multiply {u v : Blocks} (normal : Normal u) (normal' : Normal v) :
    value (multiply [] u v) = value u * value v := by
  unfold multiply
  split
  · rename_i zero
    rw [normal.isZero_iff.mp zero]
    simp
  · split
    · rename_i one
      rw [beq_iff_eq.mp one]
      simp
    · split
      · rename_i zero
        rw [normal'.isZero_iff.mp zero]
        simp
      · split
        · rename_i one
          rw [beq_iff_eq.mp one]
          simp
        · have looped := value_multiplyLoop u v v.length 0 [] (by omega)
          have empty : window [] (0 + u.length) v.length = 0 := by
            rw [← value_drop_eq_window [] (by simp)]
            simp
          rw [empty, drop_zero] at looped
          rw [value_normalize]
          simpa using looped

theorem normal_multiply {product u v : Blocks} (normal : Normal u) (normal' : Normal v) :
    Normal (multiply product u v) := by
  unfold multiply
  split
  · exact normal_nil
  · split
    · exact normal'
    · split
      · exact normal_nil
      · split
        · exact normal
        · exact normal_normalize _

theorem value_assignLoop (remaining : Nat) : value (assignLoop remaining) = remaining := by
  induction remaining using Nat.strongRecOn with
  | ind remaining ih =>
    rw [assignLoop]
    split
    · rename_i isZero
      rw [isZero]
      rfl
    · rename_i ne
      have smaller : remaining / radix < remaining :=
        Nat.div_lt_self (Nat.pos_of_ne_zero ne) (by decide)
      have place : remaining % radix < 2 ^ 32 := Nat.mod_lt _ (by decide)
      rw [value_cons, ih _ smaller, toNat_ofNat', Nat.mod_eq_of_lt place]
      exact Nat.mod_add_div remaining radix

theorem normal_assignLoop (remaining : Nat) : Normal (assignLoop remaining) := by
  induction remaining using Nat.strongRecOn with
  | ind remaining ih =>
    rw [assignLoop]
    split
    · exact normal_nil
    · rename_i ne
      have smaller : remaining / radix < remaining :=
        Nat.div_lt_self (Nat.pos_of_ne_zero ne) (by decide)
      have later := ih _ smaller
      cases isRest : assignLoop (remaining / radix) with
      | cons block =>
        intro last isLast
        rw [getLast?_cons_cons, ← isRest] at isLast
        exact later last isLast
      | nil =>
        -- A single block is all of the value.
        intro last isLast isZero
        rw [getLast?_singleton] at isLast
        have whole := value_assignLoop remaining
        rw [assignLoop, if_neg ne, isRest, Option.some.inj isLast, isZero] at whole
        exact ne whole.symm

theorem value_assign (word : UInt64) : value (assign word) = word.toNat :=
  value_assignLoop word.toNat

theorem normal_assign (word : UInt64) : Normal (assign word) := normal_assignLoop word.toNat

theorem normal_divide {dividend : Blocks} (normal : Normal dividend) (divisor : Blocks) :
    Normal (divide dividend divisor).1 ∧ Normal (divide dividend divisor).2 := by
  unfold divide
  split
  · exact ⟨normal_nil, normal_nil⟩
  · split
    · exact ⟨normal_nil, normal⟩
    · split
      · split
        · exact ⟨normal_assign 1, normal_nil⟩
        · exact ⟨normal_nil, normal⟩
      · split
        · exact ⟨normal, normal_nil⟩
        · split
          · exact ⟨normal_nil, normal⟩
          · -- The loops are not evaluated: only what they yield is normalized.
            extract_lets m n s vn un
            split
            · split
              exact ⟨normal_normalize _, normal_normalize _⟩
            · split
              exact ⟨normal_normalize _, normal_normalize _⟩

/-! ## Numerals -/

/-- The digits are read from the most significant. -/
theorem value_parseLoop (base : Nat) {result : Blocks} (normal : Normal result) (digits : List Nat)
    : Normal (parseLoop base result digits) ∧
      value (parseLoop base result digits) = digits.foldl (fun total digit =>
        total * (UInt64.ofNat base).toNat + (UInt64.ofNat digit).toNat) (value result) := by
  induction digits generalizing result with
  | nil => exact ⟨normal, rfl⟩
  | cons digit _ ih =>
    have product : Normal (multiply [] result (assign (UInt64.ofNat base))) :=
      normal_multiply normal (normal_assign (UInt64.ofNat base))
    have isNext := value_add product (normal_assign (UInt64.ofNat digit))
    rw [value_multiply normal (normal_assign _), value_assign, value_assign] at isNext
    have later := ih (normal_add product (normal_assign (UInt64.ofNat digit)))
    rw [isNext] at later
    exact later

theorem foldl_pos {base total : Nat} (pos : 0 < base) (begun : 0 < total) (digits : List Nat) :
    0 < digits.foldl (fun total digit => total * base + (UInt64.ofNat digit).toNat) total := by
  induction digits generalizing total with
  | nil => exact begun
  | cons _ _ ih => exact ih (Nat.add_pos_left (Nat.mul_pos begun pos) _)

theorem digitValue_lt {base digit : Nat} {ch : UInt8} (isDigit : digitValue base ch = some digit) :
    digit < 16 := by
  unfold digitValue at isDigit
  split at isDigit
  · rename_i inside
    have upper : ch.toNat ≤ 57 := UInt8.le_iff_toNat_le.mp inside.2
    cases isDigit
    show ch.toNat - 48 < 16
    omega
  · split at isDigit
    · rename_i inside
      have upper : ch.toNat ≤ 102 := UInt8.le_iff_toNat_le.mp inside.2.2
      cases isDigit
      show ch.toNat - 97 < 16
      omega
    · split at isDigit
      · rename_i inside
        have upper : ch.toNat ≤ 70 := UInt8.le_iff_toNat_le.mp inside.2.2
        rw [← Option.some.inj isDigit]
        show ch.toNat - 65 < 16
        omega
      · contradiction

variable {text : List UInt8}

theorem value_numeral {values : List Nat} (isDigits : text.mapM (digitValue 10) = some values)
    (ne : values.dropWhile (· == 0) ≠ []) :
    value (parseLoop 10 [] (values.dropWhile (· == 0))) ≠ 0 := by
  obtain ⟨digit, digits, isCons⟩ := exists_cons_of_ne_nil ne
  have nonzero : digit ≠ 0 := by
    have stops := head_dropWhile_not (· == 0) ne
    simpa [isCons] using stops
  have mem : digit ∈ values := by
    apply (dropWhile_sublist (· == 0)).subset
    rw [isCons]
    exact mem_cons_self
  have small : digit < 16 := by
    have related := Forall₂.flip (Lists.mapM_eq_some.mp isDigits)
    obtain ⟨_, _, isDigit⟩ := Lists.related_of_mem related mem
    exact digitValue_lt isDigit
  have isWord : (UInt64.ofNat digit).toNat = digit := by exact Nat.mod_eq_of_lt (by omega)
  rw [(value_parseLoop 10 normal_nil _).2, isCons, foldl_cons]
  refine Nat.ne_of_gt (foldl_pos (by decide) ?_ digits)
  omega

def ParsedText.sign : ParsedText -> AbstractIntegerSign
  | .failed sign => sign
  | .zero => .positive
  | .digits _ sign _ => sign

theorem sign_parseSign {base : Nat} (pos : base = 10 -> ∀ rest, text ≠ ascii '-' :: rest) :
    (parseSign base text).sign = .positive := by
  cases text with
  | nil => rfl
  | cons _ rest =>
    rw [parseSign.eq_def]
    dsimp only
    split
    · split
      · rfl
      · split
        · rfl
        · rfl
    · split
      · rename_i isMinus
        split
        · rfl
        · rename_i isTen
          rw [isMinus] at pos
          exact absurd rfl (pos (Decidable.not_not.mp isTen) rest)
      · rfl

/-- Without a minus at the front, the sign is positive. -/
theorem sign_parseHead (pos : ∀ rest, text ≠ ascii '-' :: rest) :
    (parseHead text).sign = .positive := by
  cases text with
  | nil => rfl
  | cons =>
    rw [parseHead.eq_def]
    dsimp only
    split
    · split
      · rfl
      · split
        · split
          · rfl
          · exact sign_parseSign fun isTen => absurd isTen (by decide)
        · rfl
    · exact sign_parseSign fun _ => pos

theorem parseHead_minus (rest : List UInt8) : parseHead (ascii '-' :: rest) =
      if rest = [] then .failed .negative else .digits 10 .negative rest := by
  rw [parseHead.eq_def]
  dsimp only
  rw [if_neg (by decide), parseSign, if_neg (by decide), if_pos rfl, if_neg (by decide)]

end NtfCore.Ntsa.AbstractIntegerRepresentation
