import Mathlib.Algebra.Order.BigOperators.Group.List
import NtfCore.Ntsa.Ipv6Address

/-!
Contract: what `Ipv6Address::format` writes is what `Ipv6Address::parse` reads.

Owns: the characters an address takes, counted from its groups and its scope, the
position of the collapsed groups, and that the text is parsed back exactly when it
has at most 39 characters and the scope has at most 16 bits.
-/

namespace NtfCore.Ntsa.Ipv6Address

open NtfCore.Foundation Ipv6ScopeIdUtil
open List hiding Vector
open NtfCore.Foundation.Text

/-! ## The characters of an address -/

def groups : List UInt8 -> List (UInt8 × UInt8)
  | v1 :: v2 :: rest => (v1, v2) :: groups rest
  | _ => []

def groupNumber (group : UInt8 × UInt8) : Nat :=
  group.1.toNat * 256 + group.2.toNat

def groupWidth (group : UInt8 × UInt8) : Nat :=
  Nat.log 16 (groupNumber group) + 1

/-- The characters of the longest stretch of zero groups and the colons around
them that starts with the colon before the first group. -/
def colonSpan : List (UInt8 × UInt8) -> Nat
  | [] => 0
  | group :: rest => if group = (0, 0) then colonSpan rest + 2 else 1

def longestSpan : List (UInt8 × UInt8) -> Nat
  | [] => 0
  | group :: rest => max (colonSpan (group :: rest)) (longestSpan rest)

def savedCharacters : List (UInt8 × UInt8) -> Nat
  | [] => 0
  | group :: rest =>
    max (if group = (0, 0) then colonSpan rest + 1 else 0) (longestSpan rest) - 2

def Readable (address : Ipv6Address) (collapse : Bool) : Prop :=
  address.scopeId = 0 ∨
    address.scopeId.toNat < 2 ^ 16 ∧
      ((groups address.asBytes).map groupWidth).sum + 7 + (1 + (Nat.log 10 address.scopeId.toNat + 1)) -
        (if collapse then savedCharacters (groups address.asBytes) else 0) ≤ 39

instance (address : Ipv6Address) (collapse : Bool) : Decidable (Readable address collapse) :=
  inferInstanceAs (Decidable (_ ∨ _))

variable {nibble : UInt8}

theorem hexValue_hexDigit (small : nibble < 16) : hexValue (hexDigit nibble) = some nibble := by
  have every : ∀ value : Fin 16, hexValue (hexDigit (UInt8.ofNat value)) =
      some (UInt8.ofNat value) := by decide
  have isValue := every ⟨nibble.toNat, UInt8.lt_iff_toNat_lt.mp small⟩
  rwa [UInt8.ofNat_toNat] at isValue

theorem hexDigit_class (small : nibble < 16) :
    hexDigit nibble ≠ ascii ':' ∧ hexDigit nibble ≠ ascii '%' ∧
      (nibble ≠ 0 -> isZeroOrColon (hexDigit nibble) = false) := by
  have every : ∀ value : Fin 16, hexDigit (UInt8.ofNat value) ≠ ascii ':' ∧
      hexDigit (UInt8.ofNat value) ≠ ascii '%' ∧
      (UInt8.ofNat value ≠ 0 -> isZeroOrColon (hexDigit (UInt8.ofNat value)) = false) := by decide
  have isValue := every ⟨nibble.toNat, UInt8.lt_iff_toNat_lt.mp small⟩
  rwa [UInt8.ofNat_toNat] at isValue

section

variable (byte : UInt8)

theorem toNat_high : (byte >>> 4).toNat = byte.toNat / 16 := by
  rw [UInt8.toNat_shiftRight]
  exact Nat.shiftRight_eq_div_pow _ 4

theorem toNat_low : (byte &&& 0x0F).toNat = byte.toNat % 16 := by
  rw [UInt8.toNat_and]
  exact Nat.and_two_pow_sub_one_eq_mod byte.toNat 4

theorem high_lt : byte >>> 4 < 16 := by
  rw [UInt8.lt_iff_toNat_lt, toNat_high]
  have bound := byte.toNat_lt
  show byte.toNat / 16 < 16
  omega

theorem low_lt : byte &&& 0x0F < 16 := by
  rw [UInt8.lt_iff_toNat_lt, toNat_low]
  exact Nat.mod_lt _ (by decide)

end

/-- The nibbles that `format` writes for a group. -/
def nibbles (v1 v2 : UInt8) : List UInt8 :=
  (if v1 >>> 4 ≠ 0 then [v1 >>> 4] else []) ++
    (if v1 >>> 4 ≠ 0 ∨ v1 &&& 0x0F ≠ 0 then [v1 &&& 0x0F] else []) ++
    (if v1 >>> 4 ≠ 0 ∨ v1 &&& 0x0F ≠ 0 ∨ v2 >>> 4 ≠ 0 then [v2 >>> 4] else []) ++
    [v2 &&& 0x0F]

theorem groupText_eq (v1 v2 : UInt8) : groupText v1 v2 = (nibbles v1 v2).map hexDigit := by
  unfold groupText nibbles
  simp only [map_append, map_cons, map_nil]
  split_ifs <;> rfl

theorem nibbles_lt {v1 v2 nibble : UInt8} (mem : nibble ∈ nibbles v1 v2) : nibble < 16 := by
  have small : nibble = v1 >>> 4 ∨ nibble = v1 &&& 0x0F ∨ nibble = v2 >>> 4 ∨
      nibble = v2 &&& 0x0F := by
    unfold nibbles at mem
    split_ifs at mem <;> simp at mem <;> tauto
  rcases small with isNibble | isNibble | isNibble | isNibble
  · exact isNibble ▸ high_lt v1
  · exact isNibble ▸ low_lt v1
  · exact isNibble ▸ high_lt v2
  · exact isNibble ▸ low_lt v2

def nibblesNumber (start : Nat) (digits : List UInt8) : Nat :=
  digits.foldl (fun value nibble => value * 16 + nibble.toNat) start

theorem nibbles_cases (v1 v2 : UInt8) :
    nibbles v1 v2 = [v1 >>> 4, v1 &&& 0x0F, v2 >>> 4, v2 &&& 0x0F] ∧ v1.toNat / 16 ≠ 0 ∨
    nibbles v1 v2 = [v1 &&& 0x0F, v2 >>> 4, v2 &&& 0x0F] ∧ v1.toNat / 16 = 0 ∧ v1.toNat % 16 ≠ 0 ∨
    nibbles v1 v2 = [v2 >>> 4, v2 &&& 0x0F] ∧ v1.toNat = 0 ∧ v2.toNat / 16 ≠ 0 ∨
    nibbles v1 v2 = [v2 &&& 0x0F] ∧ v1.toNat = 0 ∧ v2.toNat / 16 = 0 := by
  have zero_iff : ∀ byte : UInt8, byte = 0 ↔ byte.toNat = 0 := fun _ =>
    UInt8.toNat_inj.symm
  unfold nibbles
  simp only [ne_eq, zero_iff, toNat_high, toNat_low]
  by_cases first : v1.toNat / 16 = 0
  · by_cases second : v1.toNat % 16 = 0
    · have isZero : v1.toNat = 0 := by omega
      by_cases third : v2.toNat / 16 = 0
      · simp [third, isZero]
      · simp [third, isZero]
    · simp [first, second]
  · simp [first]

theorem nibblesNumber_group (v1 v2 : UInt8) :
    nibblesNumber 0 (nibbles v1 v2) = groupNumber (v1, v2) := by
  have high1 := toNat_high v1
  have low1 := toNat_low v1
  have high2 := toNat_high v2
  have low2 := toNat_low v2
  unfold nibblesNumber groupNumber
  rcases nibbles_cases v1 v2 with ⟨isText, _⟩ | ⟨isText, zero, _⟩ | ⟨isText, zero, _⟩ |
    ⟨isText, zero, zeroLow⟩
  all_goals
    rw [isText]
    simp only [foldl_cons, foldl_nil]
    omega

theorem groupText_length (group : UInt8 × UInt8) :
    (groupText group.1 group.2).length = groupWidth group := by
  obtain ⟨v1, v2⟩ := group
  have bound1 := v1.toNat_lt
  have bound2 := v2.toNat_lt
  rw [groupText_eq, length_map]
  unfold groupWidth groupNumber
  dsimp only
  rcases nibbles_cases v1 v2 with ⟨isText, _⟩ | ⟨isText, zero, _⟩ |
    ⟨isText, zero, third⟩ | ⟨isText, zero, zeroLow⟩
  · rw [isText, Nat.log_eq_of_pow_le_of_lt_pow (m := 3) (by omega) (by omega)]
    rfl
  · rw [isText, Nat.log_eq_of_pow_le_of_lt_pow (m := 2) (by omega) (by omega)]
    rfl
  · rw [isText, Nat.log_eq_of_pow_le_of_lt_pow (m := 1) (by omega) (by omega)]
    rfl
  · rw [isText, Nat.log_of_lt (by omega)]
    rfl

/-- A group other than zero starts with a digit other than zero. -/
theorem groupText_head {v1 v2 : UInt8} (ne : (v1, v2) ≠ (0, 0)) :
    ∃ digit rest, groupText v1 v2 = digit :: rest ∧ isZeroOrColon digit = false := by
  have zero_iff : ∀ byte : UInt8, byte = 0 ↔ byte.toNat = 0 := fun _ =>
    UInt8.toNat_inj.symm
  have some : v1.toNat ≠ 0 ∨ v2.toNat ≠ 0 := by
    by_contra neither
    rw [not_or, not_not, not_not, ← zero_iff, ← zero_iff] at neither
    exact ne (Prod.ext neither.1 neither.2)
  have refuses : ∀ {nibble : UInt8} {value : Nat}, nibble.toNat = value -> value ≠ 0 ->
      nibble < 16 -> isZeroOrColon (hexDigit nibble) = false := by
    intro _ _ isValue notZero small
    refine (hexDigit_class small).2.2 fun isZero => notZero ?_
    rw [← isValue, isZero]
    rfl
  rw [groupText_eq]
  rcases nibbles_cases v1 v2 with ⟨isText, first⟩ | ⟨isText, zero, second⟩ |
    ⟨isText, zero, third⟩ | ⟨isText, zero, zeroLow⟩
  · exact ⟨_, _, by rw [isText, map_cons], refuses (toNat_high v1) first (high_lt v1)⟩
  · exact ⟨_, _, by rw [isText, map_cons], refuses (toNat_low v1) second (low_lt v1)⟩
  · exact ⟨_, _, by rw [isText, map_cons], refuses (toNat_high v2) third (high_lt v2)⟩
  · have last : v2.toNat % 16 ≠ 0 := by omega
    exact ⟨_, _, by rw [isText, map_cons], refuses (toNat_low v2) last (low_lt v2)⟩

theorem groupText_zero : groupText 0 0 = [ascii '0'] := by
  decide

theorem mem_groupText {v1 v2 chr : UInt8} (mem : chr ∈ groupText v1 v2) :
    chr ≠ ascii ':' ∧ chr ≠ ascii '%' := by
  rw [groupText_eq] at mem
  obtain ⟨_, isNibble, isChr⟩ := mem_map.mp mem
  have classified := hexDigit_class (nibbles_lt isNibble)
  exact isChr ▸ ⟨classified.1, classified.2.1⟩

/-! ## Reading groups -/

theorem toNat_shift_or (value : UInt16) (small : nibble < 16) (fits : value.toNat < 4096) :
    ((value <<< 4) ||| nibble.toUInt16).toNat = value.toNat * 16 + nibble.toNat := by
  have nibbleLt : nibble.toNat < 2 ^ 4 := UInt8.lt_iff_toNat_lt.mp small
  have shifted : (value <<< 4).toNat = value.toNat <<< 4 := by
    rw [UInt16.toNat_shiftLeft]
    show value.toNat <<< 4 % 2 ^ 16 = _
    omega
  rw [UInt16.toNat_or, shifted, UInt8.toNat_toUInt16, ← Nat.shiftLeft_add_eq_or_of_lt nibbleLt,
    Nat.shiftLeft_eq]

variable {digits : List UInt8}

theorem groupLoop_digits (skip : Nat) (small : ∀ nibble ∈ digits, nibble < 16)
    (rest : List UInt8) (prev : Option UInt8) (state : ParseState) (inside : state.outputIndex < 16)
    (fits : nibblesNumber state.groupValue.toNat digits < 2 ^ 16) :
    ∃ groupValue : UInt16, groupValue.toNat = nibblesNumber state.groupValue.toNat digits ∧
      groupLoop skip prev state (digits.map hexDigit ++ rest) =
        groupLoop skip (((digits.map hexDigit).getLast?).or prev)
          { state with groupValue := groupValue } rest := by
  induction digits generalizing prev state with
  | nil => exact ⟨state.groupValue, rfl, rfl⟩
  | cons nibble digits ih =>
    have isSmall := small nibble mem_cons_self
    obtain ⟨notColon, notPercent, _⟩ := hexDigit_class isSmall
    have grows : ∀ (later : List UInt8) (start : Nat), start ≤ nibblesNumber start later := by
      intro later
      induction later with
      | nil => exact fun _ => le_rfl
      | cons digit later grows =>
        intro start
        have step := grows (start * 16 + digit.toNat)
        have grown : nibblesNumber start (digit :: later) =
          nibblesNumber (start * 16 + digit.toNat) later := rfl
        omega
    have unfolded : nibblesNumber state.groupValue.toNat (nibble :: digits) =
      nibblesNumber (state.groupValue.toNat * 16 + nibble.toNat) digits := rfl
    have room := grows digits (state.groupValue.toNat * 16 + nibble.toNat)
    have shifted := toNat_shift_or state.groupValue isSmall (by omega)
    rw [unfolded, ← shifted] at fits
    obtain ⟨groupValue, isNumber, continues⟩ := ih
      (fun digit mem => small digit (mem_cons_of_mem _ mem))
      (some (hexDigit nibble))
      { state with groupValue := (state.groupValue <<< 4) ||| nibble.toUInt16 } inside fits
    refine ⟨groupValue, ?_, ?_⟩
    · rw [isNumber, unfolded, ← shifted]
    · rw [map_cons, cons_append, groupLoop.eq_def]
      dsimp only
      rw [if_pos inside, if_neg notColon, if_neg notPercent, hexValue_hexDigit isSmall]
      dsimp only
      rw [continues]
      cases digits with
      | nil => rfl
      | cons =>
        rw [map_cons, getLast?_cons_cons]
        rfl

/-- The loop has stored `stored` and the rest of the value is zero; it is reading
a group with the number `number` so far. -/
structure ParseState.Holds (state : ParseState) (stored : List UInt8) (number : Nat) : Prop where
  value : ∃ count, state.value.toList = stored ++ List.replicate count 0
  output : state.outputIndex = stored.length
  group : state.groupValue.toNat = number

variable {state : ParseState} {stored : List UInt8}

theorem groupLoop_group (skip : Nat) (group : UInt8 × UInt8) (rest : List UInt8)
    (prev : Option UInt8) (holds : state.Holds stored 0) (inside : stored.length < 16) :
    ∃ last ≠ ascii ':', ∃ next : ParseState, next.Holds stored (groupNumber group) ∧
      groupLoop skip prev state (groupText group.1 group.2 ++ rest) =
        groupLoop skip (some last) next rest := by
  have number := nibblesNumber_group group.1 group.2
  have bound1 := group.1.toNat_lt
  have bound2 := group.2.toNat_lt
  obtain ⟨groupValue, isNumber, continues⟩ := groupLoop_digits skip
    (fun _ mem => nibbles_lt mem) rest prev state (holds.output ▸ inside)
    (by rw [holds.group, number]; unfold groupNumber; dsimp only; omega)
  rw [← groupText_eq] at continues
  rw [holds.group, number] at isNumber
  have ne : groupText group.1 group.2 ≠ [] := by
    exact append_ne_nil_of_right_ne_nil _ (cons_ne_nil _ _)
  refine ⟨(groupText group.1 group.2).getLast ne,
    (mem_groupText (getLast_mem ne)).1, { state with groupValue := groupValue },
    ⟨holds.value, holds.output, isNumber⟩, ?_⟩
  rw [continues, getLast?_eq_some_getLast ne]
  rfl

variable {group : UInt8 × UInt8}

theorem ParseState.Holds.store (holds : state.Holds stored (groupNumber group))
    (room : stored.length + 2 ≤ 16) :
    ∃ count, state.store.toList = stored ++ [group.1, group.2] ++ List.replicate count 0 := by
  obtain ⟨count, isValue⟩ := holds.value
  have lengths := congrArg length isValue
  rw [Vector.length_toList, length_append, length_replicate] at lengths
  obtain ⟨remaining, isCount⟩ : ∃ remaining, count = remaining + 2 := ⟨count - 2, by omega⟩
  have bound1 := group.1.toNat_lt
  have bound2 := group.2.toNat_lt
  have number : state.groupValue.toNat = group.1.toNat * 256 + group.2.toNat := holds.group
  have high : (state.groupValue >>> 8).toUInt8 = group.1 := by
    apply UInt8.toNat_inj.mp
    rw [UInt16.toNat_toUInt8, UInt16.toNat_shiftRight]
    show state.groupValue.toNat >>> 8 % 2 ^ 8 = _
    omega
  have low : state.groupValue.toUInt8 = group.2 := by
    apply UInt8.toNat_inj.mp
    rw [UInt16.toNat_toUInt8]
    omega
  refine ⟨remaining, ?_⟩
  unfold ParseState.store
  rw [high, low, Vector.toList_setIfInBounds, Vector.toList_setIfInBounds, isValue, holds.output,
    isCount, replicate_succ, replicate_succ]
  simp

def colonText (list : List (UInt8 × UInt8)) : List UInt8 :=
  list.flatMap fun group => ascii ':' :: groupText group.1 group.2

def joined : List (UInt8 × UInt8) -> List UInt8
  | [] => []
  | group :: rest => groupText group.1 group.2 ++ colonText rest

def bytesOf (list : List (UInt8 × UInt8)) : List UInt8 :=
  list.flatMap fun group => [group.1, group.2]

theorem bytesOf_length (list : List (UInt8 × UInt8)) : (bytesOf list).length = 2 * list.length := by
  induction list with
  | nil => rfl
  | cons group rest ih =>
    have unfolded : (bytesOf (group :: rest)).length = (bytesOf rest).length + 2 := by
      simp [bytesOf]
    rw [unfolded, ih, length_cons]
    omega

variable {last : UInt8}

theorem groupLoop_colon (skip : Nat) (notColon : last ≠ ascii ':')
    (rest : List UInt8) (holds : state.Holds stored (groupNumber group))
    (room : stored.length + 2 ≤ 16) :
    ∃ next : ParseState, next.Holds (stored ++ [group.1, group.2]) 0 ∧
      groupLoop skip (some last) state (ascii ':' :: rest) =
        groupLoop skip (some (ascii ':')) next rest := by
  refine ⟨{ value := state.store, outputIndex := state.outputIndex + 2 }, ?_, ?_⟩
  · refine ⟨holds.store room, ?_, rfl⟩
    rw [length_append, ← holds.output]
    rfl
  · rw [groupLoop.eq_def]
    dsimp only
    rw [if_pos (by rw [holds.output]; omega), if_pos rfl, if_neg (by simp [notColon])]

theorem groupLoop_colonText (skip : Nat) (list : List (UInt8 × UInt8)) (rest : List UInt8)
    (notColon : last ≠ ascii ':') (holds : state.Holds stored (groupNumber group))
    (room : stored.length + 2 + 2 * list.length ≤ 16) :
    ∃ final ≠ ascii ':', ∃ before latest, ∃ next : ParseState,
      next.Holds before (groupNumber latest) ∧
      before ++ [latest.1, latest.2] = stored ++ [group.1, group.2] ++ bytesOf list ∧
      groupLoop skip (some last) state (colonText list ++ rest) =
        groupLoop skip (some final) next rest := by
  induction list generalizing last state stored group with
  | nil => exact ⟨last, notColon, stored, group, state, holds, (append_nil _).symm, rfl⟩
  | cons following list ih =>
    rw [length_cons] at room
    obtain ⟨_, colonHolds, afterColon⟩ := groupLoop_colon skip notColon
      (groupText following.1 following.2 ++ (colonText list ++ rest)) holds (by omega)
    obtain ⟨_, notColonDigit, _, readHolds, afterGroup⟩ := groupLoop_group skip
      following (colonText list ++ rest) (some (ascii ':')) colonHolds (by simp; omega)
    obtain ⟨final, notColonFinal, before, latest, next, nextHolds, split, continues⟩ :=
      ih notColonDigit readHolds (by simp; omega)
    refine ⟨final, notColonFinal, before, latest, next, nextHolds, ?_, ?_⟩
    · rw [split]
      simp [bytesOf]
    · rw [← continues, ← afterGroup, ← afterColon]
      simp [colonText]

theorem start_holds : ({} : ParseState).Holds [] 0 := ⟨⟨16, rfl⟩, rfl, rfl⟩

variable {list : List (UInt8 × UInt8)}

/-- Groups separated by colons are read up to the last one, which is not stored
yet. -/
theorem groupLoop_joined (skip : Nat) (ne : list ≠ [])
    (prev : Option UInt8) (holds : state.Holds stored 0)
    (room : stored.length + 2 * list.length ≤ 16) (rest : List UInt8) :
    ∃ last ≠ ascii ':', ∃ before latest, ∃ next : ParseState,
      next.Holds before (groupNumber latest) ∧
      before ++ [latest.1, latest.2] = stored ++ bytesOf list ∧
      groupLoop skip prev state (joined list ++ rest) = groupLoop skip (some last) next rest := by
  cases list with
  | nil => contradiction
  | cons group list =>
    rw [length_cons] at room
    obtain ⟨_, notColon, _, readHolds, afterGroup⟩ := groupLoop_group skip
      group (colonText list ++ rest) prev holds (by omega)
    obtain ⟨final, notColonFinal, before, latest, next, nextHolds, split, continues⟩ :=
      groupLoop_colonText skip list rest notColon readHolds (by omega)
    refine ⟨final, notColonFinal, before, latest, next, nextHolds, ?_, ?_⟩
    · rw [split]
      simp [bytesOf]
    · rw [← continues, ← afterGroup, joined, append_assoc]

/-! ## Reading a double colon -/

/-- The second of two colons moves the output to the groups after it. -/
theorem groupLoop_double (skip : Nat) (pos : skip > 0) (rest : List UInt8)
    (holds : state.Holds stored 0)
    (room : stored.length + 2 ≤ 16) (ahead : stored.length ≤ skip) (inside : skip ≤ 14) :
    ∃ next : ParseState, next.Holds (stored ++ List.replicate (skip - stored.length) 0) 0 ∧
      groupLoop skip (some (ascii ':')) state (ascii ':' :: rest) =
        groupLoop skip (some (ascii ':')) next rest := by
  have zero : state.Holds stored (groupNumber (0, 0)) := holds
  obtain ⟨_, isStored⟩ := zero.store room
  have lengths := congrArg length isStored
  simp only [Vector.length_toList, length_append, length_replicate, length_cons,
    length_nil] at lengths
  refine ⟨{ value := state.store, outputIndex := skip }, ⟨⟨16 - skip, ?_⟩, ?_, rfl⟩, ?_⟩
  · have zeros : [(0 : UInt8), 0] = replicate 2 0 := rfl
    rw [isStored, zeros, append_assoc, append_assoc, replicate_append_replicate,
      replicate_append_replicate]
    congr 2
    omega
  · rw [length_append, length_replicate]
    dsimp only
    omega
  · rw [groupLoop.eq_def]
    dsimp only
    rw [if_pos (by rw [holds.output]; omega), if_pos rfl, if_pos ⟨pos, rfl⟩]

def skipOf (list : List (UInt8 × UInt8)) : Nat :=
  14 - 2 * (list.length - 1)

/-- The first of two colons. -/
theorem groupLoop_before (skip : Nat) (list : List (UInt8 × UInt8)) (room : list.length ≤ 7)
    (rest : List UInt8) :
    ∃ next : ParseState, ∃ stored, next.Holds stored 0 ∧ stored.length ≤ max 2 (2 * list.length) ∧
      (∃ count, stored = bytesOf list ++ List.replicate count 0) ∧
      groupLoop skip none {} (joined list ++ ascii ':' :: rest) =
        groupLoop skip (some (ascii ':')) next rest := by
  cases isList : list with
  | nil =>
    refine ⟨{ value := ({} : ParseState).store, outputIndex := 2 }, [0, 0], ?_, by simp,
      ⟨2, rfl⟩, ?_⟩
    · exact ⟨⟨14, by decide⟩, rfl, rfl⟩
    · rw [joined, nil_append, groupLoop.eq_def]
      simp
  | cons =>
    have ne : list ≠ [] := by simp [isList]
    rw [← isList]
    obtain ⟨_, notColon, _, _, _, holds, split, continues⟩ :=
      groupLoop_joined skip ne none start_holds (by simp; omega) (ascii ':' :: rest)
    rw [nil_append] at split
    have lengths := congrArg length split
    rw [bytesOf_length, length_append] at lengths
    obtain ⟨next, nextHolds, afterColon⟩ := groupLoop_colon skip notColon rest holds (by omega)
    rw [split] at nextHolds
    refine ⟨next, bytesOf list, nextHolds, ?_, ⟨0, (append_nil _).symm⟩, ?_⟩
    · rw [bytesOf_length]
      exact le_max_right _ _
    · rw [continues, afterColon]

def ReadsGroups (skipIndex : Nat) (text bytes : List UInt8) : Prop :=
  ∀ tail, ∃ last before latest, ∃ state : ParseState,
    state.Holds before (groupNumber latest) ∧ before ++ [latest.1, latest.2] = bytes ∧
      groupLoop skipIndex none {} (text ++ tail) = groupLoop skipIndex (some last) state tail

theorem reads_joined (skip : Nat) (all : list.length = 8) :
    ReadsGroups skip (joined list) (bytesOf list) := by
  intro tail
  have ne : list ≠ [] := by
    intro isNil
    simp [isNil] at all
  obtain ⟨last, _, before, latest, next, holds, split, continues⟩ :=
    groupLoop_joined skip ne none start_holds (by simp [all]) tail
  exact ⟨last, before, latest, next, holds, split, continues⟩

/-- Groups around a double colon, which stands for the zero groups in between. -/
theorem reads_collapsed (first last : List (UInt8 × UInt8)) {count : Nat}
    (all : first.length + count + last.length = 8) (pos : 0 < count) :
    ReadsGroups (skipOf last) (joined first ++ [ascii ':', ascii ':'] ++ joined last)
      (bytesOf (first ++ List.replicate count (0, 0) ++ last)) := by
  have bytes : bytesOf (first ++ replicate count (0, 0) ++ last) =
      bytesOf first ++ replicate (2 * count) 0 ++ bytesOf last := by
    have zeros : bytesOf (replicate count (0, 0)) = replicate (2 * count) 0 := by
      apply eq_replicate_iff.mpr
      refine ⟨by rw [bytesOf_length, length_replicate], ?_⟩
      intro _ mem
      obtain ⟨group, isGroup, isByte⟩ := mem_flatMap.mp mem
      rw [eq_of_mem_replicate isGroup] at isByte
      simpa using isByte
    unfold bytesOf at zeros ⊢
    rw [flatMap_append, flatMap_append, zeros]
  intro tail
  have isSkip : skipOf last = 14 - 2 * (last.length - 1) := rfl
  obtain ⟨_, stored, oneHolds, _, ⟨_, isStored⟩, afterOne⟩ := groupLoop_before
    (skipOf last) first (by omega) (ascii ':' :: (joined last ++ tail))
  obtain ⟨two, twoHolds, afterTwo⟩ := groupLoop_double (skipOf last) (by omega)
    (joined last ++ tail) oneHolds (by omega) (by omega) (by omega)
  have padded : stored ++ replicate (skipOf last - stored.length) 0 =
      bytesOf first ++ replicate (skipOf last - 2 * first.length) 0 := by
    have lengths := congrArg length isStored
    rw [length_append, length_replicate, bytesOf_length] at lengths
    rw [isStored, append_assoc, replicate_append_replicate, ← isStored]
    congr 2
    omega
  rw [padded] at twoHolds
  have opened : joined first ++ [ascii ':', ascii ':'] ++ joined last ++ tail =
      joined first ++ ascii ':' :: ascii ':' :: (joined last ++ tail) := by simp
  rw [bytes, opened, afterOne, afterTwo]
  cases isLast : last with
  | nil =>
    rw [isLast, length_nil] at all
    refine ⟨ascii ':', _, (0, 0), two, twoHolds, ?_, rfl⟩
    have pair : [(0 : UInt8), 0] = replicate 2 0 := rfl
    rw [isSkip, isLast, pair, append_assoc, replicate_append_replicate]
    simp only [length_nil, bytesOf, flatMap_nil, append_nil]
    congr 2
    omega
  | cons =>
    have ne : last ≠ [] := by simp [isLast]
    rw [← isLast]
    have pos : 0 < last.length := length_pos_iff.mpr ne
    obtain ⟨final, _, before, latest, next, holds, split, continues⟩ :=
      groupLoop_joined (skipOf last) ne (some (ascii ':')) twoHolds
        (by rw [length_append, bytesOf_length, length_replicate]; omega) tail
    refine ⟨final, before, latest, next, holds, ?_, continues⟩
    rw [split]
    congr 3
    omega

/-! ## The first loop -/

variable {text : List UInt8} {prev : UInt8}

theorem skipLoop_plain (plain : ∀ chr ∈ text, chr ≠ ascii ':')
    (notColon : prev ≠ ascii ':') (found : Bool × Nat) (rest : List UInt8) :
    ∃ last ≠ ascii ':', skipLoop prev found (text ++ rest) = skipLoop last found rest := by
  induction text generalizing prev with
  | nil => exact ⟨prev, notColon, rfl⟩
  | cons chr _ ih =>
    have isPlain := plain chr mem_cons_self
    obtain ⟨last, lastPlain, continues⟩ := ih
      (fun other mem => plain other (mem_cons_of_mem _ mem)) isPlain
    refine ⟨last, lastPlain, ?_⟩
    rw [cons_append, skipLoop.eq_def]
    dsimp only
    rw [if_neg isPlain, continues]

/-- The digits of a group separate the colons around it. -/
theorem skipLoop_group (group : UInt8 × UInt8) (prev : UInt8) (found : Bool × Nat)
    (rest : List UInt8) :
    ∃ last ≠ ascii ':', skipLoop prev found (groupText group.1 group.2 ++ rest) =
      skipLoop last found rest := by
  cases isText : groupText group.1 group.2 with
  | nil => simp [groupText] at isText
  | cons digit digits =>
    have plain : ∀ chr ∈ digit :: digits, chr ≠ ascii ':' := fun chr mem =>
      (mem_groupText (isText ▸ mem)).1
    obtain ⟨last, lastPlain, continues⟩ := skipLoop_plain
      (fun chr mem => plain chr (mem_cons_of_mem _ mem))
      (plain digit mem_cons_self) found rest
    refine ⟨last, lastPlain, ?_⟩
    rw [cons_append, skipLoop.eq_def]
    dsimp only
    rw [if_neg (plain digit mem_cons_self), continues]

theorem skipLoop_colonText (list : List (UInt8 × UInt8))
    (notColon : prev ≠ ascii ':') (colonFound : Bool) (skip : Nat) (rest : List UInt8) :
    ∃ last ≠ ascii ':', skipLoop prev (colonFound, skip) (colonText list ++ rest) =
      skipLoop last (colonFound || !list.isEmpty, skip - 2 * list.length) rest := by
  induction list generalizing prev colonFound skip with
  | nil => exact ⟨prev, notColon, by simp [colonText]⟩
  | cons group list ih =>
    have moved : (if skip > 0 then skip - 2 else skip) = skip - 2 := by
      split
      · rfl
      · omega
    have opened : colonText (group :: list) ++ rest =
        ascii ':' :: (groupText group.1 group.2 ++ (colonText list ++ rest)) := by simp [colonText]
    obtain ⟨_, middlePlain, afterDigits⟩ := skipLoop_group group (ascii ':')
      (true, skip - 2) (colonText list ++ rest)
    obtain ⟨last, lastPlain, continues⟩ := ih middlePlain true (skip - 2)
    refine ⟨last, lastPlain, ?_⟩
    rw [opened, skipLoop.eq_def]
    dsimp only
    rw [if_pos rfl, if_neg notColon, moved, afterDigits, continues]
    congr 2
    · simp
    · rw [length_cons]
      omega

theorem skipLoop_joined (ne : list ≠ []) (prev : UInt8)
    (colonFound : Bool) (skip : Nat) (rest : List UInt8) :
    ∃ last ≠ ascii ':', skipLoop prev (colonFound, skip) (joined list ++ rest) =
      skipLoop last (colonFound || !list.tail.isEmpty, skip - 2 * (list.length - 1)) rest := by
  cases list with
  | nil => contradiction
  | cons group list =>
    obtain ⟨_, middlePlain, afterDigits⟩ := skipLoop_group group prev
      (colonFound, skip) (colonText list ++ rest)
    obtain ⟨last, lastPlain, continues⟩ := skipLoop_colonText list middlePlain colonFound skip rest
    refine ⟨last, lastPlain, ?_⟩
    rw [joined, append_assoc, afterDigits, continues]
    rfl

theorem scopeText_plain (scopeId : UInt32) : ∀ chr ∈ scopeText scopeId, chr ≠ ascii ':' := by
  intro _ mem
  unfold scopeText at mem
  split at mem
  · rcases mem_cons.mp mem with isPercent | inDecimal
    · rw [isPercent]
      decide
    · intro isColon
      have isDigit := isDigit_of_mem_decimal inDecimal
      rw [isColon] at isDigit
      contradiction
  · contradiction

def Skips (text : List UInt8) (skipIndex : Nat) : Prop :=
  ∃ first rest, text = first :: rest ∧ skipLoop first (false, 0) rest = (true, skipIndex)

/-- The first loop changes nothing without a colon. -/
theorem skipLoop_noColon (plain : ∀ chr ∈ text, chr ≠ ascii ':')
    (prev : UInt8) (found : Bool × Nat) : skipLoop prev found text = found := by
  induction text generalizing prev with
  | nil => rfl
  | cons chr _ ih =>
    rw [skipLoop.eq_def]
    dsimp only
    rw [if_neg (plain chr mem_cons_self)]
    exact ih (fun other mem => plain other (mem_cons_of_mem _ mem)) chr

theorem skipLoop_scopeText (scopeId : UInt32) (prev : UInt8) (found : Bool × Nat) :
    skipLoop prev found (scopeText scopeId) = found :=
  skipLoop_noColon (scopeText_plain scopeId) prev found

variable {skip : Nat}

/-- When the text starts with a group, it does not matter where the loop starts. -/
theorem skips_of_group (ne : list ≠ []) {rest : List UInt8}
    (looped : skipLoop 0 (false, 0) (joined list ++ rest) = (true, skip)) :
    Skips (joined list ++ rest) skip := by
  cases list with
  | nil => contradiction
  | cons group =>
    cases isText : groupText group.1 group.2 with
    | nil => simp [groupText] at isText
    | cons digit digits =>
      have isPlain := (mem_groupText (isText ▸ mem_cons_self (l := digits))).1
      rw [joined, isText] at looped ⊢
      rw [cons_append, cons_append, skipLoop.eq_def] at looped
      dsimp only at looped
      rw [if_neg isPlain] at looped
      exact ⟨digit, _, rfl, looped⟩

theorem skips_joined (all : list.length = 8) (scopeId : UInt32) :
    Skips (joined list ++ scopeText scopeId) 0 := by
  have ne : list ≠ [] := by
    intro isNil
    simp [isNil] at all
  obtain ⟨_, _, continues⟩ := skipLoop_joined ne 0 false 0 (scopeText scopeId)
  apply skips_of_group ne
  rw [continues, skipLoop_scopeText scopeId]
  have more : list.tail ≠ [] := by
    intro isNil
    have lengths := congrArg length isNil
    simp [all] at lengths
  simp [more]

/-- The second of two colons starts the count of the groups after it. -/
theorem skips_collapsed (first last : List (UInt8 × UInt8)) (scopeId : UInt32) :
    Skips (joined first ++ [ascii ':', ascii ':'] ++ joined last ++ scopeText scopeId)
      (skipOf last) := by
  have after : skipLoop (ascii ':') (true, 14) (joined last ++ scopeText scopeId) =
      (true, skipOf last) := by
    cases isLast : last with
    | nil => exact skipLoop_scopeText scopeId _ _
    | cons group others =>
      have ne : last ≠ [] := by simp [isLast]
      rw [← isLast]
      obtain ⟨_, _, continues⟩ := skipLoop_joined ne (ascii ':') true 14 (scopeText scopeId)
      rw [continues, skipLoop_scopeText scopeId, Bool.true_or]
      rfl
  have opened : joined first ++ [ascii ':', ascii ':'] ++ joined last ++ scopeText scopeId =
      joined first ++ ascii ':' :: ascii ':' :: (joined last ++ scopeText scopeId) := by simp
  rw [opened]
  cases isFirst : first with
  | nil => exact ⟨ascii ':', _, rfl, after⟩
  | cons =>
    have ne : first ≠ [] := by simp [isFirst]
    rw [← isFirst]
    obtain ⟨_, _, continues⟩ := skipLoop_joined ne 0 false 0
      (ascii ':' :: ascii ':' :: (joined last ++ scopeText scopeId))
    apply skips_of_group ne
    rw [continues, ← after, skipLoop.eq_def]
    dsimp only
    rw [if_pos rfl, skipLoop.eq_def]
    rfl

theorem digitLoop_decimal {digit : UInt8} (all : ∀ chr ∈ digit :: digits, isDigit chr = true)
    (after : List UInt8) (p value : Nat) (fits : decimalNumber value (digit :: digits) < 2 ^ 64) :
    digitLoop (p + (digits.length + 1)) p digit (digits ++ after) value =
      some (decimalNumber value (digit :: digits)) := by
  induction digits generalizing digit p value with
  | nil =>
    have isDigit := all digit mem_cons_self
    have unfolded : decimalNumber value [digit] =
      value * 10 + (digit.toNat - (ascii '0').toNat) := rfl
    rw [unfolded] at fits ⊢
    cases after with
    | nil =>
      simp only [append_nil, digitLoop, isDigit, Nat.mod_eq_of_lt fits]
      simp
    | cons next rest =>
      simp only [nil_append, digitLoop, isDigit, Nat.mod_eq_of_lt fits]
      cases rest <;> simp [digitLoop]
  | cons next digits ih =>
    have isDigit := all digit mem_cons_self
    have unfolded : decimalNumber value (digit :: next :: digits) =
      decimalNumber (value * 10 + (digit.toNat - (ascii '0').toNat)) (next :: digits) := rfl
    rw [unfolded] at fits ⊢
    have small := lt_of_le_of_lt (decimalNumber_mono _ _) fits
    have later := ih (fun chr mem => all chr (mem_cons_of_mem _ mem)) (p + 1) _ fits
    rw [← later, cons_append, digitLoop, if_neg (by omega), isDigit,
      Nat.mod_eq_of_lt small, length_cons]
    simp only [Bool.not_true, Bool.false_eq_true, if_false]
    congr 1
    omega

/-- A numeral is read as a scope if it has at most 16 bits. -/
theorem parse_decimal {value : Nat} (fits : value < 2 ^ 64) (after : List UInt8) :
    Ipv6ScopeIdUtil.parse (decimal value ++ after) (decimal value).length =
      if value > Ipv6ScopeIdUtil.ushortMax then none else some (UInt32.ofNat value) := by
  have number := decimalNumber_decimal value
  have all : ∀ chr ∈ decimal value, isDigit chr = true := fun chr => isDigit_of_mem_decimal
  cases isText : decimal value with
  | nil => exact absurd isText (decimal_ne_nil value)
  | cons digit digits =>
    rw [isText] at number all
    have isDigit := all digit mem_cons_self
    have other : ∀ chr : UInt8, Text.isDigit chr = false -> digit ≠ chr := by
      intro _ notDigit same
      rw [same, notDigit] at isDigit
      contradiction
    have looped := digitLoop_decimal all after 1 0 (by rw [number]; exact fits)
    have notSpace : isSpace digit = false := by
      cases blank : isSpace digit with
      | false => rfl
      | true =>
        exfalso
        unfold isSpace at blank
        unfold Text.isDigit at isDigit
        simp only [Bool.or_eq_true, beq_iff_eq, Bool.and_eq_true, decide_eq_true_eq] at blank isDigit
        rcases blank with isBlank | ⟨_, below⟩
        · rw [isBlank] at isDigit
          contradiction
        · have above := UInt8.le_trans isDigit.1 below
          contradiction
    have notSkipped : skipSpaces 1 digit (digits ++ after) = (1, digit, digits ++ after) := by
      cases digits ++ after <;> simp [skipSpaces, notSpace]
    rw [cons_append, Ipv6ScopeIdUtil.parse, if_neg (other 0 (by decide)), notSkipped]
    dsimp only
    rw [if_neg (other _ (by decide)), if_neg (other _ (by decide)), length_cons,
      Nat.add_comm (digits.length + 1) 1]
    rw [looped, number]

variable {address : Ipv6Address}

theorem ofBytes_asBytes {value : Vector UInt8 16} (same : value.toList = address.asBytes)
    (scopeId : UInt32) : ofBytes value scopeId = { address with scopeId := scopeId } := by
  have element : ∀ (index : Nat) (inside : index < 16),
      some (value.get ⟨index, inside⟩) = address.asBytes[index]? := by
    intro index inside
    rw [← same, getElem?_eq_getElem (by simpa using inside)]
    rfl
  unfold ofBytes
  congr 1
  · apply Vector.ext
    intro index inside
    have isElement := element index (by omega)
    rw [asBytes, getElem?_append_left (by simpa using inside),
      getElem?_eq_getElem (by simpa using inside)] at isElement
    rw [Vector.getElem_ofFn]
    exact Option.some.inj isElement
  · apply Vector.ext
    intro index inside
    have isElement := element (8 + index) (by omega)
    rw [asBytes, getElem?_append_right (by simp), Vector.length_toList,
      Nat.add_sub_cancel_left, getElem?_eq_getElem (by simpa using inside)] at isElement
    rw [Vector.getElem_ofFn]
    exact Option.some.inj isElement

theorem groupLoop_scopeText (skip : Nat) (last : UInt8) (inside : state.outputIndex < 16)
    (scopeId : UInt32) : groupLoop skip (some last) state (scopeText scopeId) =
      some (state, if scopeId > 0 then some (decimal scopeId.toNat) else none) := by
  unfold scopeText
  split
  · rw [groupLoop.eq_def]
    dsimp only
    rw [if_pos inside, if_neg (by decide), if_pos rfl]
  · rfl

theorem parse_text (reads : ReadsGroups skip text address.asBytes)
    (skips : Skips (text ++ scopeText address.scopeId) skip) (long : 2 ≤ text.length)
    (after : List UInt8) : parse (text ++ scopeText address.scopeId) after =
      if (text ++ scopeText address.scopeId).length ≤ 39 ∧ address.scopeId.toNat < 2 ^ 16 then
        some address else none := by
  obtain ⟨last, _, _, state, holds, split, continues⟩ := reads (scopeText address.scopeId)
  have lengths := congrArg length split
  simp only [asBytes, length_append, Vector.length_toList, length_cons, length_nil] at lengths
  have stored : state.store.toList = address.asBytes := by
    obtain ⟨count, isStored⟩ := holds.store (by omega)
    have storedLength := congrArg length isStored
    simp only [Vector.length_toList, length_append, length_replicate, length_cons,
      length_nil] at storedLength
    have none : count = 0 := by omega
    rw [isStored, split, none, replicate_zero, append_nil]
  rw [groupLoop_scopeText skip last (by rw [holds.output]; omega)] at continues
  obtain ⟨first, rest, isText, skipped⟩ := skips
  have enough : 2 ≤ (text ++ scopeText address.scopeId).length := by
    rw [length_append]
    omega
  rw [isText] at continues enough ⊢
  rw [parse, if_neg (by omega)]
  split
  · rw [if_neg (by omega)]
  · rw [skipped]
    dsimp only
    rw [Bool.not_true, if_neg Bool.false_ne_true, continues]
    by_cases scope : address.scopeId > 0
    · have pos : 0 < address.scopeId.toNat := UInt32.lt_iff_toNat_lt.mp scope
      have bound := address.scopeId.toNat_lt
      rw [if_pos scope]
      dsimp only
      rw [parse_decimal (by omega)]
      by_cases small : address.scopeId.toNat < 2 ^ 16
      · rw [if_neg (by unfold ushortMax; omega), if_pos ⟨by omega, small⟩]
        dsimp only
        rw [ofBytes_asBytes stored, UInt32.ofNat_toNat]
      · rw [if_pos (by unfold ushortMax; omega), if_neg fun both => small both.2]
    · have isZero : address.scopeId = 0 := by
        apply UInt32.toNat_inj.mp
        exact Nat.eq_zero_of_not_pos fun pos => scope (UInt32.lt_iff_toNat_lt.mpr pos)
      rw [if_neg scope, if_pos ⟨by omega, by rw [isZero]; decide⟩]
      dsimp only
      rw [ofBytes_asBytes stored, ← isZero]

/-! ## Collapsing -/

/-- The search of `collapseLoop` in terms of groups. -/
def bestSpan : Nat -> Nat × Nat -> List (UInt8 × UInt8) -> Nat × Nat
  | _, found, [] => found
  | i, found, group :: rest =>
    bestSpan (i + 1 + (groupText group.1 group.2).length)
      (if colonSpan (group :: rest) > found.2 then (i, colonSpan (group :: rest)) else found) rest

theorem spanLength_scopeText (scopeId : UInt32) :
    spanLength isZeroOrColon (scopeText scopeId) = 0 := by
  unfold scopeText
  split
  · exact spanLength_cons_of_neg _ (by decide)
  · rfl

theorem colonText_cons (group : UInt8 × UInt8) (list : List (UInt8 × UInt8)) (tail : List UInt8) :
    colonText (group :: list) ++ tail =
      ascii ':' :: (groupText group.1 group.2 ++ (colonText list ++ tail)) := by
  simp [colonText]

theorem spanLength_colonText (list : List (UInt8 × UInt8)) {tail : List UInt8}
    (stops : spanLength isZeroOrColon tail = 0) :
    spanLength isZeroOrColon (colonText list ++ tail) = colonSpan list := by
  induction list with
  | nil => exact stops
  | cons group _ ih =>
    rw [colonText_cons, spanLength_cons_of_pos _ (by decide), colonSpan]
    by_cases isZero : group = (0, 0)
    · rw [if_pos isZero, isZero, groupText_zero, singleton_append,
        spanLength_cons_of_pos _ (by decide), ih]
    · obtain ⟨_, _, isText, refused⟩ := groupText_head isZero
      rw [if_neg isZero, isText, cons_append, spanLength_cons_of_neg _ refused]

theorem collapseLoop_plain (plain : ∀ chr ∈ text, chr ≠ ascii ':') {i : Nat}
    (pos : i > 0) (found : Nat × Nat) (rest : List UInt8) :
    collapseLoop i found (text ++ rest) = collapseLoop (i + text.length) found rest := by
  induction text generalizing i with
  | nil => rfl
  | cons chr _ ih =>
    have later := ih (fun other mem => plain other (mem_cons_of_mem _ mem)) (Nat.succ_pos i)
    rw [cons_append, collapseLoop.eq_def]
    dsimp only
    rw [if_pos ⟨pos, plain chr mem_cons_self⟩, later, length_cons]
    congr 1
    omega

section

variable (list : List (UInt8 × UInt8))

theorem collapseLoop_colonText (scopeId : UInt32) {i : Nat} (pos : i > 0) (found : Nat × Nat) :
    collapseLoop i found (colonText list ++ scopeText scopeId) = bestSpan i found list := by
  induction list generalizing i found with
  | nil =>
    have plain := collapseLoop_plain (scopeText_plain scopeId) pos found []
    rw [append_nil] at plain
    exact plain
  | cons group list ih =>
    have span := spanLength_colonText (group :: list) (spanLength_scopeText scopeId)
    rw [colonText_cons] at span ⊢
    rw [collapseLoop.eq_def]
    dsimp only
    rw [if_neg (by simp), span,
      collapseLoop_plain (fun _ mem => (mem_groupText mem).1) (Nat.succ_pos i),
      ih (by omega)]
    rfl

/-- The search finds the longest stretch: what was found before, or the one that
starts at a colon. -/
theorem bestSpan_spec (i : Nat) (found : Nat × Nat) :
    (bestSpan i found list).2 = max found.2 (longestSpan list) ∧
      (bestSpan i found list = found ∨ ∃ before after, list = before ++ after ∧
        bestSpan i found list = (i + (colonText before).length, colonSpan after)) := by
  induction list generalizing i found with
  | nil => exact ⟨(Nat.max_zero _).symm, .inl rfl⟩
  | cons group list ih =>
    rw [bestSpan, longestSpan]
    obtain ⟨longest, place⟩ := ih (i + 1 + (groupText group.1 group.2).length)
      (if colonSpan (group :: list) > found.2 then (i, colonSpan (group :: list)) else found)
    refine ⟨?_, ?_⟩
    · rw [longest]
      split
      · rename_i better
        rw [← max_assoc, max_eq_right (Nat.le_of_lt better)]
      · rename_i notBetter
        rw [← max_assoc, max_eq_left (Nat.not_lt.mp notBetter)]
    · rcases place with kept | ⟨before, after, isSplit, isPlace⟩
      · rw [kept]
        split
        · exact .inr ⟨[], group :: list, rfl, rfl⟩
        · exact .inl rfl
      · refine .inr ⟨group :: before, after, by rw [isSplit, cons_append], ?_⟩
        rw [isPlace]
        simp only [colonText, flatMap_cons, length_append, length_cons]
        congr 1
        omega

/-- Behind the stretch of zeros stand the groups after it. -/
theorem drop_colonSpan (tail : List UInt8) :
    ∃ count last, list = List.replicate count (0, 0) ++ last ∧ colonSpan list ≤ 2 * count + 1 ∧
      (colonText list ++ tail).drop (colonSpan list) = joined last ++ tail := by
  induction list with
  | nil => exact ⟨0, [], rfl, by simp [colonSpan], rfl⟩
  | cons group list ih =>
    obtain ⟨count, last, isList, _, dropped⟩ := ih
    rw [colonSpan, colonText_cons]
    by_cases isZero : group = (0, 0)
    · refine ⟨count + 1, last, ?_, ?_, ?_⟩
      · rw [replicate_succ, cons_append, isZero, ← isList]
      · rw [if_pos isZero]
        omega
      · rw [if_pos isZero, isZero, groupText_zero]
        exact dropped
    · refine ⟨0, group :: list, rfl, ?_, ?_⟩
      · rw [if_neg isZero]
      · rw [if_neg isZero, joined, append_assoc]
        rfl

end

def startSpan (group : UInt8 × UInt8) (rest : List (UInt8 × UInt8)) : Nat :=
  if group = (0, 0) then colonSpan rest + 1 else 0

section

variable (group : UInt8 × UInt8) (rest : List (UInt8 × UInt8)) (scopeId : UInt32)

theorem spanLength_joined : spanLength isZeroOrColon (joined (group :: rest) ++ scopeText scopeId) =
      startSpan group rest := by
  rw [joined, append_assoc, startSpan]
  by_cases isZero : group = (0, 0)
  · rw [if_pos isZero, isZero, groupText_zero, singleton_append,
      spanLength_cons_of_pos _ (by decide), spanLength_colonText rest (spanLength_scopeText scopeId)]
  · obtain ⟨_, _, isText, refused⟩ := groupText_head isZero
    rw [if_neg isZero, isText, cons_append, spanLength_cons_of_neg _ refused]

theorem collapseLoop_joined : collapseLoop 0 (0, 2) (joined (group :: rest) ++ scopeText scopeId) =
      bestSpan (groupText group.1 group.2).length (0, max 2 (startSpan group rest)) rest := by
  have span := spanLength_joined group rest scopeId
  have found : (if startSpan group rest > 2 then (0, startSpan group rest) else (0, 2)) =
      (0, max 2 (startSpan group rest)) := by
    split
    · rename_i longer
      rw [max_eq_right (Nat.le_of_lt longer)]
    · rename_i notLonger
      rw [max_eq_left (Nat.not_lt.mp notLonger)]
  rw [joined, append_assoc] at span ⊢
  cases isText : groupText group.1 group.2 with
  | nil => simp [groupText] at isText
  | cons digit digits =>
    have plain : ∀ chr ∈ digits, chr ≠ ascii ':' := fun _ mem =>
      (mem_groupText (isText ▸ mem_cons_of_mem digit mem)).1
    rw [isText, cons_append] at span
    rw [cons_append, collapseLoop.eq_def]
    dsimp only
    rw [if_neg (by simp), span, found, collapseLoop_plain plain (by decide),
      collapseLoop_colonText rest scopeId (by omega), length_cons, Nat.add_comm]

/-- What the last part of `format` makes of the groups. -/
theorem collapsed_cases : (collapsed (joined (group :: rest) ++ scopeText scopeId)).length =
        (joined (group :: rest) ++ scopeText scopeId).length - savedCharacters (group :: rest) ∧
      (collapsed (joined (group :: rest) ++ scopeText scopeId) =
          joined (group :: rest) ++ scopeText scopeId ∨
        ∃ first count last, group :: rest = first ++ List.replicate count (0, 0) ++ last ∧
          0 < count ∧ collapsed (joined (group :: rest) ++ scopeText scopeId) =
            joined first ++ [ascii ':', ascii ':'] ++ joined last ++ scopeText scopeId) := by
  obtain ⟨longest, place⟩ := bestSpan_spec rest (groupText group.1 group.2).length
    (0, max 2 (startSpan group rest))
  have saved : savedCharacters (group :: rest) =
    max (startSpan group rest) (longestSpan rest) - 2 := rfl
  unfold collapsed
  rw [collapseLoop_joined, saved]
  generalize bestSpan (groupText group.1 group.2).length
    (0, max 2 (startSpan group rest)) rest = found at longest place
  obtain ⟨best, maximum⟩ := found
  dsimp only at longest ⊢
  split
  · have savedEq : max (startSpan group rest) (longestSpan rest) - 2 = maximum - 2 := by omega
    rw [savedEq]
    rcases place with kept | ⟨before, after, isSplit, isPlace⟩
    · -- The stretch starts with the first group, which is zero.
      have isBest : best = 0 := congrArg Prod.fst kept
      have isMaximum : maximum = startSpan group rest := by
        have isMax : maximum = max 2 (startSpan group rest) := congrArg Prod.snd kept
        omega
      have inside := spanLength_le isZeroOrColon (joined (group :: rest) ++ scopeText scopeId)
      rw [spanLength_joined, ← isMaximum] at inside
      have isZero : group = (0, 0) := by
        by_contra ne
        rw [startSpan, if_neg ne] at isMaximum
        omega
      obtain ⟨count, last, isRest, _, dropped⟩ := drop_colonSpan rest (scopeText scopeId)
      rw [isBest, Nat.zero_add]
      refine ⟨?_, .inr ⟨[], count + 1, last, ?_, Nat.succ_pos _, ?_⟩⟩
      · simp only [take_zero, nil_append, length_append, length_cons,
          length_nil, length_drop] at inside ⊢
        omega
      · rw [nil_append, replicate_succ, cons_append, isZero, ← isRest]
      · have opened : joined (group :: rest) ++ scopeText scopeId =
            ascii '0' :: (colonText rest ++ scopeText scopeId) := by
          rw [isZero, joined, groupText_zero]
          rfl
        rw [isMaximum, startSpan, if_pos isZero, opened, drop_succ_cons, dropped]
        simp [joined]
    · have isBest : best = (groupText group.1 group.2).length + (colonText before).length :=
        congrArg Prod.fst isPlace
      have isMaximum : maximum = colonSpan after := congrArg Prod.snd isPlace
      have opened : joined (group :: rest) ++ scopeText scopeId =
          joined (group :: before) ++ (colonText after ++ scopeText scopeId) := by
        rw [isSplit]
        simp [joined, colonText]
      have width : (joined (group :: before)).length = best := by rw [isBest, joined, length_append]
      have inside := spanLength_le isZeroOrColon (colonText after ++ scopeText scopeId)
      rw [spanLength_colonText after (spanLength_scopeText scopeId), ← isMaximum] at inside
      obtain ⟨count, last, isAfter, _, dropped⟩ := drop_colonSpan after (scopeText scopeId)
      have taken : (joined (group :: rest) ++ scopeText scopeId).take best =
          joined (group :: before) := by rw [opened, ← width, take_left]
      have behind : (joined (group :: rest) ++ scopeText scopeId).drop (best + maximum) =
          joined last ++ scopeText scopeId := by
        rw [opened, ← width, ← drop_drop, drop_left, isMaximum, dropped]
      rw [taken, behind]
      refine ⟨?_, .inr ⟨group :: before, count, last, ?_, by omega, ?_⟩⟩
      · have lengths := congrArg length behind
        rw [length_drop, opened, length_append] at lengths
        rw [opened]
        simp only [length_append, length_cons, length_nil] at lengths inside width ⊢
        omega
      · rw [isSplit, isAfter, cons_append, cons_append, append_assoc]
      · simp
  · refine ⟨?_, .inl rfl⟩
    omega

end

/-! ## The round trip -/

theorem groupsText_eq : ∀ bytes : List UInt8, bytes.length % 2 = 0 ->
    groupsText bytes = joined (groups bytes)
  | [], _ => rfl
  | [_], odd => by simp at odd
  | v1 :: v2 :: rest, even => by
    have later := groupsText_eq rest (by simp only [length_cons] at even; omega)
    rw [groupsText, groups, joined]
    cases rest with
    | nil => rfl
    | cons _ rest =>
      cases rest with
      | nil => simp at even
      | cons =>
        rw [if_neg (cons_ne_nil _ _), later]
        simp [groups, joined, colonText]

theorem bytesOf_groups : ∀ bytes : List UInt8, bytes.length % 2 = 0 -> bytesOf (groups bytes) = bytes
  | [], _ => rfl
  | [_], odd => by simp at odd
  | v1 :: v2 :: rest, even => by
    have later := bytesOf_groups rest (by simp only [length_cons] at even; omega)
    unfold bytesOf at later ⊢
    rw [groups, flatMap_cons, later]
    rfl

theorem joined_length (group : UInt8 × UInt8) (rest : List (UInt8 × UInt8)) :
    (joined (group :: rest)).length = ((group :: rest).map groupWidth).sum + rest.length := by
  have colons : ∀ list, (colonText list).length = (list.map groupWidth).sum + list.length := by
    intro list
    induction list with
    | nil => rfl
    | cons group list ih =>
      have unfolded : (colonText (group :: list)).length =
          1 + (groupText group.1 group.2).length + (colonText list).length := by
        simp [colonText]
        omega
      rw [unfolded, groupText_length, ih, map_cons, sum_cons, length_cons]
      omega
  rw [joined, length_append, groupText_length, colons, map_cons, sum_cons]
  omega

variable {scopeId : UInt32}

theorem eq_zero_of_not_positive (absent : ¬ scopeId > 0) : scopeId = 0 := by
  apply UInt32.toNat_inj.mp
  exact Nat.eq_zero_of_not_pos fun pos => absent (UInt32.lt_iff_toNat_lt.mpr pos)

theorem scopeText_zero : scopeText 0 = [] := by
  decide

theorem scopeText_length (ne : scopeId ≠ 0) :
    (scopeText scopeId).length = 1 + (Nat.log 10 scopeId.toNat + 1) := by
  unfold scopeText
  split
  · rw [length_cons, decimal_length]
    omega
  · rename_i absent
    exact absurd (eq_zero_of_not_positive absent) ne

theorem groupWidth_le (group : UInt8 × UInt8) : groupWidth group ≤ 4 := by
  have bound1 := group.1.toNat_lt
  have bound2 := group.2.toNat_lt
  have bound : Nat.log 16 (groupNumber group) < 4 := by
    apply Nat.log_lt_of_lt_pow' (by decide)
    unfold groupNumber
    omega
  unfold groupWidth
  omega

theorem groups_length : ∀ bytes : List UInt8, (groups bytes).length = bytes.length / 2
  | [] => rfl
  | [_] => by simp [groups]
  | v1 :: v2 :: rest => by
    rw [groups, length_cons, groups_length rest, length_cons, length_cons]
    omega

/-- An address has eight groups, of which its text is made. -/
theorem groups_asBytes (address : Ipv6Address) :
    ∃ group rest, groups address.asBytes = group :: rest ∧ rest.length = 7 ∧
      bytesOf (group :: rest) = address.asBytes ∧
      groupsText address.asBytes = joined (group :: rest) := by
  have size : address.asBytes.length = 16 := by simp [asBytes]
  have count := groups_length address.asBytes
  have bytes := bytesOf_groups address.asBytes (by rw [size])
  have text := groupsText_eq address.asBytes (by rw [size])
  cases isGroups : groups address.asBytes with
  | nil =>
    rw [isGroups, size] at count
    contradiction
  | cons group rest =>
    rw [isGroups] at count bytes text
    rw [length_cons] at count
    exact ⟨group, rest, rfl, by omega, bytes, text⟩

theorem groupWidths_le (address : Ipv6Address) :
    ((groups address.asBytes).map groupWidth).sum ≤ 32 := by
  obtain ⟨group, rest, isGroups, count, _, _⟩ := groups_asBytes address
  have bound := sum_le_card_nsmul ((group :: rest).map groupWidth) 4 (by
    intro _ mem
    obtain ⟨other, _, isWidth⟩ := mem_map.mp mem
    exact isWidth ▸ groupWidth_le other)
  rw [length_map, length_cons, count] at bound
  rw [isGroups]
  exact bound

variable {capacity : Nat}

section

variable (address : Ipv6Address) (enough : maxTextLength + 1 ≤ capacity) (collapse : Bool)
include enough

theorem format_length : (address.format capacity collapse).length =
      ((groups address.asBytes).map groupWidth).sum + 7 + (scopeText address.scopeId).length -
        (if collapse then savedCharacters (groups address.asBytes) else 0) := by
  obtain ⟨group, rest, isGroups, count, _, isText⟩ := groups_asBytes address
  have width := joined_length group rest
  rw [count] at width
  rw [format, if_neg (Nat.not_lt.mpr enough), isText, isGroups]
  cases collapse with
  | false => simp only [Bool.false_eq_true, if_false, length_append, width, Nat.sub_zero]
  | true =>
    simp only [if_true, (collapsed_cases group rest address.scopeId).1, length_append, width]

/-- The text of an address is read back exactly when there is room for it. -/
theorem parse_format (after : List UInt8) : parse (address.format capacity collapse) after =
      if (address.format capacity collapse).length ≤ 39 ∧ address.scopeId.toNat < 2 ^ 16 then
        some address else none := by
  obtain ⟨group, rest, _, count, isBytes, isText⟩ := groups_asBytes address
  have all : (group :: rest).length = 8 := by rw [length_cons, count]
  -- Without collapsing, or when there is nothing to collapse.
  have plain := parse_text (isBytes ▸ reads_joined 0 all) (skips_joined all address.scopeId)
    (by rw [joined_length, count]; omega) after
  rw [format, if_neg (Nat.not_lt.mpr enough), isText]
  cases collapse with
  | false => exact plain
  | true =>
    rw [if_pos rfl]
    rcases (collapsed_cases group rest address.scopeId).2 with same |
      ⟨first, zeros, last, isSplit, pos, isCollapsed⟩
    · rw [same]
      exact plain
    · have lengths := congrArg length isSplit
      simp only [length_append, length_replicate, all] at lengths
      have reads := reads_collapsed first last lengths.symm pos
      rw [← isSplit, isBytes] at reads
      rw [isCollapsed]
      refine parse_text reads (skips_collapsed first last address.scopeId) ?_ after
      simp only [length_append, length_cons, length_nil]
      omega

end

theorem equals_iff_eq (address other : Ipv6Address) :
    address.equals other = true ↔ address = other := by
  have same : ∀ left right : Vector UInt8 8, Bytes.loadLittleEndian left.toList =
      Bytes.loadLittleEndian right.toList ↔ left = right := by
    intro _ _
    rw [Bytes.loadLittleEndian_inj (by simp)]
    exact Vector.toList_inj
  unfold equals
  rw [Bool.and_eq_true, Bool.and_eq_true, beq_iff_eq, beq_iff_eq, beq_iff_eq, same, same]
  constructor
  · rintro ⟨⟨first, second⟩, scope⟩
    cases address
    cases other
    cases first
    cases second
    cases scope
    rfl
  · intro isSame
    rw [isSame]
    exact ⟨⟨rfl, rfl⟩, rfl⟩

theorem readable_iff (address : Ipv6Address) (enough : maxTextLength + 1 ≤ capacity)
    (collapse : Bool) : address.Readable collapse ↔
      (address.format capacity collapse).length ≤ 39 ∧ address.scopeId.toNat < 2 ^ 16 := by
  rw [format_length address enough]
  by_cases absent : address.scopeId = 0
  · have widths := groupWidths_le address
    apply iff_of_true (.inl absent)
    rw [absent, scopeText_zero, length_nil]
    refine ⟨?_, by decide⟩
    omega
  · rw [scopeText_length absent]
    constructor
    · rintro (isZero | ⟨small, fits⟩)
      · contradiction
      · exact ⟨fits, small⟩
    · exact fun both => .inr ⟨both.2, both.1⟩

/-- The text that `format` writes is parsed to an equal address if and only if the
scope is zero, or has at most 16 bits and leaves the text at most 39 characters. -/
theorem format_round_trips_iff (address : Ipv6Address) (capacity : Nat)
    (enough : maxTextLength + 1 ≤ capacity) (collapse : Bool) (after : List UInt8) :
    (∃ parsed, parse (address.format capacity collapse) after = some parsed ∧
      parsed.equals address = true) ↔ address.Readable collapse := by
  rw [readable_iff address enough, parse_format address enough]
  split
  · rename_i readable
    exact iff_of_true ⟨address, rfl, (equals_iff_eq _ _).mpr rfl⟩ readable
  · rename_i unreadable
    refine iff_of_false ?_ unreadable
    rintro ⟨_, _, _⟩
    contradiction

def linkLocal : Ipv6Address :=
  ⟨#v[0xFE, 0x80, 0, 0, 0, 0, 0, 0], #v[0, 0, 0, 0, 0, 0, 0, 2], 12⟩

theorem linkLocal_round_trips : ∃ parsed,
    parse (linkLocal.format 44 true) [] = some parsed ∧ parsed.equals linkLocal = true :=
  (format_round_trips_iff linkLocal 44 (by decide) true []).mpr (by decide)

def longest : Ipv6Address :=
  ⟨Vector.replicate 8 0x11, Vector.replicate 8 0x11, 1⟩

/-- They leave no room for a scope. -/
theorem scoped_address_unreadable : ¬ ∃ parsed, parse (longest.format 44 false) [] = some parsed ∧
      parsed.equals longest = true := by
  rintro ⟨_, isParsed, _⟩
  have unreadable : parse (longest.format 44 false) [] = none := by decide
  rw [unreadable] at isParsed
  contradiction

end NtfCore.Ntsa.Ipv6Address
