import NtfCore.Ntsa.Ipv6Address
import Mathlib.Data.List.TakeWhile

/-!
Contract: which bytes of its value the parser of IPv6 addresses writes, and which characters of
the text it reads.

The last group is stored where the loop over the groups ends, which may be behind the value. The
parser of the scope reads one character after each digit, also after the last one.

Owns: the accesses of both parsers, and the texts for which all of them are within bounds.
-/

namespace NtfCore.Ntsa

open NtfCore.Foundation.Text List

structure Accesses where
  writes : List Nat := []
  reads : List Nat := []

namespace Accesses

def append (first second : Accesses) : Accesses where
  writes := first.writes ++ second.writes
  reads := first.reads ++ second.reads

structure Within (accesses : Accesses) (size : Nat) : Prop where
  writes : ∀ index ∈ accesses.writes, index < 16
  reads : ∀ position ∈ accesses.reads, position < size

theorem within_nothing (size : Nat) : Within {} size where
  writes := by simp
  reads := by simp

theorem append_within_iff {first second : Accesses} {size : Nat} :
    (first.append second).Within size ↔ first.Within size ∧ second.Within size := by
  constructor
  · intro within
    exact ⟨⟨fun index mem => within.writes index (mem_append_left _ mem),
        fun pos mem => within.reads pos (mem_append_left _ mem)⟩,
      ⟨fun index mem => within.writes index (mem_append_right _ mem),
        fun pos mem => within.reads pos (mem_append_right _ mem)⟩⟩
  · rintro ⟨withinFirst, withinSecond⟩
    constructor
    case writes =>
      intro index mem
      exact (mem_append.mp mem).elim (withinFirst.writes index) (withinSecond.writes index)
    case reads =>
      intro pos mem
      exact (mem_append.mp mem).elim (withinFirst.reads pos) (withinSecond.reads pos)

end Accesses

/-! ## Scope identifiers -/

namespace Ipv6ScopeIdUtil

/-- The number of characters that `parse` has read when its loop over the digits ends. -/
def digitExtent (e : Nat) : Nat -> UInt8 -> List UInt8 -> Nat
  | p, c, [] => if p = e then p else if !isDigit c then p else p + 1
  | p, c, next :: rest =>
    if p = e then p else if !isDigit c then p else digitExtent e (p + 1) next rest

/-- The number of characters that `parse` reads. -/
def extent (source : List UInt8) (size : Nat) : Nat :=
  match source with
  | [] => 1
  | first :: rest =>
    if first = 0 then 1
    else
      let (position, c, rest) := skipSpaces 1 first rest
      if c = ascii '-' then position
      else
        let (position, c, rest) :=
          if c = ascii '+' then (position + 1, rest.headD 0, rest.tail) else (position, c, rest)
        digitExtent (size + 1) position c rest

def Numeric (scope : List UInt8) : Prop :=
  ∀ chr ∈ (match scope.dropWhile isSpace with
    | [] => []
    | chr :: rest => if chr = ascii '+' then rest else chr :: rest), isDigit chr = true

theorem digitExtent_self (e : Nat) (chr : UInt8) (rest : List UInt8) :
    digitExtent e e chr rest = e := by
  cases rest with
  | nil | cons _ _ => exact if_pos rfl

variable {chr : UInt8}

theorem digitExtent_of_not_digit (notDigit : ¬ isDigit chr = true)
    (e pos : Nat) (rest : List UInt8) : digitExtent e pos chr rest = pos := by
  have refused : (!isDigit chr) = true := by simpa using notDigit
  cases rest with
  | nil | cons _ _ =>
    unfold digitExtent
    rw [if_pos refused, ite_self]

theorem le_digitExtent (e pos : Nat) (chr : UInt8) (rest : List UInt8) :
    pos ≤ digitExtent e pos chr rest := by
  induction rest generalizing pos chr with
  | nil =>
    unfold digitExtent
    split_ifs
    · exact le_refl pos
    · exact le_refl pos
    · exact Nat.le_succ pos
  | cons next _ ih =>
    unfold digitExtent
    split_ifs
    · exact le_refl pos
    · exact le_refl pos
    · exact le_trans (Nat.le_succ pos) (ih (pos + 1) next)

/-- A digit at the end is read with one more character behind it. -/
theorem digitExtent_last {size : Nat} (digit : isDigit chr = true)
    (after : List UInt8) : digitExtent (size + 1) size chr after = size + 1 := by
  have accepted : ¬ (!isDigit chr) = true := by simp [digit]
  cases after with
  | nil =>
    unfold digitExtent
    rw [if_neg (Nat.lt_succ_self size).ne, if_neg accepted]
  | cons next rest =>
    unfold digitExtent
    rw [if_neg (Nat.lt_succ_self size).ne, if_neg accepted]
    exact digitExtent_self (size + 1) next rest

/-- Digits are read with one more character behind them, and the loop ends at another
character. -/
theorem digitExtent_le_iff {pos size : Nat} {digits : List UInt8}
    (after : List UInt8) (isSize : pos + digits.length = size) :
    digitExtent (size + 1) pos chr (digits ++ after) ≤ size ↔
      ¬ ∀ other ∈ chr :: digits, isDigit other = true := by
  by_cases digit : isDigit chr = true
  · induction digits generalizing pos chr with
    | nil =>
      rw [← isSize, length_nil, Nat.add_zero, nil_append, digitExtent_last digit]
      simp [digit]
    | cons next _ ih =>
      rw [length_cons] at isSize
      rw [cons_append]
      unfold digitExtent
      rw [if_neg (by omega), if_neg (by simp [digit])]
      by_cases nextDigit : isDigit next = true
      · rw [ih (by omega) nextDigit]
        simp [digit]
      · rw [digitExtent_of_not_digit nextDigit]
        simp only [forall_mem_cons, nextDigit, Bool.false_eq_true, false_and, and_false,
          not_false_eq_true, iff_true]
        omega
  · rw [digitExtent_of_not_digit digit]
    simp only [forall_mem_cons, digit, Bool.false_eq_true, false_and, not_false_eq_true, iff_true]
    omega

theorem le_skipSpaces (pos : Nat) (chr : UInt8) (rest : List UInt8) :
    pos ≤ (skipSpaces pos chr rest).1 := by
  induction rest generalizing pos chr with
  | nil =>
    unfold skipSpaces
    split
    · exact Nat.le_succ pos
    · exact le_refl pos
  | cons next _ ih =>
    unfold skipSpaces
    split
    · exact le_trans (Nat.le_succ pos) (ih (pos + 1) next)
    · exact le_refl pos

theorem skipSpaces_of_not_blank (notBlank : ¬ isSpace chr = true) (pos : Nat)
    (rest : List UInt8) : skipSpaces pos chr rest = (pos, chr, rest) := by
  cases rest with
  | nil | cons _ _ => exact if_neg notBlank

variable {rest : List UInt8}

/-- Blanks are read with the character behind them. -/
theorem skipSpaces_blank (pos : Nat) (after : List UInt8)
    (blank : (chr :: rest).dropWhile isSpace = []) :
    pos + rest.length < (skipSpaces pos chr (rest ++ after)).1 := by
  have isBlank : isSpace chr = true := by
    by_contra notBlank
    rw [dropWhile_cons_of_neg notBlank] at blank
    exact absurd blank (cons_ne_nil _ _)
  induction rest generalizing pos chr with
  | nil =>
    cases after with
    | nil =>
      unfold skipSpaces
      simp [isBlank]
    | cons next rest =>
      rw [nil_append]
      unfold skipSpaces
      rw [if_pos isBlank]
      exact le_skipSpaces (pos + 1) next rest
  | cons next _ ih =>
    rw [dropWhile_cons_of_pos isBlank] at blank
    have nextBlank : isSpace next = true := by
      by_contra notBlank
      rw [dropWhile_cons_of_neg notBlank] at blank
      exact absurd blank (cons_ne_nil _ _)
    have following := ih (pos + 1) blank nextBlank
    rw [cons_append]
    unfold skipSpaces
    rw [if_pos isBlank, length_cons]
    omega

theorem skipSpaces_other (pos : Nat) {other : UInt8} {tail : List UInt8}
    (after : List UInt8) (isOther : (chr :: rest).dropWhile isSpace = other :: tail) :
    ∃ blanks, rest.length = blanks + tail.length ∧
      skipSpaces pos chr (rest ++ after) = (pos + blanks, other, tail ++ after) := by
  induction rest generalizing pos chr with
  | nil =>
    have notBlank : ¬ isSpace chr = true := by
      intro isBlank
      rw [dropWhile_cons_of_pos isBlank] at isOther
      exact absurd isOther (cons_ne_nil _ _).symm
    rw [dropWhile_cons_of_neg notBlank] at isOther
    cases isOther
    exact ⟨0, rfl, skipSpaces_of_not_blank notBlank pos after⟩
  | cons _ _ ih =>
    by_cases isBlank : isSpace chr = true
    · rw [dropWhile_cons_of_pos isBlank] at isOther
      obtain ⟨blanks, _, isSkipped⟩ := ih (pos + 1) isOther
      refine ⟨blanks + 1, ?_, ?_⟩
      · rw [length_cons]
        omega
      · rw [cons_append]
        unfold skipSpaces
        rw [if_pos isBlank, isSkipped, Nat.add_right_comm]
        rfl
    · rw [dropWhile_cons_of_neg isBlank] at isOther
      cases isOther
      exact ⟨0, (Nat.zero_add _).symm, skipSpaces_of_not_blank isBlank pos _⟩

theorem skipSpaces_le_extent {first : UInt8} (notNull : first ≠ 0) (rest : List UInt8)
    (size : Nat) : (skipSpaces 1 first rest).1 ≤ extent (first :: rest) size := by
  unfold extent
  dsimp only
  rw [if_neg notNull]
  split_ifs
  · exact le_refl _
  · exact le_trans (Nat.le_succ _) (le_digitExtent _ _ _ _)
  · exact le_digitExtent _ _ _ _

theorem one_le_extent (source : List UInt8) (size : Nat) : 1 ≤ extent source size := by
  cases source with
  | nil => exact le_refl 1
  | cons first rest =>
    by_cases isNull : first = 0
    · exact (if_pos isNull).ge
    · exact le_trans (le_skipSpaces 1 first rest) (skipSpaces_le_extent isNull rest size)

theorem numeric_cons {scope : List UInt8} (isOther : scope.dropWhile isSpace = chr :: rest) :
    Numeric scope ↔
      ∀ other ∈ (if chr = ascii '+' then rest else chr :: rest), isDigit other = true := by
  unfold Numeric
  rw [isOther]

/-- No character behind the scope is read if and only if the scope is not numeric. -/
theorem extent_le_iff (scope after : List UInt8) :
    extent (scope ++ after) scope.length ≤ scope.length ↔ ¬ Numeric scope := by
  cases scope with
  | nil =>
    have numeric : Numeric [] := forall_mem_nil _
    have behind := one_le_extent ([] ++ after) 0
    rw [length_nil]
    simp only [numeric, not_true_eq_false, iff_false]
    omega
  | cons first rest =>
    by_cases isNull : first = 0
    · have isOther : (first :: rest).dropWhile isSpace = first :: rest := by
        rw [isNull]
        exact dropWhile_cons_of_neg (by decide)
      have one : extent (first :: rest ++ after) (first :: rest).length = 1 := if_pos isNull
      rw [one, numeric_cons isOther, isNull, if_neg (by decide), forall_mem_cons]
      simp [show isDigit 0 = false from by decide]
    · cases dropped : (first :: rest).dropWhile isSpace with
      | nil =>
        have numeric : Numeric (first :: rest) := by
          unfold Numeric
          rw [dropped]
          exact by simp
        have behind := skipSpaces_blank 1 after dropped
        have read := skipSpaces_le_extent isNull (rest ++ after) (first :: rest).length
        rw [cons_append, length_cons] at *
        simp only [numeric, not_true_eq_false, iff_false]
        omega
      | cons chr tail =>
        obtain ⟨blanks, isLength, isSkipped⟩ := skipSpaces_other 1 after dropped
        rw [numeric_cons dropped, cons_append]
        unfold extent
        dsimp only
        rw [if_neg isNull, isSkipped, length_cons, isLength]
        by_cases minus : chr = ascii '-'
        · have notDigit : isDigit (ascii '-') = false := by decide
          rw [if_pos minus, minus, if_neg (by decide), forall_mem_cons]
          simp only [notDigit, Bool.false_eq_true, false_and, not_false_eq_true, iff_true]
          omega
        · rw [if_neg minus]
          by_cases plus : chr = ascii '+'
          · rw [if_pos plus, if_pos plus]
            cases tail with
            | nil =>
              have behind := le_digitExtent (blanks + 0 + 1 + 1) (1 + blanks + 1)
                (after.headD 0) after.tail
              have numeric : ∀ other ∈ ([] : List UInt8), isDigit other = true := by simp
              rw [length_nil, nil_append]
              refine iff_of_false ?_ (not_not_intro numeric)
              dsimp only
              omega
            | cons digit digits =>
              have isSize : 1 + blanks + 1 + digits.length =
                  blanks + (digit :: digits).length + 1 := by
                rw [length_cons]
                omega
              exact digitExtent_le_iff after isSize
          · rw [if_neg plus, if_neg plus]
            exact digitExtent_le_iff after (by omega)

end Ipv6ScopeIdUtil

namespace Ipv6Address

/-! ## Colons -/

def colonMarks : Option UInt8 -> List UInt8 -> List Bool
  | _, [] => []
  | previous, chr :: rest =>
    if chr = ascii ':' then decide (previous = some (ascii ':')) :: colonMarks (some chr) rest
    else colonMarks (some chr) rest

def leading : List Bool -> Nat
  | [] => 0
  | true :: _ => 0
  | false :: rest => leading rest + 1

def following : List Bool -> List Nat
  | [] => []
  | true :: rest => leading rest :: following rest
  | false :: rest => following rest

def skipped : Nat -> List Bool -> Nat
  | skipIndex, [] => skipIndex
  | _, true :: rest => skipped 14 rest
  | skipIndex, false :: rest => skipped (skipIndex - 2) rest

def Overruns (skipIndex : Nat) : Nat -> List Bool -> Prop
  | outputIndex, [] => 16 ≤ outputIndex
  | outputIndex, mark :: rest => 16 ≤ outputIndex ∨
      Overruns skipIndex (if skipIndex > 0 ∧ mark = true then skipIndex else outputIndex + 2) rest

theorem skipLoop_eq (prev : UInt8) (colonFound : Bool) (skipIndex : Nat) (text : List UInt8) :
    skipLoop prev (colonFound, skipIndex) text = (colonFound || decide (ascii ':' ∈ text),
        skipped skipIndex (colonMarks (some prev) text)) := by
  induction text generalizing prev colonFound skipIndex with
  | nil => simp [skipLoop, skipped, colonMarks]
  | cons chr rest ih =>
    unfold skipLoop colonMarks
    by_cases isColon : chr = ascii ':'
    · have isSkipped : skipped (if prev = ascii ':' then 14
          else if skipIndex > 0 then skipIndex - 2 else skipIndex) (colonMarks (some chr) rest) =
          skipped skipIndex (decide (some prev = some (ascii ':')) ::
            colonMarks (some chr) rest) := by
        by_cases double : prev = ascii ':'
        · simp [double, skipped]
        · have single : (if skipIndex > 0 then skipIndex - 2 else skipIndex) = skipIndex - 2 := by
            split
            · rfl
            · omega
          simp [double, skipped, single]
      rw [if_pos isColon, if_pos isColon, ih, isSkipped]
      simp [isColon]
    · rw [if_neg isColon, if_neg isColon, ih]
      have notSame : ascii ':' ≠ chr := fun same => isColon same.symm
      simp [notSame]

theorem skipped_eq (skipIndex : Nat) (marks : List Bool) :
    skipped skipIndex marks = match (following marks).getLast? with
      | none => skipIndex - 2 * leading marks
      | some last => 14 - 2 * last := by
  induction marks generalizing skipIndex with
  | nil => rfl
  | cons mark rest ih =>
    cases mark with
    | true =>
      unfold skipped following
      rw [ih, getLast?_cons]
      cases (following rest).getLast? with
      | none | some last => rfl
    | false =>
      unfold skipped following
      rw [ih]
      cases (following rest).getLast? with
      | none =>
        simp only [leading]
        omega
      | some => rfl

/-- Without a byte to go back to, every colon moves on. -/
theorem overruns_zero_iff (outputIndex : Nat) (marks : List Bool) :
    Overruns 0 outputIndex marks ↔ 16 ≤ outputIndex + 2 * marks.length := by
  induction marks generalizing outputIndex with
  | nil => exact Iff.rfl
  | cons _ _ ih =>
    unfold Overruns
    rw [if_neg (by simp), ih, length_cons]
    omega

variable {skipIndex : Nat}

theorem overruns_iff (pos : 0 < skipIndex) (outputIndex : Nat) (marks : List Bool) :
    Overruns skipIndex outputIndex marks ↔ 16 ≤ outputIndex + 2 * leading marks ∨
      ∃ count ∈ following marks, 16 ≤ skipIndex + 2 * count := by
  induction marks generalizing outputIndex with
  | nil => simp [Overruns, leading, following]
  | cons mark _ ih =>
    unfold Overruns
    cases mark with
    | true =>
      rw [if_pos ⟨pos, rfl⟩, ih]
      simp [leading, following]
    | false =>
      rw [if_neg (by simp), ih]
      simp only [leading, following]
      rw [← or_assoc]
      apply or_congr_left
      omega

/-- The groups of a text do not go on behind the last byte: there are at most seven colons
before the first double colon, and not more after another one than after the last one of the
whole text; or at most seven colons, when there is no double colon or the last one has too many
colons after it. -/
def Roomy (all here : List Bool) : Prop :=
  match (following all).getLast? with
  | none => here.length < 8
  | some last =>
    if last < 7 then leading here < 8 ∧ ∀ count ∈ following here, count ≤ last
    else here.length < 8

theorem length_lt_iff (zero : skipIndex = 0) (marks : List Bool) :
    marks.length < 8 ↔ ¬ Overruns skipIndex 0 marks := by
  rw [zero, overruns_zero_iff]
  omega

/-- The groups after a double colon fit if and only if no more follow than follow the last one. -/
theorem fits_iff {last : Nat} (isSkip : skipIndex = 14 - 2 * last) (short : last < 7)
    (count : Nat) : 0 < skipIndex ∧ (count ≤ last ↔ ¬ 16 ≤ skipIndex + 2 * count) := by
  omega

theorem roomy_iff (all here : List Bool) : Roomy all here ↔ ¬ Overruns (skipped 0 all) 0 here := by
  have isSkipped := skipped_eq 0 all
  unfold Roomy
  cases isLast : (following all).getLast? with
  | none =>
    rw [isLast] at isSkipped
    exact length_lt_iff (isSkipped.trans (Nat.zero_sub _)) here
  | some last =>
    rw [isLast] at isSkipped
    dsimp only
    by_cases short : last < 7
    · rw [if_pos short, overruns_iff (fits_iff isSkipped short 0).1]
      push Not
      apply and_congr
      · omega
      · apply forall₂_congr
        intro count _
        exact (fits_iff isSkipped short count).2.trans Nat.not_le
    · have zero : 14 - 2 * last = 0 := Nat.sub_eq_zero_of_le (by omega)
      rw [if_neg short]
      exact length_lt_iff (isSkipped.trans zero) here

/-! ## Groups -/

def isGroupChar (chr : UInt8) : Bool := chr == ascii ':' || (hexValue chr).isSome

def groupPart (text : List UInt8) : List UInt8 := text.takeWhile isGroupChar

/-- What the first loop of `parse` reads. -/
def skipAccesses : Nat -> List UInt8 -> Accesses
  | _, [] => {}
  | i, chr :: rest =>
    (Accesses.mk [] (if chr = ascii ':' then [i, i - 1] else [i])).append
      (skipAccesses (i + 1) rest)

def storeAccesses (outputIndex : Nat) : Accesses where
  writes := [outputIndex, outputIndex + 1]

/-- What the second loop of `parse` writes and reads. -/
def groupAccesses (skipIndex : Nat) : Nat -> Option UInt8 -> Nat -> List UInt8 -> Accesses
  | _, _, _, [] => {}
  | i, previous, outputIndex, chr :: rest =>
    if outputIndex < 16 then
      if chr = ascii ':' then
        ((storeAccesses outputIndex).append
            { reads := if skipIndex > 0 ∧ i > 0 then [i, i - 1] else [i] }).append
          (groupAccesses skipIndex (i + 1) (some chr)
            (if skipIndex > 0 ∧ previous = some (ascii ':') then skipIndex
              else outputIndex + 2) rest)
      else if chr = ascii '%' then { reads := [i] }
      else
        match hexValue chr with
        | none => { reads := [i] }
        | some _ => Accesses.append { reads := [i] }
            (groupAccesses skipIndex (i + 1) (some chr) outputIndex rest)
    else {}

/-- What `parse` writes and reads after its loops. -/
def endAccesses (size : Nat) (after : List UInt8) :
    Option (ParseState × Option (List UInt8)) -> Accesses
  | none => {}
  | some (state, none) => storeAccesses state.outputIndex
  | some (state, some scope) => (storeAccesses state.outputIndex).append {
      reads := List.range' (size - scope.length)
        (Ipv6ScopeIdUtil.extent (scope ++ after) scope.length) }

/-- What `parse` writes and reads. -/
def accesses (text after : List UInt8) : Accesses :=
  match text with
  | [] => {}
  | first :: rest =>
    if text.length < 2 then {}
    else if text.length > 39 then {}
    else
      let (colonFound, skipIndex) := skipLoop first (false, 0) rest
      (skipAccesses 1 rest).append <|
        if !colonFound then {}
        else (groupAccesses skipIndex 0 none 0 text).append
          (endAccesses text.length after (groupLoop skipIndex none {} text))

theorem skipped_even (even : skipIndex % 2 = 0) (marks : List Bool) :
    skipped skipIndex marks % 2 = 0 := by
  induction marks generalizing skipIndex with
  | nil => exact even
  | cons mark _ ih =>
    cases mark with
    | true => exact ih (by decide)
    | false => exact ih (by omega)

def ParseState.next (skipIndex : Nat) (previous : Option UInt8) (chr : UInt8)
    (state : ParseState) : ParseState :=
  if chr = ascii ':' then {
    value := state.store
    groupValue := 0
    outputIndex := if skipIndex > 0 ∧ previous = some (ascii ':') then skipIndex
      else state.outputIndex + 2 }
  else { state with
    groupValue := (state.groupValue <<< 4) ||| ((hexValue chr).getD 0).toUInt16 }

section Groups

variable {skipIndex : Nat} {prev : Option UInt8} {state : ParseState} {chr : UInt8}
  {rest : List UInt8}

theorem next_outputIndex : (state.next skipIndex prev chr).outputIndex = if chr = ascii ':' then
      if skipIndex > 0 ∧ prev = some (ascii ':') then skipIndex else state.outputIndex + 2
    else state.outputIndex := by
  unfold ParseState.next
  split
  · rfl
  · rfl

theorem next_even (even : skipIndex % 2 = 0) (stateEven : state.outputIndex % 2 = 0) :
    (state.next skipIndex prev chr).outputIndex % 2 = 0 := by
  rw [next_outputIndex]
  split_ifs
  · exact even
  · omega
  · exact stateEven

theorem groupPart_of_pos (isGroup : isGroupChar chr = true) :
    groupPart (chr :: rest) = chr :: groupPart rest := takeWhile_cons_of_pos isGroup

theorem groupPart_of_neg (notGroup : ¬ isGroupChar chr = true) : groupPart (chr :: rest) = [] :=
  takeWhile_cons_of_neg notGroup

theorem percent_not_groupChar : isGroupChar (ascii '%') = false := by decide

theorem groupLoop_groupChar (room : state.outputIndex < 16) (isGroup : isGroupChar chr = true) :
    groupLoop skipIndex prev state (chr :: rest) =
      groupLoop skipIndex (some chr) (state.next skipIndex prev chr) rest := by
  unfold ParseState.next
  rw [groupLoop.eq_def]
  dsimp only
  rw [if_pos room]
  by_cases isColon : chr = ascii ':'
  · rw [if_pos isColon, if_pos isColon]
  · have notPercent : chr ≠ ascii '%' := by
      intro isPercent
      rw [isPercent, percent_not_groupChar] at isGroup
      exact absurd isGroup Bool.false_ne_true
    obtain ⟨val, isVal⟩ : ∃ val, hexValue chr = some val := by
      unfold isGroupChar at isGroup
      simpa [isColon, Option.isSome_iff_exists] using isGroup
    rw [if_neg isColon, if_neg notPercent, if_neg isColon, isVal]
    rfl

theorem groupLoop_other (room : state.outputIndex < 16) (notGroup : ¬ isGroupChar chr = true) :
    groupLoop skipIndex prev state (chr :: rest) =
      if chr = ascii '%' ∧ prev ≠ none then some (state, some rest) else none := by
  unfold isGroupChar at notGroup
  simp only [Bool.or_eq_true, beq_iff_eq, not_or, Option.not_isSome_iff_eq_none] at notGroup
  rw [groupLoop.eq_def]
  dsimp only
  rw [if_pos room, if_neg notGroup.1, notGroup.2]
  by_cases isPercent : chr = ascii '%'
  · rw [if_pos isPercent]
    cases prev with
    | none => simp
    | some => simp [isPercent]
  · rw [if_neg isPercent]
    simp [isPercent]

theorem groupLoop_full (full : ¬ state.outputIndex < 16) (text : List UInt8) :
    groupLoop skipIndex prev state text = some (state, none) := by
  cases text with
  | nil => rfl
  | cons => exact if_neg full

theorem overruns_groupChar (room : state.outputIndex < 16) (part : List UInt8) :
    Overruns skipIndex state.outputIndex (colonMarks prev (chr :: part)) ↔
      Overruns skipIndex (state.next skipIndex prev chr).outputIndex
        (colonMarks (some chr) part) := by
  rw [next_outputIndex, colonMarks]
  by_cases isColon : chr = ascii ':'
  · rw [if_pos isColon, if_pos isColon, Overruns]
    simp only [decide_eq_true_eq]
    exact or_iff_right (Nat.not_le.mpr room)
  · rw [if_neg isColon, if_neg isColon]

theorem overruns_of_le {outputIndex : Nat} (full : 16 ≤ outputIndex) (marks : List Bool) :
    Overruns skipIndex outputIndex marks := by
  cases marks with
  | nil => exact full
  | cons => exact .inl full

/-- Groups that overrun end behind the last byte, and no scope is found. -/
theorem groupLoop_overruns (text : List UInt8)
    (overruns : Overruns skipIndex state.outputIndex (colonMarks prev (groupPart text))) :
    ∃ final, groupLoop skipIndex prev state text = some (final, none) ∧ 16 ≤ final.outputIndex := by
  induction text generalizing prev state with
  | nil => exact ⟨state, rfl, overruns⟩
  | cons chr _ ih =>
    by_cases room : state.outputIndex < 16
    · by_cases isGroup : isGroupChar chr = true
      · rw [groupPart_of_pos isGroup, overruns_groupChar room] at overruns
        rw [groupLoop_groupChar room isGroup]
        exact ih overruns
      · rw [groupPart_of_neg isGroup] at overruns
        exact absurd overruns (Nat.not_le.mpr room)
    · exact ⟨state, groupLoop_full room _, Nat.not_lt.mp room⟩

/-- Groups that do not overrun end at a byte of the value. -/
theorem groupLoop_fits (even : skipIndex % 2 = 0) (text : List UInt8)
    (stateEven : state.outputIndex % 2 = 0)
    (fits : ¬ Overruns skipIndex state.outputIndex (colonMarks prev (groupPart text)))
    {final : ParseState} {found : Option (List UInt8)}
    (ends : groupLoop skipIndex prev state text = some (final, found)) :
    final.outputIndex + 1 < 16 := by
  induction text generalizing prev state with
  | nil =>
    cases ends
    unfold groupPart colonMarks Overruns at fits
    simp only [takeWhile_nil] at fits
    omega
  | cons chr _ ih =>
    by_cases room : state.outputIndex < 16
    · by_cases isGroup : isGroupChar chr = true
      · rw [groupPart_of_pos isGroup, overruns_groupChar room] at fits
        rw [groupLoop_groupChar room isGroup] at ends
        exact ih (next_even even stateEven) fits ends
      · rw [groupLoop_other room isGroup] at ends
        split at ends
        · cases ends
          omega
        · contradiction
    · exact absurd (overruns_of_le (Nat.not_lt.mp room) _) fits

theorem groupLoop_scope (text : List UInt8)
    (fits : ¬ Overruns skipIndex state.outputIndex (colonMarks prev (groupPart text)))
    (scope : List UInt8) :
    (∃ final, groupLoop skipIndex prev state text = some (final, some scope)) ↔
      text.dropWhile isGroupChar = ascii '%' :: scope ∧ (prev ≠ none ∨ groupPart text ≠ []) := by
  induction text generalizing prev state with
  | nil => simp [groupLoop]
  | cons chr _ ih =>
    by_cases room : state.outputIndex < 16
    · by_cases isGroup : isGroupChar chr = true
      · rw [groupPart_of_pos isGroup, overruns_groupChar room] at fits
        rw [groupLoop_groupChar room isGroup, ih fits,
          groupPart_of_pos isGroup, dropWhile_cons_of_pos isGroup]
        simp
      · rw [groupLoop_other room isGroup, groupPart_of_neg isGroup, dropWhile_cons_of_neg isGroup]
        by_cases isScope : chr = ascii '%' ∧ prev ≠ none
        · simp [isScope]
        · rw [if_neg isScope]
          refine iff_of_false nofun ?_
          rintro ⟨isText, isPrevious⟩
          obtain ⟨isPercent, _⟩ := cons.inj isText
          exact isScope ⟨isPercent, isPrevious.resolve_right (not_not_intro rfl)⟩
    · exact absurd (overruns_of_le (Nat.not_lt.mp room) _) fits

end Groups

/-! ## Accesses -/

open Accesses

theorem skipAccesses_within {size : Nat} (text : List UInt8) (i : Nat)
    (inside : i + text.length ≤ size) : (skipAccesses i text).Within size := by
  induction text generalizing i with
  | nil => exact within_nothing size
  | cons _ _ ih =>
    rw [length_cons] at inside
    refine append_within_iff.mpr ⟨?_, ih (i + 1) (by omega)⟩
    constructor
    case writes => exact by simp
    case reads =>
      intro pos mem
      have near : pos ≤ i := by
        split at mem
        · rcases mem_pair.mp mem with isHere | _
          · exact isHere.le
          · omega
        · exact (mem_singleton.mp mem).le
      omega

theorem storeAccesses_within_iff (outputIndex size : Nat) :
    (storeAccesses outputIndex).Within size ↔ outputIndex + 1 < 16 := by
  constructor
  · intro within
    exact within.writes _ (mem_pair.mpr (.inr rfl))
  · intro _
    constructor
    case writes =>
      intro _ mem
      rcases mem_pair.mp mem with _ | _
      · omega
      · omega
    case reads => exact forall_mem_nil _

theorem groupAccesses_within {size : Nat} (even : skipIndex % 2 = 0)
    (text : List UInt8) (i : Nat) (prev : Option UInt8) {outputIndex : Nat}
    (outputEven : outputIndex % 2 = 0) (inside : i + text.length ≤ size) :
    (groupAccesses skipIndex i prev outputIndex text).Within size := by
  induction text generalizing i prev outputIndex with
  | nil => exact within_nothing size
  | cons chr _ ih =>
    rw [length_cons] at inside
    have here {positions : List Nat} (near : ∀ pos ∈ positions, pos ≤ i) :
        Within { reads := positions } size := {
      writes := by simp
      reads := fun pos mem => by
        have bound := near pos mem
        omega }
    have current : Within { reads := [i] } size := here fun pos mem => (mem_singleton.mp mem).le
    unfold groupAccesses
    split
    · by_cases isColon : chr = ascii ':'
      · have store := (storeAccesses_within_iff outputIndex size).mpr (by omega)
        have read : Within
            { reads := if skipIndex > 0 ∧ i > 0 then [i, i - 1] else [i] } size := by
          apply here
          intro _ mem
          split at mem
          · rcases mem_pair.mp mem with isHere | _
            · exact isHere.le
            · omega
          · exact (mem_singleton.mp mem).le
        have nextEven : (if skipIndex > 0 ∧ prev = some (ascii ':') then skipIndex
            else outputIndex + 2) % 2 = 0 := by
          split
          · exact even
          · omega
        rw [if_pos isColon]
        exact append_within_iff.mpr ⟨append_within_iff.mpr ⟨store, read⟩,
          ih (i + 1) (some chr) nextEven (by omega)⟩
      · rw [if_neg isColon]
        split
        · exact current
        · cases hexValue chr with
          | none => exact current
          | some =>
            exact append_within_iff.mpr ⟨current, ih (i + 1) (some chr) outputEven (by omega)⟩
    · exact within_nothing size

structure Contained (text : List UInt8) : Prop where
  roomy : Roomy (colonMarks none text) (colonMarks none (groupPart text))
  scope : ∀ scope, text.dropWhile isGroupChar = ascii '%' :: scope -> groupPart text ≠ [] ->
    ¬ Ipv6ScopeIdUtil.Numeric scope

theorem skipped_colonMarks (first : UInt8) (rest : List UInt8) :
    skipped 0 (colonMarks none (first :: rest)) = skipped 0 (colonMarks (some first) rest) := by
  rw [colonMarks.eq_def none]
  dsimp only
  split
  · simp [skipped]
  · rfl

/-- The characters of a scope that is read from the end of a text. -/
theorem scopeReads_within_iff {size length count : Nat} (inside : length ≤ size) :
    Within { reads := range' (size - length) count } size ↔ count ≤ length := by
  constructor
  · intro within
    by_contra more
    have behind := within.reads size (mem_range'_1.mpr ⟨Nat.sub_le _ _, by omega⟩)
    exact Nat.lt_irrefl size behind
  · intro _
    constructor
    case writes => exact by simp
    case reads =>
      intro _ mem
      have bounds := mem_range'_1.mp mem
      omega

theorem endAccesses_within_iff (text after : List UInt8) : (endAccesses text.length after
      (groupLoop (skipped 0 (colonMarks none text)) none {} text)).Within text.length ↔
        Contained text := by
  have even := skipped_even (show 0 % 2 = 0 from rfl) (colonMarks none text)
  have roomy := roomy_iff (colonMarks none text) (colonMarks none (groupPart text))
  by_cases overruns : Overruns (skipped 0 (colonMarks none text)) 0
      (colonMarks none (groupPart text))
  · obtain ⟨final, ends, _⟩ := groupLoop_overruns text
      (show Overruns _ ({} : ParseState).outputIndex _ from overruns)
    rw [ends]
    refine iff_of_false ?_ (fun contained => roomy.mp contained.roomy overruns)
    intro within
    have inside := (storeAccesses_within_iff final.outputIndex text.length).mp within
    omega
  · have fits : ¬ Overruns (skipped 0 (colonMarks none text)) ({} : ParseState).outputIndex
        (colonMarks none (groupPart text)) := overruns
    have isScoped := groupLoop_scope text fits
    cases ends : groupLoop (skipped 0 (colonMarks none text)) none {} text with
    | none =>
      refine iff_of_true (within_nothing _) ⟨roomy.mpr overruns, ?_⟩
      intro scope isScope hasGroups
      obtain ⟨final, found⟩ := (isScoped scope).mpr ⟨isScope, .inr hasGroups⟩
      rw [ends] at found
      contradiction
    | some result =>
      obtain ⟨final, found⟩ := result
      have stored := (storeAccesses_within_iff final.outputIndex text.length).mpr
        (groupLoop_fits even text rfl fits ends)
      cases found with
      | none =>
        refine iff_of_true stored ⟨roomy.mpr overruns, ?_⟩
        intro scope isScope hasGroups
        obtain ⟨other, isOther⟩ := (isScoped scope).mpr ⟨isScope, .inr hasGroups⟩
        rw [ends] at isOther
        exact absurd isOther nofun
      | some scope =>
        obtain ⟨isScope, hasGroups⟩ := (isScoped scope).mp ⟨final, ends⟩
        have shorter : scope.length ≤ text.length := by
          have bound := length_dropWhile_le isGroupChar text
          rw [isScope, length_cons] at bound
          omega
        unfold endAccesses
        rw [append_within_iff, scopeReads_within_iff shorter, Ipv6ScopeIdUtil.extent_le_iff]
        constructor
        · rintro ⟨_, notNumeric⟩
          refine ⟨roomy.mpr overruns, ?_⟩
          intro _ isOther _
          rw [isScope] at isOther
          rw [← (cons.inj isOther).2]
          exact notNumeric
        · intro contained
          exact ⟨stored, contained.scope scope isScope (hasGroups.resolve_left (not_not_intro rfl))⟩

/-- Parsing a text stays within bounds, whatever is behind the text, if and only if the groups of
the text fit into the value and a scope behind them is not numeric. A text that is too long, or
has no colon behind its first character, is rejected before. -/
theorem accesses_within_iff (text after : List UInt8) : (accesses text after).Within text.length ↔
      (text.length ≤ 39 -> ascii ':' ∈ text.tail -> Contained text) := by
  cases text with
  | nil => exact iff_of_true (within_nothing 0) (nofun)
  | cons first rest =>
    unfold accesses
    dsimp only
    by_cases short : (first :: rest).length < 2
    · have isNil : rest = [] := by
        rw [length_cons] at short
        exact length_eq_zero_iff.mp (by omega)
      rw [if_pos short, isNil]
      exact iff_of_true (within_nothing 1) (nofun)
    · rw [if_neg short]
      split
      · exact iff_of_true (within_nothing _) (fun _ _ => by omega)
      · rw [skipLoop_eq, ← skipped_colonMarks]
        have searched := skipAccesses_within rest 1 (show 1 + rest.length ≤ (first :: rest).length
          from (Nat.add_comm 1 rest.length).le)
        rw [append_within_iff, iff_true_intro searched, true_and]
        by_cases hasColon : ascii ':' ∈ rest
        · have grouped := groupAccesses_within
            (skipped_even (show 0 % 2 = 0 from rfl) (colonMarks none (first :: rest)))
            (first :: rest) 0 none (show 0 % 2 = 0 from rfl) (Nat.zero_add _).le
          rw [if_neg (by simp [hasColon]), append_within_iff, iff_true_intro grouped,
            true_and, endAccesses_within_iff]
          exact ⟨fun contained _ _ => contained, fun all => all (by omega) hasColon⟩
        · rw [if_pos (by simp [hasColon])]
          exact iff_of_true (within_nothing _) (fun _ isColon => absurd isColon hasColon)

/-- Eight groups and a colon: `1:2:3:4:5:6:7:8:`. -/
def eightColons : List UInt8 :=
  [49, 58, 50, 58, 51, 58, 52, 58, 53, 58, 54, 58, 55, 58, 56, 58]

/-- An address with a scope: `::1%1`. -/
def numericScope : List UInt8 := [58, 58, 49, 37, 49]

/-- Behind eight groups two bytes are written, and behind the digits of a scope a character is
read. -/
theorem accesses_beyond : (¬ ∀ text after, (accesses text after).Within text.length) ∧
      16 ∈ (accesses eightColons []).writes ∧ 17 ∈ (accesses eightColons []).writes ∧
      5 ∈ (accesses numericScope []).reads ∧ numericScope.length = 5 := by
  have behind : 16 ∈ (accesses eightColons []).writes := by decide +kernel
  refine ⟨?_, behind, by decide +kernel, by decide +kernel, rfl⟩
  intro all
  exact absurd ((all eightColons []).writes 16 behind) (by decide)

end Ipv6Address

end NtfCore.Ntsa
