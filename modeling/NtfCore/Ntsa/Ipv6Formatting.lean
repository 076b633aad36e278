import NtfCore.Foundation.Output
import NtfCore.Ntsa.Ipv6RoundTrip

/-!
Contract: what `ntsa::Ipv6Address::format` writes into its buffer.

Owns: the writer on the memory of the buffer with every index that it writes, that the
buffer holds the text of the address and a null character, and the capacities that suffice.
-/

namespace NtfCore.Ntsa.Ipv6Address

open NtfCore.Foundation List
open NtfCore.Foundation.Output
open NtfCore.Foundation.Text

/-! ## The writer -/

def putGroup (state : Output UInt8 × Nat) (v1 v2 : UInt8) : Output UInt8 × Nat :=
  let v1a := v1 >>> 4
  let v1b := v1 &&& 0x0F
  let v2a := v2 >>> 4
  let v2b := v2 &&& 0x0F
  let state := if v1a ≠ 0 then put state (hexDigit v1a) else state
  let state := if v1a ≠ 0 ∨ v1b ≠ 0 then put state (hexDigit v1b) else state
  let state := if v1a ≠ 0 ∨ v1b ≠ 0 ∨ v2a ≠ 0 then put state (hexDigit v2a) else state
  put state (hexDigit v2b)

/-- The loop of `format` over the groups. -/
def putGroups : List UInt8 -> Output UInt8 × Nat -> Output UInt8 × Nat
  | v1 :: v2 :: rest, state =>
    if rest = [] then putGroup state v1 v2
    else putGroups rest (put (putGroup state v1 v2) (ascii ':'))
  | _, state => state

def putDigits (value : Nat) (state : Output UInt8 × Nat) : Output UInt8 × Nat :=
  let digit := value % 10
  let state := put state (ascii '0' + UInt8.ofNat digit)
  if value / 10 = 0 then state else putDigits (value / 10) state
termination_by value
decreasing_by omega

def putScope (scopeId : UInt32) (state : Output UInt8 × Nat) : Output UInt8 × Nat :=
  if scopeId > 0 then
    let state := put state (ascii '%')
    let head := state.2
    let (output, target) := putDigits scopeId.toNat state
    (output.reverseLoop head (target - 1), target)
  else state

/-- The characters before the first null character, which is one of the first `size`. -/
def textOf (buffer : Nat -> UInt8) (size : Nat) : List UInt8 :=
  ((List.range size).map buffer).takeWhile (· != 0)

/-- The last part of `format`, in the buffer. -/
def collapseInPlace (output : Output UInt8) (size : Nat) : Output UInt8 :=
  let text := textOf output.cells size
  let i := text.length
  let (best, maximum) := collapseLoop 0 (0, 2) text
  if maximum > 2 then
    ((output.write (best + 1) (ascii ':')).write best (ascii ':')).move (best + 2)
      (best + maximum) (i - best - maximum + 1)
  else output

/-- `Ipv6Address::format`: the buffer afterwards, and the size that is returned. -/
def formatInto (address : Ipv6Address) (buffer : Nat -> UInt8) (capacity : Nat) (collapse : Bool) :
    Output UInt8 × Nat :=
  let output : Output UInt8 := { cells := buffer }
  if capacity < maxTextLength + 1 then
    (if capacity > 0 then output.write 0 0 else output, 0)
  else
    let state := putScope address.scopeId (putGroups address.asBytes (output, 0))
    let (output, size) := put state 0
    let output := if collapse then collapseInPlace output size else output
    (output, (textOf output.cells size).length)

/-! ## What is written -/

theorem wrote_if (condition : Prop) [Decidable condition] (state : Output UInt8 × Nat)
    (chr : UInt8) :
    Wrote state (if condition then put state chr else state) (if condition then [chr] else []) := by
  split
  · exact wrote_put state chr
  · exact wrote_nil state

theorem wrote_putGroup (state : Output UInt8 × Nat) (v1 v2 : UInt8) :
    Wrote state (putGroup state v1 v2) (groupText v1 v2) :=
  (((wrote_if _ _ _).append (wrote_if _ _ _)).append (wrote_if _ _ _)).append (wrote_put _ _)

theorem wrote_putGroups (bytes : List UInt8) (state : Output UInt8 × Nat) :
    Wrote state (putGroups bytes state) (groupsText bytes) := by
  induction bytes, state using putGroups.induct with
  | case1 v1 v2 state =>
    rw [putGroups, if_pos rfl, groupsText, if_pos rfl, append_nil]
    exact wrote_putGroup state v1 v2
  | case2 v1 v2 _ state more ih =>
    rw [putGroups, if_neg more, groupsText, if_neg more]
    have wroteColon := (wrote_putGroup state v1 v2).append (wrote_put _ (ascii ':'))
    have wroteAll := wroteColon.append ih
    rwa [append_assoc] at wroteAll
  | case3 _ state short =>
    rw [putGroups.eq_2 _ _ short, groupsText.eq_2 _ short]
    exact wrote_nil state

theorem wrote_putDigits (value : Nat) (state : Output UInt8 × Nat) :
    Wrote state (putDigits value state) (decimalLoop value) := by
  induction value using Nat.strong_induction_on generalizing state with
  | _ value ih =>
    rw [putDigits, decimalLoop]
    by_cases isLast : value / 10 = 0
    · rw [if_pos isLast, if_pos isLast]
      exact wrote_put state _
    · rw [if_neg isLast, if_neg isLast]
      exact (wrote_put state _).append (ih (value / 10) (by omega) _)

theorem wrote_putScope (scopeId : UInt32) (state : Output UInt8 × Nat) :
    Wrote state (putScope scopeId state) (scopeText scopeId) := by
  rw [putScope, scopeText]
  split
  · have ne : decimalLoop scopeId.toNat ≠ [] := by
      rw [decimalLoop]
      exact cons_ne_nil _ _
    have wroteMark := wrote_put state (ascii '%')
    exact wroteMark.append ((wrote_putDigits scopeId.toNat _).reverse ne)
  · exact wrote_nil state

def uncollapsedText (address : Ipv6Address) : List UInt8 :=
  groupsText address.asBytes ++ scopeText address.scopeId

theorem wrote_uncollapsed (address : Ipv6Address) (state : Output UInt8 × Nat) :
    Wrote state (put (putScope address.scopeId (putGroups address.asBytes state)) 0)
      (address.uncollapsedText ++ [0]) :=
  ((wrote_putGroups address.asBytes state).append (wrote_putScope address.scopeId _)).append
    (wrote_put _ 0)

/-! ## What is read back -/

variable {output : Output UInt8} {text : List UInt8}

theorem textOf_of_holds (holds : output.Holds (text ++ [0])) (plain : ∀ chr ∈ text, chr ≠ 0)
    {size : Nat} (enough : text.length < size) : textOf output.cells size = text := by
  have inside : (text ++ [0]).length ≤ size := by
    rw [length_append, length_singleton]
    exact enough
  obtain ⟨_, isLine⟩ := holds.map_range inside
  rw [textOf, isLine, append_assoc, takeWhile_append_of_pos]
  · simp
  · intro chr mem
    exact bne_iff_ne.mpr (plain chr mem)

theorem groupText_plain {v1 v2 chr : UInt8} (mem : chr ∈ groupText v1 v2) : chr ≠ 0 := by
  have every : ∀ value : Fin 16, hexDigit (UInt8.ofNat value) ≠ 0 := by decide
  rw [groupText_eq] at mem
  obtain ⟨nibble, isNibble, isChr⟩ := mem_map.mp mem
  have digit := every ⟨nibble.toNat, UInt8.lt_iff_toNat_lt.mp (nibbles_lt isNibble)⟩
  rw [UInt8.ofNat_toNat] at digit
  exact isChr ▸ digit

theorem groupsText_plain (bytes : List UInt8) : ∀ chr ∈ groupsText bytes, chr ≠ 0 := by
  induction bytes using groupsText.induct with
  | case1 _ _ _ ih =>
    intro chr mem
    rcases mem_append.mp mem with inGroup | later
    · exact groupText_plain inGroup
    · split at later
      · contradiction
      · rcases mem_cons.mp later with isColon | inRest
        · rw [isColon]
          decide
        · exact ih chr inRest
  | case2 _ short =>
    rw [groupsText.eq_2 _ short]
    exact forall_mem_nil _

theorem uncollapsedText_plain (address : Ipv6Address) :
    ∀ chr ∈ address.uncollapsedText, chr ≠ 0 := by
  intro chr mem
  rcases mem_append.mp mem with inGroups | inScope
  · exact groupsText_plain _ chr inGroups
  · unfold scopeText at inScope
    split at inScope
    · rcases mem_cons.mp inScope with isPercent | inDecimal
      · rw [isPercent]
        decide
      · intro isNull
        have isDigit := isDigit_of_mem_decimal inDecimal
        rw [isNull] at isDigit
        contradiction
    · contradiction

/-- The stretch that is found lies within the text. -/
theorem collapseLoop_le (text : List UInt8) (i : Nat) (found : Nat × Nat) {size : Nat}
    (isSize : i + text.length = size) (before : found.2 ≤ 2 ∨ found.1 + found.2 ≤ size) :
    (collapseLoop i found text).2 ≤ 2 ∨
      (collapseLoop i found text).1 + (collapseLoop i found text).2 ≤ size := by
  induction text generalizing i found with
  | nil => exact before
  | cons chr rest ih =>
    have isRest : i + 1 + rest.length = size := by
      rw [← isSize, length_cons]
      omega
    rw [collapseLoop]
    split
    · exact ih (i + 1) found isRest before
    · refine ih (i + 1) _ isRest ?_
      have bound := spanLength_le isZeroOrColon (chr :: rest)
      split
      · exact .inr (by dsimp only; omega)
      · exact before

/-- A stretch of the line gives way to two colons. -/
theorem holds_elided {line : List UInt8} (holds : output.Holds line)
    {best maximum : Nat} (long : 2 < maximum) (inside : best + maximum ≤ line.length) :
    (((output.write (best + 1) (ascii ':')).write best (ascii ':')).move (best + 2)
      (best + maximum) (line.length - best - maximum)).Holds
        (line.take best ++ [ascii ':', ascii ':'] ++ line.drop (best + maximum)) := by
  intro index within
  simp only [length_append, length_take, length_drop, length_cons, length_nil] at within
  have written : ∀ other, ((output.write (best + 1) (ascii ':')).write best (ascii ':')).cells
      other = if other = best ∨ other = best + 1 then ascii ':' else output.cells other := by
    intro _
    rw [write_cells, write_cells]
    split_ifs <;> first | rfl | omega
  rw [move, moveLoop_cells, written, written]
  by_cases behind : best + 2 ≤ index
  · have moved : best + maximum + (index - (best + 2)) < line.length := by omega
    rw [if_pos (by omega), if_neg (by omega), holds _ moved, getElem_append_right (by simp; omega),
      getElem_drop]
    congr 1
    simp
    omega
  · rw [if_neg (by omega), getElem_append_left (by simp; omega)]
    by_cases before : index < best
    · rw [if_neg (by omega), holds index (by omega), getElem_append_left (by simp; omega),
        getElem_take]
    · rw [if_pos (by omega), getElem_append_right (by simp; omega)]
      have isBest : min best line.length = best := by omega
      rcases (show index = best ∨ index = best + 1 by omega) with isFirst | isSecond
      · simp [isFirst, isBest]
      · simp [isSecond, isBest]

theorem collapsed_plain (plain : ∀ chr ∈ text, chr ≠ 0) : ∀ chr ∈ collapsed text, chr ≠ 0 := by
  intro chr mem
  unfold collapsed at mem
  split at mem
  split at mem
  · simp only [mem_append] at mem
    rcases mem with (before | isColon) | after
    · exact plain chr (mem_of_mem_take before)
    · rw [(by simpa using isColon : chr = ascii ':')]
      decide
    · exact plain chr (mem_of_mem_drop after)
  · exact plain chr mem

theorem collapsed_length_le (text : List UInt8) : (collapsed text).length ≤ text.length := by
  have stretch := collapseLoop_le text 0 (0, 2) (Nat.zero_add _) (.inl .refl)
  unfold collapsed
  split
  rename_i isFound
  rw [isFound] at stretch
  split
  · simp only [length_append, length_take, length_drop, length_cons, length_nil]
    omega
  · exact Nat.le_refl _

theorem collapseInPlace_holds (holds : output.Holds (text ++ [0])) (plain : ∀ chr ∈ text, chr ≠ 0) :
    (collapseInPlace output (text.length + 1)).Holds (collapsed text ++ [0]) ∧
      ∀ index, index ∈ (collapseInPlace output (text.length + 1)).written ->
        index ∈ output.written ∨ index < text.length + 1 := by
  have isText := textOf_of_holds holds plain .refl
  have stretch := collapseLoop_le text 0 (0, 2) (Nat.zero_add _) (.inl .refl)
  rw [collapseInPlace, collapsed, isText]
  generalize collapseLoop 0 (0, 2) text = found at stretch
  obtain ⟨best, maximum⟩ := found
  dsimp only at stretch ⊢
  split
  · rename_i long
    have inside : best + maximum ≤ text.length := by omega
    have size : (text ++ [0]).length = text.length + 1 := by rw [length_append, length_singleton]
    have count : (text ++ [0]).length - best - maximum = text.length - best - maximum + 1 := by
      omega
    have withinLine : best + maximum ≤ (text ++ [0]).length := by
      rw [size]
      exact Nat.le_succ_of_le inside
    have elided := holds_elided holds long withinLine
    have atHead : best ≤ text.length := by omega
    rw [count, take_append_of_le_length atHead, drop_append_of_le_length inside,
      ← append_assoc] at elided
    refine ⟨elided, ?_⟩
    intro _ mem
    rw [move, mem_written_moveLoop] at mem
    rcases mem with beforeMove | _
    · simp only [write, mem_cons] at beforeMove
      rcases beforeMove with _ | _ | earlier
      · exact .inr (by omega)
      · exact .inr (by omega)
      · exact .inl earlier
    · exact .inr (by omega)
  · exact ⟨holds, fun _ => .inl⟩

theorem mem_written_collapseInPlace (output : Output UInt8) (size : Nat) {index : Nat}
    (mem : index ∈ output.written) : index ∈ (collapseInPlace output size).written := by
  rw [collapseInPlace]
  split
  split
  · rw [move, mem_written_moveLoop]
    exact .inl (mem_cons_of_mem _ (mem_cons_of_mem _ mem))
  · exact mem

/-! ## The capacities that suffice -/

/-- The buffer holds the text with a null character behind it, the size that is returned is
that of the text, and no index outside the capacity was ever written. -/
structure Fits (result : Output UInt8 × Nat) (capacity : Nat) (text : List UInt8) : Prop where
  inside : ∀ index ∈ result.1.written, index < capacity
  line : result.1.Holds (text ++ [0])
  size : result.2 = text.length

/-- The buffer holds the text of the address, and exactly the cells of the text before zeros are
collapsed, and of its null character, were written. -/
theorem formatInto_spec (address : Ipv6Address) (buffer : Nat -> UInt8) {capacity : Nat}
    (enough : maxTextLength + 1 ≤ capacity) (collapse : Bool) :
    (address.formatInto buffer capacity collapse).1.Holds
        (address.format capacity collapse ++ [0]) ∧
      (address.formatInto buffer capacity collapse).2 = (address.format capacity collapse).length ∧
      ∀ index, index ∈ (address.formatInto buffer capacity collapse).1.written ↔
        index < address.uncollapsedText.length + 1 := by
  have wrote := wrote_uncollapsed address ({ cells := buffer }, 0)
  have holds := wrote.holds
  have plain := uncollapsedText_plain address
  have target := wrote.target
  have written := wrote.written
  rw [formatInto, if_neg (Nat.not_lt.mpr enough), format, if_neg (Nat.not_lt.mpr enough)]
  simp only [not_mem_nil, false_or, Nat.zero_le, true_and, Nat.zero_add, length_append,
    length_singleton] at target written
  dsimp only
  generalize put (putScope address.scopeId (putGroups address.asBytes ({ cells := buffer }, 0))) 0
    = state at holds target written ⊢
  obtain ⟨output, size⟩ := state
  dsimp only at holds target written ⊢
  have isSize : size = address.uncollapsedText.length + 1 := by
    rw [target, uncollapsedText, length_append]
  have isWritten : ∀ index, index ∈ output.written ↔
      index < address.uncollapsedText.length + 1 := by
    intro index
    rw [written, uncollapsedText, length_append]
  subst isSize
  cases collapse with
  | false =>
    refine ⟨holds, ?_, isWritten⟩
    exact congrArg length (textOf_of_holds holds plain .refl)
  | true =>
    obtain ⟨isCollapsed, within⟩ := collapseInPlace_holds holds plain
    have shorter := Nat.lt_succ_of_le (collapsed_length_le address.uncollapsedText)
    refine ⟨isCollapsed, ?_, fun index => ⟨fun mem => ?_, fun inside => ?_⟩⟩
    · exact congrArg length (textOf_of_holds isCollapsed (collapsed_plain plain) shorter)
    · rcases within index mem with earlier | inside
      · exact (isWritten index).mp earlier
      · exact inside
    · exact mem_written_collapseInPlace output _ ((isWritten index).mpr inside)

/-- The characters of the groups and the colons between them, and of the scope identifier. -/
theorem uncollapsedText_length (address : Ipv6Address) : address.uncollapsedText.length =
      ((groups address.asBytes).map groupWidth).sum + 7 + (scopeText address.scopeId).length := by
  obtain ⟨group, rest, isGroups, count, _, isText⟩ := groups_asBytes address
  have width := joined_length group rest
  rw [uncollapsedText, length_append, isText, width, isGroups, count]

def scopeWidth (scopeId : UInt32) : Nat :=
  if scopeId = 0 then 0 else 1 + (Nat.log 10 scopeId.toNat + 1)

theorem scopeText_width (scopeId : UInt32) : (scopeText scopeId).length = scopeWidth scopeId := by
  rw [scopeWidth]
  split
  · rename_i isZero
    rw [isZero, scopeText_zero, length_nil]
  · rename_i ne
    exact scopeText_length ne

/-- A buffer that is large enough by the constant for it holds the text exactly when it has room
for all groups, with their zeros, for the scope identifier and for a null character. -/
theorem formats_within_iff (address : Ipv6Address) (buffer : Nat -> UInt8) {capacity : Nat}
    (enough : maxTextLength + 1 ≤ capacity) (collapse : Bool) :
    Fits (address.formatInto buffer capacity collapse) capacity (address.format capacity collapse) ↔
      ((groups address.asBytes).map groupWidth).sum + 7 + scopeWidth address.scopeId + 1 ≤
        capacity := by
  obtain ⟨line, size, written⟩ := formatInto_spec address buffer enough collapse
  rw [uncollapsedText_length, scopeText_width] at written
  constructor
  · intro fits
    exact fits.inside _ ((written _).mpr .refl)
  · intro room
    exact ⟨fun index mem => Nat.lt_of_lt_of_le ((written index).mp mem) room, line, size⟩

theorem text_of_link_local : Fits (linkLocal.formatInto (fun _ => 0) 44 true) 44
    (linkLocal.format 44 true) :=
  (formats_within_iff linkLocal (fun _ => 0) (by decide) true).mpr (by decide)

/-- Eight groups of four digits and a scope of four digits: the null character is written behind
the buffer of `text`. -/
theorem null_behind_buffer :
    ¬ Fits ({ longest with scopeId := 1000 }.formatInto (fun _ => 0) 44 true) 44
      ({ longest with scopeId := 1000 }.format 44 true) := by
  intro fits
  obtain ⟨_, _, written⟩ := formatInto_spec { longest with scopeId := 1000 } (fun _ => 0)
    (show maxTextLength + 1 ≤ 44 by decide) true
  rw [uncollapsedText_length, scopeText_width] at written
  exact absurd (fits.inside 44 ((written 44).mpr (by decide))) (by decide)

end NtfCore.Ntsa.Ipv6Address
