import Mathlib.Data.List.DropRight
import Mathlib.Data.List.Sort
import Mathlib.Data.Nat.Bitwise

/-!
Contract: the ports of a well-known service as a bitmap.

Owns: the bitmap that `ResourceRecord::encode` makes of a list of ports, the list
that `ResourceRecord::decode` makes of a bitmap, and that a list in ascending order
is made again of its bitmap.
-/

namespace NtfCore.Ntcdns.PortSet

open List UInt16

/-- One round of the loop of `encode`. -/
def setPort (bitset : List UInt8) (port : UInt16) : List UInt8 :=
  bitset.modify (port.toNat / 8) (· ||| UInt8.ofNat (1 <<< (7 - port.toNat % 8)))

def ofPorts (ports : List UInt16) : List UInt8 :=
  let portVector := ports.mergeSort fun left right => decide (left ≤ right)
  match portVector.getLast? with
  | none => []
  | some maxPort => portVector.foldl setPort (List.replicate (maxPort.toNat / 8 + 1) 0)

/-- The ports of one byte of the bitmap, in the inner loop of `decode`. -/
def bytePorts (byte : UInt8) (index : Nat) : List UInt16 :=
  (List.range 8).filterMap fun bit =>
    if byte.toNat &&& (1 <<< (7 - bit)) ≠ 0 then some (UInt16.ofNat (index * 8 + bit)) else none

def toPorts (bitset : List UInt8) : List UInt16 :=
  bitset.zipIdx.flatMap fun (byte, index) => bytePorts byte index

def contains (bitset : List UInt8) (port : Nat) : Bool :=
  match bitset[port / 8]? with
  | none => false
  | some byte => byte.toNat.testBit (7 - port % 8)

variable {bitset : List UInt8} {port : Nat} {byte : UInt8}

theorem contains_of_getElem? (found : bitset[port / 8]? = some byte) :
    contains bitset port = byte.toNat.testBit (7 - port % 8) := by
  unfold contains
  rw [found]

theorem contains_lt (isPort : contains bitset port = true) : port < 8 * bitset.length := by
  unfold contains at isPort
  split at isPort
  · contradiction
  · rename_i _ found
    have inside := (List.getElem?_eq_some_iff.mp found).1
    omega

theorem bytePorts_eq (byte : UInt8) (index : Nat) : bytePorts byte index =
    (((range 8).filter fun bit => byte.toNat.testBit (7 - bit)).map fun bit =>
      ofNat (index * 8 + bit)) := by
  rw [← filterMap_eq_map, filterMap_filter]
  apply filterMap_congr
  intro bit _
  have isBit : byte.toNat &&& 1 <<< (7 - bit) ≠ 0 ↔ byte.toNat.testBit (7 - bit) = true := by
    rw [Nat.one_shiftLeft, Nat.and_two_pow]
    cases byte.toNat.testBit (7 - bit) with
    | true | false => simp
  by_cases isSet : byte.toNat.testBit (7 - bit) = true
  · rw [if_pos (isBit.mpr isSet), if_pos isSet]
    rfl
  · rw [if_neg (fun differs => isSet (isBit.mp differs)), if_neg isSet]

theorem toPorts_eq (bitset : List UInt8) : toPorts bitset =
    ((range (8 * bitset.length)).filter (contains bitset)).map ofNat := by
  induction bitset using reverseRecOn with
  | nil => rfl
  | append_singleton bytes byte ih =>
    have front : (range (8 * bytes.length)).filter (contains (bytes ++ [byte])) =
        (range (8 * bytes.length)).filter (contains bytes) := by
      apply filter_congr
      intro port mem
      have inside : port / 8 < bytes.length := by
        have less := mem_range.mp mem
        omega
      unfold contains
      rw [getElem?_append_left inside]
    have back : ((range 8).map (8 * bytes.length + ·)).filter (contains (bytes ++ [byte])) =
        ((range 8).filter fun bit => byte.toNat.testBit (7 - bit)).map (8 * bytes.length + ·) := by
      rw [filter_map]
      apply congrArg
      apply filter_congr
      intro bit mem
      have less := mem_range.mp mem
      have isIndex : (8 * bytes.length + bit) / 8 = bytes.length := by omega
      have isBit : (8 * bytes.length + bit) % 8 = bit := by omega
      simp only [Function.comp_apply, contains, isIndex, isBit]
      rw [getElem?_append_right .refl, Nat.sub_self]
      rfl
    have split : 8 * (bytes ++ [byte]).length = 8 * bytes.length + 8 := by
      rw [length_append, length_singleton]
      omega
    unfold toPorts at ih ⊢
    rw [zipIdx_append, flatMap_append, ih, split, range_add, filter_append, map_append, front, back]
    simp only [zipIdx_singleton, flatMap_singleton, bytePorts_eq, map_map,
      Nat.zero_add, Nat.mul_comm]
    rfl

section Low

variable {bitset : List UInt8}

def Low (bitset : List UInt8) : Prop := ∀ position, contains bitset position = true -> position < 2 ^ 16

theorem low_of_length (small : bitset.length ≤ 8192) : Low bitset := by
  intro _ isSet
  have inside := contains_lt isSet
  omega

theorem Low.mem_toPorts (low : Low bitset) {port : UInt16} :
    port ∈ toPorts bitset ↔ contains bitset port.toNat = true := by
  rw [toPorts_eq, mem_map]
  constructor
  · rintro ⟨number, mem, isPort⟩
    obtain ⟨_, isSet⟩ := mem_filter.mp mem
    have same : port.toNat = number := by
      rw [← isPort, toNat_ofNat']
      exact Nat.mod_eq_of_lt (low number isSet)
    rw [same]
    exact isSet
  · intro isSet
    refine ⟨port.toNat, ?_, UInt16.ofNat_toNat⟩
    rw [mem_filter, mem_range]
    exact ⟨contains_lt isSet, isSet⟩

theorem Low.toPorts_ascending (low : Low bitset) : (toPorts bitset).Pairwise (· < ·) := by
  rw [toPorts_eq, pairwise_map]
  apply (pairwise_lt_range.filter (contains bitset)).imp_of_mem
  intro left right leftMember rightMember less
  have leftLess := low left (mem_filter.mp leftMember).2
  have rightLess := low right (mem_filter.mp rightMember).2
  rw [lt_iff_toNat_lt, toNat_ofNat', toNat_ofNat',
    Nat.mod_eq_of_lt leftLess, Nat.mod_eq_of_lt rightLess]
  exact less

end Low

theorem mem_toPorts (small : bitset.length ≤ 8192) {port : UInt16} :
    port ∈ toPorts bitset ↔ contains bitset port.toNat = true :=
  (low_of_length small).mem_toPorts

theorem toPorts_ascending (small : bitset.length ≤ 8192) : (toPorts bitset).Pairwise (· < ·) :=
  (low_of_length small).toPorts_ascending

/-! ## Encoding -/

@[simp] theorem setPort_length (bitset : List UInt8) (port : UInt16) :
    (setPort bitset port).length = bitset.length := by
  unfold setPort
  rw [length_modify]

theorem contains_setPort {port : UInt16} (inside : port.toNat / 8 < bitset.length) (other : Nat) :
    contains (setPort bitset port) other = true ↔
      contains bitset other = true ∨ other = port.toNat := by
  unfold contains setPort
  rw [getElem?_modify]
  by_cases same : port.toNat / 8 = other / 8
  · obtain ⟨byte, found⟩ : ∃ byte, bitset[other / 8]? = some byte := by
      rw [← same]
      exact ⟨_, getElem?_eq_getElem inside⟩
    have bound : 2 ^ (7 - port.toNat % 8) < 2 ^ 8 := Nat.pow_lt_pow_right (by decide) (by omega)
    have isBit : (UInt8.ofNat (1 <<< (7 - port.toNat % 8))).toNat = 2 ^ (7 - port.toNat % 8) := by
      rw [Nat.one_shiftLeft, UInt8.toNat_ofNat']
      exact Nat.mod_eq_of_lt bound
    rw [found]
    simp only [Option.map_eq_map, Option.map_some, same, ↓reduceIte, UInt8.toNat_or, isBit,
      Nat.testBit_or, Nat.testBit_two_pow, Bool.or_eq_true, decide_eq_true_eq]
    constructor
    · rintro (isSet | sameBit)
      · exact .inl isSet
      · exact .inr (by omega)
    · rintro (isSet | isPort)
      · exact .inl isSet
      · exact .inr (by omega)
  · simp only [same, ↓reduceIte, Option.map_eq_map, Option.map_id_fun', id]
    constructor
    · exact fun isSet => .inl isSet
    · rintro (isSet | isPort)
      · exact isSet
      · exact absurd (congrArg (· / 8) isPort.symm) same

variable {ports : List UInt16}

theorem foldl_setPort (bitset : List UInt8)
    (inside : ∀ port ∈ ports, port.toNat / 8 < bitset.length) :
    (ports.foldl setPort bitset).length = bitset.length ∧
      ∀ other, contains (ports.foldl setPort bitset) other = true ↔
        contains bitset other = true ∨ ∃ port ∈ ports, other = port.toNat := by
  induction ports generalizing bitset with
  | nil => simp
  | cons port rest ih =>
    have restInside : ∀ other ∈ rest, other.toNat / 8 < (setPort bitset port).length := by
      intro other mem
      rw [setPort_length]
      exact inside other (mem_cons_of_mem _ mem)
    obtain ⟨sameLength, isSet⟩ := ih _ restInside
    constructor
    · rw [foldl_cons, sameLength, setPort_length]
    · intro _
      rw [foldl_cons, isSet, contains_setPort (inside port mem_cons_self)]
      simp only [mem_cons, exists_eq_or_imp, or_assoc]

theorem contains_replicate (size other : Nat) : contains (replicate size 0) other = false := by
  unfold contains
  rw [getElem?_replicate]
  split
  · rfl
  · rename_i _ found
    split at found
    · cases found
      simp
    · contradiction

theorem foldl_setPort_length (ports : List UInt16) (bitset : List UInt8) :
    (ports.foldl setPort bitset).length = bitset.length := by
  induction ports generalizing bitset with
  | nil => rfl
  | cons _ _ ih => rw [foldl_cons, ih, setPort_length]

theorem ofPorts_length_le (ports : List UInt16) : (ofPorts ports).length ≤ 8192 := by
  unfold ofPorts
  dsimp only
  split
  · exact Nat.zero_le _
  · rename_i maxPort _
    have bound := maxPort.toNat_lt
    rw [foldl_setPort_length, length_replicate]
    omega

section

variable (ascending : ports.Pairwise (· < ·))
include ascending

theorem sorted_of_ascending :
    (ports.mergeSort fun left right => decide (left ≤ right)) = ports := by
  apply mergeSort_of_pairwise
  apply ascending.imp
  intro _ _ less
  exact decide_eq_true (UInt16.le_of_lt less)

theorem ofPorts_length {maxPort : UInt16} (isLast : ports.getLast? = some maxPort) :
    (ofPorts ports).length = maxPort.toNat / 8 + 1 := by
  unfold ofPorts
  dsimp only
  rw [sorted_of_ascending ascending, isLast]
  rw [foldl_setPort_length, length_replicate]

theorem ofPorts_spec : (ofPorts ports).length ≤ 8192 ∧ (ports ≠ [] -> ofPorts ports ≠ []) ∧
      ∀ other, contains (ofPorts ports) other = true ↔ ∃ port ∈ ports, other = port.toNat := by
  unfold ofPorts
  dsimp only
  rw [sorted_of_ascending ascending]
  cases isLast : ports.getLast? with
  | none =>
    have isNil : ports = [] := getLast?_eq_none_iff.mp isLast
    simp [isNil, contains]
  | some maxPort =>
    obtain ⟨_, isPorts⟩ := getLast?_eq_some_iff.mp isLast
    have atMost : ∀ port ∈ ports, port.toNat ≤ maxPort.toNat := by
      intro port mem
      rw [isPorts] at mem ascending
      rcases mem_append.mp mem with inInit | isMax
      · have less := (pairwise_append.mp ascending).2.2 port inInit maxPort (by simp)
        exact Nat.le_of_lt (lt_iff_toNat_lt.mp less)
      · rw [mem_singleton.mp isMax]
    have inside : ∀ port ∈ ports,
        port.toNat / 8 < (replicate (maxPort.toNat / 8 + 1) (0 : UInt8)).length := by
      intro port mem
      have bound := atMost port mem
      rw [length_replicate]
      omega
    obtain ⟨sameLength, isSet⟩ := foldl_setPort _ inside
    have below := maxPort.toNat_lt
    refine ⟨?_, ?_, ?_⟩
    · dsimp only
      rw [sameLength, length_replicate]
      omega
    · intro _ isNil
      have isZero := congrArg length isNil
      rw [sameLength, length_replicate] at isZero
      simp at isZero
    · intro _
      rw [isSet, contains_replicate]
      simp

theorem toPorts_ofPorts : toPorts (ofPorts ports) = ports := by
  obtain ⟨small, _, isSet⟩ := ofPorts_spec ascending
  have sameMembers : ∀ port, port ∈ toPorts (ofPorts ports) ↔ port ∈ ports := by
    intro port
    rw [mem_toPorts small, isSet]
    constructor
    · rintro ⟨_, mem, same⟩
      rw [UInt16.toNat_inj.mp same]
      exact mem
    · exact fun mem => ⟨port, mem, rfl⟩
  exact (toPorts_ascending small).eq_of_mem_iff ascending sameMembers

end

/-! ## Bitmaps that end with a set bit -/

def trimmed (bitset : List UInt8) : List UInt8 := bitset.rdropWhile fun byte => byte = 0

theorem contains_concat_zero (bytes : List UInt8) (pos : Nat) :
    contains (bytes ++ [0]) pos = contains bytes pos := by
  unfold contains
  rcases Nat.lt_trichotomy (pos / 8) bytes.length with before | atEnd | _
  · rw [getElem?_append_left before]
  · rw [getElem?_append_right (Nat.le_of_eq atEnd.symm), atEnd, Nat.sub_self]
    simp
  · rw [getElem?_eq_none (by rw [length_append, length_singleton]; omega),
      getElem?_eq_none (by omega)]

theorem contains_trimmed (bitset : List UInt8) (pos : Nat) :
    contains (trimmed bitset) pos = contains bitset pos := by
  induction bitset using reverseRecOn with
  | nil => rfl
  | append_singleton _ byte ih =>
    unfold trimmed at ih ⊢
    by_cases isZero : byte = 0
    · rw [rdropWhile_concat, if_pos (decide_eq_true isZero), ih, isZero, contains_concat_zero]
    · rw [rdropWhile_concat, if_neg (by simpa using isZero)]

def Tight (bitset : List UInt8) : Prop := ∀ last ∈ bitset.getLast?, last ≠ 0

theorem trimmed_tight (bitset : List UInt8) : Tight (trimmed bitset) := by
  intro last isLast
  obtain ⟨_, isTrimmed⟩ := getLast?_eq_some_iff.mp isLast
  have notNil : trimmed bitset ≠ [] := by simp [isTrimmed]
  have notZero := rdropWhile_last_not (fun byte : UInt8 => byte = 0) bitset notNil
  have isGet : (trimmed bitset).getLast notNil = last := by simp [isTrimmed]
  unfold trimmed at isGet
  rw [isGet] at notZero
  simpa using notZero

theorem exists_bit (notZero : byte ≠ 0) : ∃ bit, bit < 8 ∧ byte.toNat.testBit bit = true := by
  have differs : byte.toNat ≠ 0 := fun isZero => notZero (UInt8.toNat_inj.mp isZero)
  obtain ⟨bit, isSet⟩ := Nat.exists_testBit_of_ne_zero differs
  refine ⟨bit, ?_, isSet⟩
  by_contra high
  have bound : byte.toNat < 2 ^ bit :=
    Nat.lt_of_lt_of_le byte.toNat_lt (Nat.pow_le_pow_right (by decide) (Nat.not_lt.mp high))
  rw [Nat.testBit_eq_false_of_lt bound] at isSet
  contradiction

variable {left right : List UInt8}

theorem Tight.length_le (tight : Tight left)
    (same : ∀ pos, contains left pos = contains right pos) : left.length ≤ right.length := by
  cases isLast : left.getLast? with
  | none =>
    rw [getLast?_eq_none_iff.mp isLast]
    exact Nat.zero_le _
  | some last =>
    obtain ⟨init, isLeft⟩ := getLast?_eq_some_iff.mp isLast
    obtain ⟨bit, _, isSet⟩ := exists_bit (tight last isLast)
    have inLeft : contains left (8 * init.length + (7 - bit)) = true := by
      have isIndex : (8 * init.length + (7 - bit)) / 8 = init.length := by omega
      have isBit : 7 - (8 * init.length + (7 - bit)) % 8 = bit := by omega
      unfold contains
      rw [isIndex, isBit, isLeft, getElem?_append_right .refl, Nat.sub_self]
      exact isSet
    rw [same] at inLeft
    have inside := contains_lt inLeft
    rw [isLeft, length_append, length_singleton]
    omega

theorem eq_of_contains (sameLength : left.length = right.length)
    (same : ∀ pos, contains left pos = contains right pos) : left = right := by
  apply ext_getElem sameLength
  intro index leftBound rightBound
  apply UInt8.toNat_inj.mp
  apply Nat.eq_of_testBit_eq
  intro bit
  by_cases low : bit < 8
  · have sameBit := same (8 * index + (7 - bit))
    have isIndex : (8 * index + (7 - bit)) / 8 = index := by omega
    have isBit : 7 - (8 * index + (7 - bit)) % 8 = bit := by omega
    unfold contains at sameBit
    rw [isIndex, isBit, getElem?_eq_getElem leftBound, getElem?_eq_getElem rightBound] at sameBit
    exact sameBit
  · have bound : 2 ^ 8 ≤ 2 ^ bit := Nat.pow_le_pow_right (by decide) (Nat.not_lt.mp low)
    rw [Nat.testBit_eq_false_of_lt (Nat.lt_of_lt_of_le (UInt8.toNat_lt _) bound),
      Nat.testBit_eq_false_of_lt (Nat.lt_of_lt_of_le (UInt8.toNat_lt _) bound)]

theorem Tight.eq_of_contains (leftTight : Tight left) (rightTight : Tight right)
    (same : ∀ pos, contains left pos = contains right pos) : left = right :=
  PortSet.eq_of_contains (Nat.le_antisymm (leftTight.length_le same)
    (rightTight.length_le fun pos => (same pos).symm)) same

/-- The bitmap of ports in ascending order ends with the byte of the last one. -/
theorem ofPorts_tight (ascending : ports.Pairwise (· < ·)) : Tight (ofPorts ports) := by
  obtain ⟨_, _, isSet⟩ := ofPorts_spec ascending
  intro _ isLast isZero
  obtain ⟨init, isBitmap⟩ := getLast?_eq_some_iff.mp isLast
  have isLength : (ofPorts ports).length = init.length + 1 := by
    rw [isBitmap, length_append, length_singleton]
  cases isMax : ports.getLast? with
  | none =>
    have isNil : (ofPorts ([] : List UInt16)).length = 0 := by simp [ofPorts]
    rw [getLast?_eq_none_iff.mp isMax, isNil] at isLength
    omega
  | some maxPort =>
    have isSize := ofPorts_length ascending isMax
    have mem : maxPort ∈ ports := mem_of_mem_getLast? isMax
    have inBitmap := (isSet maxPort.toNat).mpr ⟨maxPort, mem, rfl⟩
    have isIndex : maxPort.toNat / 8 = init.length := by omega
    unfold contains at inBitmap
    rw [isIndex, isBitmap, getElem?_append_right .refl, Nat.sub_self, isZero] at inBitmap
    simp at inBitmap

/-- Ports that are read off a bitmap make the bitmap again, without the zero bytes at its
end. -/
theorem Low.ofPorts_toPorts {bitset : List UInt8} (low : Low bitset) :
    ofPorts (toPorts bitset) = trimmed bitset := by
  obtain ⟨_, _, isSet⟩ := ofPorts_spec low.toPorts_ascending
  apply (ofPorts_tight low.toPorts_ascending).eq_of_contains (trimmed_tight bitset)
  intro pos
  rw [contains_trimmed, Bool.eq_iff_iff, isSet]
  constructor
  · rintro ⟨_, mem, isPort⟩
    rw [isPort]
    exact low.mem_toPorts.mp mem
  · intro inBitset
    have isPort : (ofNat pos).toNat = pos := by
      exact Nat.mod_eq_of_lt (low pos inBitset)
    refine ⟨ofNat pos, low.mem_toPorts.mpr ?_, isPort.symm⟩
    rw [isPort]
    exact inBitset

end NtfCore.Ntcdns.PortSet
