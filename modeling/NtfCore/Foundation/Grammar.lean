import NtfCore.Foundation.Buffer

/-!
Contract: which items lie at which places of some data.

A grammar relates a place, an item that lies there, and the place after it. Grammars are put
one after another, so that what follows may depend on what came before.

Owns: the composition of grammars, alternatives and repetitions.
-/

namespace NtfCore.Foundation

/-- The item lies in the data at the first place, up to the second. -/
def Grammar (α β : Type) : Type := List α -> Nat -> β -> Nat -> Prop

namespace Grammar

variable {α β γ : Type}

/-- No bytes. -/
def done (value : β) : Grammar α β := fun _ position item next => item = value ∧ next = position

/-- An item, and what follows it. -/
def seq (first : Grammar α β) (rest : β -> Grammar α γ) : Grammar α γ :=
  fun data position item next =>
    ∃ part middle, first data position part middle ∧ rest part data middle item next

instance : Monad (Grammar α) where
  pure := done
  bind := seq

/-- Nothing is an item. -/
def nothing : Grammar α β := fun _ _ _ _ => False

/-- The value that is known, if there is one. -/
def known (option : Option β) : Grammar α β :=
  fun _ position item next => option = some item ∧ next = position

/-- As many elements as are asked for. -/
def fixed (size : Nat) : Grammar α (List α) :=
  fun data position items next =>
    Buffer.Ahead data position items ∧ items.length = size ∧ next = position + size

/-- Either of two. -/
def either (left right : Grammar α β) : Grammar α β :=
  fun data position item next => left data position item next ∨ right data position item next

/-- As many items as are asked for. -/
def times (grammar : Grammar α β) : Nat -> Grammar α (List β)
  | 0 => done []
  | count + 1 => grammar.seq fun first => (grammar.times count).seq fun rest => done (first :: rest)

/-- An item that takes the given number of elements. -/
def sized (size : Nat) (grammar : Grammar α β) : Grammar α β :=
  fun data position item next => grammar data position item next ∧ next = position + size

/-- At most one item lies at a place. -/
def Unambiguous (grammar : Grammar α β) : Prop :=
  ∀ data position item next other after, grammar data position item next ->
    grammar data position other after -> other = item ∧ after = next

section Repetition

variable {grammar left right : Grammar α β} {data : List α} {position middle next : Nat}
  {items others : List β}

theorem times_zero_iff : grammar.times 0 data position items next ↔
    items = [] ∧ next = position := Iff.rfl

variable {count : Nat}

theorem times_succ_iff : grammar.times (count + 1) data position items next ↔
    ∃ first middle rest, grammar data position first middle ∧
      grammar.times count data middle rest next ∧ items = first :: rest := by
  constructor
  · rintro ⟨first, middle, isFirst, rest, _, isRest, isItems, isNext⟩
    exact ⟨first, middle, rest, isFirst, isNext ▸ isRest, isItems⟩
  · rintro ⟨first, middle, rest, isFirst, isRest, isItems⟩
    exact ⟨first, middle, isFirst, rest, next, isRest, isItems, rfl⟩

theorem times_append {first second : Nat} (front : grammar.times first data position items middle)
    (back : grammar.times second data middle others next) :
    grammar.times (first + second) data position (items ++ others) next := by
  induction first generalizing position items with
  | zero =>
    obtain ⟨isNil, isMiddle⟩ := times_zero_iff.mp front
    rw [isNil, ← isMiddle, Nat.zero_add]
    exact back
  | succ _ ih =>
    obtain ⟨item, stop, rest, isItem, isRest, isItems⟩ := times_succ_iff.mp front
    rw [isItems, Nat.add_right_comm]
    exact times_succ_iff.mpr ⟨item, stop, rest ++ others, isItem, ih isRest, rfl⟩

theorem times_item {count more : Nat}
    (isItems : grammar.times (count + (more + 1)) data position items next) :
    ∃ front middle item stop, grammar.times count data position front middle ∧
      grammar data middle item stop := by
  induction count generalizing position items with
  | zero =>
    obtain ⟨item, stop, _, isItem, _, _⟩ := times_succ_iff.mp isItems
    exact ⟨[], position, item, stop, times_zero_iff.mpr ⟨rfl, rfl⟩, isItem⟩
  | succ _ ih =>
    rw [Nat.add_right_comm] at isItems
    obtain ⟨first, stop, _, isFirst, isRest, _⟩ := times_succ_iff.mp isItems
    obtain ⟨front, middle, item, after, isFront, isItem⟩ := ih isRest
    exact ⟨first :: front, middle, item, after,
      times_succ_iff.mpr ⟨first, stop, front, isFirst, isFront, rfl⟩, isItem⟩

theorem times_mono (implies : ∀ data position item next,
      left data position item next -> right data position item next) (isItems :
    left.times count data position items next) : right.times count data position items next := by
  induction count generalizing position items with
  | zero => exact isItems
  | succ _ ih =>
    obtain ⟨first, stop, rest, isFirst, isRest, isCons⟩ := times_succ_iff.mp isItems
    exact times_succ_iff.mpr ⟨first, stop, rest, implies _ _ _ _ isFirst, ih isRest, isCons⟩

/-- Items of two kinds are all of the first, or there is a first one of the second. -/
theorem times_either (isItems : (left.either right).times count data position items next) :
    left.times count data position items next ∨ ∃ before after, before + (after + 1) = count ∧
        ∃ front middle, left.times before data position front middle ∧
          ∃ item stop, right data middle item stop ∧
            ∃ rest, (left.either right).times after data stop rest next := by
  induction count generalizing position items with
  | zero => exact .inl isItems
  | succ count ih =>
    obtain ⟨first, stop, rest, isFirst, isRest, isCons⟩ := times_succ_iff.mp isItems
    rcases isFirst with isLeft | isRight
    · rcases ih isRest with allLeft | firstRight
      · exact .inl (times_succ_iff.mpr ⟨first, stop, rest, isLeft, allLeft, isCons⟩)
      · obtain ⟨before, after, _, front, middle, isFront, others⟩ := firstRight
        exact .inr ⟨before + 1, after, by omega, first :: front, middle,
          times_succ_iff.mpr ⟨first, stop, front, isLeft, isFront, rfl⟩, others⟩
    · exact .inr ⟨0, count, Nat.zero_add _, [], position, times_zero_iff.mpr ⟨rfl, rfl⟩, first,
        stop, isRight, rest, isRest⟩

theorem Unambiguous.times (unambiguous : grammar.Unambiguous) (count : Nat) :
    (grammar.times count).Unambiguous := by
  intro _ position items _ others _ isItems isOthers
  induction count generalizing position items others with
  | zero =>
    obtain ⟨isNil, isNext⟩ := times_zero_iff.mp isItems
    obtain ⟨isNil', isAfter⟩ := times_zero_iff.mp isOthers
    exact ⟨isNil'.trans isNil.symm, isAfter.trans isNext.symm⟩
  | succ _ ih =>
    obtain ⟨_, _, _, isFirst, isRest, isCons⟩ := times_succ_iff.mp isItems
    obtain ⟨_, _, _, isFirst', isRest', isCons'⟩ := times_succ_iff.mp isOthers
    obtain ⟨sameFirst, sameStop⟩ := unambiguous _ _ _ _ _ _ isFirst isFirst'
    rw [sameStop] at isRest'
    obtain ⟨sameRest, sameNext⟩ := ih _ _ _ isRest isRest'
    exact ⟨by rw [isCons, isCons', sameFirst, sameRest], sameNext⟩

end Repetition

end Grammar

end NtfCore.Foundation
