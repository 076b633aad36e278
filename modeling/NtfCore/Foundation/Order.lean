import Mathlib.Data.Set.Basic

/-!
Contract: comparison functions as orders.

Owns: what it means that a pair of Boolean functions, one for `less` and one for
`equals`, orders a set of values; orders that come from a key; and how the
notion passes through a one-to-one tag.
-/

namespace NtfCore.Foundation.Order

variable {α β : Type}

/-- Exactly one of three tests succeeds. -/
def ExactlyOne (first second third : Bool) : Prop :=
  (first = true ∧ second = false ∧ third = false) ∨
    (first = false ∧ second = true ∧ third = false) ∨
    (first = false ∧ second = false ∧ third = true)

/-- On the given values `less` is irreflexive and transitive, and any two of
them are ordered one way, ordered the other way, or equal, and only that. -/
structure Orders (less equals : α -> α -> Bool) (values : Set α) : Prop where
  irreflexive : ∀ a ∈ values, less a a = false
  transitive : ∀ a ∈ values, ∀ b ∈ values, ∀ c ∈ values,
    less a b = true -> less b c = true -> less a c = true
  exactlyOne : ∀ a ∈ values, ∀ b ∈ values, ExactlyOne (less a b) (less b a) (equals a b)

variable {less equals : α -> α -> Bool} {values : Set α}

theorem Orders.comparable (orders : Orders less equals values) {a b : α} (left : a ∈ values)
    (right : b ∈ values) (notLess : less a b = false) (notGreater : less b a = false) :
    equals a b = true := by
  rcases orders.exactlyOne a left b right with ⟨isLess, _⟩ | ⟨_, isGreater, _⟩ | ⟨_, _, same⟩
  · rw [notLess] at isLess
    contradiction
  · rw [notGreater] at isGreater
    contradiction
  · exact same

theorem exactlyOne_of_lt_iff {Key : Type} [LinearOrder Key] (left right : Key) {p q r : Bool}
    (first : p = true ↔ left < right) (second : q = true ↔ right < left)
    (third : r = true ↔ left = right) : ExactlyOne p q r := by
  have notIff : ∀ (test : Bool) (holds : Prop), (test = true ↔ holds) -> ¬ holds -> test = false := by
    intro test holds equivalence refuted
    rw [Bool.eq_false_iff]
    exact fun isTrue => refuted (equivalence.mp isTrue)
  rcases lt_trichotomy left right with isLess | same | isGreater
  · exact .inl ⟨first.mpr isLess, notIff q _ second (lt_asymm isLess),
      notIff r _ third (ne_of_lt isLess)⟩
  · refine .inr (.inr ⟨notIff p _ first ?_, notIff q _ second ?_, third.mpr same⟩)
    · exact fun isLess => ne_of_lt isLess same
    · exact fun isGreater => ne_of_gt isGreater same
  · exact .inr (.inl ⟨notIff p _ first (lt_asymm isGreater), second.mpr isGreater,
      notIff r _ third (ne_of_gt isGreater)⟩)

theorem orders_of_key {Key : Type} [LinearOrder Key] (key : α -> Key)
    (lessIff : ∀ a ∈ values, ∀ b ∈ values, less a b = true ↔ key a < key b)
    (equalsIff : ∀ a ∈ values, ∀ b ∈ values, equals a b = true ↔ key a = key b) :
    Orders less equals values where
  irreflexive := by
    intro a mem
    rw [Bool.eq_false_iff]
    exact fun isLess => lt_irrefl _ ((lessIff a mem a mem).mp isLess)
  transitive := by
    intro a inA b inB c inC first second
    exact (lessIff a inA c inC).mpr
      (lt_trans ((lessIff a inA b inB).mp first) ((lessIff b inB c inC).mp second))
  exactlyOne := fun a inA b inB =>
    exactlyOne_of_lt_iff _ _ (lessIff a inA b inB) (lessIff b inB a inA) (equalsIff a inA b inB)

/-- A tag that both comparisons see through orders its values as the untagged
ones are ordered. -/
theorem orders_image {lessInner equalsInner : β -> β -> Bool} (tag : β -> α) (values : Set α)
    (covered : ∀ a ∈ values, ∃ b, a = tag b)
    (sameLess : ∀ a b, less (tag a) (tag b) = lessInner a b := by exact fun _ _ => rfl)
    (sameEquals : ∀ a b, equals (tag a) (tag b) = equalsInner a b := by exact fun _ _ => rfl) :
    Orders less equals values ↔ Orders lessInner equalsInner {b | tag b ∈ values} := by
  constructor
  · intro orders
    refine ⟨?_, ?_, ?_⟩
    · intro a mem
      rw [← sameLess]
      exact orders.irreflexive _ mem
    · intro a inA b inB c inC first second
      rw [← sameLess] at first second ⊢
      exact orders.transitive _ inA _ inB _ inC first second
    · intro a inA b inB
      rw [← sameLess, ← sameLess, ← sameEquals]
      exact orders.exactlyOne _ inA _ inB
  · intro orders
    refine ⟨?_, ?_, ?_⟩
    · intro a mem
      obtain ⟨b, rfl⟩ := covered a mem
      rw [sameLess]
      exact orders.irreflexive _ mem
    · intro a inA b inB c inC first second
      obtain ⟨a, rfl⟩ := covered a inA
      obtain ⟨b, rfl⟩ := covered b inB
      obtain ⟨c, rfl⟩ := covered c inC
      rw [sameLess] at first second ⊢
      exact orders.transitive _ inA _ inB _ inC first second
    · intro a inA b inB
      obtain ⟨a, rfl⟩ := covered a inA
      obtain ⟨b, rfl⟩ := covered b inB
      rw [sameLess, sameLess, sameEquals]
      exact orders.exactlyOne _ inA _ inB

end NtfCore.Foundation.Order
