import NtfCore.Ntsa.Uri.Components

/-!
Contract: the escapes of `ntsa::UriUtil::encodeUrl` and `decodeUrl` on any text.

Owns: the encoder with its options, that its output is decoded, and the texts that the decoder
accepts although a percent sign is not followed by hexadecimal digits.
-/

namespace NtfCore.Ntsa.UriUtil

open NtfCore.Foundation.Text

/-- One character of `encodeUrl`, with or without the option `k_ENCODE_FORM_DATA`. -/
def encodeCharacterFor (formData : Bool) (ch : UInt8) : List UInt8 :=
  if isUnreserved ch then [ch]
  else if ch = ascii ' ' ∧ formData then [ascii '+']
  else [ascii '%', encodeHex (ch >>> 4), encodeHex (ch &&& 15)]

/-- `encodeUrl`. -/
def encodeUrlFor (formData : Bool) (source : List UInt8) : Option (List UInt8) :=
  if source = [] then none else some (source.flatMap (encodeCharacterFor formData))

/-- `isxdigit`. -/
def isHexDigit (ch : UInt8) : Bool :=
  isDigit ch || ascii 'a' ≤ toLower ch && toLower ch ≤ ascii 'f'

def WellEscaped (text : List UInt8) : Prop :=
  ∀ before after, text = before ++ ascii '%' :: after -> ∃ first second rest,
    after = first :: second :: rest ∧ isHexDigit first = true ∧ isHexDigit second = true

inductive Escaped : List UInt8 -> Prop
  | nil : Escaped []
  | plain {ch : UInt8} {rest : List UInt8} (notPercent : ch ≠ ascii '%') (others : Escaped rest) :
      Escaped (ch :: rest)
  | escape (first second : UInt8) {rest : List UInt8} (others : Escaped rest) :
      Escaped (ascii '%' :: first :: second :: rest)

theorem decodeLoop_encodeCharacterFor (formData : Bool) (ch : UInt8) (rest : List UInt8) :
    decodeLoop (encodeCharacterFor formData ch ++ rest) = (decodeLoop rest).map (ch :: ·) := by
  by_cases form : ch = ascii ' ' ∧ formData
  · have reserved : ¬ isUnreserved ch = true := by
      rw [form.1]
      decide
    rw [encodeCharacterFor, if_neg reserved, if_pos form, form.1, List.singleton_append,
      decodeLoop.eq_def]
    rfl
  · have same : encodeCharacterFor formData ch = encodeCharacter ch := by
      rw [encodeCharacterFor, if_neg form, encodeCharacter]
    rw [same, decodeLoop_encodeCharacter]

/-- Every byte string is decoded from its escapes. -/
theorem decodeUrl_encodeUrlFor (formData : Bool) {source : List UInt8} (ne : source ≠ []) :
    (encodeUrlFor formData source).bind decodeUrl = some source := by
  have decoded : ∀ others, decodeLoop (others.flatMap (encodeCharacterFor formData)) =
      some others := by
    intro others
    induction others with
    | nil => rfl
    | cons _ _ ih =>
      rw [List.flatMap_cons, decodeLoop_encodeCharacterFor, ih]
      rfl
  have encodedNonempty : source.flatMap (encodeCharacterFor formData) ≠ [] := by
    intro isNil
    have readBack := decoded source
    rw [isNil] at readBack
    exact ne (Option.some.inj readBack).symm
  rw [encodeUrlFor, if_neg ne, Option.bind_some, decodeUrl, if_neg encodedNonempty, decoded]

theorem decodeLoop_isSome_iff (text : List UInt8) :
    (decodeLoop text).isSome = true ↔ Escaped text := by
  induction text using decodeLoop.induct with
  | case1 => exact iff_of_true rfl .nil
  | case2 first second rest ih =>
    rw [decodeLoop.eq_def]
    dsimp only
    rw [if_pos rfl, Option.isSome_map, ih]
    constructor
    · exact Escaped.escape first second
    · intro escaped
      cases escaped with
      | plain notPercent => contradiction
      | escape _ _ others => exact others
  | case3 rest short =>
    have refused : decodeLoop (ascii '%' :: rest) = none := by
      rw [decodeLoop.eq_def]
      dsimp only
      rw [if_pos rfl]
      split
      · rename_i first second others
        exact absurd rfl (short first second others)
      · rfl
    rw [refused]
    refine iff_of_false Bool.false_ne_true fun escaped => ?_
    cases escaped with
    | plain notPercent => exact notPercent rfl
    | escape _ _ others => exact short _ _ _ rfl
  | case4 _ _ notPercent ih =>
    rw [decodeLoop.eq_def]
    dsimp only
    rw [if_neg notPercent, Option.isSome_map, ih]
    constructor
    · exact Escaped.plain notPercent
    · intro escaped
      cases escaped with
      | plain _ others => exact others
      | escape => contradiction

theorem WellEscaped.suffix {before rest : List UInt8} (escaped : WellEscaped (before ++ rest)) :
    WellEscaped rest := by
  intro start after isRest
  exact escaped (before ++ start) after (by rw [isRest, List.append_assoc])

theorem WellEscaped.escaped {text : List UInt8} (wellEscaped : WellEscaped text) :
    Escaped text := by
  induction text using decodeLoop.induct with
  | case1 => exact .nil
  | case2 first second rest ih =>
    have others : WellEscaped rest := @WellEscaped.suffix [ascii '%', first, second] rest
      wellEscaped
    exact .escape first second (ih others)
  | case3 rest short =>
    obtain ⟨first, second, others, isRest, _⟩ := wellEscaped [] rest rfl
    exact absurd isRest (short first second others)
  | case4 ch rest notPercent ih =>
    have others : WellEscaped rest := @WellEscaped.suffix [ch] rest wellEscaped
    exact .plain notPercent (ih others)

/-- Every byte string that is not empty is decoded from its escapes, with both options, and a text
is accepted by the rule exactly when it is not empty and, if it can be cut into characters and
percent signs with two characters each, these are two hexadecimal digits. -/
theorem urls_decoded_iff (formData : Bool) (source text : List UInt8) :
    (source ≠ [] -> (encodeUrlFor formData source).bind decodeUrl = some source) ∧
      (((decodeUrl text).isSome = true ↔ WellEscaped text) ↔
        text ≠ [] ∧ (Escaped text -> WellEscaped text)) := by
  refine ⟨decodeUrl_encodeUrlFor formData, ?_⟩
  by_cases isNil : text = []
  · have wellEscaped : WellEscaped text := by
      intro _ _ isText
      rw [isNil] at isText
      exact absurd isText (by simp)
    have refused : ¬ (decodeUrl text).isSome = true := by
      rw [decodeUrl, if_pos isNil]
      exact Bool.false_ne_true
    exact iff_of_false (fun law => refused (law.mpr wellEscaped)) (fun law => law.1 isNil)
  · rw [decodeUrl, if_neg isNil, decodeLoop_isSome_iff]
    exact ⟨fun law => ⟨isNil, law.mp⟩, fun law => ⟨law.2, WellEscaped.escaped⟩⟩

/-- A percent sign with two letters that are no hexadecimal digits is decoded. -/
theorem letters_decoded : ¬ ((decodeUrl [ascii '%', ascii 'z', ascii 'z']).isSome = true ↔
      WellEscaped [ascii '%', ascii 'z', ascii 'z']) := by
  intro law
  obtain ⟨_, _, _, isRest, isHex, _⟩ := law.mp (by decide) [] _ rfl
  obtain ⟨rfl, _⟩ := List.cons_eq_cons.mp isRest
  contradiction

end NtfCore.Ntsa.UriUtil
