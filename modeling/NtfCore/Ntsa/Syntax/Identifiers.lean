import NtfCore.Ntsa.Syntax.Values

/-!
Contract: object identifiers as the content of tags.

Owns: the octets of an `AbstractObjectIdentifier`, which identifiers are read back from
them, and when the decoder stays within the content.
-/

namespace NtfCore.Ntsa

open AbstractSyntaxEncoderUtil AbstractSyntaxDecoderUtil List

/-! ## Both directions -/

/-- `AbstractSyntaxEncoderFrame::encodeValue` of an `AbstractObjectIdentifier`. The first
two numbers are one octet. -/
def AbstractSyntaxEncoderFrame.encodeIdentifier : List UInt64 -> Except Error (List UInt8)
  | v0 :: v1 :: rest =>
    if v0 > 3 then .error .invalid
    else if (v0 = 0 ∨ v0 = 1) ∧ v1 > 39 then .error .invalid
    else
      .ok ((v0 * 40 + v1).toUInt8 :: rest.flatMap fun value => encodeIntegerBase128 value.toNat)
  | _ => .error .invalid

namespace AbstractSyntaxDecoder

/-- `--numBytesRemaining`, which is unsigned. -/
def oneLess (numBytesRemaining : Nat) : Nat :=
  if numBytesRemaining = 0 then 2 ^ 64 - 1 else numBytesRemaining - 1

/-- The two loops of `decodeValue`, with the value of the inner one: there is none where the
outer one begins again. Besides the numbers that are appended, the bytes are kept that are
not read. -/
def numbersLoop : List UInt8 -> Nat -> Option UInt64 -> Except Error (List UInt64) × List UInt8
  | [], numBytesRemaining, value =>
    if value = none ∧ numBytesRemaining = 0 then (.ok [], []) else (.error .eof, [])
  | nextOctet :: later, numBytesRemaining, value =>
    if value = none ∧ numBytesRemaining = 0 then (.ok [], nextOctet :: later)
    else
      let value := (value.getD 0 <<< 7) ||| (nextOctet &&& 0x7F).toUInt64
      if nextOctet &&& 0x80 = 0 then
        let (numbers, rest) := numbersLoop later (oneLess numBytesRemaining) none
        (numbers.map (value :: ·), rest)
      else numbersLoop later (oneLess numBytesRemaining) (some value)

def firstNumbers (nextOctet : UInt8) : List UInt64 :=
  if nextOctet ≥ 80 then [2, (nextOctet - 80).toUInt64]
  else [(nextOctet / 40).toUInt64, (nextOctet % 40).toUInt64]

/-- `decodeValue` of an `AbstractObjectIdentifier`. The decoder has moved also where there
is an error. -/
def decodeIdentifier (decoder : AbstractSyntaxDecoder) :
    Except Error (List UInt64) × AbstractSyntaxDecoder :=
  match decoder.examine [6] 1 with
  | .error error => (.error error, decoder)
  | .ok length =>
    match read decoder.source with
    | .error error => (.error error, decoder)
    | .ok (nextOctet, source) =>
      let (numbers, rest) := numbersLoop source.rest (length - 1) none
      (numbers.map (firstNumbers nextOctet ++ ·),
        { decoder with source := source.advance (source.rest.length - rest.length) })

theorem shifted_octet (start : Nat) {octet : UInt8} {digit : Nat}
    (isDigit : (octet &&& 0x7F).toNat = digit) (small : digit < 128) :
    (UInt64.ofNat start <<< 7) ||| (octet &&& 0x7F).toUInt64 =
      UInt64.ofNat (start * 128 + digit) := by
  rw [← isDigit]
  exact shift_or_ofNat (.inl rfl) start (isDigit.trans_lt small)

theorem numbersLoop_digits {digits : List Nat} {last : Nat}
    (small : ∀ digit ∈ digits, digit < 128) (lastSmall : last < 128) (more : List UInt8)
    (left start : Nat) {value : Option UInt64} (isStart : value.getD 0 = UInt64.ofNat start) :
    numbersLoop ((digits.map fun digit => UInt8.ofNat (digit + 128)) ++ UInt8.ofNat last :: more)
        (left + (digits.length + 1)) value = ((numbersLoop more left none).1.map
          (UInt64.ofNat (accumulate 128 start digits * 128 + last) :: ·),
        (numbersLoop more left none).2) := by
  induction digits generalizing start value with
  | nil =>
    obtain ⟨_, _, isDigit, clear⟩ := marked_octet ⟨last, lastSmall⟩
    rw [map_nil, nil_append, numbersLoop, if_neg (by simp), if_pos clear, isStart,
      shifted_octet start isDigit lastSmall]
    rfl
  | cons digit _ ih =>
    obtain ⟨digitSmall, restSmall⟩ := forall_mem_cons.mp small
    obtain ⟨isDigit, marked, _, _⟩ := marked_octet ⟨digit, digitSmall⟩
    rw [map_cons, cons_append, numbersLoop, if_neg (by simp), if_neg marked, isStart,
      shifted_octet start isDigit digitSmall]
    exact ih restSmall (start * 128 + digit) rfl

theorem encodeIntegerBase128_septets (value : Nat) :
    encodeIntegerBase128 value = septets value := by
  by_cases isZero : value = 0
  · rw [isZero]
    simp [encodeIntegerBase128, numSignificantBits, base128Loop, septets]
  · exact encodeIntegerBase128_eq isZero

theorem numbersLoop_encoded (numbers : List UInt64) (later : List UInt8) :
    let octets := numbers.flatMap fun value => encodeIntegerBase128 value.toNat
    numbersLoop (octets ++ later) octets.length none = (.ok numbers, later) := by
  dsimp only
  induction numbers with
  | nil =>
    cases later with
    | nil | cons _ later => rfl
  | cons number numbers ih =>
    have small : ∀ digit ∈ (Nat.digits 128 (number.toNat / 128)).reverse, digit < 128 := by
      intro _ mem
      exact Nat.digits_lt_base (by decide) (mem_reverse.mp mem)
    rw [flatMap_cons, encodeIntegerBase128_septets, septets, length_append,
      length_append, length_map, append_assoc, append_assoc, Nat.add_comm]
    have decoded := numbersLoop_digits small (Nat.mod_lt number.toNat (by decide))
      ((numbers.flatMap fun value => encodeIntegerBase128 value.toNat) ++ later)
      (numbers.flatMap fun value => encodeIntegerBase128 value.toNat).length 0
      (show none.getD 0 = UInt64.ofNat 0 from rfl)
    rw [ih, accumulate_digits, Nat.div_add_mod', UInt64.ofNat_toNat] at decoded
    exact decoded

/-! ## The identifiers that are read back -/

variable {decoder : AbstractSyntaxDecoder} {content later : List UInt8}

theorem decodeIdentifier_eq {nextOctet : UInt8} (isAt : decoder.At [6] (nextOctet :: content) later)
    : decodeIdentifier decoder =
      ((numbersLoop (content ++ later) content.length none).1.map (firstNumbers nextOctet ++ ·),
        { decoder with source := decoder.source.advance (1 + ((content ++ later).length -
            (numbersLoop (content ++ later) content.length none).2.length)) }) := by
  obtain ⟨isRead, isLater⟩ := read_eq isAt.isRest
  rw [decodeIdentifier, isAt.examine_long (Nat.succ_le_succ (Nat.zero_le _))]
  simp only [isRead, isLater, length_cons, Nat.add_sub_cancel, Source.advance_advance]
  rfl

def ReadBack (identifier : List UInt64) (content : List UInt8) : Prop :=
  ∀ decoder later, At decoder [6] content later ->
    decodeIdentifier decoder = (.ok identifier, decoder.behind content)

def OneOctet : List UInt64 -> Prop
  | v0 :: v1 :: _ => v0.toNat ≤ 2 ∧ v0.toNat * 40 + v1.toNat ≤ 255
  | _ => True

/-- The first octet gives the two numbers back, as long as they fit. -/
theorem joint_octet_iff {v0 v1 : Nat} (known : v0 ≤ 3) (few : v0 ≤ 1 -> v1 ≤ 39) :
    (80 ≤ (v0 * 40 + v1) % 256 -> (2 = v0 ∧ (v0 * 40 + v1) % 256 - 80 = v1 ↔
      v0 ≤ 2 ∧ v0 * 40 + v1 ≤ 255)) ∧
    ((v0 * 40 + v1) % 256 < 80 -> ((v0 * 40 + v1) % 256 / 40 = v0 ∧ (v0 * 40 + v1) % 256 % 40 = v1 ↔
      v0 ≤ 2 ∧ v0 * 40 + v1 ≤ 255)) := by
  obtain rfl | rfl | rfl | rfl : v0 = 0 ∨ v0 = 1 ∨ v0 = 2 ∨ v0 = 3 := by omega
  · omega
  · omega
  · omega
  · omega

theorem firstNumbers_eq_iff {v0 v1 : UInt64} (known : v0.toNat ≤ 3)
    (few : v0.toNat ≤ 1 -> v1.toNat ≤ 39) : firstNumbers (v0 * 40 + v1).toUInt8 = [v0, v1] ↔
      v0.toNat ≤ 2 ∧ v0.toNat * 40 + v1.toNat ≤ 255 := by
  have octet : (v0 * 40 + v1).toUInt8.toNat = (v0.toNat * 40 + v1.toNat) % 256 := by
    change (v0.toNat * 40 % 2 ^ 64 + v1.toNat) % 2 ^ 64 % 2 ^ 8 = _
    omega
  have large : (v0 * 40 + v1).toUInt8 ≥ 80 ↔ 80 ≤ (v0.toNat * 40 + v1.toNat) % 256 := by
    rw [← octet]
    exact UInt8.le_iff_toNat_le
  unfold firstNumbers
  by_cases isLarge : (v0 * 40 + v1).toUInt8 ≥ 80
  · have difference := UInt8.toNat_sub_of_le _ _ isLarge
    have bound := large.mp isLarge
    rw [octet, show (80 : UInt8).toNat = 80 from rfl] at difference
    simp only [if_pos isLarge, cons.injEq, and_true, ← UInt64.toNat_inj, UInt8.toNat_toUInt64,
      difference]
    exact (joint_octet_iff known few).1 bound
  · have bound : (v0.toNat * 40 + v1.toNat) % 256 < 80 :=
      Nat.not_le.mp fun le => isLarge (large.mpr le)
    simp only [if_neg isLarge, cons.injEq, and_true, ← UInt64.toNat_inj, UInt8.toNat_toUInt64,
      UInt8.toNat_div, UInt8.toNat_mod, octet]
    exact (joint_octet_iff known few).2 bound

theorem readBack_iff {identifier : List UInt64}
    (encoded : AbstractSyntaxEncoderFrame.encodeIdentifier identifier = .ok content) :
    ReadBack identifier content ↔ OneOctet identifier := by
  match identifier, encoded with
  | v0 :: v1 :: rest, encoded =>
    rw [AbstractSyntaxEncoderFrame.encodeIdentifier] at encoded
    split at encoded
    · cases encoded
    rename_i known
    split at encoded
    · cases encoded
    rename_i few
    cases encoded
    have known' : v0.toNat ≤ 3 := by simpa [UInt64.lt_iff_toNat_lt] using known
    have few' : v0.toNat ≤ 1 -> v1.toNat ≤ 39 := by
      intro _
      have isFirst : v0 = 0 ∨ v0 = 1 := by
        simp only [← UInt64.toNat_inj]
        change v0.toNat = 0 ∨ v0.toNat = 1
        omega
      simpa [isFirst, UInt64.lt_iff_toNat_lt] using few
    rw [OneOctet, ← firstNumbers_eq_iff known' few']
    constructor
    · intro readBack
      have isAt := behindTag_at (show 6 ∈ [6] by decide) ((v0 * 40 + v1).toUInt8 ::
        rest.flatMap fun value => encodeIntegerBase128 value.toNat) []
      have same := congrArg Prod.fst (readBack _ _ isAt)
      rw [decodeIdentifier_eq isAt, numbersLoop_encoded] at same
      have appended := Except.ok.inj same
      exact append_inj_left' appended rfl
    · intro same _ _ isAt
      rw [decodeIdentifier_eq isAt, numbersLoop_encoded, same, length_append, Nat.add_sub_cancel]
      simp only [behind, length_cons, Nat.add_comm 1]
      rfl

/-! ## The octets that are read -/

structure Contained (decoder : AbstractSyntaxDecoder) (content : List UInt8) : Prop where
  inside : (decodeIdentifier decoder).2.source.position ≤
    decoder.source.position + content.length
  exactly : ∀ identifier, (decodeIdentifier decoder).1 = .ok identifier ->
    (decodeIdentifier decoder).2.source.position = decoder.source.position + content.length

def Terminated (content : List UInt8) : Prop :=
  ∀ last ∈ content.tail.getLast?, last &&& 0x80 = 0

theorem numbersLoop_rest_le (bytes : List UInt8) (left : Nat) (value : Option UInt64) :
    (numbersLoop bytes left value).2.length ≤ bytes.length := by
  induction bytes generalizing left value with
  | nil =>
    rw [numbersLoop]
    split
    · exact le_refl _
    · exact le_refl _
  | cons _ _ ih =>
    rw [numbersLoop]
    split
    · exact le_refl _
    · dsimp only
      split
      · exact Nat.le_succ_of_le (ih _ _)
      · exact Nat.le_succ_of_le (ih _ _)

/-- The loops end behind the content if its last octet ends a number. -/
theorem numbersLoop_terminated (content later : List UInt8) {value : Option UInt64}
    (started : content = [] -> value = none)
    (terminated : ∀ last ∈ content.getLast?, last &&& 0x80 = 0) :
    ∃ numbers, numbersLoop (content ++ later) content.length value = (.ok numbers, later) := by
  induction content generalizing value with
  | nil =>
    rw [started rfl]
    cases later with
    | nil | cons nextOctet _ => exact ⟨[], rfl⟩
  | cons nextOctet content ih =>
    have others : ∀ last ∈ content.getLast?, last &&& 0x80 = 0 := by
      intro last isLast
      exact terminated last (mem_getLast?_cons isLast)
    rw [cons_append, length_cons, numbersLoop, if_neg (by simp)]
    split
    · obtain ⟨_, decoded⟩ := @ih none (fun _ => rfl) others
      rw [oneLess, if_neg (Nat.succ_ne_zero _), Nat.add_sub_cancel, decoded]
      exact ⟨_, rfl⟩
    · rename_i marked
      refine ih (fun isNil => ?_) others
      rw [isNil] at terminated
      exact absurd (terminated nextOctet rfl) marked

/-- Otherwise they are in the inner one there. -/
theorem numbersLoop_open {content : List UInt8} (later : List UInt8) {value : Option UInt64}
    {last : UInt8} (isLast : last ∈ content.getLast?) (marked : last &&& 0x80 ≠ 0) :
    ∃ value', (numbersLoop (content ++ later) content.length value).2 =
        (numbersLoop later 0 (some value')).2 ∧
      ∀ numbers, (numbersLoop (content ++ later) content.length value).1 = .ok numbers ->
        ∃ numbers', (numbersLoop later 0 (some value')).1 = .ok numbers' := by
  induction content generalizing value with
  | nil => cases isLast
  | cons nextOctet content ih =>
    rw [cons_append, length_cons, numbersLoop, if_neg (by simp), oneLess,
      if_neg (Nat.succ_ne_zero _), Nat.add_sub_cancel]
    dsimp only
    cases content with
    | nil =>
      have isOctet : nextOctet = last := Option.some.inj isLast
      rw [isOctet, if_neg marked]
      exact ⟨_, rfl, fun numbers isOk => ⟨numbers, isOk⟩⟩
    | cons following content =>
      split
      · obtain ⟨value', isRest, isOk⟩ := @ih none isLast
        refine ⟨value', isRest, fun _ mapped => ?_⟩
        cases decoded : (numbersLoop (following :: content ++ later)
            (following :: content).length none).1 with
        | error _ =>
          rw [decoded] at mapped
          cases mapped
        | ok numbers' => exact isOk numbers' decoded
      · exact ih isLast

theorem contained_iff (isAt : decoder.At [6] content later) :
    Contained decoder content ↔ Terminated content ∨ later = [] := by
  cases content with
  | nil =>
    have refused : decodeIdentifier decoder = (.error .invalid, decoder) := by
      rw [decodeIdentifier, isAt.examine_short (Nat.zero_lt_one)]
    refine iff_of_true ⟨?_, ?_⟩ (.inl (by simp [Terminated]))
    · rw [refused]
      exact Nat.le_refl _
    · intro _ decoded
      rw [refused] at decoded
      cases decoded
  | cons first content =>
    have decoded := decodeIdentifier_eq isAt
    by_cases terminated : Terminated (first :: content)
    · obtain ⟨numbers, looped⟩ := @numbersLoop_terminated content later none (fun _ => rfl)
        terminated
      rw [looped, length_append, Nat.add_sub_cancel, Nat.add_comm] at decoded
      refine iff_of_true ⟨?_, fun _ _ => ?_⟩ (.inl terminated)
      · rw [decoded]
        exact Nat.le_refl _
      · rw [decoded]
        rfl
    · unfold Terminated at terminated
      push Not at terminated
      obtain ⟨last, isLast, marked⟩ := terminated
      obtain ⟨value', isRest, isOk⟩ := @numbersLoop_open content later none last isLast marked
      rw [isRest, length_append] at decoded
      have open' : ¬ Terminated (first :: content) := fun all => marked (all last isLast)
      rw [or_iff_right open']
      cases later with
      | nil =>
        refine iff_of_true ⟨?_, fun _ isIdentifier => ?_⟩ rfl
        · rw [decoded]
          simp [numbersLoop, Source.advance, Nat.add_comm 1]
        · rw [decoded] at isIdentifier
          cases looped : (numbersLoop (content ++ []) content.length none).1 with
          | error =>
            rw [looped] at isIdentifier
            cases isIdentifier
          | ok numbers =>
            obtain ⟨_, impossible⟩ := isOk numbers looped
            cases impossible
      | cons nextOctet later =>
        refine iff_of_false (fun contained => ?_) (cons_ne_nil _ _)
        have inside := contained.inside
        have less : (numbersLoop (nextOctet :: later) 0 (some value')).2.length ≤ later.length := by
          rw [numbersLoop, if_neg (by simp)]
          split
          · exact numbersLoop_rest_le _ _ _
          · exact numbersLoop_rest_le _ _ _
        rw [decoded] at inside
        simp only [Source.advance_position, length_cons] at inside
        omega

/-- What `decodeValue` reads back from what `encodeValue` accepts, and when it stays within
the content. -/
theorem identifiers_decoded_iff {identifier : List UInt64} {content : List UInt8}
    (encoded : AbstractSyntaxEncoderFrame.encodeIdentifier identifier = .ok content)
    {decoder : AbstractSyntaxDecoder} {octets later : List UInt8}
    (isAt : At decoder [6] octets later) : (ReadBack identifier content ↔ OneOctet identifier) ∧
      (Contained decoder octets ↔ Terminated octets ∨ later = []) :=
  ⟨readBack_iff encoded, contained_iff isAt⟩

theorem identifiers_decoded : (ReadBack [2, 5, 840] [85, 134, 72] ↔ OneOctet [2, 5, 840]) ∧
      (Contained (behindTag 6 [85, 134, 72] [1]) [85, 134, 72] ↔
        Terminated [85, 134, 72] ∨ ([1] : List UInt8) = []) :=
  identifiers_decoded_iff (by decide +kernel)
    (behindTag_at (show 6 ∈ [6] by decide) [85, 134, 72] [1])

/-- The identifier 2.999 is written as one octet, which is read as 1.15. -/
theorem joint_number_lost : ¬ ((∀ identifier content,
        AbstractSyntaxEncoderFrame.encodeIdentifier identifier = .ok content ->
          ReadBack identifier content) ∧
      ∀ decoder content later, At decoder [6] content later -> Contained decoder content) := by
  rintro ⟨readBack, _⟩
  have encoded : AbstractSyntaxEncoderFrame.encodeIdentifier [2, 999] = .ok [55] := by
    decide +kernel
  have same := readBack _ _ encoded _ _ (behindTag_at (show 6 ∈ [6] by decide) [55] [])
  exact absurd (congrArg Prod.fst same) (by decide +kernel)

end AbstractSyntaxDecoder

end NtfCore.Ntsa
