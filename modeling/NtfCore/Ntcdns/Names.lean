import NtfCore.Ntcdns.Elements

/-!
Contract: domain names that are decoded from any bytes.

A pointer may lead to any place, also back to itself, and the number of pointers that are
followed is bounded by the depth of the calls. The place after a name is that after its part
in place, wherever its pointer leads.

Owns: the rounds of the loops and the bytes they read, the labels that are found by following
pointers, and the text that is made of them.
-/

namespace NtfCore.Ntcdns

open NtfCore.Foundation List Option
open MemoryDecoder
open MemoryDecoder.NameOutcome

/-! ## The rounds of the loops -/

/-- `d_end - d_current`, a difference of pointers that is taken without sign. -/
def remaining (data : List UInt8) (current : Nat) : Nat :=
  if current ≤ data.length then data.length - current else 2 ^ 64 + data.length - current

/-- What a round of the loop of `decodeDomainName` or of `decodeLabel` comes to. -/
inductive NameStep where
  | next (value : List UInt8) (current : Nat)
  | pointer (offset current : Nat)
  | ended (outcome : MemoryDecoder.NameOutcome)

/-- A round of the loop of `decodeDomainName`, or of `decodeLabel` after the given number of
pointers, with the positions it reads. -/
def nameStep (data : List UInt8) (followed : Nat) (value : List UInt8) (current : Nat) :
    NameStep × List Nat :=
  if remaining data current < 1 then
    (.ended { error := some .invalid, value := value, current := current }, [])
  else
    let length := data.getD current 0
    if length = 0 then
      (.ended { error := none, value := value, current := current + 1 }, [current])
    else if length.toNat ≤ maxLabelLength then
      if remaining data (current + 1) < length.toNat then
        (.ended {
          error := some .invalid
          value := separated value
          current := current + 1 }, [current])
      else
        (.next (separated value ++ (data.drop (current + 1)).take length.toNat)
          (current + 1 + length.toNat), List.range' current (1 + length.toNat))
    else if followed ≤ maxLabelResolutionRecursionDepth then
      if length &&& 0xC0 = 0xC0 then
        if remaining data (current + 1) < 1 then
          (.ended { error := some .invalid, value := value, current := current + 1 }, [current])
        else
          (.pointer ((length &&& 0x3F).toNat * 256 + (data.getD (current + 1) 0).toNat)
            (current + 2), [current, current + 1])
      else (.ended { error := some .invalid, value := value, current := current + 1 }, [current])
    else (.ended { error := some .invalid, value := value, current := current + 1 }, [current])

inductive NameRun (data : List UInt8) :
    Nat -> List UInt8 -> Nat -> MemoryDecoder.NameOutcome -> List Nat -> Prop where
  | ended {followed value current outcome reads}
      (step : nameStep data followed value current = (.ended outcome, reads)) :
      NameRun data followed value current outcome reads
  | next {followed value current extended advanced outcome reads others}
      (step : nameStep data followed value current = (.next extended advanced, reads))
      (rest : NameRun data followed extended advanced outcome others) :
      NameRun data followed value current outcome (reads ++ others)
  | outside {followed value current offset after reads}
      (step : nameStep data followed value current = (.pointer offset after, reads))
      (beyond : data.length < offset) :
      NameRun data followed value current
        { error := some .invalid, value := value, current := after } reads
  | failed {followed value current offset after label fault reads others}
      (step : nameStep data followed value current = (.pointer offset after, reads))
      (inside : offset ≤ data.length)
      (rest : NameRun data (followed + 1) [] offset label others)
      (isError : label.error = some fault) :
      NameRun data followed value current
        { error := some fault, value := value, current := after } (reads ++ others)
  | pointed {followed value current offset after label reads others}
      (step : nameStep data followed value current = (.pointer offset after, reads))
      (inside : offset ≤ data.length)
      (rest : NameRun data (followed + 1) [] offset label others)
      (noError : label.error = none) :
      NameRun data followed value current
        { error := none, value := separated value ++ label.value, current := after }
        (reads ++ others)

section Runs

variable {data : List UInt8} {current : Nat}

theorem remaining_eq (within : current ≤ data.length) :
    remaining data current = data.length - current := if_pos within

theorem nameStep_of_byte (followed : Nat) (value : List UInt8) {length : UInt8}
    (isLength : data[current]? = some length) :
    nameStep data followed value current = if length = 0 then
        (.ended { error := none, value := value, current := current + 1 }, [current])
      else if length.toNat ≤ maxLabelLength then
        if data.length - (current + 1) < length.toNat then
          (.ended {
            error := some .invalid
            value := separated value
            current := current + 1 }, [current])
        else
          (.next (separated value ++ (data.drop (current + 1)).take length.toNat)
            (current + 1 + length.toNat), range' current (1 + length.toNat))
      else if followed ≤ maxLabelResolutionRecursionDepth then
        if length &&& 0xC0 = 0xC0 then
          if data.length - (current + 1) < 1 then
            (.ended { error := some .invalid, value := value, current := current + 1 }, [current])
          else
            (.pointer ((length &&& 0x3F).toNat * 256 + (data.getD (current + 1) 0).toNat)
              (current + 2), [current, current + 1])
        else (.ended { error := some .invalid, value := value, current := current + 1 }, [current])
      else
        (.ended { error := some .invalid, value := value, current := current + 1 }, [current]) := by
  have inside := (List.getElem?_eq_some_iff.mp isLength).1
  have isByte : data.getD current 0 = length := by
    rw [getD_eq_getElem?_getD, isLength]
    rfl
  have hasByte : ¬ remaining data current < 1 := by
    rw [remaining_eq inside.le]
    omega
  unfold nameStep
  rw [if_neg hasByte]
  rw [isByte, remaining_eq inside]

/-- The result of `decodeLabel`. -/
def MemoryDecoder.NameOutcome.result (outcome : MemoryDecoder.NameOutcome) :
    Except Fault (List UInt8) :=
  match outcome.error with
  | some fault => .error fault
  | none => .ok outcome.value

def Follows (data : List UInt8) (followed : Nat) (follow : Nat -> Except Fault (List UInt8)) :
    Prop :=
  ∀ offset, if data.length < offset then follow offset = .error .invalid
    else ∃ label reads, NameRun data (followed + 1) [] offset label reads ∧
      (∀ position ∈ reads, position < data.length) ∧ follow offset = label.result

def pointedOutcome (value : List UInt8) (after : Nat) :
    Except Fault (List UInt8) -> MemoryDecoder.NameOutcome
  | .error fault => { error := some fault, value := value, current := after }
  | .ok reference => {
      error := none
      value := separated value ++ reference
      current := after }

variable {follow : Nat -> Except Fault (List UInt8)} {followed : Nat}

theorem nameRun_pointed {offset after : Nat} (follows : Follows data followed follow)
    {value : List UInt8} {reads : List Nat}
    (step : nameStep data followed value current = (.pointer offset after, reads))
    (inBuffer : ∀ pos ∈ reads, pos < data.length) :
    ∃ others, NameRun data followed value current (pointedOutcome value after (follow offset))
        others ∧ ∀ pos ∈ others, pos < data.length := by
  have isFollowed := follows offset
  split at isFollowed
  · rename_i beyond
    rw [isFollowed]
    exact ⟨reads, .outside step beyond, inBuffer⟩
  · rename_i inside
    obtain ⟨label, others, rest, othersInBuffer, isResult⟩ := isFollowed
    refine ⟨reads ++ others, ?_, ?_⟩
    · rw [isResult]
      unfold result
      cases isError : label.error with
      | some => exact .failed step (Nat.not_lt.mp inside) rest isError
      | none => exact .pointed step (Nat.not_lt.mp inside) rest isError
    · intro pos mem
      rcases mem_append.mp mem with inReads | inOthers
      · exact inBuffer pos inReads
      · exact othersInBuffer pos inOthers

/-- The loop ends as it does when nothing bounds its rounds, and reads within the buffer. Where
no further pointer is followed, the place where it ends is not told. -/
theorem nameRun_nameLoop
    (follows : followed ≤ maxLabelResolutionRecursionDepth -> Follows data followed follow)
    (refused : maxLabelResolutionRecursionDepth < followed ->
      ∀ offset, follow offset = .error .invalid) {fuel : Nat} (value : List UInt8) (current : Nat)
    (within : current ≤ data.length) (enough : data.length - current < fuel) :
    ∃ stopped reads, NameRun data followed value current
        { nameLoop data follow fuel value current with current := stopped } reads ∧
      (∀ pos ∈ reads, pos < data.length) ∧
      (followed ≤ maxLabelResolutionRecursionDepth ->
        stopped = (nameLoop data follow fuel value current).current) := by
  induction fuel generalizing value current with
  | zero => omega
  | succ _ ih =>
    unfold nameLoop
    cases isLength : data[current]? with
    | none =>
      have isEnd := getElem?_eq_none_iff.mp isLength
      refine ⟨current, [], .ended ?_, by simp, fun _ => rfl⟩
      unfold nameStep
      rw [remaining_eq within, if_pos (by omega)]
    | some length =>
      have inside : current < data.length := (List.getElem?_eq_some_iff.mp isLength).1
      have step := nameStep_of_byte followed value isLength
      have here : ∀ pos ∈ [current], pos < data.length := by
        intro pos mem
        rw [mem_singleton.mp mem]
        exact inside
      dsimp only
      by_cases isZero : length = 0
      · rw [if_pos isZero]
        refine ⟨current + 1, [current], .ended ?_, here, fun _ => rfl⟩
        rw [step, if_pos isZero]
      · rw [if_neg isZero]
        split
        · rename_i isLabel
          split
          · rename_i tooLong
            refine ⟨current + 1, [current], .ended ?_, here, fun _ => rfl⟩
            rw [step, if_neg isZero, if_pos isLabel, if_pos tooLong]
          · rename_i tooLong
            obtain ⟨stopped, reads, rest, inBuffer, isStopped⟩ := ih
              (separated value ++ (data.drop (current + 1)).take length.toNat)
              (current + 1 + length.toNat) (by omega) (by omega)
            refine ⟨stopped, range' current (1 + length.toNat) ++ reads, .next ?_ rest, ?_,
              isStopped⟩
            · rw [step, if_neg isZero, if_pos isLabel, if_neg tooLong]
            · intro pos mem
              rcases mem_append.mp mem with inLabel | inRest
              · have bounds := mem_range'_1.mp inLabel
                omega
              · exact inBuffer pos inRest
        · rename_i isLabel
          split
          · rename_i isPointer
            by_cases deep : followed ≤ maxLabelResolutionRecursionDepth
            · cases isLower : data[current + 1]? with
              | none =>
                have isEnd := getElem?_eq_none_iff.mp isLower
                refine ⟨current + 1, [current], .ended ?_, here, fun _ => rfl⟩
                rw [step, if_neg isZero, if_neg isLabel, if_pos deep, if_pos isPointer,
                  if_pos (by omega)]
              | some offsetLower =>
                have lowerInside := (List.getElem?_eq_some_iff.mp isLower).1
                have isLowerByte : data.getD (current + 1) 0 = offsetLower := by
                  rw [getD_eq_getElem?_getD, isLower]
                  rfl
                have isStep : nameStep data followed value current =
                    (.pointer ((length &&& 0x3F).toNat * 256 + offsetLower.toNat)
                      (current + 2), [current, current + 1]) := by
                  rw [step, if_neg isZero, if_neg isLabel, if_pos deep, if_pos isPointer,
                    if_neg (by omega), isLowerByte]
                obtain ⟨reads, run, inBuffer⟩ := nameRun_pointed (follows deep) isStep (by
                  intro _ mem
                  rcases mem_pair.mp mem with _ | _
                  · omega
                  · omega)
                exact ⟨_, reads, run, inBuffer, fun _ => rfl⟩
            · refine ⟨current + 1, [current], .ended ?_, here, fun shallow => absurd shallow deep⟩
              rw [step, if_neg isZero, if_neg isLabel, if_neg deep]
              cases data[current + 1]? with
              | none => rfl
              | some =>
                dsimp only
                rw [refused (Nat.not_le.mp deep)]
          · rename_i isPointer
            refine ⟨current + 1, [current], .ended ?_, here, fun _ => rfl⟩
            rw [step, if_neg isZero, if_neg isLabel, if_neg isPointer, ite_self]

def following (data : List UInt8) : Nat -> Nat -> Except Fault (List UInt8)
  | 0 => fun _ => .error .invalid
  | levels + 1 => decodeLabel data levels

theorem decodeLabel_eq (levels offset : Nat) : decodeLabel data levels offset =
      if data.length < offset then .error .invalid
      else (nameLoop data (following data levels) (data.length - offset + 1) [] offset).result := by
  cases levels with
  | zero | succ _ => rfl

/-- A pointer is followed as long as the depth of the calls allows. -/
theorem follows_following {levels : Nat}
    (depth : followed + levels = maxLabelResolutionRecursionDepth + 1) :
    followed ≤ maxLabelResolutionRecursionDepth ->
      Follows data followed (following data levels) := by
  induction levels generalizing followed with
  | zero =>
    intro _
    omega
  | succ levels ih =>
    intro _ offset
    have isLabel : following data (levels + 1) offset = decodeLabel data levels offset := rfl
    rw [isLabel, decodeLabel_eq]
    split
    · rfl
    · rename_i inside
      have deeper : followed + 1 + levels = maxLabelResolutionRecursionDepth + 1 := by omega
      have refused (tooDeep : maxLabelResolutionRecursionDepth < followed + 1) (offset : Nat) :
          following data levels offset = .error .invalid := by
        have isZero : levels = 0 := by omega
        rw [isZero]
        rfl
      obtain ⟨_, reads, run, inBuffer, _⟩ := nameRun_nameLoop (ih deeper)
        refused [] offset (Nat.not_lt.mp inside) .refl
      exact ⟨_, reads, run, inBuffer, rfl⟩

/-- `decodeDomainName` ends, and reads within the buffer. -/
theorem nameRun_decodeDomainName (decoder : MemoryDecoder)
    (within : decoder.current ≤ decoder.data.length) :
    ∃ reads, NameRun decoder.data 0 [] decoder.current decoder.decodeDomainName reads ∧
      ∀ pos ∈ reads, pos < decoder.data.length := by
  have follows : 0 ≤ maxLabelResolutionRecursionDepth ->
      Follows decoder.data 0 (following decoder.data (maxLabelResolutionRecursionDepth + 1)) :=
    follows_following (Nat.zero_add _)
  obtain ⟨_, reads, run, inBuffer, isStopped⟩ := nameRun_nameLoop follows
    (fun deep => absurd deep (by decide)) [] decoder.current within .refl
  rw [isStopped (Nat.zero_le _)] at run
  exact ⟨reads, run, inBuffer⟩

end Runs

/-! ## The labels of a name -/

inductive InPlace (data : List UInt8) : Nat -> List (List UInt8) -> Option Nat -> Nat -> Prop where
  | zero {position} (isZero : data[position]? = some 0) :
      InPlace data position [] none (position + 1)
  | pointer {position length offsetLower} (isLength : data[position]? = some length)
      (isPointer : length &&& 0xC0 = 0xC0) (isLower : data[position + 1]? = some offsetLower) :
      InPlace data position [] (some ((length &&& 0x3F).toNat * 256 + offsetLower.toNat))
        (position + 2)
  | label {position length labels target after} (isLength : data[position]? = some length)
      (notZero : length ≠ 0) (isLabel : length.toNat ≤ maxLabelLength)
      (fits : position + 1 + length.toNat ≤ data.length)
      (rest : InPlace data (position + 1 + length.toNat) labels target after) :
      InPlace data position ((data.drop (position + 1)).take length.toNat :: labels) target after

inductive Parts (data : List UInt8) : Nat -> List (List (List UInt8)) -> Prop where
  | last {position labels after} (part : InPlace data position labels none after) :
      Parts data position [labels]
  | pointer {position labels offset after parts}
      (part : InPlace data position labels (some offset) after) (rest : Parts data offset parts) :
      Parts data position (labels :: parts)

def partsText : List (List (List UInt8)) -> List UInt8
  | [] => []
  | [labels] => joinLabels labels
  | labels :: parts => separated (joinLabels labels) ++ partsText parts

section Labels

variable {data : List UInt8} {pos after : Nat} {labels : List (List UInt8)} {target : Option Nat}

theorem lt_of_pointer {length : UInt8} (isPointer : length &&& 0xC0 = 0xC0) :
    maxLabelLength < length.toNat := by
  have masked : length.toNat &&& 192 = 192 := by
    have same := congrArg UInt8.toNat isPointer
    rwa [UInt8.toNat_and] at same
  have bound : length.toNat &&& 192 ≤ length.toNat := Nat.and_le_left
  unfold maxLabelLength
  omega

theorem InPlace.lt (part : InPlace data pos labels target after) : pos < data.length := by
  cases part with
  | zero isZero => exact (List.getElem?_eq_some_iff.mp isZero).1
  | pointer isLength | label isLength => exact (List.getElem?_eq_some_iff.mp isLength).1

theorem InPlace.ne_nil (part : InPlace data pos labels target after) :
    ∀ label ∈ labels, label ≠ [] := by
  induction part with
  | zero | pointer => exact by simp
  | @label pos length labels target after isLength notZero isLabel fits _ ih =>
      intro label mem
      rcases mem_cons.mp mem with isFirst | inRest
      · have isPos : 0 < length.toNat := by
          apply Nat.pos_of_ne_zero
          intro isZero
          exact notZero (UInt8.toNat_inj.mp isZero)
        rw [isFirst]
        apply ne_nil_of_length_pos
        rw [length_take, length_drop]
        omega
      · exact ih label inRest

def partOutcome (follow : Nat -> Except Fault (List UInt8)) (value : List UInt8) (after : Nat) :
    Option Nat -> MemoryDecoder.NameOutcome
  | none => { error := none, value := value, current := after }
  | some offset => pointedOutcome value after (follow offset)

variable {fuel : Nat}

theorem nameLoop_inPlace (follow : Nat -> Except Fault (List UInt8))
    (part : InPlace data pos labels target after) (value : List UInt8)
    (enough : data.length - pos < fuel) : nameLoop data follow fuel value pos =
      partOutcome follow (extendName value labels) after target := by
  induction part generalizing fuel value with
  | zero isZero =>
    cases fuel with
    | zero => omega
    | succ fuel =>
      unfold nameLoop
      rw [isZero]
      rfl
  | @pointer pos length _ isLength isPointer isLower =>
    cases fuel with
    | zero => omega
    | succ fuel =>
      have large := lt_of_pointer isPointer
      have notZero : length ≠ 0 := by
        intro isZero
        rw [isZero] at large
        contradiction
      unfold nameLoop
      rw [isLength]
      dsimp only
      rw [if_neg notZero, if_neg (Nat.not_le.mpr large), if_pos isPointer, isLower]
      rfl
  | @label pos length labels target after isLength notZero isLabel fits _ ih =>
      cases fuel with
      | zero => omega
      | succ =>
        unfold nameLoop
        rw [isLength]
        dsimp only
        rw [if_neg notZero, if_pos isLabel, if_neg (by omega), ih _ (by omega)]
        rfl

theorem inPlace_of_nameLoop {follow : Nat -> Except Fault (List UInt8)} {value : List UInt8}
    (noError : (nameLoop data follow fuel value pos).error = none) :
    ∃ labels target after, InPlace data pos labels target after := by
  induction fuel generalizing value pos with
  | zero => contradiction
  | succ _ ih =>
    unfold nameLoop at noError
    cases isLength : data[pos]? with
    | none =>
      rw [isLength] at noError
      contradiction
    | some length =>
      rw [isLength] at noError
      dsimp only at noError
      by_cases isZero : length = 0
      · rw [isZero] at isLength
        exact ⟨_, _, _, .zero isLength⟩
      · rw [if_neg isZero] at noError
        split at noError
        · rename_i isLabel
          split at noError
          · contradiction
          · obtain ⟨_, _, _, rest⟩ := ih noError
            have inside := (List.getElem?_eq_some_iff.mp isLength).1
            exact ⟨_, _, _, .label isLength isZero isLabel (by omega) rest⟩
        · split at noError
          · rename_i isPointer
            cases isLower : data[pos + 1]? with
            | none =>
              rw [isLower] at noError
              contradiction
            | some => exact ⟨_, _, _, .pointer isLength isPointer isLower⟩
          · contradiction

theorem InPlace.unique (part : InPlace data pos labels target after)
    {others : List (List UInt8)} {otherTarget : Option Nat} {otherAfter : Nat}
    (other : InPlace data pos others otherTarget otherAfter) :
    others = labels ∧ otherTarget = target ∧ otherAfter = after := by
  induction part generalizing others otherTarget otherAfter with
  | zero isZero =>
    cases other with
    | zero => exact ⟨rfl, rfl, rfl⟩
    | pointer isLength isPointer =>
      rw [isZero] at isLength
      rw [← some.inj isLength] at isPointer
      contradiction
    | label isLength notZero =>
      rw [isZero] at isLength
      exact absurd (some.inj isLength).symm notZero
  | pointer isLength isPointer isLower =>
    have large := lt_of_pointer isPointer
    cases other with
    | zero isZero =>
      rw [isLength] at isZero
      rw [some.inj isZero] at large
      contradiction
    | pointer isLength' _ isLower' =>
      rw [isLength] at isLength'
      rw [isLower] at isLower'
      cases isLength'
      cases isLower'
      exact ⟨rfl, rfl, rfl⟩
    | label isLength' _ isLabel =>
      rw [isLength] at isLength'
      rw [some.inj isLength'] at large
      omega
  | label isLength notZero isLabel _ _ ih =>
    cases other with
    | zero isZero =>
      rw [isLength] at isZero
      exact absurd (some.inj isZero) notZero
    | pointer isLength' isPointer =>
      rw [isLength] at isLength'
      rw [some.inj isLength'] at isLabel
      exact absurd isLabel (Nat.not_le.mpr (lt_of_pointer isPointer))
    | label isLength' _ _ _ rest =>
      rw [isLength] at isLength'
      cases isLength'
      obtain ⟨sameLabels, sameTarget, sameAfter⟩ := ih rest
      rw [sameLabels]
      exact ⟨rfl, sameTarget, sameAfter⟩

variable {parts : List (List (List UInt8))}

theorem Parts.unique {others : List (List (List UInt8))} (isParts : Parts data pos parts)
    (other : Parts data pos others) : others = parts := by
  induction isParts generalizing others with
  | last part =>
    cases other with
    | last part' => rw [(part.unique part').1]
    | pointer part' => exact absurd (part.unique part').2.1 nofun
  | pointer part _ ih =>
    cases other with
    | last part' => exact absurd (part.unique part').2.1 nofun
    | pointer part' rest =>
      obtain ⟨sameLabels, sameTarget, _⟩ := part.unique part'
      rw [some.inj sameTarget] at rest
      rw [sameLabels, ih rest]

theorem Parts.ne_nil (isParts : Parts data pos parts) : parts ≠ [] := by
  cases isParts with
  | last | pointer => exact cons_ne_nil _ _

theorem Parts.le (isParts : Parts data pos parts) : pos ≤ data.length := by
  cases isParts with
  | last part | pointer part => exact part.lt.le

theorem partsText_cons (notNil : parts ≠ []) :
    partsText (labels :: parts) = separated (joinLabels labels) ++ partsText parts := by
  cases parts with
  | nil => contradiction
  | cons => rfl

theorem result_pointedOutcome {value text : List UInt8} {reference : Except Fault (List UInt8)} :
    (pointedOutcome value after reference).result = .ok text ↔
      ∃ name, reference = .ok name ∧ separated value ++ name = text := by
  cases reference with
  | error fault | ok _ => simp [pointedOutcome, result]

theorem following_eq_ok {levels offset : Nat} {name : List UInt8} :
    following data levels offset = .ok name ↔ ∃ fewer, levels = fewer + 1 ∧ offset ≤ data.length ∧
        (nameLoop data (following data fewer) (data.length - offset + 1) []
          offset).result = .ok name := by
  cases levels with
  | zero => simp [following]
  | succ fewer =>
    have isLabel : following data (fewer + 1) offset = decodeLabel data fewer offset := rfl
    rw [isLabel, decodeLabel_eq]
    by_cases beyond : data.length < offset
    · simp [beyond]
    · simp [beyond, Nat.not_lt.mp beyond]

/-- A name is decoded if and only if it has parts, and not more than may be followed. -/
theorem nameLoop_result_iff (levels : Nat) {text : List UInt8} (enough : data.length - pos < fuel) :
    (nameLoop data (following data levels) fuel [] pos).result = .ok text ↔
      ∃ parts, Parts data pos parts ∧ parts.length ≤ levels + 1 ∧ partsText parts = text := by
  induction levels using Nat.strong_induction_on generalizing pos fuel text with
  | _ levels ih =>
    constructor
    · intro isText
      have noError : (nameLoop data (following data levels) fuel [] pos).error = none := by
        unfold result at isText
        split at isText
        · contradiction
        · assumption
      obtain ⟨labels, target, after, part⟩ := inPlace_of_nameLoop noError
      rw [nameLoop_inPlace _ part _ enough, extendName_nil part.ne_nil] at isText
      cases target with
      | none => exact ⟨[labels], .last part, Nat.le_add_left _ _, Except.ok.inj isText⟩
      | some offset =>
        obtain ⟨_, isName, isJoined⟩ := result_pointedOutcome.mp isText
        obtain ⟨fewer, isLevels, _, isResult⟩ := following_eq_ok.mp isName
        obtain ⟨parts, isParts, isShort, isPartsText⟩ := (ih fewer (by omega) .refl).mp isResult
        refine ⟨labels :: parts, .pointer part isParts, ?_, ?_⟩
        · rw [length_cons]
          omega
        · rw [partsText_cons isParts.ne_nil, isPartsText]
          exact isJoined
    · rintro ⟨parts, isParts, isShort, isText⟩
      cases isParts with
      | last part =>
        rw [nameLoop_inPlace _ part _ enough, extendName_nil part.ne_nil]
        exact congrArg Except.ok isText
      | @pointer _ _ offset _ parts part rest =>
        rw [nameLoop_inPlace _ part _ enough, extendName_nil part.ne_nil]
        have isPos := length_pos_iff.mpr rest.ne_nil
        rw [length_cons] at isShort
        rw [partsText_cons rest.ne_nil] at isText
        obtain ⟨fewer, _⟩ := Nat.exists_eq_add_of_lt (show 0 < levels by omega)
        have isResult := (ih fewer (by omega)
          (Nat.lt_succ_self (data.length - offset))).mpr ⟨parts, rest, by omega, rfl⟩
        exact result_pointedOutcome.mpr ⟨partsText parts,
          following_eq_ok.mpr ⟨fewer, by omega, rest.le, isResult⟩, isText⟩

end Labels

/-! ## The text -/

def EndsInRoot (parts : List (List (List UInt8))) : Prop :=
  parts.getLast? = some [] ∧ parts.flatten ≠ []

instance (parts : List (List (List UInt8))) : Decidable (EndsInRoot parts) :=
  inferInstanceAs (Decidable (_ ∧ _))

variable {labels : List (List UInt8)}

theorem joinLabels_append {others : List (List UInt8)} (first : labels ≠ [])
    (second : others ≠ []) :
    joinLabels (labels ++ others) = joinLabels labels ++ [dot] ++ joinLabels others := by
  unfold joinLabels
  induction labels with
  | nil => contradiction
  | cons _ rest ih =>
    cases rest with
    | nil => rw [singleton_append, intercalate_cons_of_ne_nil second, intercalate_singleton]
    | cons =>
      rw [cons_append, intercalate_cons_of_ne_nil (by simp), ih (by simp), intercalate_cons_cons]
      simp only [append_assoc]

theorem joinLabels_eq_nil (ne : ∀ label ∈ labels, label ≠ []) :
    joinLabels labels = [] ↔ labels = [] := by
  cases labels with
  | nil => simp [joinLabels]
  | cons label rest =>
    have notNil := ne label mem_cons_self
    cases rest with
    | nil => simpa [joinLabels] using notNil
    | cons => simp [joinLabels, notNil]

variable {parts : List (List (List UInt8))}

section

variable (notNil : parts ≠ []) (ne : ∀ labels ∈ parts, ∀ label ∈ labels, label ≠ [])
include notNil ne

/-- The text is that of the labels, followed by a separator if the last pointer leads to the
root. -/
theorem partsText_eq :
    partsText parts = joinLabels parts.flatten ++ if EndsInRoot parts then [dot] else [] := by
  induction parts with
  | nil => contradiction
  | cons labels rest ih =>
    have isLabels := joinLabels_eq_nil (ne labels mem_cons_self)
    by_cases isLast : rest = []
    · subst isLast
      have notRooted : ¬ EndsInRoot [labels] := by
        rintro ⟨isNil, notEmpty⟩
        simp only [getLast?_singleton, some.injEq] at isNil
        exact notEmpty (by rw [isNil]; rfl)
      rw [if_neg notRooted, append_nil]
      simp [partsText]
    · have text := ih isLast fun part mem =>
        ne part (mem_cons_of_mem _ mem)
      have sameLast : (labels :: rest).getLast? = rest.getLast? := by
        rw [getLast?_cons_of_ne_nil isLast]
      rw [partsText_cons isLast, text]
      by_cases isEmpty : labels = []
      · subst isEmpty
        have same : EndsInRoot ([] :: rest) ↔ EndsInRoot rest := by
          unfold EndsInRoot
          rw [sameLast, flatten_cons, nil_append]
        simp only [same]
        rfl
      · have separates : separated (joinLabels labels) =
            joinLabels labels ++ [dot] := if_neg fun isNil => isEmpty (isLabels.mp isNil)
        have hasLabels : (labels :: rest).flatten ≠ [] := by
          exact append_ne_nil_of_left_ne_nil isEmpty _
        rw [separates]
        by_cases noneFollow : rest.flatten = []
        · have rooted : EndsInRoot (labels :: rest) := by
            refine ⟨?_, hasLabels⟩
            rw [sameLast, getLast?_eq_some_getLast isLast]
            exact congrArg some (flatten_eq_nil_iff.mp noneFollow _ (getLast_mem isLast))
          have notRooted : ¬ EndsInRoot rest := fun isRooted => isRooted.2 noneFollow
          rw [if_pos rooted, if_neg notRooted, flatten_cons, noneFollow]
          simp [joinLabels]
        · have same : EndsInRoot (labels :: rest) ↔ EndsInRoot rest := by
            unfold EndsInRoot
            rw [sameLast]
            exact ⟨fun isRooted => ⟨isRooted.1, noneFollow⟩,
              fun isRooted => ⟨isRooted.1, hasLabels⟩⟩
          rw [flatten_cons, joinLabels_append isEmpty noneFollow]
          simp only [same, append_assoc]

theorem partsText_eq_iff : partsText parts = joinLabels parts.flatten ↔ ¬ EndsInRoot parts := by
  rw [partsText_eq notNil ne]
  split
  · rename_i rooted
    simp [rooted]
  · rename_i notRooted
    simp [notRooted]

end

variable {data : List UInt8} {pos : Nat}

theorem Parts.labels_ne_nil (isParts : Parts data pos parts) :
    ∀ labels ∈ parts, ∀ label ∈ labels, label ≠ [] := by
  induction isParts with
  | last part =>
    intro labels mem
    rw [mem_singleton.mp mem]
    exact part.ne_nil
  | pointer part _ ih =>
    intro labels mem
    rcases mem_cons.mp mem with isFirst | inRest
    · rw [isFirst]
      exact part.ne_nil
    · exact ih labels inRest

theorem Parts.inPlace (isParts : Parts data pos parts) :
    ∃ labels target after rest, InPlace data pos labels target after ∧ parts = labels :: rest := by
  cases isParts with
  | last part => exact ⟨_, _, _, [], part, rfl⟩
  | pointer part => exact ⟨_, _, _, _, part, rfl⟩

/-! ## What decoding a name should do -/

/-- Decoding the name ends, reads within the buffer, and moves past the part in place; and the
text is that of the labels that are found by following pointers. -/
structure DecodesName (decoder : MemoryDecoder) : Prop where
  ends : ∃ reads, NameRun decoder.data 0 [] decoder.current decoder.decodeDomainName reads ∧
    ∀ position ∈ reads, position < decoder.data.length
  follows : decoder.decodeDomainName.error = none -> ∃ labels target rest,
    InPlace decoder.data decoder.current labels target decoder.decodeDomainName.current ∧
      Parts decoder.data decoder.current (labels :: rest) ∧
      decoder.decodeDomainName.value = joinLabels (labels :: rest).flatten

section

variable (decoder : MemoryDecoder)

theorem decodeDomainName_result_iff {text : List UInt8} :
    decoder.decodeDomainName.result = .ok text ↔ ∃ parts, Parts decoder.data decoder.current parts ∧
        parts.length ≤ maxLabelResolutionRecursionDepth + 2 ∧ partsText parts = text :=
  nameLoop_result_iff (maxLabelResolutionRecursionDepth + 1) .refl

theorem decodeDomainName_current {target : Option Nat} {after : Nat}
    (part : InPlace decoder.data decoder.current labels target after) :
    decoder.decodeDomainName.current = after := by
  unfold decodeDomainName
  rw [nameLoop_inPlace _ part _ .refl]
  cases target with
  | none => rfl
  | some offset =>
    show (pointedOutcome _ after _).current = after
    cases decodeLabel decoder.data maxLabelResolutionRecursionDepth offset with
    | error fault | ok _ => rfl

/-- A name is decoded as it should be if and only if its last pointer, when there are labels
and not more pointers than are followed, does not lead to the root. -/
theorem decodesName_iff (within : decoder.current ≤ decoder.data.length) :
    DecodesName decoder ↔ ∀ parts, Parts decoder.data decoder.current parts ->
        parts.length ≤ maxLabelResolutionRecursionDepth + 2 -> ¬ EndsInRoot parts := by
  constructor
  · intro decodes parts isParts isShort
    have isResult := (decodeDomainName_result_iff decoder).mpr ⟨parts, isParts, isShort, rfl⟩
    unfold result at isResult
    split at isResult
    · contradiction
    · rename_i noError
      obtain ⟨labels, target, rest, _, alsoParts, isJoined⟩ := decodes.follows noError
      have isText := Except.ok.inj isResult
      rw [isJoined, isParts.unique alsoParts] at isText
      exact (partsText_eq_iff isParts.ne_nil isParts.labels_ne_nil).mp isText.symm
  · intro condition
    refine ⟨nameRun_decodeDomainName decoder within, ?_⟩
    intro noError
    have isResult : decoder.decodeDomainName.result = .ok decoder.decodeDomainName.value := by
      unfold result
      rw [noError]
    obtain ⟨parts, isParts, isShort, isText⟩ := (decodeDomainName_result_iff decoder).mp isResult
    have isJoined := (partsText_eq_iff isParts.ne_nil isParts.labels_ne_nil).mpr
      (condition parts isParts isShort)
    obtain ⟨labels, target, _, rest, part, areParts⟩ := isParts.inPlace
    rw [areParts] at isParts isText isJoined
    rw [← decodeDomainName_current decoder part] at part
    exact ⟨labels, target, rest, part, isParts, isText.symm.trans isJoined⟩

end

def rootedName : MemoryDecoder where
  data := [1, 97, 0]

def pointedName : MemoryDecoder where
  data := [0, 1, 97, 0xC0, 0]
  current := 1

/-- A label with a pointer to the label in front. -/
def linkedName : MemoryDecoder where
  data := [1, 98, 0, 1, 97, 0xC0, 0]
  current := 3

theorem linkedName_parts : Parts linkedName.data 3 [[[97]], [[98]]] :=
  .pointer (.label (show linkedName.data[3]? = some 1 from rfl) (by decide) (by decide) (by decide)
    (.pointer (show linkedName.data[5]? = some 0xC0 from rfl) (by decide) rfl))
    (.last (.label (show linkedName.data[0]? = some 1 from rfl) (by decide) (by decide) (by decide)
      (.zero rfl)))

theorem pointedName_parts : Parts pointedName.data 1 [[[97]], []] :=
  .pointer (.label (show pointedName.data[1]? = some 1 from rfl) (by decide) (by decide) (by decide)
    (.pointer (show pointedName.data[3]? = some 0xC0 from rfl) (by decide) rfl)) (.last (.zero rfl))

theorem decodesName_linkedName : DecodesName linkedName ∧
    linkedName.decodeDomainName.value = [97, dot, 98] := by
  refine ⟨(decodesName_iff linkedName (by decide)).mpr fun _ isParts _ => ?_, by decide⟩
  rw [linkedName_parts.unique isParts]
  decide

/-- The name with the pointer has a separator at its end, and that in place has none. -/
theorem decodesName_pointedName :
    (¬ ∀ decoder : MemoryDecoder, decoder.current ≤ decoder.data.length -> DecodesName decoder) ∧
      pointedName.decodeDomainName.value = [97, dot] ∧
      rootedName.decodeDomainName.value = [97] := by
  refine ⟨?_, by decide, by decide⟩
  intro all
  obtain ⟨_, _, _, _, isParts, isJoined⟩ := (all pointedName (by decide)).follows (by decide)
  rw [pointedName_parts.unique isParts] at isJoined
  contradiction

end NtfCore.Ntcdns
