import Mathlib.Data.List.Nodup

/-!
Contract: labelled data that leave a line from its front.

A parcel is a label and the data that are left of it. The first items of the data of
the line leave it: parcels that are emptied go away, and the first of the others is
shortened.

Owns: the parcels left when some items have left (`consume`), the labels of the parcels
that they were of (`touched`), the line as it was before part of its first parcel left
(`restore`), and how these agree with the data as a whole.
-/

namespace NtfCore.Foundation.Parcels

open List

variable {Label Item : Type}

/-- The data of a line, one parcel after the other. -/
def contents (line : List (Label × List Item)) : List Item :=
  line.flatMap Prod.snd

/-- The parcels left when so many items have left. -/
def consume : Nat -> List (Label × List Item) -> List (Label × List Item)
  | _, [] => []
  | count, parcel :: rest =>
    if count = 0 then parcel :: rest
    else if parcel.2.length ≤ count then consume (count - parcel.2.length) rest
    else (parcel.1, parcel.2.drop count) :: rest

/-- The labels of the parcels that the first so many items are of. -/
def touched : Nat -> List (Label × List Item) -> List Label
  | _, [] => []
  | count, parcel :: rest =>
    if count = 0 then [] else parcel.1 :: touched (count - parcel.2.length) rest

/-- The line with the part that has left its first parcel. -/
def restore (part : List Item) : List (Label × List Item) -> List (Label × List Item)
  | [] => []
  | parcel :: rest => (parcel.1, part ++ parcel.2) :: rest

@[simp] theorem contents_nil : contents ([] : List (Label × List Item)) = [] := rfl

@[simp] theorem contents_cons (parcel : Label × List Item) (line : List (Label × List Item)) :
    contents (parcel :: line) = parcel.2 ++ contents line := rfl

@[simp] theorem contents_append (left right : List (Label × List Item)) :
    contents (left ++ right) = contents left ++ contents right :=
  flatMap_append

section

variable (line : List (Label × List Item))

theorem consume_zero : consume 0 line = line := by
  cases line with
  | nil | cons _ _ => rfl

theorem touched_zero : touched 0 line = [] := by
  cases line with
  | nil | cons _ _ => rfl

theorem restore_nil : restore [] line = line := by
  cases line with
  | nil | cons _ _ => rfl

end

theorem restore_labels (part : List Item) (line : List (Label × List Item)) :
    (restore part line).map Prod.fst = line.map Prod.fst := by
  cases line with
  | nil | cons _ _ => rfl

variable {part : List Item} {line : List (Label × List Item)}

theorem restore_append (settled : line = [] -> part = []) (later : List (Label × List Item)) :
    restore part (line ++ later) = restore part line ++ later := by
  cases line with
  | nil => rw [settled rfl, restore_nil, restore_nil]
  | cons => rfl

theorem contents_restore
    (settled : line = [] -> part = []) : contents (restore part line) = part ++ contents line := by
  cases line with
  | nil =>
    rw [settled rfl]
    rfl
  | cons => rw [restore, contents_cons, contents_cons, append_assoc]

theorem touched_subset (count : Nat) (line : List (Label × List Item)) :
    ∀ label ∈ touched count line, label ∈ line.map Prod.fst := by
  induction line generalizing count with
  | nil => exact fun _ isTouched => isTouched
  | cons _ _ ih =>
    intro label isTouched
    rw [touched] at isTouched
    split at isTouched
    · contradiction
    · rcases mem_cons.mp isTouched with isFirst | isLater
      · exact mem_cons.mpr (.inl isFirst)
      · exact mem_cons_of_mem _ (ih _ label isLater)

/-- Items that leave are the rest of the parcel begun, whole parcels, and a part of the
one that is then in front, whose label is touched. -/
theorem restore_consume {count : Nat}
    (settled : line = [] -> part = []) (fits : count ≤ (contents line).length) :
    ∃ whole part', restore part line = whole ++ restore part' (consume count line) ∧
      contents whole ++ part' = part ++ (contents line).take count ∧
      (consume count line = [] -> part' = []) ∧
      (part' ≠ [] -> ∃ parcel rest, consume count line = parcel :: rest ∧
        (parcel.1 ∈ touched count line ∨ part ≠ [] ∧ consume count line = line)) := by
  induction line generalizing part count with
  | nil =>
    cases settled rfl
    refine ⟨[], [], rfl, ?_, fun _ => rfl, fun isPart => absurd rfl isPart⟩
    simp
  | cons parcel rest ih =>
    rw [consume, touched]
    by_cases isZero : count = 0
    · rw [if_pos isZero, if_pos isZero, isZero]
      refine ⟨[], part, rfl, ?_, nofun, fun isPart => ⟨parcel, rest, rfl, .inr ⟨isPart, rfl⟩⟩⟩
      simp
    · rw [if_neg isZero, if_neg isZero]
      split
      · rename_i emptied
        rw [contents_cons, length_append] at fits
        obtain ⟨whole, part', isRest, isPart, settled', begun⟩ :=
          @ih [] (count - parcel.2.length) (fun _ => rfl) (by omega)
        rw [restore_nil] at isRest
        refine ⟨(parcel.1, part ++ parcel.2) :: whole, part', ?_, ?_, settled', ?_⟩
        · rw [restore, cons_append]
          exact congrArg _ isRest
        · rw [contents_cons, append_assoc, isPart, contents_cons, nil_append,
            append_assoc, take_append, take_of_length_le emptied]
        · intro isBegun
          obtain ⟨next, others, isNext, touchedOrBegun⟩ := begun isBegun
          refine ⟨next, others, isNext, .inl ?_⟩
          rcases touchedOrBegun with isTouched | ⟨isPart', _⟩
          · exact mem_cons_of_mem _ isTouched
          · contradiction
      · refine ⟨[], part ++ parcel.2.take count, ?_, ?_, nofun, ?_⟩
        · rw [restore, restore, nil_append, append_assoc, take_append_drop]
        · rw [contents_nil, nil_append, contents_cons, take_append_of_le_length (by omega)]
        · intro _
          exact ⟨_, rest, rfl, .inl mem_cons_self⟩

/-- What leaves and what is left are the data of the line. -/
theorem take_append_consume {count : Nat} (fits : count ≤ (contents line).length) :
    (contents line).take count ++ contents (consume count line) = contents line := by
  obtain ⟨_, _, isLine, isPart, settled, _⟩ := restore_consume (fun _ => rfl) fits
  rw [restore_nil] at isLine
  rw [nil_append] at isPart
  rw [← isPart, append_assoc, ← contents_restore settled, ← contents_append, ← isLine]

/-- The parcels with data. -/
def loaded [DecidableEq Item] (line : List (Label × List Item)) : List (Label × List Item) :=
  line.filter fun parcel => parcel.2 ≠ []

section Loaded

variable [DecidableEq Item]

theorem loaded_append (left right : List (Label × List Item)) :
    loaded (left ++ right) = loaded left ++ loaded right :=
  filter_append _ _

variable (line : List (Label × List Item))

theorem contents_loaded : contents (loaded line) = contents line := by
  induction line with
  | nil => rfl
  | cons parcel _ ih =>
    rw [contents_cons, ← ih]
    by_cases isEmpty : parcel.2 = []
    · simp [loaded, isEmpty]
    · simp [loaded, isEmpty]

theorem loaded_labels_sublist : ((loaded line).map Prod.fst).Sublist (line.map Prod.fst) :=
  filter_sublist.map _

end Loaded

/-- The parcels with another label than the given one. -/
def without [DecidableEq Label] (label : Label) (line : List (Label × List Item)) :
    List (Label × List Item) :=
  line.filter fun parcel => parcel.1 ≠ label

section Without

variable [DecidableEq Label] {label : Label} {line : List (Label × List Item)}

theorem without_of_absent (absent : label ∉ line.map Prod.fst) : without label line = line := by
  refine filter_eq_self.mpr ?_
  intro parcel isMem
  refine decide_eq_true ?_
  intro isLabel
  exact absent (mem_map.mpr ⟨parcel, isMem, isLabel⟩)

theorem without_append (left right : List (Label × List Item)) :
    without label (left ++ right) = without label left ++ without label right :=
  filter_append _ _

theorem loaded_without [DecidableEq Item] (line : List (Label × List Item)) :
    loaded (without label line) = without label (loaded line) := by
  simp only [loaded, without, filter_filter, Bool.and_comm]

/-- A parcel that is not begun is taken out of the line as it is now or as it was. -/
theorem without_restore {part : List Item}
    (untouched : part ≠ [] -> (line.head?.map Prod.fst) ≠ some label) :
    without label (restore part line) = restore part (without label line) := by
  cases line with
  | nil => rfl
  | cons parcel =>
    by_cases isLabel : parcel.1 = label
    · have isUnbegun : part = [] := by
        by_contra isBegun
        exact untouched isBegun (by simp [isLabel])
      rw [isUnbegun, restore_nil, restore_nil]
    · simp [without, restore, isLabel]

/-- The first parcel stays if it has another label. -/
theorem without_cons_of_ne {parcel : Label × List Item} (isOther : parcel.1 ≠ label)
    (rest : List (Label × List Item)) :
    without label (parcel :: rest) = parcel :: without label rest :=
  filter_cons_of_pos (decide_eq_true isOther)

end Without

end NtfCore.Foundation.Parcels
