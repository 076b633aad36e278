import NtfCore.Ntsa.Uri.Components

/-!
Contract: `ntsa::DomainName::parse` of a name and a domain.

Owns: for which pairs it agrees with the parse of the joined text, and which bytes of the
buffer both use.
-/

namespace NtfCore.Ntsa.DomainName

open NtfCore.Foundation.Text List Option

def isRefused (ch : UInt8) : Bool :=
  !isAlnum ch && ch ≠ ascii '.' && ch ≠ ascii '-' && ch ≠ ascii '_'

def nameLoop : Option UInt8 -> List UInt8 -> Option (List UInt8)
  | _, [] => some []
  | previous, ch :: rest =>
    if isRefused ch then none
    else
      let ch := toLower ch
      if ch = ascii '.' ∧ (previous = none ∨ rest = [] ∨ previous = some (ascii '.')) then none
      else (nameLoop (some ch) rest).map (ch :: ·)

/-- The loop over the domain, with `d_buffer` so far. It looks at the byte before `i`, without
the size of the name. -/
def domainLoop : List UInt8 -> Nat -> List UInt8 -> Option (List UInt8)
  | buffer, _, [] => some buffer
  | buffer, i, ch :: rest =>
    if isRefused ch then none
    else
      let ch := toLower ch
      if ch = ascii '.' ∧ (i = 0 ∨ buffer[i - 1]? = some (ascii '.')) then none
      else domainLoop (buffer ++ [ch]) (i + 1) rest

/-- `DomainName::parse` of a name and a domain. -/
def parseParts (name domain : List UInt8) : Option DomainName :=
  if name.length + 1 + domain.length > bufferSize - 1 then none
  else
    match nameLoop none name with
    | none => none
    | some buffer =>
      match domainLoop (buffer ++ [ascii '.']) 0 domain with
      | none => none
      | some buffer =>
        if isEdge buffer.head? || isEdge buffer.getLast? then none else some ⟨ofBytes buffer⟩

def joined (name domain : List UInt8) : List UInt8 :=
  name ++ ascii '.' :: domain

/-! ## The loops -/

theorem toLower_eq_dot (ch : UInt8) : toLower ch = ascii '.' ↔ ch = ascii '.' := by
  revert ch
  exact forall_byte (by decide +kernel)

theorem isRefused_iff (ch : UInt8) : isRefused ch = true ↔ ¬ isNameCharacter ch = true := by
  unfold isRefused isNameCharacter
  simp [and_assoc]

section

variable (prev : Option UInt8) (text : List UInt8)

theorem separated_toLower :
    Separated (prev.map toLower) (text.map toLower) ↔ Separated prev text := by
  induction text generalizing prev with
  | nil => exact Iff.rfl
  | cons ch _ ih =>
    have later := ih (some ch)
    rw [map_some] at later
    rw [map_cons, Separated, Separated, later, toLower_eq_dot]
    cases prev with
    | none => simp
    | some => simp [toLower_eq_dot]

theorem nameLoop_eq : nameLoop prev text =
      if text.getLast? = some (ascii '.') then none else parseLoop prev text := by
  induction text generalizing prev with
  | nil => rfl
  | cons ch rest ih =>
    change (if isRefused ch = true then none else _) =
      if _ then none else if isRefused ch = true then none else _
    by_cases refused : isRefused ch = true
    · rw [if_pos refused, if_pos refused, ite_self]
    · rw [if_neg refused, if_neg refused]
      cases rest with
      | nil =>
        by_cases isDot : ch = ascii '.'
        · simp [toLower_eq_dot, isDot]
        · simp [toLower_eq_dot, isDot, nameLoop, parseLoop]
      | cons next rest =>
        dsimp only
        rw [ih, getLast?_cons_cons]
        by_cases trailing : (next :: rest).getLast? = some (ascii '.')
        · simp [trailing]
        · simp [trailing]

end

def Seen (buffer : List UInt8) (i : Nat) (domain : List UInt8) : Prop :=
  ∀ k, domain[k]? = some (ascii '.') -> i + k ≠ 0 ∧ buffer[i + k - 1]? ≠ some (ascii '.')

theorem domainLoop_eq_some {buffer result domain : List UInt8} {i : Nat}
    (behind : i ≤ buffer.length) :
    domainLoop buffer i domain = some result ↔ (∀ ch ∈ domain, isNameCharacter ch = true) ∧
      result = buffer ++ domain.map toLower ∧ Seen result i domain := by
  induction domain generalizing buffer i with
  | nil =>
    rw [domainLoop, some.injEq, map_nil, append_nil]
    constructor
    · rintro rfl
      exact ⟨nofun, rfl, nofun⟩
    · rintro ⟨_, isResult, _⟩
      exact isResult.symm
  | cons ch rest ih =>
    rw [domainLoop]
    by_cases refused : isRefused ch = true
    · rw [if_pos refused]
      refine iff_of_false nofun ?_
      rintro ⟨all, _, _⟩
      exact (isRefused_iff ch).mp refused (all ch mem_cons_self)
    rw [if_neg refused]
    have isName : isNameCharacter ch = true :=
      Decidable.not_not.mp fun other => refused ((isRefused_iff ch).mpr other)
    have first : ∀ result, result = buffer ++ (ch :: rest).map toLower -> i ≠ 0 ->
        result[i - 1]? = buffer[i - 1]? := by
      rintro result rfl later
      exact getElem?_append_left (by omega)
    have seen_cons : ∀ result, Seen result i (ch :: rest) ↔
        (ch = ascii '.' -> i ≠ 0 ∧ result[i - 1]? ≠ some (ascii '.')) ∧ Seen result (i + 1) rest := by
      intro result
      constructor
      · intro seen
        refine ⟨fun isDot => seen 0 (congrArg some isDot), fun k isDot => ?_⟩
        have here := seen (k + 1) isDot
        rwa [Nat.add_comm k, ← Nat.add_assoc] at here
      · rintro ⟨here, others⟩ k isDot
        cases k with
        | zero => exact here (some.inj isDot)
        | succ k =>
          have there := others k isDot
          rwa [Nat.add_assoc, Nat.add_comm 1] at there
    simp only [toLower_eq_dot]
    have inside : i + 1 ≤ (buffer ++ [toLower ch]).length := by
      rw [length_append, length_singleton]
      omega
    split
    · rename_i stops
      refine iff_of_false nofun ?_
      rintro ⟨_, isResult, seen⟩
      obtain ⟨later, notDot⟩ := ((seen_cons result).mp seen).1 stops.1
      rw [first result isResult later] at notDot
      exact stops.2.elim later notDot
    · rename_i stops
      rw [ih inside, append_assoc, forall_mem_cons]
      constructor
      · rintro ⟨all, isResult, seen⟩
        refine ⟨⟨isName, all⟩, isResult, (seen_cons result).mpr ⟨fun isDot => ?_, seen⟩⟩
        have starts : i ≠ 0 := fun isZero => stops ⟨isDot, .inl isZero⟩
        refine ⟨starts, fun before => stops ⟨isDot, .inr ?_⟩⟩
        rwa [first result isResult starts] at before
      · rintro ⟨⟨_, all⟩, isResult, seen⟩
        exact ⟨all, isResult, ((seen_cons result).mp seen).2⟩

theorem separated_joined (prev : Option UInt8) (name domain : List UInt8) :
    Separated prev (joined name domain) ↔ Separated prev name ∧ (name.getLast?.or prev ≠ none) ∧
        name.getLast?.or prev ≠ some (ascii '.') ∧ Separated (some (ascii '.')) domain := by
  unfold joined
  induction name generalizing prev with
  | nil => simp [Separated, and_assoc]
  | cons ch rest ih =>
    rw [cons_append, Separated, Separated, ih]
    cases rest with
    | nil => simp [Separated]
    | cons next rest =>
      obtain ⟨last, isLast⟩ : ∃ last, (next :: rest).getLast? = some last :=
        ⟨_, getLast?_eq_some_getLast (cons_ne_nil next rest)⟩
      rw [getLast?_cons_cons, isLast]
      simp [and_assoc]

def Misread (name domain : List UInt8) : Prop :=
  ∃ k, domain[k + 1]? = some (ascii '.') ∧ (joined name domain)[k]? = some (ascii '.')

theorem seen_joined_iff (name domain : List UInt8) :
    Seen ((joined name domain).map toLower) 0 domain ↔
      domain[0]? ≠ some (ascii '.') ∧ ¬ Misread name domain := by
  have lowered : ∀ k : Nat, ((joined name domain).map toLower)[k]? = some (ascii '.') ↔
      (joined name domain)[k]? = some (ascii '.') := by
    intro k
    simp [getElem?_map, map_eq_some_iff, toLower_eq_dot]
  constructor
  · intro seen
    refine ⟨fun isDot => (seen 0 isDot).1 rfl, ?_⟩
    rintro ⟨k, isDot, before⟩
    have notDot := (seen (k + 1) isDot).2
    rw [Nat.zero_add, Nat.add_sub_cancel, Ne, lowered] at notDot
    exact notDot before
  · rintro ⟨first, notMisread⟩ k isDot
    cases k with
    | zero => contradiction
    | succ k =>
      refine ⟨Nat.succ_ne_zero _, ?_⟩
      rw [Nat.zero_add, Nat.add_sub_cancel, Ne, lowered]
      exact fun before => notMisread ⟨k, isDot, before⟩

structure Comparable (name domain : List UInt8) : Prop where
  short : (joined name domain).length ≤ bufferSize - 1
  characters : ∀ ch ∈ joined name domain, isNameCharacter ch = true
  edges : (isEdge ((joined name domain).map toLower).head? ||
    isEdge ((joined name domain).map toLower).getLast?) = false
  separated : Separated none name
  last : name.getLast? ≠ some (ascii '.')

variable {name domain : List UInt8} {result : DomainName}

theorem parse_joined_eq_some : parse (joined name domain) = some result ↔
      Comparable name domain ∧ (name ≠ [] ∧ Separated (some (ascii '.')) domain) ∧
        ⟨ofBytes ((joined name domain).map toLower)⟩ = result := by
  have dots := separated_joined none name domain
  rw [or_none, Ne, getLast?_eq_none_iff] at dots
  have lowered := separated_toLower none (joined name domain)
  rw [map_none] at lowered
  unfold parse
  by_cases short : (joined name domain).length > bufferSize - 1
  · rw [if_pos short]
    exact iff_of_false nofun fun ⟨comparable, _⟩ => absurd comparable.short (Nat.not_le.mpr short)
  rw [if_neg short]
  cases looped : parseLoop none (joined name domain) with
  | none =>
    refine iff_of_false nofun fun ⟨comparable, ⟨ne, separated⟩, _⟩ => ?_
    have accepted := parseLoop_eq_some.mpr ⟨comparable.characters, rfl, lowered.mpr (dots.mpr
      ⟨comparable.separated, ne, comparable.last, separated⟩)⟩
    rw [looped] at accepted
    cases accepted
  | some =>
    obtain ⟨characters, rfl, separated⟩ := parseLoop_eq_some.mp looped
    obtain ⟨ofName, ne, last, ofDomain⟩ := dots.mp (lowered.mp separated)
    dsimp only
    split
    · rename_i edges
      refine iff_of_false nofun fun ⟨comparable, _⟩ => ?_
      rw [comparable.edges] at edges
      cases edges
    · rename_i edges
      rw [some.injEq]
      exact ⟨fun isResult => ⟨⟨Nat.not_lt.mp short, characters, Bool.not_eq_true _ ▸ edges, ofName,
        last⟩, ⟨ne, ofDomain⟩, isResult⟩, fun ⟨_, _, isResult⟩ => isResult⟩

theorem parseParts_eq_some : parseParts name domain = some result ↔
      Comparable name domain ∧ (domain[0]? ≠ some (ascii '.') ∧ ¬ Misread name domain) ∧
        ⟨ofBytes ((joined name domain).map toLower)⟩ = result := by
  have size : (joined name domain).length = name.length + 1 + domain.length := by
    rw [joined, length_append, length_cons]
    omega
  have written : (name.map toLower ++ [ascii '.']) ++ domain.map toLower =
      (joined name domain).map toLower := by
    rw [joined, map_append, map_cons, append_assoc]
    rfl
  have ofAll : (∀ ch ∈ joined name domain, isNameCharacter ch = true) ↔
      (∀ ch ∈ name, isNameCharacter ch = true) ∧ ∀ ch ∈ domain, isNameCharacter ch = true := by
    rw [joined, forall_mem_append, forall_mem_cons]
    exact ⟨fun all => ⟨all.1, all.2.2⟩, fun all => ⟨all.1, by decide, all.2⟩⟩
  have looped : ∀ buffer, domainLoop (name.map toLower ++ [ascii '.']) 0 domain = some buffer ↔
      (∀ ch ∈ domain, isNameCharacter ch = true) ∧ buffer = (joined name domain).map toLower ∧
        domain[0]? ≠ some (ascii '.') ∧ ¬ Misread name domain := by
    intro buffer
    rw [domainLoop_eq_some (Nat.zero_le _), written, ← seen_joined_iff]
    exact ⟨fun ⟨all, same, seen⟩ => ⟨all, same, same ▸ seen⟩, fun ⟨all, same, seen⟩ =>
      ⟨all, same, same ▸ seen⟩⟩
  have lowered := separated_toLower none name
  rw [map_none] at lowered
  rw [parseParts, ← size]
  by_cases short : (joined name domain).length > bufferSize - 1
  · rw [if_pos short]
    exact iff_of_false nofun fun ⟨comparable, _⟩ => absurd comparable.short (Nat.not_le.mpr short)
  rw [if_neg short, nameLoop_eq]
  by_cases last : name.getLast? = some (ascii '.')
  · rw [if_pos last]
    exact iff_of_false nofun fun ⟨comparable, _⟩ => comparable.last last
  rw [if_neg last]
  cases ofName : parseLoop none name with
  | none =>
    refine iff_of_false nofun fun ⟨comparable, _⟩ => ?_
    have accepted := parseLoop_eq_some.mpr
      ⟨(ofAll.mp comparable.characters).1, rfl, lowered.mpr comparable.separated⟩
    rw [ofName] at accepted
    cases accepted
  | some buffer =>
    obtain ⟨characters, rfl, separated⟩ := parseLoop_eq_some.mp ofName
    dsimp only
    cases ofDomain : domainLoop (name.map toLower ++ [ascii '.']) 0 domain with
    | none =>
      refine iff_of_false nofun fun ⟨comparable, seen, _⟩ => ?_
      have accepted := (looped _).mpr ⟨(ofAll.mp comparable.characters).2, rfl, seen⟩
      rw [ofDomain] at accepted
      cases accepted
    | some buffer =>
      obtain ⟨ofRest, rfl, seen⟩ := (looped buffer).mp ofDomain
      dsimp only
      split
      · rename_i edges
        refine iff_of_false nofun fun ⟨comparable, _⟩ => ?_
        rw [comparable.edges] at edges
        cases edges
      · rename_i edges
        rw [some.injEq]
        exact ⟨fun isResult => ⟨⟨Nat.not_lt.mp short, ofAll.mpr ⟨characters, ofRest⟩,
          Bool.not_eq_true _ ▸ edges, lowered.mp separated, last⟩, seen, isResult⟩,
          fun ⟨_, _, isResult⟩ => isResult⟩

/-! ## The bytes that are used -/

/-- The indices of `d_buffer` that the loop of `parse` reads and writes. -/
def loopAccesses : Nat -> Option UInt8 -> List UInt8 -> List Nat
  | _, _, [] => []
  | i, previous, ch :: rest =>
    if isRefused ch then []
    else if ch = ascii '.' ∧ previous = none then []
    else if ch = ascii '.' then
      if previous = some (ascii '.') then [i - 1] else (i - 1) :: i :: loopAccesses (i + 1) (some ch) rest
    else i :: loopAccesses (i + 1) (some ch) rest

/-- The indices of `d_buffer` that `parse` uses: those of the loop, and behind it the two ends,
with a size that is unsigned, and the end of the text. -/
def accesses (text : List UInt8) : List Nat :=
  if text.length > bufferSize - 1 then []
  else loopAccesses 0 none text ++
    if (parseLoop none text).isSome then
      [0, (text.length + 2 ^ 64 - 1) % 2 ^ 64, text.length] else []

theorem loopAccesses_lt (text : List UInt8) (i : Nat) (prev : Option UInt8) :
    ∀ index ∈ loopAccesses i prev text, index < i + text.length := by
  induction text generalizing i prev with
  | nil => exact nofun
  | cons =>
    intro _ mem
    rw [loopAccesses] at mem
    grind

theorem accesses_inside_iff (text : List UInt8) :
    (∀ index ∈ accesses text, index ≤ text.length) ↔ text ≠ [] := by
  constructor
  · rintro inside rfl
    exact absurd (inside (2 ^ 64 - 1) (by decide)) (by decide)
  · intro ne index mem
    have pos := length_pos_iff.mpr ne
    unfold accesses at mem
    split at mem
    · cases mem
    · rename_i short
      rcases mem_append.mp mem with looped | ended
      · have bound := loopAccesses_lt text 0 none index looped
        omega
      · split at ended
        · simp only [mem_cons, not_mem_nil, or_false] at ended
          omega
        · cases ended

/-- When the parse of two parts is that of the joined text, and when the parse of a text stays
inside it. -/
theorem parts_parsed_iff (name domain text : List UInt8) :
    (parseParts name domain = parse (joined name domain) ↔
      (Comparable name domain -> (name ≠ [] ∧ Separated (some (ascii '.')) domain ↔
        domain[0]? ≠ some (ascii '.') ∧ ¬ Misread name domain))) ∧
    ((∀ index ∈ accesses text, index ≤ text.length) ↔ text ≠ []) := by
  refine ⟨?_, accesses_inside_iff text⟩
  constructor
  · intro same comparable
    have ofJoined := @parse_joined_eq_some name domain ⟨ofBytes ((joined name domain).map toLower)⟩
    rw [← same, parseParts_eq_some] at ofJoined
    simpa [comparable] using ofJoined.symm
  · intro agree
    apply ext
    intro _
    rw [parseParts_eq_some, parse_joined_eq_some]
    constructor
    · rintro ⟨comparable, seen, isResult⟩
      exact ⟨comparable, (agree comparable).mpr seen, isResult⟩
    · rintro ⟨comparable, separated, isResult⟩
      exact ⟨comparable, (agree comparable).mp separated, isResult⟩

/-- Without a name the joined text begins with a dot, which only the other parse refuses. -/
theorem nameless_accepted :
    ¬ ∀ name domain, parseParts name domain = parse (joined name domain) := by
  intro same
  exact absurd (same [] [ascii 'a']) (by decide)

end NtfCore.Ntsa.DomainName
