import NtfCore.Ntsa.HostText
import Mathlib.Data.List.DropRight

/-!
Contract: the loops of `ntcdns::HostDatabase::load`.

Owns: the skips of the scanner that the loader uses; one iteration of the loop over the
lines and of the loop over the names of a line; the condition under which every iteration
advances, so that the loader returns and records no empty name.
-/

namespace NtfCore.Ntcdns.HostDatabase

open NtfCore.Foundation.Text NtfCore.Ntsa List

/-! ## The scanner

A scanner is the text from `d_current` to the end. A skip leaves it at the character that
the skip returns, which is null at the end. -/

namespace Scanner

def current (text : List UInt8) : UInt8 :=
  text.headD 0

def isNewLine (current : UInt8) : Bool :=
  current == ascii '\r' || current == ascii '\n'

def isComment (current : UInt8) : Bool :=
  current == ascii '#'

/-- `isgraph` in the C locale. -/
def isGraph (current : UInt8) : Bool :=
  0x21 ≤ current && current ≤ 0x7E

def isAddress (current : UInt8) : Bool :=
  isAlnum current || current == ascii '.' || current == ascii ':'

def skipUntilNotWhitespace (text : List UInt8) : List UInt8 :=
  text.dropWhile isSpace

def skipUntilNotSeparator (text : List UInt8) : List UInt8 :=
  text.dropWhile fun current => current == ascii ' ' || current == ascii '\t'

def skipUntilNotNewLine (text : List UInt8) : List UInt8 :=
  text.dropWhile isNewLine

def skipLine (text : List UInt8) : List UInt8 :=
  skipUntilNotNewLine (text.dropWhile fun current => !isNewLine current)

def skipIpAddress (text : List UInt8) : List UInt8 :=
  text.dropWhile isAddress

def skipDomainName (text : List UInt8) : List UInt8 :=
  text.dropWhile isGraph

end Scanner

open Scanner

/-! ## The loader -/

/-- The two maps of the database. A name without addresses and an address without a name
are not recorded. -/
structure Tables where
  ipAddressByDomainName : List UInt8 -> List IpAddress := fun _ => []
  domainNameByIpAddress : IpAddress -> List UInt8 := fun _ => []

def Tables.register (tables : Tables) (domainName : List UInt8) (ipAddress : IpAddress) : Tables :=
  let ipAddressArray := tables.ipAddressByDomainName domainName
  { ipAddressByDomainName := Function.update tables.ipAddressByDomainName domainName
      (if ipAddress ∈ ipAddressArray then ipAddressArray else ipAddressArray ++ [ipAddress])
    domainNameByIpAddress :=
      if tables.domainNameByIpAddress ipAddress = [] then
        Function.update tables.domainNameByIpAddress ipAddress domainName
      else tables.domainNameByIpAddress }

/-- `load` before an iteration: of the loop over the names of the address, or of the loop
over the lines. -/
structure Loading where
  text : List UInt8
  ipAddress : Option IpAddress := none
  tables : Tables := {}

/-- An iteration of the loop over the lines, up to the names. The loop is left for
`none`. -/
def iterateLine (loading : Loading) : Option Loading :=
  let text := skipUntilNotWhitespace loading.text
  if current text = 0 then none
  else if isComment (current text) then
    if current (skipLine text) = 0 then none else some { loading with text := skipLine text }
  else
    let left := skipIpAddress text
    if current left = 0 then none
    else
      match IpAddress.parse (text.takeWhile isAddress) left with
      | none =>
        if current (skipLine left) = 0 then none else some { loading with text := skipLine left }
      | some ipAddress => some { loading with text := left, ipAddress := some ipAddress }

/-- An iteration of the loop over the names. -/
def iterateName (loading : Loading) (ipAddress : IpAddress) : Loading :=
  let text := skipUntilNotSeparator loading.text
  if current text = 0 then { loading with text := text, ipAddress := none }
  else if isComment (current text) then
    { loading with text := skipLine text, ipAddress := none }
  else if isNewLine (current text) then
    { loading with text := skipUntilNotNewLine text, ipAddress := none }
  else
    let left := skipDomainName text
    if current left = 0 then { loading with text := left, ipAddress := none }
    else
      { loading with
        text := left
        tables := loading.tables.register (text.takeWhile isGraph) ipAddress }

def iterate (loading : Loading) : Option Loading :=
  match loading.ipAddress with
  | none => iterateLine loading
  | some ipAddress => some (iterateName loading ipAddress)

/-- `load`, when it returns within as many iterations. -/
def load : Nat -> Loading -> Option Tables
  | 0, _ => none
  | fuel + 1, loading =>
    match iterate loading with
    | none => some loading.tables
    | some next => load fuel next

inductive Reaches (text : List UInt8) : Loading -> Prop where
  | start : Reaches text { text := text }
  | next {loading next : Loading} (reached : Reaches text loading)
      (iterated : iterate loading = some next) : Reaches text next

/-- The loader returns; an iteration advances the scanner, or finds the null that stands
for the end; and no name recorded is empty. -/
structure Loads (text : List UInt8) : Prop where
  returns : ∃ fuel tables, load fuel { text := text } = some tables
  advances : ∀ loading next, Reaches text loading -> iterate loading = some next ->
    next.text.length < loading.text.length ∨ current next.text = 0
  named : ∀ loading, Reaches text loading -> loading.tables.ipAddressByDomainName [] = []

/-- The loop over the names comes to a byte that ends a name, and is neither skipped before
a name nor the end of a line. -/
def Stray (loading : Loading) : Prop :=
  loading.ipAddress.isSome = true ∧
    let byte := current (skipUntilNotSeparator loading.text)
    byte ≠ 0 ∧ isNewLine byte = false ∧ isGraph byte = false

/-! ## Progress -/

variable {text : List UInt8} {loading next : Loading} {skipped : UInt8 -> Bool}

theorem length_dropWhile_lt (present : current text ≠ 0)
    (isSkipped : skipped (current text) = true) :
    (text.dropWhile skipped).length < text.length := by
  cases text with
  | nil => contradiction
  | cons byte rest =>
    rw [dropWhile_cons_of_pos (show skipped byte = true from isSkipped)]
    exact Nat.lt_succ_of_le (length_dropWhile_le _ rest)

theorem length_skipLine_lt (present : current text ≠ 0) : (skipLine text).length < text.length := by
  cases isEnd : isNewLine (current text) with
  | true =>
    have kept : text.dropWhile (fun byte => !isNewLine byte) = text := by
      cases text with
      | nil => rfl
      | cons => exact dropWhile_cons_of_neg (by simpa [current] using isEnd)
    rw [skipLine, kept]
    exact length_dropWhile_lt present isEnd
  | false =>
    exact Nat.lt_of_le_of_lt (length_dropWhile_le _ _)
      (length_dropWhile_lt present (by rw [isEnd]; rfl))

theorem takeWhile_eq_nil (notSkipped : skipped (current text) = false) :
    text.takeWhile skipped = [] := by
  cases text with
  | nil => rfl
  | cons => exact takeWhile_cons_of_neg (by simpa [current] using notSkipped)

theorem iterateLine_advances (iterated : iterateLine loading = some next) :
    next.text.length < loading.text.length ∧ next.tables = loading.tables := by
  have spaces := length_dropWhile_le isSpace loading.text
  unfold iterateLine at iterated
  dsimp only at iterated
  split at iterated
  · contradiction
  rename_i present
  split at iterated
  · split at iterated
    · contradiction
    · cases iterated
      exact ⟨Nat.lt_of_lt_of_le (length_skipLine_lt present) spaces, rfl⟩
  split at iterated
  · contradiction
  rename_i visible
  have address := length_dropWhile_le isAddress (skipUntilNotWhitespace loading.text)
  split at iterated
  · split at iterated
    · contradiction
    · cases iterated
      refine ⟨Nat.lt_of_lt_of_le (length_skipLine_lt visible) (Nat.le_trans address spaces), rfl⟩
  · rename_i _ isParsed
    cases iterated
    refine ⟨Nat.lt_of_lt_of_le (length_dropWhile_lt present ?_) spaces, rfl⟩
    by_contra notAddress
    rw [takeWhile_eq_nil (Bool.eq_false_iff.mpr notAddress)] at isParsed
    contradiction

theorem iterateName_advances {ipAddress : IpAddress} (isAddress : loading.ipAddress = some ipAddress)
    (plain : ¬ Stray loading) (isNext : iterateName loading ipAddress = next) :
    (next.text.length < loading.text.length ∨
      current next.text = 0 ∧ next.text.length ≤ loading.text.length ∧ next.ipAddress = none) ∧
      next.tables.ipAddressByDomainName [] = loading.tables.ipAddressByDomainName [] := by
  have blanks := length_dropWhile_le
    (fun current => current == ascii ' ' || current == ascii '\t') loading.text
  rw [← isNext, iterateName]
  dsimp only
  split
  · rename_i ended
    exact ⟨.inr ⟨ended, blanks, rfl⟩, rfl⟩
  rename_i present
  split
  · exact ⟨.inl (Nat.lt_of_lt_of_le (length_skipLine_lt present) blanks), rfl⟩
  split
  · rename_i isEnd
    exact ⟨.inl (Nat.lt_of_lt_of_le (length_dropWhile_lt present isEnd) blanks), rfl⟩
  rename_i notEnd
  have graphic : isGraph (current (skipUntilNotSeparator loading.text)) = true := by
    by_contra notGraphic
    exact plain ⟨by rw [isAddress]; rfl, present, Bool.eq_false_iff.mpr notEnd,
      Bool.eq_false_iff.mpr notGraphic⟩
  have shorter := Nat.lt_of_lt_of_le (length_dropWhile_lt present graphic) blanks
  split
  · exact ⟨.inl shorter, rfl⟩
  · refine ⟨.inl shorter, Function.update_of_ne ?_ _ _⟩
    cases isText : skipUntilNotSeparator loading.text with
    | nil => exact absurd (congrArg current isText) present
    | cons byte =>
      rw [isText] at graphic
      rw [takeWhile_cons_of_pos (show isGraph byte = true from graphic)]
      exact (cons_ne_nil _ _).symm

/-- What is left to do: an iteration over the names may only return to the lines. -/
def weight (loading : Loading) : Nat :=
  2 * loading.text.length + if loading.ipAddress.isSome then 1 else 0

theorem iterate_advances (plain : ¬ Stray loading) (iterated : iterate loading = some next) :
    (next.text.length < loading.text.length ∨ current next.text = 0) ∧
      weight next < weight loading ∧
      next.tables.ipAddressByDomainName [] = loading.tables.ipAddressByDomainName [] := by
  unfold iterate at iterated
  split at iterated
  · obtain ⟨shorter, sameTables⟩ := iterateLine_advances iterated
    refine ⟨.inl shorter, ?_, by rw [sameTables]⟩
    unfold weight
    split <;> split <;> omega
  · rename_i _ isAddress
    obtain ⟨shorter | ⟨ended, notLonger, left⟩, sameNames⟩ :=
      iterateName_advances isAddress plain (Option.some.inj iterated)
    · refine ⟨.inl shorter, ?_, sameNames⟩
      unfold weight
      split <;> split <;> omega
    · refine ⟨.inr ended, ?_, sameNames⟩
      rw [weight, weight, left, isAddress]
      exact Nat.lt_succ_of_le (Nat.mul_le_mul_left 2 notLonger)

theorem load_returns (plain : ∀ loading, Reaches text loading -> ¬ Stray loading) (fuel : Nat)
    (reached : Reaches text loading) (enough : weight loading < fuel) :
    ∃ tables, load fuel loading = some tables := by
  induction fuel generalizing loading with
  | zero => omega
  | succ _ ih =>
    rw [load]
    cases iterated : iterate loading with
    | none => exact ⟨_, rfl⟩
    | some =>
      have lighter := (iterate_advances (plain loading reached) iterated).2.1
      exact ih (reached.next iterated) (by omega)

/-! ## Stray bytes -/

/-- A stray byte is where the next iteration is too, and an empty name is recorded. -/
theorem Stray.iterates (stray : Stray loading) : ∃ next, iterate loading = some next ∧ Stray next ∧
      next.tables.ipAddressByDomainName [] ≠ [] := by
  obtain ⟨isSome, present, notEnd, notGraphic⟩ := stray
  obtain ⟨ipAddress, isAddress⟩ := Option.isSome_iff_exists.mp isSome
  have notComment : ¬ isComment (current (skipUntilNotSeparator loading.text)) = true := by
    intro isHash
    rw [eq_of_beq isHash] at notGraphic
    contradiction
  have kept : skipDomainName (skipUntilNotSeparator loading.text) =
      skipUntilNotSeparator loading.text := by
    have split := takeWhile_append_dropWhile (p := isGraph)
      (l := skipUntilNotSeparator loading.text)
    rwa [takeWhile_eq_nil notGraphic] at split
  refine ⟨{ loading with
    text := skipUntilNotSeparator loading.text
    tables := loading.tables.register [] ipAddress }, ?_, ⟨isSome, ?_⟩, ?_⟩
  · rw [iterate, isAddress]
    dsimp only
    rw [iterateName]
    rw [if_neg present, if_neg notComment, if_neg (by rw [notEnd]; decide), kept, if_neg present,
      takeWhile_eq_nil notGraphic, isAddress]
  · have again : skipUntilNotSeparator (skipUntilNotSeparator loading.text) =
        skipUntilNotSeparator loading.text := dropWhile_idempotent ..
    rw [again]
    exact ⟨present, notEnd, notGraphic⟩
  · rw [Tables.register]
    split
    · rename_i mem
      exact ne_nil_of_mem mem
    · exact append_ne_nil_of_right_ne_nil _ (cons_ne_nil _ _)

theorem Stray.never_returns (stray : Stray loading) (fuel : Nat) : load fuel loading = none := by
  induction fuel generalizing loading with
  | zero => rfl
  | succ _ ih =>
    obtain ⟨_, iterated, strayNext, _⟩ := stray.iterates
    rw [load, iterated]
    exact ih strayNext

/-- The hosts file is loaded exactly when the loop over the names meets no stray byte. -/
theorem loads_iff (text : List UInt8) :
    Loads text ↔ ∀ loading, Reaches text loading -> ¬ Stray loading := by
  constructor
  · intro loads loading reached stray
    obtain ⟨next, iterated, _, isEmptyName⟩ := stray.iterates
    exact isEmptyName (loads.named next (reached.next iterated))
  · intro plain
    refine ⟨?_, ?_, ?_⟩
    · obtain ⟨tables, isLoaded⟩ := load_returns plain _ Reaches.start .refl
      exact ⟨_, tables, isLoaded⟩
    · intro loading next reached iterated
      exact (iterate_advances (plain loading reached) iterated).1
    · intro _ reached
      induction reached with
      | start => rfl
      | next reached iterated ih => rw [(iterate_advances (plain _ reached) iterated).2.2, ih]

/-- `1.2.3.4` and a form feed. -/
def formFeed : List UInt8 :=
  [0x31, 0x2E, 0x32, 0x2E, 0x33, 0x2E, 0x34, 0x0C]

theorem formFeed_not_loaded : ¬ Loads formFeed := by
  intro loads
  obtain ⟨fuel, _, isLoaded⟩ := loads.returns
  cases fuel with
  | zero => contradiction
  | succ fuel =>
    have stray : Stray { text := [0x0C], ipAddress := IpAddress.parse (formFeed.take 7) [0x0C] } :=
      ⟨by decide, by decide, by decide, by decide⟩
    exact absurd ((stray.never_returns fuel).symm.trans isLoaded) (by simp)

end NtfCore.Ntcdns.HostDatabase
