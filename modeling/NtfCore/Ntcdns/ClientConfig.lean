import Mathlib.Algebra.Group.Nat.Defs
import NtfCore.Foundation.Text
import Mathlib.Data.List.DropRight

/-!
Contract: the configuration that `ntcdns::Utility::loadClientConfigFromText` loads.

Owns: the lines, tokens and options of the text, the extraction of integers, and the
defaults and limits of `sanitizeClientConfig`; the values that the text gives, and the
condition on them under which the configuration is sane.
-/

namespace NtfCore.Ntcdns

open NtfCore.Foundation.Text List Option Function

inductive NumericOption where
  | ndots
  | timeout
  | attempts
deriving DecidableEq

structure NameServerConfig where
  host : List UInt8
  port : Option Nat := none

/-- `ntcdns::ClientConfig`, with `ndots`, `timeout` and `attempts` as one field. Its numbers
are of a type given, so that the texts that they are extracted from can be kept. -/
structure ClientConfig (Number : Type) where
  nameServer : List NameServerConfig := []
  domain : Option (List UInt8) := none
  search : List (List UInt8) := []
  debug : Option Bool := none
  rotate : Option Bool := none
  number : NumericOption -> Option Number := fun _ => none

namespace ClientConfig

/-- What the parser uses of `bdlb`: the tokens of a text between delimiters, all soft, a text
without the space around it, and whether a text is a keyword but for the case. -/
structure Bdlb where
  tokens : String -> List UInt8 -> List (List UInt8)
  trim : List UInt8 -> List UInt8
  areEqualCaseless : List UInt8 -> String -> Bool

/-- The extraction of an `unsigned int` from a stream: zero where there is no number, and
the maximum for a number that is not representable. As by `strtoull`, a negative number
is taken modulo `2 ^ 64`. -/
def extract (text : List UInt8) : Nat :=
  let magnitude (digits : List UInt8) := decimalNumber 0 (digits.takeWhile isDigit)
  let value :=
    match text.dropWhile isSpace with
    | [] => 0
    | sign :: rest =>
      if sign = ascii '-' then
        if magnitude rest < 2 ^ 64 then (2 ^ 64 - magnitude rest) % 2 ^ 64 else 2 ^ 64 - 1
      else if sign = ascii '+' then magnitude rest
      else magnitude (sign :: rest)
  if value < 2 ^ 32 then value else 2 ^ 32 - 1

namespace Bdlb

variable (bdlb : Bdlb) {Number : Type} (parseUnsignedInteger : List UInt8 -> Number)

def numericOption (key : List UInt8) : Option NumericOption :=
  if bdlb.areEqualCaseless key "ndots" then some .ndots
  else if bdlb.areEqualCaseless key "timeout" then some .timeout
  else if bdlb.areEqualCaseless key "attempts" then some .attempts
  else none

/-- An entry of `options`, with `parseUnsignedInteger`, which always succeeds, so that no
value is reset. -/
def parseOption (config : ClientConfig Number) (entry : List UInt8) : ClientConfig Number :=
  match (bdlb.tokens ":" entry).map bdlb.trim with
  | [] => config
  | key :: values =>
    if bdlb.areEqualCaseless key "debug" then { config with debug := some true }
    else if bdlb.areEqualCaseless key "rotate" then { config with rotate := some true }
    else
      match bdlb.numericOption key, values with
      | some option, value :: _ =>
        { config with number :=
            Function.update config.number option (some (parseUnsignedInteger value)) }
      | _, _ => config

/-- The loop of `parseClientConfigLine` over the tokens. -/
def parseTokens : ClientConfig Number -> List (List UInt8) -> Option (ClientConfig Number)
  | config, [] => some config
  | config, token :: rest =>
    if bdlb.areEqualCaseless token "nameserver" then
      match rest with
      | [] => none
      | host :: rest =>
        parseTokens
          { config with nameServer := config.nameServer ++ [{ host := host }] } rest
    else if bdlb.areEqualCaseless token "domain" then
      match rest with
      | [] => none
      | domain :: rest =>
        parseTokens { config with domain := some domain } rest
    else if bdlb.areEqualCaseless token "search" then
      some { config with search := config.search ++ rest }
    else if bdlb.areEqualCaseless token "sortlist" then
      some config
    else if bdlb.areEqualCaseless token "options" then
      some (rest.foldl (bdlb.parseOption parseUnsignedInteger) config)
    else parseTokens config rest

/-- `parseClientConfigLine`. -/
def parseClientConfigLine (config : ClientConfig Number) (line : List UInt8) :
    Option (ClientConfig Number) :=
  bdlb.parseTokens parseUnsignedInteger config
    ((bdlb.tokens " \t" (line.takeWhile fun ch => ch != ascii '#' && ch != ascii ';')).map bdlb.trim)

/-- The loop of `loadClientConfigFromText` over the lines. -/
def parseLines (text : List UInt8) : Option (ClientConfig Number) :=
  (bdlb.tokens "\r\n" text).foldlM (bdlb.parseClientConfigLine parseUnsignedInteger) {}

end Bdlb

/-! ## Loading -/

variable (bdlb : Bdlb)

def limited (value : Option Nat) (default maximum : Nat) : Nat :=
  let value := value.getD default
  if maximum < value then maximum else value

/-- What `sanitizeClientConfig` makes of a numeric option, for so many name servers. Their
number is taken to fit into 32 bits. -/
def sanitizedNumber (servers : Nat) (value : Option Nat) : NumericOption -> Nat
  | .ndots => limited value 1 15
  | .timeout => limited value 5 30
  | .attempts =>
    let value := limited value servers 5
    if servers < value then servers else value

/-- `sanitizeClientConfig`, with the name of the host, if it is resolved. -/
def sanitizeClientConfig (canonicalName : Option (List UInt8)) (config : ClientConfig Nat) :
    ClientConfig Nat :=
  let nameServer :=
    if config.nameServer = [] then
      [{ host := "8.8.8.8".toList.map ascii, port := some 53 }]
    else config.nameServer.map fun server => { server with port := some (server.port.getD 53) }
  let domain :=
    if config.domain = none ∧ config.search = [] then
      match canonicalName with
      | some name =>
        if ascii '.' ∈ name then some (name.dropWhile (· != ascii '.')).tail else some [ascii '.']
      | none => some [ascii '.']
    else config.domain
  { config with
    nameServer := nameServer
    domain := if domain ≠ none ∧ config.search ≠ [] then none else domain
    debug := some (config.debug.getD false)
    rotate := some (config.rotate.getD false)
    number := fun option =>
      some (sanitizedNumber nameServer.length (config.number option) option) }

/-- `loadClientConfigFromText`. -/
def Bdlb.loadClientConfigFromText (canonicalName : Option (List UInt8)) (text : List UInt8) :
    Option (ClientConfig Nat) :=
  (bdlb.parseLines extract text).map (sanitizeClientConfig canonicalName)

/-! ## What a text gives -/

/-- The text as it is parsed, with the last values of the numeric options. -/
def Bdlb.texts (text : List UInt8) : Option (ClientConfig (List UInt8)) :=
  bdlb.parseLines id text

/-- A decimal number that 32 bits represent. -/
def IsDecimal (text : List UInt8) : Prop :=
  text ≠ [] ∧ (∀ ch ∈ text, isDigit ch = true) ∧ decimalNumber 0 text < 2 ^ 32

structure Sane (given : ClientConfig (List UInt8)) (config : ClientConfig Nat) : Prop where
  served : config.nameServer ≠ []
  ports : ∀ server ∈ config.nameServer, server.port.isSome = true
  domain : config.domain = none ↔ config.search ≠ []
  attempts : ∃ value, config.number .attempts = some value ∧
    1 ≤ value ∧ value ≤ min 5 config.nameServer.length
  timeout : ∃ value, config.number .timeout = some value ∧ value ≤ 30
  ndots : ∃ value, config.number .ndots = some value ∧ value ≤ 15
  defaults : ∀ option value, given.number option = some value -> ¬ IsDecimal value ->
    config.number option = some (sanitizedNumber config.nameServer.length none option)

/-- A value does no harm, among so many name servers. -/
def Harmless (servers : Nat) (value : List UInt8) : NumericOption -> Prop
  | .ndots => IsDecimal value ∨ extract value = 1
  | .timeout => IsDecimal value ∨ extract value = 5
  | .attempts => extract value ≠ 0 ∧ (IsDecimal value ∨ min 5 servers ≤ extract value)

variable {Number Read : Type}

def convert (read : Number -> Read) (config : ClientConfig Number) : ClientConfig Read :=
  ⟨config.nameServer, config.domain, config.search, config.debug, config.rotate,
    fun option => (config.number option).map read⟩

variable (read : List UInt8 -> Read) (config : ClientConfig (List UInt8))

open Bdlb

theorem parseOption_convert (entry : List UInt8) :
    bdlb.parseOption read (config.convert read) entry =
      (bdlb.parseOption id config entry).convert read := by
  unfold parseOption
  cases (bdlb.tokens ":" entry).map bdlb.trim with
  | nil => rfl
  | cons key values =>
    dsimp only
    split_ifs
    · rfl
    · rfl
    · split
      · rename_i option _ _ _
        refine congrArg (mk _ _ _ _ _) (funext fun other => ?_)
        dsimp only
        by_cases same : other = option
        · rw [same, update_self, update_self]
          rfl
        · rw [update_of_ne same, update_of_ne same]
          rfl
      · rfl

theorem foldl_parseOption_convert (entries : List (List UInt8)) :
    entries.foldl (bdlb.parseOption read) (config.convert read) =
      (entries.foldl (bdlb.parseOption id) config).convert read := by
  induction entries generalizing config with
  | nil => rfl
  | cons entry rest ih => rw [foldl_cons, foldl_cons, parseOption_convert, ih]

theorem parseTokens_convert (line : List (List UInt8)) :
    bdlb.parseTokens read (config.convert read) line =
      (bdlb.parseTokens id config line).map (convert read) := by
  fun_induction bdlb.parseTokens id config line with
  | case1 => rfl
  | case2 _ _ isServer =>
    rw [parseTokens, if_pos isServer]
    rfl
  | case3 _ _ isServer _ _ ih =>
    rw [parseTokens, if_pos isServer]
    exact ih
  | case4 _ _ notServer isDomain =>
    rw [parseTokens, if_neg notServer, if_pos isDomain]
    rfl
  | case5 _ _ notServer isDomain _ _ ih =>
    rw [parseTokens, if_neg notServer, if_pos isDomain]
    exact ih
  | case6 _ _ _ notServer notDomain isSearch =>
    unfold parseTokens
    rw [if_neg notServer, if_neg notDomain, if_pos isSearch]
    rfl
  | case7 _ _ _ notServer notDomain notSearch isSort =>
    unfold parseTokens
    rw [if_neg notServer, if_neg notDomain, if_neg notSearch, if_pos isSort]
    rfl
  | case8 _ _ _ notServer notDomain notSearch notSort isOptions =>
    unfold parseTokens
    rw [if_neg notServer, if_neg notDomain, if_neg notSearch, if_neg notSort,
      if_pos isOptions, foldl_parseOption_convert]
    rfl
  | case9 _ _ _ notServer notDomain notSearch notSort notOptions ih =>
    rw [parseTokens.eq_def]
    dsimp only
    rw [if_neg notServer, if_neg notDomain, if_neg notSearch, if_neg notSort, if_neg notOptions, ih]

theorem parseLines_convert (text : List UInt8) :
    bdlb.parseLines extract text = (bdlb.texts text).map (convert extract) := by
  have lines : ∀ (lines : List (List UInt8)) (config : ClientConfig (List UInt8)),
      lines.foldlM (bdlb.parseClientConfigLine extract) (config.convert extract) =
        (lines.foldlM (bdlb.parseClientConfigLine id) config).map (convert extract) := by
    intro lines
    induction lines with
    | nil => exact fun _ => rfl
    | cons line rest ih =>
      intro config
      rw [foldlM_cons, foldlM_cons, parseClientConfigLine, parseTokens_convert]
      change Option.bind _ _ = Option.map _ (Option.bind (bdlb.parseTokens id config _) _)
      cases bdlb.parseTokens id config _ with
      | none => rfl
      | some next => exact ih next
  exact lines _ {}

/-! ## Numbers -/

variable {servers value : Nat}

theorem sanitizedNumber_default_iff (served : 1 ≤ servers) (option : NumericOption) :
    sanitizedNumber servers (some value) option = sanitizedNumber servers none option ↔
      match option with
      | .ndots => value = 1
      | .timeout => value = 5
      | .attempts => min 5 servers ≤ value := by
  cases option <;> simp only [sanitizedNumber, limited, getD_some, getD_none] <;>
    split_ifs <;> omega

theorem attempts_bounds (served : 1 ≤ servers) (given : Option Nat) :
    1 ≤ sanitizedNumber servers given .attempts ∧
        sanitizedNumber servers given .attempts ≤ min 5 servers ↔ given ≠ some 0 := by
  cases given with
  | none =>
    simp only [sanitizedNumber, limited, getD_none]
    split_ifs <;> simp <;> omega
  | some value =>
    simp only [sanitizedNumber, limited, getD_some, ne_eq, some.injEq]
    split_ifs <;> omega

theorem limited_le (given : Option Nat) (default maximum : Nat) :
    limited given default maximum ≤ maximum := by
  unfold limited
  dsimp only
  split_ifs with above
  · exact Nat.le_refl _
  · exact Nat.not_lt.mp above

/-- The configuration that is loaded from what is given. -/
theorem sane_iff_harmless (canonicalName : Option (List UInt8))
    (given : ClientConfig (List UInt8)) :
    Sane given (sanitizeClientConfig canonicalName (given.convert extract)) ↔
      ∀ option value, given.number option = some value ->
        Harmless (max 1 given.nameServer.length) value option := by
  have count : (sanitizeClientConfig canonicalName (given.convert extract)).nameServer.length =
      max 1 given.nameServer.length := by
    unfold sanitizeClientConfig convert
    dsimp only
    split
    · rename_i isEmpty
      rw [isEmpty]
      rfl
    · rename_i isEmpty
      rw [length_map]
      have := length_pos_iff.mpr isEmpty
      omega
  have number : ∀ option,
      (sanitizeClientConfig canonicalName (given.convert extract)).number option =
        some (sanitizedNumber (max 1 given.nameServer.length)
          ((given.number option).map extract) option) := by
    intro option
    rw [← count]
    rfl
  have served := Nat.le_max_left 1 given.nameServer.length
  constructor
  · intro sane option value isGiven
    have isDefault := fun notDecimal => sane.defaults option value isGiven notDecimal
    rw [number, isGiven, map_some, count, some.injEq,
      sanitizedNumber_default_iff served] at isDefault
    cases option with
    | ndots | timeout => exact or_iff_not_imp_left.mpr isDefault
    | attempts =>
      refine ⟨?_, or_iff_not_imp_left.mpr isDefault⟩
      obtain ⟨result, isResult, bounds⟩ := sane.attempts
      rw [number, some.injEq] at isResult
      rw [← isResult, count] at bounds
      have pos := (attempts_bounds served _).mp bounds
      rw [isGiven] at pos
      exact fun isZero => pos (congrArg some isZero)
  · intro harmless
    have pos : (given.number .attempts).map extract ≠ some 0 := by
      intro isZero
      obtain ⟨value, isGiven, isNone⟩ := map_eq_some_iff.mp isZero
      exact (harmless .attempts value isGiven).1 isNone
    refine ⟨?_, ?_, ?_, ⟨_, number .attempts, ?_⟩, ⟨_, number .timeout, limited_le _ _ _⟩,
      ⟨_, number .ndots, limited_le _ _ _⟩, ?_⟩
    · exact length_pos_iff.mp (by rw [count]; exact served)
    · intro server mem
      unfold sanitizeClientConfig at mem
      split at mem
      · rw [mem_singleton.mp mem]
        rfl
      · obtain ⟨_, _, rfl⟩ := mem_map.mp mem
        rfl
    · unfold sanitizeClientConfig
      dsimp only
      split
      · rename_i neither
        rw [if_neg fun both => both.2 neither.2]
        refine iff_of_false ?_ (not_not_intro neither.2)
        cases canonicalName with
        | none => exact some_ne_none _
        | some name =>
          dsimp only
          split <;> exact some_ne_none _
      · rename_i neither
        by_cases searches : (given.convert extract).search = []
        · rw [if_neg fun both => both.2 searches]
          exact iff_of_false (fun isNone => neither ⟨isNone, searches⟩) (not_not_intro searches)
        · refine iff_of_true ?_ searches
          split
          · rfl
          · rename_i notBoth
            exact by_contra fun isSome => notBoth ⟨isSome, searches⟩
    · rw [count]
      exact (attempts_bounds served _).mpr pos
    · intro option value isGiven notDecimal
      rw [number, isGiven, map_some, count, some.injEq, sanitizedNumber_default_iff served]
      have isHarmless := harmless option value isGiven
      cases option with
      | ndots | timeout => exact isHarmless.resolve_left notDecimal
      | attempts => exact isHarmless.2.resolve_left notDecimal

/-- The configuration loaded is sane, if any is, exactly when the last values that the text gives
to the numeric options are harmless. -/
theorem loaded_sane_iff (canonicalName : Option (List UInt8)) (text : List UInt8) :
    (∀ given config, bdlb.texts text = some given ->
      bdlb.loadClientConfigFromText canonicalName text = some config -> Sane given config) ↔
      ∀ given, bdlb.texts text = some given -> ∀ option value, given.number option = some value ->
        Harmless (max 1 given.nameServer.length) value option := by
  have isLoaded : bdlb.loadClientConfigFromText canonicalName text =
      (bdlb.texts text).map fun given => sanitizeClientConfig canonicalName (given.convert extract) := by
    rw [loadClientConfigFromText, parseLines_convert, Option.map_map]
    rfl
  rw [isLoaded]
  constructor
  · intro sane given isGiven
    rw [← sane_iff_harmless canonicalName given]
    exact sane given _ isGiven (by rw [isGiven]; rfl)
  · intro harmless given config isGiven isConfig
    rw [isGiven] at isConfig
    cases isConfig
    exact (sane_iff_harmless canonicalName given).mpr (harmless given isGiven)

/-- `bdlb` as it is documented. -/
def documented : Bdlb where
  tokens delimiters text :=
    (text.splitOnP fun ch => ch ∈ delimiters.toList.map ascii).filter fun token => !token.isEmpty
  trim text := (text.dropWhile isSpace).rdropWhile isSpace
  areEqualCaseless text keyword := text.map toLower == keyword.toList.map ascii

def noAttempts : List UInt8 :=
  "options attempts:x".toList.map ascii

theorem noAttempts_not_sane : ¬ ∀ given config, documented.texts noAttempts = some given ->
      documented.loadClientConfigFromText none noAttempts = some config -> Sane given config := by
  intro sane
  have isZero : (documented.loadClientConfigFromText none noAttempts).map (fun config =>
      config.number .attempts) = some (some 0) := by decide +kernel
  have isParsed : (documented.texts noAttempts).isSome = true := by decide +kernel
  obtain ⟨config, isConfig, isNumber⟩ := map_eq_some_iff.mp isZero
  obtain ⟨given, isGiven⟩ := isSome_iff_exists.mp isParsed
  obtain ⟨value, isValue, pos, _⟩ := (sane given config isGiven isConfig).attempts
  rw [isNumber, some.injEq] at isValue
  rw [← isValue] at pos
  exact absurd pos (by decide)

end ClientConfig

end NtfCore.Ntcdns
