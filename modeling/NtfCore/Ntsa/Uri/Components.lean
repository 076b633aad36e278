import NtfCore.Ntsa.IdentityOrder
import NtfCore.Ntsa.Ipv6RoundTrip
import NtfCore.Ntsa.Uri.Model

/-!
Contract: the components of a uniform resource identifier, each on its own.

Owns: that escapes, IPv4 addresses, domain names and ports are read back, what a
scan does with text that holds no delimiter, and which hosts a text without
delimiters can stand for.
-/

namespace NtfCore.Ntsa

open NtfCore.Foundation DomainName
open List hiding Vector
open NtfCore.Foundation.Text

namespace UriUtil

theorem encodeCharacter_plain (ch : UInt8) :
    ∀ other ∈ encodeCharacter ch, isUnreserved other = true ∨ other = ascii '%' := by
  have all : ∀ ch : UInt8, ((encodeCharacter ch).all fun other =>
      isUnreserved other || other == ascii '%') = true := by
    apply forall_byte
    decide +kernel
  intro other mem
  have accepted := all_eq_true.mp (all ch) other mem
  rwa [Bool.or_eq_true, beq_iff_eq] at accepted

theorem decodeLoop_encodeCharacter (ch : UInt8) (rest : List UInt8) :
    decodeLoop (encodeCharacter ch ++ rest) = (decodeLoop rest).map (ch :: ·) := by
  have escape : ∀ ch : UInt8, isUnreserved ch = true ∧ ch ≠ ascii '%' ∧ ch ≠ ascii '+' ∨
      isUnreserved ch = false ∧
        decodeHex (encodeHex (ch >>> 4)) <<< 4 ||| decodeHex (encodeHex (ch &&& 15)) = ch := by
    apply forall_byte
    decide +kernel
  rcases escape ch with ⟨plain, notPercent, notPlus⟩ | ⟨reserved, restored⟩
  · rw [encodeCharacter, if_pos plain, singleton_append, decodeLoop.eq_def]
    dsimp only
    rw [if_neg notPercent, if_neg notPlus]
  · rw [encodeCharacter, if_neg (by simp [reserved])]
    show decodeLoop (ascii '%' :: _ :: _ :: rest) = _
    rw [decodeLoop.eq_def]
    dsimp only
    rw [if_pos rfl, restored]

theorem decodeLoop_flatMap (source : List UInt8) :
    decodeLoop (source.flatMap encodeCharacter) = some source := by
  induction source with
  | nil => rfl
  | cons _ _ ih =>
    rw [flatMap_cons, decodeLoop_encodeCharacter, ih]
    rfl

theorem encodeCharacter_ne_nil (ch : UInt8) : encodeCharacter ch ≠ [] := by
  unfold encodeCharacter
  split
  · exact cons_ne_nil _ _
  · exact cons_ne_nil _ _

/-- What is escaped is read back, and holds no delimiter. -/
theorem encodeUrl_spec {source : List UInt8} (ne : source ≠ []) :
    ∃ encoded, encodeUrl source = some encoded ∧ encoded ≠ [] ∧ decodeUrl encoded = some source ∧
      ∀ ch ∈ encoded, isUnreserved ch = true ∨ ch = ascii '%' := by
  have encodedNonempty : source.flatMap encodeCharacter ≠ [] := by
    obtain ⟨ch, _, isSource⟩ := exists_cons_of_ne_nil ne
    rw [isSource, flatMap_cons]
    exact append_ne_nil_of_left_ne_nil (encodeCharacter_ne_nil ch) _
  refine ⟨source.flatMap encodeCharacter, ?_, encodedNonempty, ?_, ?_⟩
  · rw [encodeUrl, if_neg ne]
  · rw [decodeUrl, if_neg encodedNonempty, decodeLoop_flatMap]
  · intro ch mem
    obtain ⟨plain, _, inEncoded⟩ := mem_flatMap.mp mem
    exact encodeCharacter_plain plain ch inEncoded

variable {stops : List Char}

theorem scanChar_append {text rest : List UInt8} (plain : ∀ ch ∈ text, ch ∉ stops.map ascii)
    (stopped : ∀ ch ∈ rest.head?, ch ∈ stops.map ascii) :
    scanChar stops (text ++ rest) = (text, rest) := by
  have passes : ∀ ch ∈ text, (!(stops.map ascii).contains ch) = true := by
    intro ch mem
    simp [plain ch mem]
  have isHead : rest.takeWhile (fun ch => !(stops.map ascii).contains ch) = [] ∧
      rest.dropWhile (fun ch => !(stops.map ascii).contains ch) = rest := by
    cases rest with
    | nil => exact ⟨rfl, rfl⟩
    | cons ch =>
      have inStops := stopped ch rfl
      have halts : ¬ (!(stops.map ascii).contains ch) = true := by simp [inStops]
      exact ⟨takeWhile_cons_of_neg halts, dropWhile_cons_of_neg halts⟩
  rw [scanChar, takeWhile_append_of_pos passes, dropWhile_append_of_pos passes,
    isHead.1, isHead.2, append_nil]

/-- What a scan leaves before it has no delimiter. -/
theorem scanChar_plain {text : List UInt8} {ch : UInt8}
    (mem : ch ∈ (scanChar stops text).1) : ch ∉ stops.map ascii := by
  have passed := all_eq_true.mp all_takeWhile ch mem
  simpa using passed

/-- An escaped text has none of the delimiters. -/
theorem plain_of_encoded {encoded : List UInt8}
    (encodes : ∀ ch ∈ encoded, isUnreserved ch = true ∨ ch = ascii '%')
    (delimiters : (stops.all fun stop => !isUnreserved (ascii stop) && ascii stop != ascii '%') = true) :
    ∀ ch ∈ encoded, ch ∉ stops.map ascii := by
  intro ch mem inStops
  obtain ⟨stop, isStop, isCh⟩ := mem_map.mp inStops
  have reserved := all_eq_true.mp delimiters stop isStop
  rw [isCh] at reserved
  rcases encodes ch mem with plain | isPercent
  · rw [plain] at reserved
    contradiction
  · rw [isPercent] at reserved
    contradiction

end UriUtil

/-! ## Ports and IPv4 addresses -/

theorem PortUtil.parse_decimal (port : UInt16) (after : List UInt8) :
    PortUtil.parse (decimal port.toNat ++ after) (decimal port.toNat).length = some port := by
  have bound := port.toNat_lt
  rw [PortUtil.parse, Ipv6Address.parse_decimal (by omega),
    if_neg (by unfold Ipv6ScopeIdUtil.ushortMax; omega), Option.map_some]
  congr 1
  apply UInt16.toNat_inj.mp
  rw [UInt32.toNat_toUInt16, UInt32.toNat_ofNat', Nat.mod_mod_of_dvd _ (by decide)]
  exact Nat.mod_eq_of_lt bound

namespace Ipv4Address

theorem parseLoop_digits {digits : List UInt8} (all : ∀ ch ∈ digits, isDigit ch = true)
    (index numAtIndex : Nat) (value : Vector UInt8 4) (rest : List UInt8)
    (fits : decimalNumber numAtIndex digits ≤ 2 ^ 32 - 1) :
    parseLoop index numAtIndex value (digits ++ rest) =
      parseLoop index (decimalNumber numAtIndex digits) value rest := by
  induction digits generalizing numAtIndex with
  | nil => rfl
  | cons ch digits ih =>
    obtain ⟨isCh, isRest⟩ := forall_mem_cons.mp all
    have bound := decimalNumber_mono digits (numAtIndex * 10 + (ch.toNat - (ascii '0').toNat))
    rw [decimalNumber_cons] at fits ⊢
    rw [cons_append, parseLoop, if_pos isCh]
    rw [if_neg (by omega)]
    exact ih isRest _ fits

theorem parseLoop_byte (byte : UInt8) {index : Nat} (inside : index < 3) (value : Vector UInt8 4)
    (rest : List UInt8) : parseLoop index 0 value (decimal byte.toNat ++ ascii '.' :: rest) =
      parseLoop (index + 1) 0 (value.setIfInBounds index byte) rest := by
  have bound := byte.toNat_lt
  have number := decimalNumber_decimal byte.toNat
  rw [parseLoop_digits (fun _ => isDigit_of_mem_decimal) index 0 value _ (by omega), number,
    parseLoop, if_neg (by decide), if_pos rfl, if_neg (by omega), if_neg (by omega),
    UInt8.ofNat_toNat]

theorem parse_format (address : Ipv4Address) : parse address.format = some address := by
  obtain ⟨⟨⟨bytes⟩, size⟩⟩ := address
  match bytes, size with
  | [b0, b1, b2, b3], size =>
    have bound := b3.toNat_lt
    have number := decimalNumber_decimal b3.toNat
    have last : ∀ value : Vector UInt8 4, parseLoop 3 0 value (decimal b3.toNat) =
        some (3, b3.toNat, value) := by
      intro value
      have looped := parseLoop_digits (fun _ => isDigit_of_mem_decimal) 3 0 value []
        (Nat.le_trans (Nat.le_of_eq number) (by omega))
      rw [append_nil, number] at looped
      exact looped
    have formatted : format ⟨⟨⟨[b0, b1, b2, b3]⟩, size⟩⟩ =
        decimal b0.toNat ++ ascii '.' :: (decimal b1.toNat ++ ascii '.' ::
          (decimal b2.toNat ++ ascii '.' :: decimal b3.toNat)) := by
      simp [format, formatLoop, Vector.toList]
    rw [parse, formatted, parseLoop_byte b0 (by decide), parseLoop_byte b1 (by decide),
      parseLoop_byte b2 (by decide), last]
    dsimp only
    rw [if_pos rfl, if_neg (by omega), UInt8.ofNat_toNat]
    rfl

def isNumeric (ch : UInt8) : Bool :=
  isDigit ch || ch == ascii '.'

theorem format_numeric (address : Ipv4Address) : ∀ ch ∈ address.format, isNumeric ch = true := by
  have numeral : ∀ value : Nat, ∀ ch ∈ decimal value, isNumeric ch = true := by
    intro value ch mem
    rw [isNumeric, isDigit_of_mem_decimal mem, Bool.true_or]
  have looped : ∀ bytes : List UInt8, ∀ ch ∈ formatLoop bytes, isNumeric ch = true := by
    intro bytes
    induction bytes using formatLoop.induct with
    | case1 => simp [formatLoop]
    | case2 value => exact numeral _
    | case3 _ _ more ih =>
      rw [formatLoop]
      · intro ch mem
        rcases mem_append.mp mem with inNumeral | behind
        · exact numeral _ ch inNumeral
        · rcases mem_cons.mp behind with isDot | later
          · rw [isDot]
            decide
          · exact ih ch later
      · exact more
  exact looped _

theorem format_ne_nil (address : Ipv4Address) : address.format ≠ [] := by
  obtain ⟨⟨⟨bytes⟩, size⟩⟩ := address
  match bytes, size with
  | [b0, b1, b2, b3], size => simp [format, formatLoop, Vector.toList]

/-- Digits and dots have no case. -/
theorem isNumeric_toLower (ch : UInt8) :
    isNumeric (toLower ch) = isNumeric ch ∧ (isNumeric ch = true -> toLower ch = ch) := by
  revert ch
  apply forall_byte
  decide +kernel

theorem parseLoop_refused {ch : UInt8} (refused : isNumeric ch = false) (index numAtIndex : Nat)
    (value : Vector UInt8 4) (rest : List UInt8) :
    parseLoop index numAtIndex value (ch :: rest) = none := by
  unfold isNumeric at refused
  rw [Bool.or_eq_false_iff] at refused
  rw [parseLoop, if_neg (by simp [refused.1]), if_neg (by simpa using refused.2)]

theorem parseLoop_toLower (text : List UInt8) (index numAtIndex : Nat) (value : Vector UInt8 4) :
    parseLoop index numAtIndex value (text.map toLower)
    = parseLoop index numAtIndex value text := by
  induction text generalizing index numAtIndex value with
  | nil => rfl
  | cons ch _ ih =>
    obtain ⟨sameClass, unchanged⟩ := isNumeric_toLower ch
    rw [map_cons]
    cases numeric : isNumeric ch with
    | false => rw [parseLoop_refused numeric, parseLoop_refused (sameClass.trans numeric)]
    | true =>
      rw [unchanged numeric, parseLoop, parseLoop]
      simp only [ih]

theorem parse_toLower (text : List UInt8) : parse (text.map toLower) = parse text := by
  rw [parse, parseLoop_toLower, parse]

end Ipv4Address

namespace DomainName

def isNameCharacter (ch : UInt8) : Bool :=
  isAlnum ch || ch == ascii '.' || ch == ascii '-' || ch == ascii '_'

def Separated : Option UInt8 -> List UInt8 -> Prop
  | _, [] => True
  | previous, ch :: rest =>
    ¬ (ch = ascii '.' ∧ (previous = none ∨ previous = some (ascii '.'))) ∧
      Separated (some ch) rest

/-- The name is one that `parse` reads as it stands. -/
structure Plain (name : DomainName) : Prop where
  nonempty : name.text ≠ []
  short : name.text.length ≤ bufferSize - 1
  characters : ∀ ch ∈ toBytes name.text, isNameCharacter ch = true ∧ isUpper ch = false
  separated : Separated none (toBytes name.text)
  edges : (isEdge (toBytes name.text).head? || isEdge (toBytes name.text).getLast?) = false

theorem parseLoop_eq_some {prev : Option UInt8} {text buffer : List UInt8} :
    parseLoop prev text = some buffer ↔
      (∀ ch ∈ text, isNameCharacter ch = true) ∧ buffer = text.map toLower ∧
        Separated prev buffer := by
  induction text generalizing prev buffer with
  | nil =>
    rw [parseLoop, Option.some.injEq]
    constructor
    · intro isNil
      rw [← isNil]
      exact ⟨nofun, rfl, trivial⟩
    · rintro ⟨_, isNil, _⟩
      exact isNil.symm
  | cons ch rest ih =>
    have refused : (!isAlnum ch && ch ≠ ascii '.' && ch ≠ ascii '-' && ch ≠ ascii '_') = true ↔
        ¬ isNameCharacter ch = true := by
      unfold isNameCharacter
      simp [and_assoc]
    rw [parseLoop]
    split
    · rename_i isRefused
      refine iff_of_false nofun ?_
      rintro ⟨all, _, _⟩
      exact refused.mp isRefused (all ch mem_cons_self)
    · rename_i accepted
      have isName : isNameCharacter ch = true := Decidable.not_not.mp fun other =>
        accepted (refused.mpr other)
      dsimp only
      split
      · rename_i doubled
        refine iff_of_false nofun ?_
        rintro ⟨_, isBuffer, separated⟩
        rw [isBuffer] at separated
        exact separated.1 doubled
      · rename_i single
        rw [Option.map_eq_some_iff]
        constructor
        · rintro ⟨_, parsed, isBuffer⟩
          obtain ⟨all, isLater, separated⟩ := ih.mp parsed
          rw [← isBuffer]
          exact ⟨forall_mem_cons.mpr ⟨isName, all⟩, by rw [isLater]; rfl, single, separated⟩
        · rintro ⟨all, isBuffer, separated⟩
          rw [isBuffer] at separated ⊢
          refine ⟨rest.map toLower, ih.mpr ⟨?_, rfl, separated.2⟩, rfl⟩
          exact (forall_mem_cons.mp all).2

theorem toLower_of_not_upper {ch : UInt8} (lower : isUpper ch = false) : toLower ch = ch := by
  rw [toLower, lower]
  rfl

theorem lowered_character (ch : UInt8) : isNameCharacter ch = true ->
    isNameCharacter (toLower ch) = true ∧ isUpper (toLower ch) = false := by
  revert ch
  apply forall_byte
  decide +kernel

theorem parse_plain {name : DomainName} (plain : name.Plain) :
    parse (toBytes name.text) = some name := by
  have unchanged : (toBytes name.text).map toLower = toBytes name.text := by
    refine (map_congr_left fun ch mem => ?_).trans (map_id _)
    exact toLower_of_not_upper (plain.characters ch mem).2
  have looped : parseLoop none (toBytes name.text) = some (toBytes name.text) := by
    refine parseLoop_eq_some.mpr ⟨fun ch mem => (plain.characters ch mem).1, ?_, plain.separated⟩
    exact unchanged.symm
  have length : (toBytes name.text).length ≤ bufferSize - 1 := by
    rw [toBytes, length_map]
    exact plain.short
  rw [parse, if_neg (Nat.not_lt.mpr length), looped]
  dsimp only
  rw [plain.edges, if_neg (by decide), ofBytes_toBytes]

theorem plain_of_parse {text : List UInt8} {name : DomainName} (ne : text ≠ [])
    (parsed : parse text = some name) : name.Plain ∧ toBytes name.text = text.map toLower := by
  unfold parse at parsed
  split at parsed
  · contradiction
  · rename_i short
    cases looped : parseLoop none text with
    | none =>
      rw [looped] at parsed
      contradiction
    | some buffer =>
      rw [looped] at parsed
      dsimp only at parsed
      obtain ⟨all, isBuffer, separated⟩ := parseLoop_eq_some.mp looped
      split at parsed
      · contradiction
      · rename_i edges
        cases parsed
        have isText : toBytes (ofBytes buffer) = buffer := toBytes_ofBytes buffer
        refine ⟨⟨?_, ?_, ?_, ?_, ?_⟩, isText.trans isBuffer⟩
        · intro isNil
          rw [isBuffer, ofBytes, map_map, map_eq_nil_iff] at isNil
          exact ne isNil
        · rw [isBuffer, ofBytes, length_map, length_map]
          exact Nat.not_lt.mp short
        · rw [isText, isBuffer]
          intro _ mem
          obtain ⟨original, inText, isCh⟩ := mem_map.mp mem
          rw [← isCh]
          exact lowered_character original (all original inText)
        · rw [isText]
          exact separated
        · rw [isText]
          exact Bool.eq_false_iff.mpr edges

end DomainName

/-! ## Hosts -/

theorem Ipv6Address.parse_plain {text : List UInt8} (plain : ascii ':' ∉ text)
    (after : List UInt8) : Ipv6Address.parse text after = none := by
  cases text with
  | nil => rfl
  | cons first =>
    have noColon := skipLoop_noColon (fun _ mem isColon =>
      plain (mem_cons_of_mem _ (isColon ▸ mem))) first (false, 0)
    rw [Ipv6Address.parse.eq_def]
    dsimp only
    rw [noColon]
    split
    · rfl
    · split
      · rfl
      · rfl

namespace Host

def Readable : Host -> Prop
  | .ip (.v4 _) => True
  | .domainName name => name.Plain ∧ Ipv4Address.parse (toBytes name.text) = none
  | _ => False

variable {host : Host}

theorem equals_self (readable : host.Readable) : host.equals host = true := by
  match host, readable with
  | .ip (.v4 address), _ => rw [equals, IpAddress.equals, Ipv4Address.equals, beq_self_eq_true]
  | .domainName name, _ => exact (equals_iff name name).mpr rfl

theorem readable_of_equals {host other : Host} (readable : host.Readable)
    (same : host.equals other = true) : other.Readable := by
  match host, other, readable with
  | .ip (.v4 _), .ip (.v4 _), _ => trivial
  | .domainName name, .domainName other, isReadable =>
    have isName : name = other := by
      cases name
      cases other
      exact congrArg mk ((equals_iff _ _).mp same)
    rw [← isName]
    exact isReadable

theorem readable_of_parse {text after : List UInt8} (ne : text ≠ [])
    (noColon : ascii ':' ∉ text) (noSlash : ascii '/' ∉ text)
    (parsed : parse text after = some host) : host.Readable := by
  cases text with
  | nil => contradiction
  | cons first rest =>
    have notSlash : first ≠ ascii '/' := fun isSlash =>
      noSlash (isSlash ▸ mem_cons_self)
    rw [parse.eq_def] at parsed
    dsimp only at parsed
    rw [if_neg notSlash, IpAddress.parse, if_neg ne, Ipv6Address.parse_plain noColon] at parsed
    cases isV4 : Ipv4Address.parse (first :: rest) with
    | some =>
      rw [isV4] at parsed
      cases parsed
      trivial
    | none =>
      rw [isV4] at parsed
      cases isName : DomainName.parse (first :: rest) with
      | none =>
        rw [isName] at parsed
        contradiction
      | some =>
        rw [isName] at parsed
        cases parsed
        obtain ⟨plain, isText⟩ := plain_of_parse ne isName
        refine ⟨plain, ?_⟩
        rw [isText, Ipv4Address.parse_toLower, isV4]

theorem printed_plain (readable : host.Readable) : Uri.printHost (some host) ≠ [] ∧
      ∀ ch ∈ Uri.printHost (some host), isNameCharacter ch = true := by
  have numeric : ∀ ch, Ipv4Address.isNumeric ch = true -> isNameCharacter ch = true := by
    apply forall_byte
    decide +kernel
  match host, readable with
  | .ip (.v4 address), _ =>
    refine ⟨address.format_ne_nil, fun ch mem => ?_⟩
    exact numeric ch (address.format_numeric ch mem)
  | .domainName name, ⟨plain, _⟩ =>
    refine ⟨?_, fun ch mem => (plain.characters ch mem).1⟩
    intro isNil
    exact plain.nonempty (map_eq_nil_iff.mp isNil)

theorem parse_printed (readable : host.Readable) (after : List UInt8) :
    parse (Uri.printHost (some host)) after = some host := by
  obtain ⟨ne, characters⟩ := printed_plain readable
  cases isText : Uri.printHost (some host) with
  | nil => contradiction
  | cons first =>
    rw [isText] at characters
    have delimiters : ∀ ch, isNameCharacter ch = true -> ch ≠ ascii '/' ∧ ch ≠ ascii ':' := by
      apply forall_byte
      decide +kernel
    have notSlash := (delimiters first (characters first mem_cons_self)).1
    rw [parse.eq_def]
    dsimp only
    rw [if_neg notSlash, IpAddress.parse, if_neg (cons_ne_nil _ _), ← isText]
    match host, readable with
    | .ip (.v4 address), _ =>
      have parsed := address.parse_format
      rw [Uri.printHost, parsed]
    | .domainName name, ⟨plain, notAddress⟩ =>
      have noColon : ascii ':' ∉ toBytes name.text := by
        intro mem
        have isName := (plain.characters _ mem).1
        exact absurd isName (by decide)
      rw [Uri.printHost, notAddress, Ipv6Address.parse_plain noColon, parse_plain plain]

end Host

end NtfCore.Ntsa
