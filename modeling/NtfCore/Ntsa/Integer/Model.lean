import Mathlib.Algebra.Group.Nat.Defs
import Mathlib.Data.List.DropRight
import NtfCore.Foundation.Text

/-!
Contract: integers of any size (`ntsa::AbstractIntegerRepresentation`,
`ntsa::AbstractIntegerQuantity` and `ntsa::AbstractInteger`).

Owns: the magnitude as a sequence of blocks of 32 bits, its arithmetic, parsing,
decoding and encoding, and the integer with its sign.

Every magnitude of an integer is in the native base, so the base is not stored.
-/

namespace NtfCore.Ntsa

open NtfCore.Foundation
open NtfCore.Foundation.Text

/-- `AbstractIntegerRepresentation::Block`. -/
abbrev Block := UInt32

/-- `AbstractIntegerRepresentation::d_data`: the blocks, least significant first. -/
abbrev Blocks := List Block

namespace AbstractIntegerRepresentation

/-- `radix` of the native base. -/
def radix : Nat := 2 ^ 32

/-- `normalize`. -/
def normalize (data : Blocks) : Blocks :=
  data.rdropWhile (· == 0)

/-- `get`. -/
def get (data : Blocks) (index : Nat) : Block :=
  data.getD index 0

/-- `set`. -/
def set (data : Blocks) (index : Nat) (value : Block) : Blocks :=
  (data ++ List.replicate (index + 1 - data.length) 0).set index value

/-- The loop of `assign`. -/
def assignLoop (remaining : Nat) : Blocks :=
  if remaining = 0 then []
  else UInt32.ofNat (remaining % radix) :: assignLoop (remaining / radix)
termination_by remaining
decreasing_by exact Nat.div_lt_self (Nat.pos_of_ne_zero ‹_›) (by decide)

/-- `assign` of a 64-bit value. -/
def assign (value : UInt64) : Blocks :=
  assignLoop value.toNat

/-- `isZero`. -/
def isZero (data : Blocks) : Bool :=
  data.isEmpty || data == [0]

/-- `isOne`. -/
def isOne (data : Blocks) : Bool :=
  data == [1]

/-- The loop of `compare`, from the most significant block. -/
def compareLoop : Blocks -> Blocks -> Int
  | lhs :: restL, rhs :: restR =>
    if lhs < rhs then -1
    else if rhs < lhs then 1
    else compareLoop restL restR
  | _, _ => 0

/-- `compare`. -/
def compare (lhs rhs : Blocks) : Int :=
  if lhs.length < rhs.length then -1
  else if rhs.length < lhs.length then 1
  else compareLoop lhs.reverse rhs.reverse

/-- One place of `add`, with the carry. -/
def addPlace (lhs rhs : Block) (carry : Bool) : Block × Bool :=
  let temp := lhs.toNat + rhs.toNat
  let temp := if carry then temp + 1 else temp
  if temp ≥ radix then (UInt32.ofNat (temp - radix), true) else (UInt32.ofNat temp, false)

/-- The loop of `add`. -/
def addLoop (lhs rhs : Blocks) : Nat -> Nat -> Bool -> Blocks
  | 0, _, carry => if carry then [1] else []
  | count + 1, i, carry =>
    let (place, carry) := addPlace (get lhs i) (get rhs i) carry
    place :: addLoop lhs rhs count (i + 1) carry

/-- `add`. -/
def add (addend1 addend2 : Blocks) : Blocks :=
  if isZero addend1 then addend2
  else if isZero addend2 then addend1
  else normalize (addLoop addend1 addend2 (max addend1.length addend2.length) 0 false)

/-- One place of `subtract`, in 64-bit arithmetic, with the borrow. -/
def subtractPlace (lhs rhs : Block) (borrow : Bool) : Block × Bool :=
  let temp : UInt64 := lhs.toUInt64 - rhs.toUInt64
  let temp := if borrow then temp - 1 else temp
  if temp.toNat ≥ radix then ((temp + UInt64.ofNat radix).toUInt32, true)
  else (temp.toUInt32, false)

/-- The loop of `subtract`. -/
def subtractLoop (lhs rhs : Blocks) : Nat -> Nat -> Bool -> Blocks
  | 0, _, _ => []
  | count + 1, i, borrow =>
    let (place, borrow) := subtractPlace (get lhs i) (get rhs i) borrow
    place :: subtractLoop lhs rhs count (i + 1) borrow

/-- `subtract`. -/
def subtract (minuend subtrahend : Blocks) : Blocks :=
  if isZero subtrahend then minuend
  else if minuend.length < subtrahend.length then []
  else if compare minuend subtrahend < 0 then []
  else
    normalize (subtractLoop minuend subtrahend (max minuend.length subtrahend.length) 0 false)

/-- The steps M4 and M5 of `multiply`, for the block `v` at the position `j`. -/
def multiplyRow (u : Blocks) (v : Block) (j : Nat) : Nat -> Nat -> Nat -> Blocks -> Blocks
  | 0, i, k, w => set w (i + j) (UInt32.ofNat k)
  | count + 1, i, k, w =>
    let t := (get u i).toNat * v.toNat + (get w (i + j)).toNat + k
    multiplyRow u v j count (i + 1) (t / radix) (set w (i + j) (UInt32.ofNat (t % radix)))

/-- The steps M2 to M6 of `multiply`. -/
def multiplyLoop (u v : Blocks) : Nat -> Nat -> Blocks -> Blocks
  | 0, _, w => w
  | count + 1, j, w =>
    if get v j = 0 then multiplyLoop u v count (j + 1) (set w (j + u.length) 0)
    else multiplyLoop u v count (j + 1) (multiplyRow u (get v j) j u.length 0 0 w)

/-- `multiply` into a product that holds `product` before. -/
def multiply (product multiplicand multiplier : Blocks) : Blocks :=
  if isZero multiplicand then []
  else if isOne multiplicand then multiplier
  else if isZero multiplier then []
  else if isOne multiplier then multiplicand
  else normalize (multiplyLoop multiplicand multiplier multiplier.length 0 product)

/-! ## Quotients -/

/-- `k_BITS_PER_BLOCK`. -/
def bitsPerBlock : Nat := 32

/-- The loop of `countLeadingZeroes` over the bits from the most significant. -/
def countLoop (value : Block) : Nat -> Bool -> Nat
  | 0, _ => 0
  | bit + 1, found =>
    let found := found || value.toNat.testBit bit
    (if found then 0 else 1) + countLoop value bit found

/-- `countLeadingZeroes`. -/
def countLeadingZeroes (value : Block) : Nat :=
  countLoop value bitsPerBlock false

/-- The loops of `divide` that shift the divisor and the dividend. The language
does not define a shift by the width of a block; the processor takes the amount
modulo the width, as the shift here does. -/
def shiftLoop (data : Blocks) (s : Nat) : Nat -> Blocks -> Blocks
  | 0, target => set target 0 (get data 0 <<< UInt32.ofNat s)
  | i + 1, target =>
    shiftLoop data s i (set target (i + 1)
      ((get data (i + 1) <<< UInt32.ofNat s) |||
        (get data i >>> UInt32.ofNat (bitsPerBlock - s))))

/-- The loop of `divide` that corrects the estimate of a digit of the quotient. -/
def estimateLoop (top next behind : Nat) (qhat rhat : Nat) : Nat × Nat :=
  if qhat ≥ radix ∨ qhat * next > radix * rhat + behind then
    if rhat + top < radix ∧ 0 < top then estimateLoop top next behind (qhat - 1) (rhat + top)
    else (qhat - 1, rhat + top)
  else (qhat, rhat)
termination_by radix - rhat
decreasing_by omega

/-- The loop of `divide` that subtracts a multiple of the divisor. -/
def subtractRow (vn : Blocks) (qhat : UInt64) (j : Nat) :
    Nat -> Nat -> UInt64 -> Blocks -> UInt64 × Blocks
  | 0, _, k, un => (k, un)
  | count + 1, i, k, un =>
    let p : UInt64 := qhat * (get vn i).toUInt64
    let t : UInt64 := (get un (i + j)).toUInt64 - k - (p &&& (((1 : UInt64) <<< 32) - 1))
    subtractRow vn qhat j count (i + 1) ((p >>> 32) - (t.toInt64 >>> 32).toUInt64)
      (set un (i + j) t.toUInt32)

/-- The loop of `divide` that adds the divisor back. The two blocks are added as
blocks, before the sum is widened. -/
def addRow (vn : Blocks) (j : Nat) : Nat -> Nat -> UInt64 -> Blocks -> UInt64 × Blocks
  | 0, _, k, un => (k, un)
  | count + 1, i, k, un =>
    let t : UInt64 := (get un (i + j) + get vn i).toUInt64 + k
    addRow vn j count (i + 1) (t.toInt64 >>> 32).toUInt64 (set un (i + j) t.toUInt32)

/-- One digit of the quotient, at the position `j`. -/
def divideStep (vn : Blocks) (n j : Nat) (un q : Blocks) : Blocks × Blocks :=
  let top := (get vn (n - 1)).toNat
  let head := (get un (j + n)).toNat * radix + (get un (j + n - 1)).toNat
  let qhat := head / top
  let rhat := head - qhat * top
  let qhat := (estimateLoop top (get vn (n - 2)).toNat (get un (j + n - 2)).toNat qhat rhat).1
  let (k, un) := subtractRow vn (UInt64.ofNat qhat) j n 0 0 un
  let t : UInt64 := (get un (j + n)).toUInt64 - k
  let un := set un (j + n) t.toUInt32
  let q := set q j (UInt32.ofNat qhat)
  if t.toInt64 < 0 then
    let q := set q j (get q j - 1)
    let (k, un) := addRow vn j n 0 0 un
    (set un (j + n) ((get un (j + n)).toUInt64 + k).toUInt32, q)
  else (un, q)

/-- The loop of `divide` over the digits of the quotient. -/
def divideLoop (vn : Blocks) (n : Nat) : Nat -> Blocks -> Blocks -> Blocks × Blocks
  | 0, un, q => (un, q)
  | j + 1, un, q =>
    let (un, q) := divideStep vn n j un q
    divideLoop vn n j un q

/-- The loop of `divide` by a single block. -/
def divideSingle (u : Blocks) (v : Block) : Nat -> UInt64 -> Blocks -> UInt64 × Blocks
  | 0, k, q => (k, q)
  | j + 1, k, q =>
    let head : UInt64 := k * UInt64.ofNat radix + (get u j).toUInt64
    let q := set q j (head / v.toUInt64).toUInt32
    divideSingle u v j (head - (get q j * v).toUInt64) q

/-- The loop of `divide` that shifts the remainder back. -/
def remainderLoop (un : Blocks) (s : Nat) : Nat -> Nat -> Blocks -> Blocks
  | 0, _, r => r
  | count + 1, i, r =>
    remainderLoop un s count (i + 1) (set r i
      ((get un i >>> UInt32.ofNat s) |||
        (get un (i + 1) <<< UInt32.ofNat (bitsPerBlock - s))))

/-- `divide`: the quotient and the remainder. -/
def divide (dividend divisor : Blocks) : Blocks × Blocks :=
  if isZero dividend then ([], [])
  else if isZero divisor then ([], dividend)
  else if isOne dividend then
    if isOne divisor then (assign 1, []) else ([], dividend)
  else if isOne divisor then (dividend, [])
  else if compare dividend divisor < 0 then ([], dividend)
  else
    let m := dividend.length
    let n := divisor.length
    if n = 1 then
      let (k, q) := divideSingle dividend (get divisor 0) m 0 []
      (normalize q, normalize (set [] 0 k.toUInt32))
    else
      let s := countLeadingZeroes (get divisor (n - 1))
      let vn := shiftLoop divisor s (n - 1) []
      let un := shiftLoop dividend s (m - 1)
        (set [] m (get dividend (m - 1) >>> UInt32.ofNat (bitsPerBlock - s)))
      let (un, q) := divideLoop vn n (m - n + 1) un []
      (normalize q, normalize (remainderLoop un s n 0 []))

end AbstractIntegerRepresentation

/-- `AbstractIntegerSign`. -/
inductive AbstractIntegerSign where
  | negative
  | positive
deriving DecidableEq

namespace AbstractIntegerSign

/-- `flip`. -/
def flip : AbstractIntegerSign -> AbstractIntegerSign
  | .positive => .negative
  | .negative => .positive

/-- `multiplier`. -/
def multiplier : AbstractIntegerSign -> Int
  | .negative => -1
  | .positive => 1

end AbstractIntegerSign

namespace AbstractIntegerRepresentation

def digitValue (base : Nat) (ch : UInt8) : Option Nat :=
  if ascii '0' ≤ ch ∧ ch ≤ ascii '9' then some (ch.toNat - (ascii '0').toNat)
  else if base = 16 ∧ ascii 'a' ≤ ch ∧ ch ≤ ascii 'f' then some (ch.toNat - (ascii 'a').toNat)
  else if base = 16 ∧ ascii 'A' ≤ ch ∧ ch ≤ ascii 'F' then some (ch.toNat - (ascii 'A').toNat)
  else none

/-- The base, the sign and the digits of a text, as far as `parse` reads it, or the
sign with which it fails. -/
inductive ParsedText where
  | failed (sign : AbstractIntegerSign)
  | zero
  | digits (base : Nat) (sign : AbstractIntegerSign) (text : List UInt8)

/-- The part of `parse` after the prefix of the base. -/
def parseSign (base : Nat) : List UInt8 -> ParsedText
  | [] => .failed .positive
  | first :: rest =>
    if first = ascii '+' then
      if base ≠ 10 then .failed .positive
      else if rest = [] then .failed .positive
      else .digits base .positive rest
    else if first = ascii '-' then
      if base ≠ 10 then .failed .positive
      else if rest = [] then .failed .negative
      else .digits base .negative rest
    else .digits base .positive (first :: rest)

/-- The part of `parse` before the digits. -/
def parseHead : List UInt8 -> ParsedText
  | [] => .failed .positive
  | first :: rest =>
    if first = ascii '0' then
      match rest with
      | [] => .zero
      | second :: rest =>
        if second = ascii 'x' ∨ second = ascii 'X' then
          if rest = [] then .failed .positive else parseSign 16 rest
        else .failed .positive
    else parseSign 10 (first :: rest)

/-- The loop of `parse` over the digits, from the most significant. -/
def parseLoop (base : Nat) (result : Blocks) (digits : List Nat) : Blocks :=
  digits.foldl (fun result digit =>
    add (multiply [] result (assign (UInt64.ofNat base))) (assign (UInt64.ofNat digit))) result

/-- `AbstractIntegerRepresentation::parse`: whether it succeeds, the sign and the
magnitude. The result is missing when the assertion that there is a digit other
than zero fails. -/
def parse (text : List UInt8) : Option (Bool × AbstractIntegerSign × Blocks) :=
  match parseHead text with
  | .failed sign => some (false, sign, [])
  | .zero => some (true, .positive, [])
  | .digits base sign text =>
    match text.mapM (digitValue base) with
    | none => some (false, sign, [])
    | some values =>
      let digits := values.dropWhile (· == 0)
      if digits = [] then none
      else some (true, sign, normalize (parseLoop base [] digits))

end AbstractIntegerRepresentation

/-! ## The bytes of a magnitude -/

namespace AbstractIntegerQuantity

open AbstractIntegerRepresentation

/-- `sizeof(AbstractIntegerRepresentation::Block)`. -/
def bytesPerBlock : Nat := 4

/-- The loop of `decode`, from the last byte. -/
def decodeLoop : List UInt8 -> Nat -> Block -> Blocks
  | [], _, block => if block ≠ 0 then [block] else []
  | byte :: rest, j, block =>
    let block := block ||| (byte.toUInt32 <<< UInt32.ofNat (8 * j))
    if j + 1 = bytesPerBlock then block :: decodeLoop rest 0 0
    else decodeLoop rest (j + 1) block

/-- `AbstractIntegerQuantity::decode`. -/
def decode (data : List UInt8) : Blocks :=
  normalize (decodeLoop (data.dropWhile (· == 0)).reverse 0 0)

def bigEndianBytes (value : Block) : List UInt8 :=
  [(value >>> 24).toUInt8, (value >>> 16).toUInt8, (value >>> 8).toUInt8, value.toUInt8]

def stripPositive (bytes : List UInt8) : List UInt8 :=
  match bytes.dropWhile (· == 0x00) with
  | [] => []
  | first :: rest => if first &&& 0x80 ≠ 0 then 0x00 :: first :: rest else first :: rest

def stripNegative : List UInt8 -> List UInt8
  | first :: next :: rest =>
    if first = 0xFF ∧ next &&& 0x80 ≠ 0 then stripNegative (next :: rest)
    else first :: next :: rest
  | bytes => bytes

/-- The block that `encode` writes: a negative one is complemented and one is
added to it. -/
def encodedBlock (sign : AbstractIntegerSign) (value : Block) : Block :=
  match sign with
  | .positive => value
  | .negative => ~~~value + 1

def strip (sign : AbstractIntegerSign) (bytes : List UInt8) : List UInt8 :=
  match sign with
  | .positive => stripPositive bytes
  | .negative => stripNegative bytes

/-- The loop of `encode` over the blocks, from the most significant. -/
def encodeLoop (sign : AbstractIntegerSign) : List UInt8 -> Blocks -> List UInt8
  | result, [] => result
  | result, value :: rest =>
    let bytes := bigEndianBytes (encodedBlock sign value)
    encodeLoop sign (result ++ if result = [] then strip sign bytes else bytes) rest

/-- `AbstractIntegerQuantity::encode`. -/
def encode (sign : AbstractIntegerSign) (data : Blocks) : List UInt8 :=
  if isZero data then [0]
  else
    match sign with
    | .positive => if isOne data then [0x01] else encodeLoop .positive [] data.reverse
    | .negative => if isOne data then [0xFF] else encodeLoop .negative [] data.reverse

end AbstractIntegerQuantity

/-! ## Integers -/

/-- `ntsa::AbstractInteger`. -/
structure AbstractInteger where
  sign : AbstractIntegerSign := .positive
  magnitude : Blocks := []
deriving DecidableEq

namespace AbstractInteger

open AbstractIntegerRepresentation

/-- `AbstractInteger::normalize`. -/
def normalize (integer : AbstractInteger) : AbstractInteger :=
  if isZero integer.magnitude then { integer with sign := .positive } else integer

/-- `AbstractInteger::parse`. -/
def parse (text : List UInt8) : Option (Bool × AbstractInteger) :=
  match AbstractIntegerRepresentation.parse text with
  | none => none
  | some (success, sign, magnitude) => some (success, ⟨sign, magnitude⟩)

/-- `AbstractInteger::decode`. -/
def decode : List UInt8 -> AbstractInteger
  | [] => {}
  | first :: rest =>
    if first &&& 0x80 = 0 then ⟨.positive, AbstractIntegerQuantity.decode (first :: rest)⟩
    else
      let u := AbstractIntegerQuantity.decode ((first &&& ~~~0x80) :: rest)
      let v := AbstractIntegerQuantity.decode ((first &&& ~~~0x7F) :: rest.map fun _ => 0)
      ⟨.negative, AbstractIntegerRepresentation.subtract v u⟩

/-- `AbstractInteger::encode`. -/
def encode (integer : AbstractInteger) : List UInt8 :=
  AbstractIntegerQuantity.encode integer.sign integer.magnitude

/-- `assign` of a signed value of 64 bits. -/
def assignSigned (value : Int64) : AbstractInteger :=
  if value = 0 then {}
  else if value > 0 then ⟨.positive, assign value.toUInt64⟩
  else ⟨.negative, assign (-1 * value).toUInt64⟩

/-- `assign` of an unsigned value of 64 bits. -/
def assignUnsigned (value : UInt64) : AbstractInteger :=
  if value = 0 then {} else ⟨.positive, assign value⟩

/-- `AbstractInteger::negate`. -/
def negate (integer : AbstractInteger) : AbstractInteger :=
  { integer with sign := integer.sign.flip }

/-- `AbstractInteger::equals`. -/
def equals (integer other : AbstractInteger) : Bool :=
  integer.sign == other.sign && integer.magnitude == other.magnitude

/-- `AbstractInteger::compare`. -/
def compare (integer other : AbstractInteger) : Int :=
  if integer.sign.multiplier < other.sign.multiplier then -1
  else if other.sign.multiplier < integer.sign.multiplier then 1
  else AbstractIntegerRepresentation.compare integer.magnitude other.magnitude

/-- `AbstractIntegerUtil::add`. -/
def add (u v : AbstractInteger) : AbstractInteger :=
  normalize <|
    if isZero u.magnitude then ⟨v.sign, v.magnitude⟩
    else if isZero v.magnitude then ⟨u.sign, u.magnitude⟩
    else if u.sign = v.sign then ⟨u.sign, AbstractIntegerRepresentation.add u.magnitude v.magnitude⟩
    else
      let comparison := AbstractIntegerRepresentation.compare u.magnitude v.magnitude
      if comparison = 0 then {}
      else if comparison > 0 then ⟨u.sign, subtract u.magnitude v.magnitude⟩
      else ⟨v.sign, subtract v.magnitude u.magnitude⟩

/-- `AbstractIntegerUtil::subtract`. -/
def subtract (u v : AbstractInteger) : AbstractInteger :=
  normalize <|
    if isZero u.magnitude then ⟨v.sign.flip, v.magnitude⟩
    else if isZero v.magnitude then ⟨u.sign, u.magnitude⟩
    else if u.sign ≠ v.sign then ⟨u.sign, AbstractIntegerRepresentation.add u.magnitude v.magnitude⟩
    else
      let comparison := AbstractIntegerRepresentation.compare u.magnitude v.magnitude
      if comparison = 0 then {}
      else if comparison > 0 then
        ⟨u.sign, AbstractIntegerRepresentation.subtract u.magnitude v.magnitude⟩
      else ⟨v.sign.flip, AbstractIntegerRepresentation.subtract v.magnitude u.magnitude⟩

/-- `AbstractIntegerUtil::multiply` into a product that holds `product` before, or
into a new one when it is one of the factors. -/
def multiply (product u v : AbstractInteger) : AbstractInteger :=
  normalize <|
    if isZero u.magnitude ∨ isZero v.magnitude then {}
    else
      ⟨if u.sign = v.sign then .positive else .negative,
        AbstractIntegerRepresentation.multiply product.magnitude u.magnitude v.magnitude⟩

/-- `AbstractIntegerUtil::divide`: the quotient and the remainder. -/
def divide (u v : AbstractInteger) : AbstractInteger × AbstractInteger :=
  if isZero u.magnitude then ({}, {})
  else if isZero v.magnitude then (({} : AbstractInteger), normalize v)
  else
    let (quotient, remainder) := AbstractIntegerRepresentation.divide u.magnitude v.magnitude
    if u.sign = v.sign then
      (normalize ⟨.positive, quotient⟩,
        normalize ⟨if v.sign = .negative ∨ u.sign = .negative then .negative else .positive,
          remainder⟩)
    else
      (normalize ⟨.negative, quotient⟩,
        normalize ⟨if u.sign = .negative then .negative else .positive, remainder⟩)

end AbstractInteger

end NtfCore.Ntsa
