import SchemaMigration.Number.Decimal
import SchemaMigration.Number.Power

/-!
# Double-precision floating point

A double is its 64 bits: one sign bit, eleven bits of exponent and fifty-two of fraction. A finite
double is worth `± significand · 2 ^ exponent` with natural `significand`; everything below is
exact arithmetic on natural numbers, and `ofRatio` is the only place where a value is rounded.

* `ofRatio` rounds a quotient to the nearest double, a tie to the even significand, and overflows
  to infinity. For a significand `m` and a unit exponent `e ≥ -1074` the bits are
  `(e + 1074) · 2^52 + m`: the implicit leading bit of a normal number carries into the exponent
  field, and a subnormal one has none.
* `times`, `dividedBy` and `widen` are exact operations followed by that rounding.
* `read?` reads decimal text: digits with an optional point and exponent, and the names of the
  infinities and of not-a-number.
* `sameNumber` is equality of numbers: not-a-number differs from itself and the zeros agree.
  Equality `=` is that of the bits.
-/

namespace SchemaMigration

/-- A double, by its bits. -/
structure Binary64 where
  /-- Sign, exponent and fraction, from the top bit down. -/
  bits : UInt64
deriving DecidableEq, Inhabited, Repr

namespace Binary64

/-! ## The fields -/

/-- The sign bit is set. -/
def isNegative (x : Binary64) : Bool :=
  decide (twoTo 63 ≤ x.bits.toNat)

/-- The eleven exponent bits. -/
def exponentField (x : Binary64) : Nat :=
  x.bits.toNat / twoTo 52 % 2048

/-- The fifty-two fraction bits. -/
def fractionField (x : Binary64) : Nat :=
  x.bits.toNat % twoTo 52

/-- Neither an infinity nor not-a-number. -/
def isFinite (x : Binary64) : Bool :=
  decide (x.exponentField ≠ 2047)

/-- Not a number. -/
def isNaN (x : Binary64) : Bool :=
  decide (x.exponentField = 2047) && decide (x.fractionField ≠ 0)

/-- One of the two zeros. -/
def isZero (x : Binary64) : Bool :=
  decide (x.bits.toNat % twoTo 63 = 0)

/-- The integer significand of a finite double. -/
def significand (x : Binary64) : Nat :=
  if x.exponentField = 0 then x.fractionField else twoTo 52 + x.fractionField

/-- The exponent of the unit of a finite double's significand. -/
def exponent (x : Binary64) : Int :=
  (max x.exponentField 1 : Nat) - 1075

/-- The magnitude of a finite double as a numerator and a denominator. -/
def ratio (x : Binary64) : Nat × Nat :=
  (x.significand * twoTo x.exponent.toNat, twoTo (-x.exponent).toNat)

/-- The two doubles are equal as numbers. -/
def sameNumber (x y : Binary64) : Bool :=
  !x.isNaN && !y.isNaN && (decide (x = y) || x.isZero && y.isZero)

/-! ## Rounding -/

/-- The double with this sign and these low 63 bits. -/
def ofMagnitude (negative : Bool) (magnitude : Nat) : Binary64 :=
  ⟨UInt64.ofNat (magnitude + if negative then twoTo 63 else 0)⟩

/-- Positive or negative infinity. -/
def infinity (negative : Bool) : Binary64 :=
  ofMagnitude negative (2047 * twoTo 52)

/-- Not a number. -/
def nan : Binary64 :=
  ofMagnitude false (2047 * twoTo 52 + twoTo 51)

/-- Rounds `num / den` to the nearest integer, a tie to the even one. -/
def roundHalfEven (num den : Nat) : Nat :=
  let q := num / den
  let r := num % den
  if 2 * r < den then q else if den < 2 * r then q + 1 else q + q % 2

/-- The integer part of the binary logarithm of `num / den`. -/
def binaryOrder (num den : Nat) : Int :=
  let k : Int := (num.log2 : Int) - den.log2
  if den * twoTo k.toNat ≤ num * twoTo (-k).toNat then k else k - 1

/-- The nearest double to `± num / den`. -/
def ofRatio (negative : Bool) (num den : Nat) : Binary64 :=
  if num = 0 then ofMagnitude negative 0
  else
    let e : Int := max (binaryOrder num den - 52) (-1074)
    let m := roundHalfEven (num * twoTo (-e).toNat) (den * twoTo e.toNat)
    let magnitude := (e + 1074).toNat * twoTo 52 + m
    ofMagnitude negative (min magnitude (2047 * twoTo 52))

/-- The nearest double to an integer. -/
def ofInt (n : Int) : Binary64 :=
  ofRatio (decide (n < 0)) n.natAbs 1

/-- The nearest double to `n · 10 ^ e`. -/
def ofScaled (negative : Bool) (n : Nat) (e : Int) : Binary64 :=
  ofRatio negative (n * tenTo e.toNat) (tenTo (-e).toNat)

/-- The product of two finite doubles, rounded. -/
def times (x y : Binary64) : Binary64 :=
  ofRatio (x.isNegative != y.isNegative) (x.ratio.1 * y.ratio.1) (x.ratio.2 * y.ratio.2)

/-- The quotient of two finite doubles, rounded; the divisor is not zero. -/
def dividedBy (x y : Binary64) : Binary64 :=
  ofRatio (x.isNegative != y.isNegative) (x.ratio.1 * y.ratio.2) (x.ratio.2 * y.ratio.1)

/-- The double with the value of a single-precision number given by its 32 bits. -/
def widen (bits : UInt32) : Binary64 :=
  let n := bits.toNat
  let negative := decide (twoTo 31 ≤ n)
  let e := n / twoTo 23 % 256
  let f := n % twoTo 23
  if e = 255 then
    if f = 0 then infinity negative else nan
  else
    let m := if e = 0 then f else twoTo 23 + f
    let unit : Int := (max e 1 : Nat) - 150
    ofRatio negative (m * twoTo unit.toNat) (twoTo (-unit).toNat)

/-- The integer next to a finite double on the side of zero. -/
def truncate (x : Binary64) : Int :=
  let n : Int := x.ratio.1 / x.ratio.2
  if x.isNegative then -n else n

/-! ## Reading decimal text -/

/-- The nearest double to `n · 10 ^ e`, where exponents far outside the range of doubles give a
zero or an infinity at once. -/
def ofDecimal (negative : Bool) (n : Nat) (e : Int) : Binary64 :=
  let order : Int := (Decimal.digits n).length + e
  if n = 0 ∨ order < -330 then ofMagnitude negative 0
  else if 330 < order then infinity negative
  else ofScaled negative n e

/-- An exponent mark with its digits; no mark is exponent zero. -/
def readExponent? : List Char → Option Int
  | [] => some 0
  | c :: r => if c = 'e' ∨ c = 'E' then Decimal.readSigned? r else none

/-- Digits with an optional point, at least one digit in all, and an optional exponent. -/
def readUnsigned? (negative : Bool) (s : List Char) : Option Binary64 :=
  let whole := s.takeWhile Decimal.isDigit
  let rest := s.dropWhile Decimal.isDigit
  let (fraction, tail) :=
    match rest with
    | '.' :: r => (r.takeWhile Decimal.isDigit, r.dropWhile Decimal.isDigit)
    | r => ([], r)
  if whole.isEmpty && fraction.isEmpty then none
  else
    (readExponent? tail).map fun e =>
      ofDecimal negative (Decimal.ofDigits (whole ++ fraction)) (e - fraction.length)

/-- A number without its sign, or the name of an infinity or of not-a-number in any case. -/
def readMagnitude? (negative : Bool) (s : List Char) : Option Binary64 :=
  let word := String.ofList (s.map Char.toLower)
  if word = "inf" ∨ word = "infinity" then some (infinity negative)
  else if word = "nan" then some nan
  else readUnsigned? negative s

/-- Decimal text with an optional sign. -/
def read? : List Char → Option Binary64
  | '-' :: r => readMagnitude? true r
  | '+' :: r => readMagnitude? false r
  | s => readMagnitude? false s

end Binary64

end SchemaMigration
