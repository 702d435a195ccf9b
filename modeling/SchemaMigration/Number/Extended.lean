import SchemaMigration.Number.Shortest

/-!
# Extended precision

A number of extended precision has 64 significant bits. SQLite finds the decimal digits of a double
with such numbers: it moves the double by powers of ten until it lies between `10 ^ 17` and
`10 ^ 19`, drops the fraction and rounds the integer that is left.

* `ofRatio` rounds a quotient to 64 significant bits, a tie to the even significand. The exponent
  is not bounded: no power of ten that a double needs comes near a bound.
* `times` rounds, so each step of the scaling may lose or gain a last bit. Digits beyond the
  seventeenth are therefore not always those of the double, and a double just below a half of its
  last digit may be rounded up.
* The powers of ten are rounded to 64 bits as well.
-/

namespace SchemaMigration

/-- The nonnegative number `significand · 2 ^ exponent`. -/
structure Extended where
  /-- The significant bits as one number. -/
  significand : Nat
  /-- The power of two of the last bit. -/
  exponent : Int
deriving DecidableEq, Repr

namespace Extended

/-- The number with 64 significant bits that is nearest to the positive quotient `num / den`. -/
def ofRatio (num den : Nat) : Extended :=
  let e := Binary64.binaryOrder num den - 63
  ⟨Binary64.roundHalfEven (num * twoTo (-e).toNat) (den * twoTo e.toNat), e⟩

/-- The magnitude of a finite double; every double has a place here. -/
def ofBinary64 (x : Binary64) : Extended :=
  ⟨x.significand, x.exponent⟩

/-- Ten to the power `k`, rounded. -/
def powerOfTen (k : Int) : Extended :=
  ofRatio (tenTo k.toNat) (tenTo (-k).toNat)

/-- The rounded product of two positive numbers. -/
def times (x y : Extended) : Extended :=
  let p := ofRatio (x.significand * y.significand) 1
  ⟨p.significand, p.exponent + x.exponent + y.exponent⟩

/-- The first number is less than the second. -/
def isLess (x y : Extended) : Bool :=
  decide (x.significand * twoTo (x.exponent - y.exponent).toNat <
    y.significand * twoTo (y.exponent - x.exponent).toNat)

/-- The integer part. -/
def floor (x : Extended) : Nat :=
  x.significand * twoTo x.exponent.toNat / twoTo (-x.exponent).toNat

end Extended

/-! ## Scaling by powers of ten -/

/-- The value `number · 10 ^ exponent`, up to the roundings on the way to it. -/
structure Scaled where
  /-- The number that is left. -/
  number : Extended
  /-- The power of ten that was taken out of the value. -/
  exponent : Int
deriving DecidableEq, Repr

namespace Scaled

/-- Takes ten to the power `k` out of the number. -/
def takeOut (s : Scaled) (k : Int) : Scaled :=
  ⟨s.number.times (Extended.powerOfTen (-k)), s.exponent + k⟩

/-- Takes `10 ^ step` out, up to `times` times, while the number is at least `10 ^ bound`. -/
def lower (bound step : Int) (s : Scaled) : Nat → Scaled
  | 0 => s
  | times + 1 =>
    if s.number.isLess (Extended.powerOfTen bound) then s
    else lower bound step (s.takeOut step) times

/-- Puts `10 ^ step` in, up to `times` times, while the number is less than `10 ^ bound`. -/
def raise (bound step : Int) (s : Scaled) : Nat → Scaled
  | 0 => s
  | times + 1 =>
    if s.number.isLess (Extended.powerOfTen bound) then raise bound step (s.takeOut (-step)) times
    else s

/-- The magnitude of a finite nonzero double, moved between `10 ^ 17` and `10 ^ 19` by hundreds,
tens and ones of decimal places. Between two bounds lie at most eleven steps. -/
def ofBinary64 (x : Binary64) : Scaled :=
  let start : Scaled := ⟨Extended.ofBinary64 x, 0⟩
  if start.number.isLess (Extended.powerOfTen 19) then
    ((start.raise (-97) 100 12).raise 7 10 12).raise 17 1 12
  else ((start.lower 119 100 12).lower 29 10 12).lower 19 1 12

end Scaled

/-- The digits of a finite nonzero double's magnitude as SQLite finds them, rounded to `count`
digits with a half going up. -/
def Binary64.scaledDigits (count : Nat) (x : Binary64) : Digits :=
  let s := Scaled.ofBinary64 x
  let d := nearestDigits count s.number.floor 1
  ⟨d.value, d.exponent + s.exponent⟩

end SchemaMigration
