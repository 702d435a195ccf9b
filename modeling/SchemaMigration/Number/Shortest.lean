import SchemaMigration.Number.Binary64

/-!
# Shortest decimal digits

The text of a double has the fewest significant digits that read back as the same double and,
among those, the digits nearest to its value. The search is over decimal grids: for one digit, two
digits and so on up to seventeen, the two grid points around the value are tested against the
interval of numbers that round to the double. The first grid with a hit wins, of two hits the
nearer, and an exact tie is left to the caller.

* `Digits` is a decimal: `value · 10 ^ exponent`, without trailing zeros in `value`.
* `shortest` gives the digits of a finite nonzero double.
* `Layout` says how digits are laid out as text, and `Layout.write` lays them out.
-/

namespace SchemaMigration

/-- The decimal `value · 10 ^ exponent`. -/
structure Digits where
  /-- The digits as one number. -/
  value : Nat
  /-- The power of ten of the last digit. -/
  exponent : Int
deriving DecidableEq, Repr

namespace Binary64

/-- The numbers that round to a double, as bounds over one denominator, and whether the bounds
themselves do. -/
structure Interval where
  /-- The lower bound's numerator. -/
  low : Nat
  /-- The value's numerator. -/
  middle : Nat
  /-- The upper bound's numerator. -/
  high : Nat
  /-- The denominator of all three. -/
  den : Nat
  /-- The bounds belong to the interval. -/
  closed : Bool

/-- The interval of a finite positive magnitude. Below a power of two the neighbours lie twice as
close as above it. -/
def interval (x : Binary64) : Interval :=
  let scale := twoTo x.exponent.toNat
  let m := x.significand
  let below := if x.fractionField = 0 ∧ 1 < x.exponentField then 1 else 2
  { low := (4 * m - below) * scale
    middle := 4 * m * scale
    high := (4 * m + 2) * scale
    den := 4 * twoTo (-x.exponent).toNat
    closed := m % 2 = 0 }

/-- The number `num / den` lies in the interval. -/
def Interval.contains (i : Interval) (num den : Nat) : Bool :=
  if i.closed then decide (i.low * den ≤ num * i.den) && decide (num * i.den ≤ i.high * den)
  else decide (i.low * den < num * i.den) && decide (num * i.den < i.high * den)

/-- The count of digits before the decimal point of `num / den`; zero or less below one tenth. -/
def decimalOrder (num den : Nat) : Int :=
  let guess : Int := (Decimal.digits num).length - (Decimal.digits den).length
  if den * tenTo guess.toNat ≤ num * tenTo (-guess).toNat then guess + 1 else guess

/-- The grid point of spacing `10 ^ exponent` that the digits of `i` go to, if one of the two
around its value lies inside. -/
def Interval.onGrid? (i : Interval) (tieUp : Bool) (exponent : Int) : Option Nat :=
  let up := tenTo exponent.toNat
  let down := tenTo (-exponent).toNat
  let num := i.middle * down
  let den := i.den * up
  let floor := num / den
  let rest := num % den
  let floorIn := decide (0 < floor) && i.contains (floor * up) down
  let ceilingIn := i.contains ((floor + 1) * up) down
  let nearFloor := decide (2 * rest < den) ||
    (decide (2 * rest = den) && (!tieUp && decide (floor % 2 = 0)))
  if floorIn && (nearFloor || !ceilingIn) then some floor
  else if ceilingIn then some (floor + 1)
  else none

/-- The first grid from `count` digits on that has a hit, and its point. -/
def Interval.search (i : Interval) (tieUp : Bool) (order : Int) (count : Nat) : Nat → Digits
  | 0 => ⟨i.middle / i.den, 0⟩
  | more + 1 =>
    let exponent := order - count
    match i.onGrid? tieUp exponent with
    | some value => ⟨value, exponent⟩
    | none => i.search tieUp order (count + 1) more

/-- Trailing zeros moved into the exponent; `steps` bounds their number. -/
def trimZeros (d : Digits) : Nat → Digits
  | 0 => d
  | steps + 1 =>
    if d.value ≠ 0 ∧ d.value % 10 = 0 then trimZeros ⟨d.value / 10, d.exponent + 1⟩ steps else d

/-- The shortest digits of a finite nonzero double's magnitude. Seventeen digits always suffice. -/
def shortest (tieUp : Bool) (x : Binary64) : Digits :=
  let i := x.interval
  trimZeros (i.search tieUp (decimalOrder i.middle i.den) 1 17) 20

/-- The nearest `count` digits of the positive quotient `num / den`, a half going up. -/
def nearestDigits (count num den : Nat) : Digits :=
  let exponent := decimalOrder num den - count
  let num := num * tenTo (-exponent).toNat
  let den := den * tenTo exponent.toNat
  trimZeros ⟨(2 * num + den) / (2 * den), exponent⟩ 20

end Binary64

/-! ## Laying digits out -/

/-- How a double is written: the leading digit's powers of ten that are written positionally, and
the spelling of everything else. -/
structure Layout where
  /-- The least power of ten of a leading digit in positional text. -/
  least : Int
  /-- The greatest power of ten of a leading digit in positional text. -/
  greatest : Int
  /-- What precedes a nonnegative exponent. -/
  plus : String
  /-- A lone digit before an exponent is followed by `.0`. -/
  pointed : Bool
  /-- Of two nearest decimals the greater is taken; otherwise the even one. -/
  tieUp : Bool

namespace Layout

/-- The fraction digits of a positional text; an integer gets one zero. -/
def fractionText (s : List Char) : List Char :=
  if s.isEmpty then ['0'] else s

/-- The digits in positional notation, with at least one digit on either side of the point. -/
def positional (d : Digits) : List Char :=
  let s := Decimal.digits d.value
  let point : Int := s.length + d.exponent
  if point ≤ 0 then
    ['0', '.'] ++ List.replicate (-point).toNat '0' ++ s
  else
    let padded := s ++ List.replicate d.exponent.toNat '0'
    padded.take point.toNat ++ ['.'] ++ fractionText (padded.drop point.toNat)

/-- The digits with one digit before the point and an exponent. -/
def scientific (layout : Layout) (d : Digits) : List Char :=
  let s := Decimal.digits d.value
  let power : Int := s.length + d.exponent - 1
  let fraction := s.drop 1
  let mantissa :=
    s.take 1 ++ if fraction.isEmpty then (if layout.pointed then ['.', '0'] else [])
      else '.' :: fraction
  let sign := if power < 0 then [] else layout.plus.toList
  mantissa ++ ['e'] ++ sign ++ Decimal.showInt power

/-- Digits in the notation that their leading power of ten calls for. -/
def place (layout : Layout) (d : Digits) : List Char :=
  let power : Int := (Decimal.digits d.value).length + d.exponent - 1
  if layout.least ≤ power ∧ power ≤ layout.greatest then positional d else layout.scientific d

/-- The text of a double. -/
def write (layout : Layout) (x : Binary64) : List Char :=
  if x.isNaN then "NaN".toList
  else
    let sign := if x.isNegative then ['-'] else []
    if !x.isFinite then sign ++ "inf".toList
    else if x.isZero then sign ++ "0.0".toList
    else sign ++ layout.place (x.shortest layout.tieUp)

end Layout

end SchemaMigration
