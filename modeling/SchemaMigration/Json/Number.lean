import SchemaMigration.Json.Basic

/-!
# JSON numbers

A number is an integer when it is written without point and exponent and fits 64 bits, signed when
negative and unsigned otherwise; the negative zero is a float. Every other number is a float, which
is computed in double precision from the leading digits:

* digits are taken into a 64-bit significand as long as it does not overflow; an integer digit that
  would overflow it only raises the exponent, and a fraction digit that would is passed over, with
  all fraction digits after it;
* the significand is then multiplied by, or divided by, the power of ten of the exponent, in steps
  of at most `10 ^ 308`. Each step rounds, so the result may differ from the nearest double in its
  last bit.
* A result beyond the doubles is refused.
-/

namespace SchemaMigration.Json

open SchemaMigration.Decimal

/-- The greatest unsigned integer of 64 bits. -/
def greatestWord : Nat := twoTo 64 - 1

/-- The greatest exponent that is still counted. -/
def greatestExponent : Nat := twoTo 31 - 1

/-- Appends the digit `c` to `significand`, unless the result exceeds `bound`. -/
def appendDigit? (bound significand : Nat) (c : Char) : Option Nat :=
  let n := 10 * significand + digitValue c
  if n ≤ bound then some n else none

/-- The digits that fit the bound after `significand`, and the digits that are left. -/
def takeDigits (bound significand : Nat) : List Char → Nat × List Char
  | [] => (significand, [])
  | c :: r =>
    match appendDigit? bound significand c with
    | some n => takeDigits bound n r
    | none => (significand, c :: r)

/-- The double `10 ^ e`. -/
def powerOfTen (e : Nat) : Binary64 :=
  Binary64.ofRatio false (tenTo e) 1

/-- Division by the powers of ten beyond `10 ^ 308`, in steps; `steps` bounds their number. -/
def divideDown (x : Binary64) (e : Nat) : Nat → Binary64
  | 0 => x
  | steps + 1 =>
    if e ≤ 308 then x.dividedBy (powerOfTen e)
    else if x.isZero then x
    else divideDown (x.dividedBy (powerOfTen 308)) (e - 308) steps

/-- The double `significand · 10 ^ e`, computed in double precision; `none` beyond the doubles. -/
def scale? (significand : Nat) (e : Int) : Option Binary64 :=
  let x := Binary64.ofRatio false significand 1
  if 0 ≤ e then
    if x.isZero then some x
    else if e ≤ 308 then
      let y := x.times (powerOfTen e.toNat)
      if y.isFinite then some y else none
    else none
  else some (divideDown x (-e).toNat 4)

/-- The parts of a written number: the digits of its integer part, those of its fraction if it has
a point, and its exponent if it has one. -/
structure NumberText where
  /-- A minus sign stands in front. -/
  negative : Bool
  /-- Digits before the point. -/
  whole : List Char
  /-- Digits after the point. -/
  fraction : Option (List Char)
  /-- Sign and digits of the exponent. -/
  power : Option (Bool × List Char)

/-- A float with its sign. -/
def signed (negative : Bool) (x : Binary64) : Binary64 :=
  if negative then Binary64.ofMagnitude true x.bits.toNat else x

/-- The double a number denotes that is not an integer of 64 bits. -/
def NumberText.float? (n : NumberText) : Option Binary64 :=
  let (first, dropped) := takeDigits greatestWord 0 n.whole
  let fraction := n.fraction.getD []
  let (second, passed) := takeDigits greatestWord first fraction
  let start : Int := (dropped.length : Int) - (fraction.length - passed.length : Nat)
  let magnitude :=
    match n.power with
    | none => scale? second start
    | some (down, digits) =>
      let (e, beyond) := takeDigits greatestExponent 0 digits
      if beyond.isEmpty then scale? second (if down then start - e else start + e)
      else if second ≠ 0 ∧ !down then none
      else some (Binary64.ofRatio false 0 1)
  magnitude.map (signed n.negative)

/-- The value of a written number. -/
def NumberText.value (n : NumberText) : Json :=
  let k := ofDigits n.whole
  let isInteger := n.fraction.isNone && n.power.isNone &&
    (if n.negative then decide (0 < k) && decide (k ≤ twoTo 63) else decide (k ≤ greatestWord))
  if isInteger then .int (if n.negative then -(k : Int) else k)
  else
    match n.float? with
    | some x => .float x
    | none => .refused

/-- The digits at the front of a text and the rest. -/
def spanDigits (s : List Char) : List Char × List Char :=
  (s.takeWhile isDigit, s.dropWhile isDigit)

/-- An exponent at the front of a text, if there is one; `none` where it has no digits. -/
def readPower? (s : List Char) : Option (Option (Bool × List Char) × List Char) :=
  match s with
  | c :: r =>
    if c = 'e' ∨ c = 'E' then
      let (down, r) :=
        match r with
        | '+' :: t => (false, t)
        | '-' :: t => (true, t)
        | t => (false, t)
      let (digits, rest) := spanDigits r
      if digits.isEmpty then none else some (some (down, digits), rest)
    else some (none, s)
  | [] => some (none, [])

/-- A fraction at the front of a text, if there is one; `none` where the point has no digits. -/
def readFraction? (s : List Char) : Option (Option (List Char) × List Char) :=
  match s with
  | '.' :: r =>
    let (digits, rest) := spanDigits r
    if digits.isEmpty then none else some (some digits, rest)
  | s => some (none, s)

/-- A number without its sign, and the text after it. A leading zero stands alone. -/
def readUnsigned? (negative : Bool) (s : List Char) : Option (NumberText × List Char) := do
  let (whole, rest) := spanDigits s
  if whole.isEmpty then none
  else if whole.head? = some '0' ∧ whole.length ≠ 1 then none
  else
    let (fraction, rest) ← readFraction? rest
    let (power, rest) ← readPower? rest
    return (⟨negative, whole, fraction, power⟩, rest)

/-- A number at the front of a text, and the text after it. -/
def readNumber? : List Char → Option (NumberText × List Char)
  | '-' :: r => readUnsigned? true r
  | s => readUnsigned? false s

end SchemaMigration.Json
