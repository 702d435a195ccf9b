import SchemaMigration.Number.Binary64
import SchemaMigration.Json.Record

/-!
# Values

The literal values that queries carry and backends return: null, truth values, 64-bit integers,
doubles, texts and byte strings.

Model of `SqlValue` and of `Variables`.

* Equality `=` is exact; `==` compares doubles as numbers.
* In JSON a value is written as itself, bytes as an array of numbers. Reading takes the first kind
  that fits: an integer of 64 signed bits, then any number as a double, then text, then bytes.

Out of scope: the conversions of other types into values (`to_sql_value`), each of which picks one
kind of value.
-/

namespace SchemaMigration

/-- A literal value (`SqlValue`). -/
inductive Value where
  | null
  | bool (b : Bool)
  | int (n : Int64)
  | float (x : Binary64)
  | text (s : String)
  | blob (bytes : List UInt8)
deriving DecidableEq, Inhabited

namespace Value

/-- The value is null. -/
def isNull : Value → Bool
  | .null => true
  | _ => false

/-- The value is a double. -/
def isFloat : Value → Bool
  | .float _ => true
  | _ => false

/-- The values are equal, doubles as numbers. -/
def same : Value → Value → Bool
  | .float x, .float y => x.sameNumber y
  | .float _, _ => false
  | v, w => decide (v = w)

instance : BEq Value := ⟨same⟩

/-- The integer of 64 signed bits with the value `n`. -/
def int64? (n : Int) : Option Int64 :=
  if -(twoTo 63 : Int) ≤ n ∧ n < twoTo 63 then some (Int64.ofInt n) else none

/-- A null for a missing value. -/
def ofOption : Option Value → Value
  | some v => v
  | none => .null

/-! ## JSON -/

/-- The JSON of a value. -/
def toJson : Value → Json
  | .null => .null
  | .bool b => .bool b
  | .int n => .int n.toInt
  | .float x => .float x
  | .text s => .text s
  | .blob bytes => .array (bytes.map fun b => .int b.toNat)

/-- One byte. -/
def readByte (j : Json) : Read UInt8 :=
  (Json.readNat 255 j).map UInt8.ofNat

/-- The value of a JSON value. -/
def ofJson : Json → Read Value
  | .null => .ok .null
  | .bool b => .ok (.bool b)
  | .int n =>
    match int64? n with
    | some n => .ok (.int n)
    | none => .ok (.float (Binary64.ofInt n))
  | .float x => .ok (.float x)
  | .text s => .ok (.text s)
  | .array items => (Json.readItems readByte items).map .blob
  | _ => .error .malformed

end Value

/-- Values for named variables. -/
abbrev Variables := List (String × Value)

end SchemaMigration
