/-!
# Column types

The closed set of logical column types, their names, their families, and how two of them relate.

Model of `ColumnType`, `Compatibility` and `compare_types`.

* `compareTypes target stored` asks whether values stored as `stored` can become `target`. The
  answer is a set of three independent flags.
* Equal types relate in every way. Otherwise castability is directional: every type casts to text
  except blobs, and text casts to no number.
-/

namespace SchemaMigration

/-- A logical column type. -/
inductive ColumnType where
  | boolean
  | int8
  | int16
  | int32
  | int64
  | float32
  | float64
  | text
  | blob
  | date
  | dateTime
  | time
  | json
  | uuid
deriving DecidableEq, Inhabited, Repr

namespace ColumnType

/-- The name of a type in schema files and messages (`as_str`). -/
def name : ColumnType → String
  | .boolean => "boolean"
  | .int8 => "int8"
  | .int16 => "int16"
  | .int32 => "int32"
  | .int64 => "int64"
  | .float32 => "float32"
  | .float64 => "float64"
  | .text => "text"
  | .blob => "blob"
  | .date => "date"
  | .dateTime => "datetime"
  | .time => "time"
  | .json => "json"
  | .uuid => "uuid"

/-- Every type, in the order of its declaration. -/
def all : List ColumnType :=
  [.boolean, .int8, .int16, .int32, .int64, .float32, .float64, .text, .blob, .date, .dateTime,
    .time, .json, .uuid]

/-- Names paired with their types. -/
def names : List (String × ColumnType) :=
  all.map fun type => (type.name, type)

/-- A fixed-width integer type. -/
def isInteger : ColumnType → Bool
  | .int8 | .int16 | .int32 | .int64 => true
  | _ => false

/-- A floating point type. -/
def isFloat : ColumnType → Bool
  | .float32 | .float64 => true
  | _ => false

/-- An integer or floating point type. -/
def isNumeric (type : ColumnType) : Bool :=
  type.isInteger || type.isFloat

/-- A size is meaningful for the type. -/
def isSized : ColumnType → Bool
  | .text | .blob => true
  | _ => false

/-- Values of the type are written as text. -/
def isTextual : ColumnType → Bool
  | .text | .uuid | .json => true
  | _ => false

/-- Values of the type contain a date. -/
def isTemporal : ColumnType → Bool
  | .date | .dateTime => true
  | _ => false

end ColumnType

/-- How a target type relates to a stored type. -/
structure Compatibility where
  /-- The types are one. -/
  equal : Bool
  /-- Stored values convert to the target type. -/
  castable : Bool
  /-- Values of both types may face each other in a predicate. -/
  comparable : Bool
deriving DecidableEq, Repr

/-- The relation of a type to itself. -/
def Compatibility.full : Compatibility := ⟨true, true, true⟩

namespace ColumnType

/-- Values of the two different types may face each other in a predicate. -/
def comparableWith (a b : ColumnType) : Bool :=
  (a.isNumeric && b.isNumeric) || (a == .boolean && b.isInteger) ||
    (b == .boolean && a.isInteger) || (a.isTextual && b.isTextual) ||
    (a.isTemporal && b.isTemporal)

/-- Values stored as `stored`, a different type, convert to `target`. -/
def castableFrom (target stored : ColumnType) : Bool :=
  match target, stored with
  | .text, s => s != .blob
  | .blob, .text => true
  | t, s =>
    (t.isNumeric && s.isNumeric) || (t.isInteger && s == .boolean) ||
      (t == .boolean && s.isInteger) || (t.isTemporal && s.isTemporal)

/-- The relation of the target type to the stored type (`compare_types`). -/
def compareTypes (target stored : ColumnType) : Compatibility :=
  if target = stored then .full
  else ⟨false, target.castableFrom stored, target.comparableWith stored⟩

/-- Every type relates to itself in every way. -/
theorem compareTypes_self (type : ColumnType) : compareTypes type type = .full := by
  simp [compareTypes]

end ColumnType

end SchemaMigration
