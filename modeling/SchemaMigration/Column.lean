import SchemaMigration.Identifier
import SchemaMigration.Value

/-!
# Columns

The definition of a physical column: its name, type, optional size and default, and whether the
backend counts it up.

Model of `Column`.

* `Column.check` refuses a bad name, a counting column of another type than an integer, a size on a
  type that has none, and a default that is not a finite number, in this order.
-/

namespace SchemaMigration

/-- The definition of a column. -/
structure Column where
  /-- The name. -/
  name : String
  /-- The logical type. -/
  type : ColumnType
  /-- The size of a sized type. -/
  size : Option UInt32
  /-- The default value. -/
  default : Option Value
  /-- The backend generates the values. -/
  autoIncrement : Bool
deriving DecidableEq, BEq, Inhabited

namespace Column

/-- A column with neither size nor default. -/
def plain (name : String) (type : ColumnType) : Column :=
  ⟨name, type, none, none, false⟩

/-- The same definition under another name. -/
def renamed (c : Column) (name : String) : Column :=
  { c with name := name }

/-- The default, unless it is absent or null. -/
def effectiveDefault (c : Column) : Option Value :=
  c.default.filter fun v => !v.isNull

/-- The first constraint between the column's type and its attributes that fails. -/
def typeMisuse? (c : Column) : Option Misuse :=
  if c.autoIncrement && !c.type.isInteger then some (.autoIncrementType c.name c.type)
  else if c.size.isSome && !c.type.isSized then some (.sizeOnType c.name c.type)
  else
    match c.default with
    | some (.float x) => if x.isFinite then none else some (.nonFiniteDefault c.name x)
    | _ => none

/-- The first thing wrong with a column. -/
def misuse? (c : Column) : Option Misuse :=
  match Identifier.misuse? c.name with
  | some m => some m
  | none => c.typeMisuse?

/-- Refuses a column that is not well formed (`validate`). -/
def check (c : Column) : Except Misuse Unit :=
  match c.misuse? with
  | some m => .error m
  | none => .ok ()

/-! ## JSON -/

/-- The members of a size and a default, which are left out where there is none. -/
def attributeMembers (size : Option UInt32) (default : Option Value) : List (String × Json) :=
  (size.map fun n => ("size", Json.int n.toNat)).toList ++
    (default.map fun v => ("defaultValue", v.toJson)).toList

/-- The JSON of a column. -/
def toJson (c : Column) : Json :=
  .object ([("name", .text c.name), ("type", .text c.type.name)] ++
    attributeMembers c.size c.default ++ [("autoIncrement", .bool c.autoIncrement)])

/-- The column of a JSON value. -/
def ofJson (reading : Json.Reading) : Json → Read Column :=
  Record.read ["name", "type", "size", "defaultValue", "autoIncrement"] fun r =>
    Column.mk <$> r.required "name" Json.readText
      <*> r.required "type" (Json.readName reading ColumnType.names)
      <*> r.defaulted "size" none (Json.readOption Json.readWord32)
      <*> r.defaulted "defaultValue" none (Json.readOption Value.ofJson)
      <*> r.defaulted "autoIncrement" false Json.readBool

end Column

end SchemaMigration
