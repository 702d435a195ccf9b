import SchemaMigration.Identifier
import SchemaMigration.Json.Record

/-!
# Indexes

The definition of an index: its name, its kind and its fields in key order with their directions.

Model of `Index`, `IndexColumn` and `PRIMARY_INDEX`.

* The name `primary` is reserved: the primary index has it and no other index may.
* `Index.check` refuses a bad or reserved name, an empty key and a bad field name, in this order.
-/

namespace SchemaMigration

/-- The reserved name of the primary index (`PRIMARY_INDEX`). -/
def primaryName : String := "primary"

/-- One field of an index key. -/
structure IndexColumn where
  /-- The indexed field. -/
  field : String
  /-- The direction of the field in the key. -/
  direction : Direction
deriving DecidableEq, Inhabited

/-- The definition of an index. -/
structure Index where
  /-- The name. -/
  name : String
  /-- The kind. -/
  kind : IndexKind
  /-- The fields in key order. -/
  columns : List IndexColumn
deriving DecidableEq, Inhabited

namespace Index

/-- An index of a kind over a key (`new`); a primary index takes the reserved name. -/
def make (name : String) (kind : IndexKind) (columns : List IndexColumn) : Index :=
  match kind with
  | .primary => ⟨primaryName, .primary, columns⟩
  | kind => ⟨name, kind, columns⟩

/-- A key that ascends in every field (`with_fields`). -/
def ascending (fields : List String) : List IndexColumn :=
  fields.map fun f => ⟨f, .ascending⟩

/-- The index is the primary one. -/
def isPrimary (i : Index) : Bool :=
  decide (i.kind = .primary)

/-- The indexed fields in key order. -/
def fields (i : Index) : List String :=
  i.columns.map IndexColumn.field

/-- The index covers the field. -/
def covers (i : Index) (field : String) : Bool :=
  i.fields.contains field

/-- The same index with a field added at the end of its key (`column`). -/
def extend (i : Index) (column : IndexColumn) : Index :=
  { i with columns := i.columns ++ [column] }

/-- The first thing wrong with an index. -/
def misuse? (i : Index) : Option Misuse :=
  match Identifier.misuse? i.name with
  | some m => some m
  | none =>
    if i.isPrimary != decide (i.name = primaryName) then some (.reservedPrimary i.name i.kind)
    else if i.columns.isEmpty then some (.indexWithoutColumns i.name)
    else i.fields.findSome? Identifier.misuse?

/-- Refuses an index that is not well formed (`validate`). -/
def check (i : Index) : Except Misuse Unit :=
  match i.misuse? with
  | some m => .error m
  | none => .ok ()

end Index

/-! ## JSON -/

/-- The JSON of a key field. -/
def IndexColumn.toJson (c : IndexColumn) : Json :=
  .object [("field", .text c.field), ("direction", .text c.direction.name)]

/-- The key field of a JSON value; it ascends unless it says otherwise. -/
def IndexColumn.ofJson (reading : Json.Reading) : Json → Read IndexColumn :=
  Record.read ["field", "direction"] fun r =>
    IndexColumn.mk <$> r.required "field" Json.readText
      <*> r.defaulted "direction" .ascending (Json.readName reading Direction.names)

/-- The JSON of an index. -/
def Index.toJson (i : Index) : Json :=
  .object [("name", .text i.name), ("type", .text i.kind.name),
    ("columns", .array (i.columns.map IndexColumn.toJson))]

/-- The index of a JSON value, its name kept as it is. -/
def Index.ofJson (reading : Json.Reading) : Json → Read Index :=
  Record.read ["name", "type", "columns"] fun r =>
    Index.mk <$> r.required "name" Json.readText
      <*> r.required "type" (Json.readName reading IndexKind.names)
      <*> r.required "columns" (Json.readList (IndexColumn.ofJson reading))

end SchemaMigration
