import SchemaMigration.Error
import SchemaMigration.Result
import SchemaMigration.Text.Escaped

/-!
# Results in messages

A result of an unexpected kind is shown in full in the error that refuses it: every part under its
name, texts quoted. The four accessors `rows`, `existence?`, `description` and `listing` take the
result of one kind and refuse every other.

Model of `into_rows`, `into_exists`, `into_description` and `into_collections`.
-/

namespace SchemaMigration

open Text

/-- An integer in decimal. -/
def showInteger (n : Int) : String :=
  String.ofList (Decimal.showInt n)

/-- A number of 64 bits in decimal. -/
def showWord (n : UInt64) : String :=
  Decimal.showNat n.toNat

namespace Value

/-- A value in a message. -/
def shown : Value → String
  | .null => "Null"
  | .bool b => applied "Bool" (boolText b)
  | .int n => applied "Int" (showInteger n.toInt)
  | .float x => applied "Float" (String.ofList (literalLayout.write x))
  | .text s => applied "Text" (escaped s)
  | .blob bytes => applied "Blob" (bracketed (bytes.map fun b => Decimal.showNat b.toNat))

end Value

/-- A column type in a message. -/
def ColumnType.shown : ColumnType → String
  | .boolean => "Boolean"
  | .int8 => "Int8"
  | .int16 => "Int16"
  | .int32 => "Int32"
  | .int64 => "Int64"
  | .float32 => "Float32"
  | .float64 => "Float64"
  | .text => "Text"
  | .blob => "Blob"
  | .date => "Date"
  | .dateTime => "DateTime"
  | .time => "Time"
  | .json => "Json"
  | .uuid => "Uuid"

/-- A collection in a message. -/
def CollectionRef.shown (c : CollectionRef) : String :=
  recordText "CollectionRef" [("namespace", optionText escaped c.scope), ("name", escaped c.name)]

/-- A column in a message. -/
def Column.shown (c : Column) : String :=
  recordText "Column" [("name", escaped c.name), ("column_type", c.type.shown),
    ("size", optionText (fun n : UInt32 => Decimal.showNat n.toNat) c.size),
    ("default_value", optionText Value.shown c.default),
    ("auto_increment", boolText c.autoIncrement)]

/-- The kind of an index in a message. -/
def IndexKind.shown : IndexKind → String
  | .primary => "Primary"
  | .unique => "Unique"
  | .plain => "Index"

/-- A direction in a message. -/
def Direction.shown : Direction → String
  | .ascending => "Asc"
  | .descending => "Desc"

/-- A key field in a message. -/
def IndexColumn.shown (c : IndexColumn) : String :=
  recordText "IndexColumn" [("field", escaped c.field), ("direction", c.direction.shown)]

/-- An index in a message. -/
def Index.shown (i : Index) : String :=
  recordText "Index" [("name", escaped i.name), ("index_type", i.kind.shown),
    ("columns", bracketed (i.columns.map IndexColumn.shown))]

/-- A live collection in a message. -/
def LiveCollection.shown (live : LiveCollection) : String :=
  recordText "CollectionDescription" [("collection", live.collection.shown),
    ("columns", bracketed (live.columns.map Column.shown)),
    ("indexes", bracketed (live.indexes.map Index.shown))]

/-- A cursor in a message. -/
def Cursor.shown (c : Cursor) : String :=
  recordText "Cursor" [("offset", showWord c.offset), ("limit", optionText showWord c.limit),
    ("returned", showWord c.returned)]

/-- Rows in a message. -/
def Rows.shown (r : Rows) : String :=
  recordText "Rows" [("columns", bracketed (r.columns.map escaped)),
    ("rows", bracketed (r.rows.map fun row => bracketed (row.map Value.shown))),
    ("cursor", r.cursor.shown)]

namespace QueryResult

/-- A result in a message. -/
def shown : QueryResult → String
  | .inserted id => recordText "Inserted" [("id", optionText (fun n : Int64 => showInteger n.toInt) id)]
  | .updated n => recordText "Updated" [("affected", showWord n)]
  | .deleted n => recordText "Deleted" [("affected", showWord n)]
  | .selected rows => applied "Selected" rows.shown
  | .existence answer => applied "Exists" (boolText answer)
  | .described live => applied "Described" live.shown
  | .collections all => applied "Collections" (bracketed (all.map CollectionRef.shown))
  | .acknowledged answer => applied "Acknowledged" (boolText answer)

/-- The refusal of a result of another kind. -/
def unexpected (r : QueryResult) (expected : String) : Error :=
  .decode (.unexpectedResult expected r.shown)

/-- The rows of a select (`into_rows`). -/
def rows : QueryResult → Except Error Rows
  | .selected rows => .ok rows
  | r => .error (r.unexpected "select")

/-- The answer of a query for existence (`into_exists`). -/
def existence? : QueryResult → Except Error Bool
  | .existence answer => .ok answer
  | r => .error (r.unexpected "exists")

/-- The description of a collection (`into_description`). -/
def description : QueryResult → Except Error LiveCollection
  | .described live => .ok live
  | r => .error (r.unexpected "describe")

/-- The listing of collections (`into_collections`). -/
def listing : QueryResult → Except Error (List CollectionRef)
  | .collections all => .ok all
  | r => .error (r.unexpected "show")

end QueryResult

end SchemaMigration
