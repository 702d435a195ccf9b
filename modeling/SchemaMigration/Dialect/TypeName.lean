import SchemaMigration.Column
import SchemaMigration.Dialect
import SchemaMigration.Text.Blank
import SchemaMigration.Text.Slice

/-!
# SQL type names

The name of a column's type in each dialect, and the logical type of a name that a catalog reports.

Model of `type_name` and `parse_type_name` of both dialects.

* A size is written for text and blobs only, and read back for them only.
* Reading ignores the case of ASCII letters and takes the common synonyms.
-/

namespace SchemaMigration.Dialect

/-- A type name with a size in parentheses where there is one (`sized`). -/
def sizedName (plain sized : String) : Option UInt32 → String
  | some n => sized ++ "(" ++ Decimal.showNat n.toNat ++ ")"
  | none => plain

/-- The SQLite name of a type (`type_name`). -/
def sqliteTypeName (type : ColumnType) (size : Option UInt32) : String :=
  match type with
  | .boolean => "BOOLEAN"
  | .int8 => "TINYINT"
  | .int16 => "SMALLINT"
  | .int32 => "INT"
  | .int64 => "INTEGER"
  | .float32 => "REAL"
  | .float64 => "DOUBLE"
  | .text => sizedName "TEXT" "VARCHAR" size
  | .blob => sizedName "BLOB" "VARBINARY" size
  | .date => "DATE"
  | .dateTime => "DATETIME"
  | .time => "TIME"
  | .json => "JSON"
  | .uuid => "UUID"

/-- The PostgreSQL name of a type (`type_name`). -/
def postgresTypeName (type : ColumnType) (size : Option UInt32) : String :=
  match type with
  | .boolean => "BOOLEAN"
  | .int8 => "SMALLINT"
  | .int16 => "SMALLINT"
  | .int32 => "INTEGER"
  | .int64 => "BIGINT"
  | .float32 => "REAL"
  | .float64 => "DOUBLE PRECISION"
  | .text => sizedName "TEXT" "VARCHAR" size
  | .blob => "BYTEA"
  | .date => "DATE"
  | .dateTime => "TIMESTAMP"
  | .time => "TIME"
  | .json => "JSONB"
  | .uuid => "UUID"

/-- The name of a column's type. -/
def typeName (d : Dialect) (column : Column) : String :=
  match d with
  | .sqlite => sqliteTypeName column.type column.size
  | .postgres => postgresTypeName column.type column.size

/-! ## Reading type names -/

/-- A number of 32 bits with an optional leading plus. -/
def readSize? (s : List Char) : Option UInt32 :=
  (Decimal.readUnsigned? s).bind fun n => if n < twoTo 32 then some (UInt32.ofNat n) else none

/-- The logical type of an SQLite base name in capitals. -/
def sqliteBaseType? (base : String) : Option ColumnType :=
  match base with
  | "BOOLEAN" | "BOOL" => some .boolean
  | "TINYINT" => some .int8
  | "SMALLINT" => some .int16
  | "INT" | "MEDIUMINT" => some .int32
  | "INTEGER" | "BIGINT" => some .int64
  | "REAL" | "FLOAT" => some .float32
  | "DOUBLE" | "DOUBLE PRECISION" => some .float64
  | "TEXT" | "VARCHAR" | "CHAR" | "CLOB" => some .text
  | "BLOB" | "VARBINARY" => some .blob
  | "DATE" => some .date
  | "DATETIME" | "TIMESTAMP" => some .dateTime
  | "TIME" => some .time
  | "JSON" => some .json
  | "UUID" => some .uuid
  | _ => none

/-- A type name cut at its first parenthesis into the base name and the first of the numbers inside
the parentheses, if it is one (`split_size`). -/
def splitSize (name : List Char) : List Char × Option UInt32 :=
  match Text.splitFirst? ['('] name with
  | some (base, rest) =>
    let inside := (rest.reverse.dropWhile fun c => c == ')').reverse
    let first := inside.takeWhile fun c => c != ','
    (Text.trim base, readSize? (Text.trim first))
  | none => (Text.trim name, none)

/-- The logical type of an SQLite type name (`parse_type_name`). -/
def parseSqliteTypeName? (name : String) : Option (ColumnType × Option UInt32) :=
  let (base, size) := splitSize (name.toList.map Char.toUpper)
  (sqliteBaseType? (String.ofList base)).map fun type =>
    (type, if type.isSized then size else none)

/-- The logical type of a PostgreSQL type name without size, in small letters. -/
def postgresBaseType? (name : String) : Option ColumnType :=
  match name with
  | "boolean" => some .boolean
  | "smallint" => some .int16
  | "integer" => some .int32
  | "bigint" => some .int64
  | "real" => some .float32
  | "double precision" => some .float64
  | "text" | "character varying" => some .text
  | "bytea" => some .blob
  | "date" => some .date
  | "timestamp without time zone" | "timestamp with time zone" => some .dateTime
  | "time without time zone" => some .time
  | "json" | "jsonb" => some .json
  | "uuid" => some .uuid
  | _ => none

/-- The logical type of a PostgreSQL type name (`parse_type_name`). -/
def parsePostgresTypeName? (name : String) : Option (ColumnType × Option UInt32) :=
  let lower := name.toList.map Char.toLower
  match Text.enclosed? "character varying(".toList [')'] lower with
  | some size => some (.text, readSize? size)
  | none => (postgresBaseType? (String.ofList lower)).map fun type => (type, none)

/-- The logical type and the size that a catalog's type name stands for. -/
def parseTypeName? (d : Dialect) (name : String) : Option (ColumnType × Option UInt32) :=
  match d with
  | .sqlite => parseSqliteTypeName? name
  | .postgres => parsePostgresTypeName? name

end SchemaMigration.Dialect
