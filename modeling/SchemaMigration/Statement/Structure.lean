import SchemaMigration.Collection
import SchemaMigration.Column
import SchemaMigration.Dialect.TypeName
import SchemaMigration.Error
import SchemaMigration.Index
import SchemaMigration.Statement.Piece

/-!
# Structural statements

The SQL statements that create, change and remove tables and indexes, as data. What a statement does
is read off its fields; `Ddl.pieces` gives its text in a dialect.

Model of the statements that a dialect writes: `column_definition`, `index_columns`, `copy_column`,
`alter_column`, `add_primary_index` and `drop_primary_index`.

* A table is named by the identity of its collection, an index by the table and its handle.
* The dialects differ in which statements they use to retype a column in place: PostgreSQL has
  statements of its own, SQLite moves the data through another column.
* SQLite counts a column up only where it alone is the primary key, and cannot change the primary
  key of a table that exists.
-/

namespace SchemaMigration

/-- The definition of a column inside a statement. -/
structure ColumnClause where
  /-- The name. -/
  name : String
  /-- The SQL type. -/
  typeName : String
  /-- The backend generates the values. -/
  generated : Bool
  /-- The column alone is the primary key. -/
  isKey : Bool
  /-- The default, if the column has one other than null. -/
  default : Option Value
deriving DecidableEq

/-- A structural statement. -/
inductive Ddl where
  /-- Creates a table; `key` lists the primary key where no column clause holds it. -/
  | createTable (table : CollectionRef) (columns : List ColumnClause) (key : Option (List String))
  /-- Creates an index by its physical name. -/
  | createIndex (unique : Bool) (name : String) (table : CollectionRef) (columns : List IndexColumn)
  /-- Adds a column. -/
  | addColumn (table : CollectionRef) (column : ColumnClause)
  /-- Copies one column into another, casting the values where a type is given. -/
  | copyColumn (table : CollectionRef) (target source : String) (cast : Option String)
  /-- Removes a column. -/
  | dropColumn (table : CollectionRef) (name : String)
  /-- Renames a column. -/
  | renameColumn (table : CollectionRef) (source target : String)
  /-- Retypes a column, casting its values. -/
  | retypeColumn (table : CollectionRef) (name typeName : String)
  /-- Sets or removes the default of a column. -/
  | setDefault (table : CollectionRef) (name : String) (default : Option Value)
  /-- Adds a primary key. -/
  | addPrimaryKey (table : CollectionRef) (fields : List String)
  /-- Removes a constraint by its name. -/
  | dropConstraint (table : CollectionRef) (name : String)
  /-- Removes an index by its physical name. -/
  | dropIndex (name : String)
  /-- Renames a table. -/
  | renameTable (table target : CollectionRef)
  /-- Removes a table. -/
  | dropTable (table : CollectionRef)
deriving DecidableEq

/-! ## Text -/

/-- The words after the type of a column. -/
def ColumnClause.attributeWords (d : Dialect) (c : ColumnClause) : String :=
  match d with
  | .sqlite => if c.isKey then " PRIMARY KEY AUTOINCREMENT" else ""
  | .postgres =>
    (if c.generated then " GENERATED BY DEFAULT AS IDENTITY" else "") ++
      (if c.isKey then " PRIMARY KEY" else "")

/-- The pieces of a default. -/
def defaultPieces : Option Value → List Piece
  | some v => [.words " DEFAULT ", .literal v]
  | none => []

/-- The pieces of a column clause (`column_definition`). -/
def ColumnClause.pieces (d : Dialect) (c : ColumnClause) : List Piece :=
  [.name c.name, .words (" " ++ c.typeName ++ c.attributeWords d)] ++ defaultPieces c.default

/-- The pieces of a list of names. -/
def namePieces (names : List String) : List Piece :=
  Piece.commas (names.map fun n => [.name n])

/-- The pieces of a primary key clause (`primary_key_columns`). -/
def keyPieces (fields : List String) : List Piece :=
  [.words "PRIMARY KEY ("] ++ namePieces fields ++ [.words ")"]

/-- The pieces of an index key, every field with its direction (`index_columns`). -/
def indexKeyPieces (columns : List IndexColumn) : List Piece :=
  Piece.commas (columns.map fun c => [.name c.field, .words (" " ++ c.direction.keyword)])

/-- The name of a collection's table (`quote_collection`). -/
def tableName (table : CollectionRef) : Piece :=
  .name table.identity

/-- The words that start every change of a table. -/
def alterTable (table : CollectionRef) : List Piece :=
  [.words "ALTER TABLE ", tableName table]

/-- The pieces of a structural statement. -/
def Ddl.pieces (d : Dialect) : Ddl → List Piece
  | .createTable table columns key =>
    [.words "CREATE TABLE ", tableName table, .words " ("] ++
      Piece.commas (columns.map (ColumnClause.pieces d) ++ (key.map keyPieces).toList) ++
      [.words ")"]
  | .createIndex unique name table columns =>
    [.words (if unique then "CREATE UNIQUE INDEX " else "CREATE INDEX "), .name name,
      .words " ON ", tableName table, .words " ("] ++ indexKeyPieces columns ++ [.words ")"]
  | .addColumn table column => alterTable table ++ [.words " ADD COLUMN "] ++ column.pieces d
  | .copyColumn table target source none =>
    [.words "UPDATE ", tableName table, .words " SET ", .name target, .words " = ", .name source]
  | .copyColumn table target source (some typeName) =>
    [.words "UPDATE ", tableName table, .words " SET ", .name target, .words " = CAST(",
      .name source, .words (" AS " ++ typeName ++ ")")]
  | .dropColumn table name => alterTable table ++ [.words " DROP COLUMN ", .name name]
  | .renameColumn table source target =>
    alterTable table ++ [.words " RENAME COLUMN ", .name source, .words " TO ", .name target]
  | .retypeColumn table name typeName =>
    alterTable table ++ [.words " ALTER COLUMN ", .name name,
      .words (" TYPE " ++ typeName ++ " USING CAST("), .name name, .words (" AS " ++ typeName ++ ")")]
  | .setDefault table name (some v) =>
    alterTable table ++ [.words " ALTER COLUMN ", .name name, .words " SET DEFAULT ", .literal v]
  | .setDefault table name none =>
    alterTable table ++ [.words " ALTER COLUMN ", .name name, .words " DROP DEFAULT"]
  | .addPrimaryKey table fields => alterTable table ++ [.words " ADD "] ++ keyPieces fields
  | .dropConstraint table name => alterTable table ++ [.words " DROP CONSTRAINT ", .name name]
  | .dropIndex name => [.words "DROP INDEX ", .name name]
  | .renameTable table target => alterTable table ++ [.words " RENAME TO ", tableName target]
  | .dropTable table => [.words "DROP TABLE ", tableName table]

/-- The text of a structural statement. -/
def Ddl.sql (d : Dialect) (s : Ddl) : String :=
  sqlText d 1 (s.pieces d)

/-! ## Names of indexes -/

/-- The physical name of an index (`index_name`). -/
def indexName (table : CollectionRef) (handle : String) : String :=
  table.identity ++ "_" ++ handle

/-- The handle of a physical index (`index_handle`); the whole name where it does not start with the
table's. -/
def indexHandle (table : CollectionRef) (physical : String) : String :=
  match (table.identity ++ "_").toList.isPrefixOf? physical.toList with
  | some handle => String.ofList handle
  | none => physical

namespace Dialect

/-! ## Statements that depend on the dialect -/

/-- The clause that defines a column (`column_definition`); `isKey` says that it alone is the
primary key. -/
def columnClause (d : Dialect) (column : Column) (isKey : Bool) : Except Error ColumnClause :=
  match d with
  | .sqlite =>
    if isKey then .ok ⟨column.name, "INTEGER", true, true, column.effectiveDefault⟩
    else if column.autoIncrement then
      .error (.unsupported d (.autoIncrementOutsideKey column.name))
    else .ok ⟨column.name, d.typeName column, false, false, column.effectiveDefault⟩
  | .postgres =>
    .ok ⟨column.name, d.typeName column, column.autoIncrement, isKey, column.effectiveDefault⟩

/-- The statement that adds a column (`add_column`). -/
def addColumn (d : Dialect) (table : CollectionRef) (column : Column) : Except Error Ddl := do
  let clause ← d.columnClause column false
  return .addColumn table clause

/-- The statement that fills a new column from another one (`copy_column`). -/
def copyColumn (d : Dialect) (table : CollectionRef) (source : String) (column : Column) : Ddl :=
  match d with
  | .sqlite => .copyColumn table column.name source none
  | .postgres => .copyColumn table column.name source (some (d.typeName column))

/-- The name of the column that holds the values of another one while it is retyped
(`RETYPE_SUFFIX`). -/
def scratchName (name : String) : String :=
  name ++ "__tmp"

/-- A column replaced by a new one of another name that holds its values. -/
def replaceColumn (d : Dialect) (table : CollectionRef) (source : String) (column : Column) :
    Except Error (List Ddl) := do
  let add ← d.addColumn table column
  return [add, d.copyColumn table source column, .dropColumn table source]

/-- A column renamed where its name changes, then retyped, then given its default. -/
def reshapeColumn (d : Dialect) (table : CollectionRef) (source : String) (column : Column) :
    List Ddl :=
  (if source = column.name then [] else [.renameColumn table source column.name]) ++
    [.retypeColumn table column.name (d.typeName column),
      .setDefault table column.name column.effectiveDefault]

/-- The statements that turn one column into another, keeping its data (`alter_column`). -/
def alterColumn (d : Dialect) (table : CollectionRef) (source : String) (column : Column) :
    Except Error (List Ddl) :=
  match d with
  | .sqlite =>
    if source = column.name then do
      let scratch := scratchName column.name
      let moved ← d.replaceColumn table source (column.renamed scratch)
      return moved ++ [.renameColumn table scratch column.name]
    else d.replaceColumn table source column
  | .postgres => .ok (d.reshapeColumn table source column)

/-- The statement that gives a table a primary key (`add_primary_index`). -/
def addPrimaryIndex (d : Dialect) (table : CollectionRef) (index : Index) : Except Error Ddl :=
  match d with
  | .sqlite => .error (.unsupported d (.addPrimary table.identity))
  | .postgres => .ok (.addPrimaryKey table index.fields)

/-- The statement that removes the primary key of a table (`drop_primary_index`). -/
def dropPrimaryIndex (d : Dialect) (table : CollectionRef) : Except Error Ddl :=
  match d with
  | .sqlite => .error (.unsupported d (.dropPrimary table.identity))
  | .postgres => .ok (.dropConstraint table (table.identity ++ "_pkey"))

end Dialect

end SchemaMigration
