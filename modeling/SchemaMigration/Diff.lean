import SchemaMigration.Description

/-!
# Differences

The operations that bring a live collection in line with its declaration. A collection that is
missing is created; otherwise the operations come in a fixed order:

1. live columns that are not declared are dropped, in live order;
2. live columns whose type does not convert to the declared one are altered, in live order;
3. declared columns that are missing are added, in declared order;
4. live indexes that are not declared are dropped, in live order;
5. declared indexes that are missing are added, in declared order.

Columns and indexes are matched by their physical handles alone.

Model of `DiffOperation` and `diff_collection`.
-/

namespace SchemaMigration

/-- What an operation does. -/
inductive Change where
  /-- Creates the collection. -/
  | addCollection
  /-- Adds a column, which may be filled from one of the candidates. -/
  | addColumn (column : ColumnDescription) (candidates : List String)
  /-- Drops a live column. -/
  | dropColumn (column : ColumnDescription)
  /-- Brings a live column to its declared type. -/
  | alterColumn (declared live : ColumnDescription)
  /-- Adds an index. -/
  | addIndex (index : IndexDescription)
  /-- Drops a live index. -/
  | dropIndex (index : IndexDescription)
deriving DecidableEq

/-- A change of one collection. -/
structure DiffOperation where
  /-- The declared description of the collection. -/
  schema : Description
  /-- What is changed. -/
  change : Change
deriving DecidableEq

namespace DiffOperation

/-- The changed collection. -/
def collection (op : DiffOperation) : CollectionRef :=
  op.schema.collection

/-- The operation loses data (`is_destructive`). -/
def isDestructive (op : DiffOperation) : Bool :=
  match op.change with
  | .dropColumn _ => true
  | _ => false

/-- The operation in words. -/
def text (op : DiffOperation) : String :=
  let c := op.collection.identity
  match op.change with
  | .addCollection =>
    "add collection " ++ c ++ " (" ++ Decimal.showNat op.schema.columns.length ++ " columns, " ++
      Decimal.showNat op.schema.indexes.length ++ " indexes)"
  | .addColumn column _ =>
    "add column " ++ c ++ "." ++ column.handle ++ " (" ++ column.column.type.name ++ ")"
  | .dropColumn column => "drop column " ++ c ++ "." ++ column.handle
  | .alterColumn declared live =>
    "alter column " ++ c ++ "." ++ declared.handle ++ " (" ++ live.column.type.name ++ " -> " ++
      declared.column.type.name ++ ")"
  | .addIndex index =>
    "add " ++ index.index.kind.name ++ " index " ++ c ++ "." ++ index.handle
  | .dropIndex index => "drop index " ++ c ++ "." ++ index.handle

end DiffOperation

namespace Description

/-- Live columns that are not declared. -/
def droppedColumns (declared live : Description) : List Change :=
  (live.columns.filter fun c => (declared.column? c.handle).isNone).map .dropColumn

/-- Live columns whose type does not convert to the declared one. -/
def alteredColumns (declared live : Description)
    (compare : ColumnType → ColumnType → Compatibility) : List Change :=
  live.columns.filterMap fun c =>
    match declared.column? c.handle with
    | some wanted =>
      if (compare wanted.column.type c.column.type).castable then none
      else some (.alterColumn wanted c)
    | none => none

/-- The live column belongs to the same field as a localized column: it has its base, or its name is
that base, alone or with a locale. -/
def isSibling (column candidate : ColumnDescription) : Bool :=
  candidate.base == column.base || candidate.handle == column.base ||
    (match Locale.splitLocalized? candidate.handle with
      | some (base, _) => base == column.base
      | none => false)

/-- The live columns that a new column may be filled from (`copy_candidates`): the columns of the
same field if it is localized, every column otherwise. -/
def copyCandidates (column : ColumnDescription) (live : Description) : List String :=
  (live.columns.filter fun c => !column.isLocalized || isSibling column c).map
    ColumnDescription.handle

/-- Declared columns that are missing. -/
def addedColumns (declared live : Description) : List Change :=
  (declared.columns.filter fun c => (live.column? c.handle).isNone).map fun c =>
    .addColumn c (copyCandidates c live)

/-- Live indexes that are not declared. -/
def droppedIndexes (declared live : Description) : List Change :=
  (live.indexes.filter fun i => (declared.index? i.handle).isNone).map .dropIndex

/-- Declared indexes that are missing. -/
def addedIndexes (declared live : Description) : List Change :=
  (declared.indexes.filter fun i => (live.index? i.handle).isNone).map .addIndex

/-- The changes that bring a live collection, if there is one, in line with its declaration. -/
def changes (declared : Description) (live : Option Description)
    (compare : ColumnType → ColumnType → Compatibility) : List Change :=
  match live with
  | none => [.addCollection]
  | some live =>
    declared.droppedColumns live ++ declared.alteredColumns live compare ++
      declared.addedColumns live ++ declared.droppedIndexes live ++ declared.addedIndexes live

/-- The operations that bring a live collection, if there is one, in line with its declaration
(`diff_collection`). -/
def diff (declared : Description) (live : Option Description)
    (compare : ColumnType → ColumnType → Compatibility) : List DiffOperation :=
  (declared.changes live compare).map fun change => ⟨declared, change⟩

end Description

end SchemaMigration
