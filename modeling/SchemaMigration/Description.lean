import SchemaMigration.Query.Create
import SchemaMigration.Schema

/-!
# Descriptions

The physical columns and indexes of one collection, each with the logical field or index that it
belongs to. A description is made from a declaration (`Description.Expand`) or from what a backend
reports (`Description.Live`), and can be folded back into a declaration (`Description.Collapse`).

Model of `CollectionDescription`, `ColumnDescription`, `IndexDescription` and `SchemaDescription`.
-/

namespace SchemaMigration

/-- What a backend reports of a collection (`CollectionDescription`). -/
structure LiveCollection where
  /-- The collection. -/
  collection : CollectionRef
  /-- The columns in physical order. -/
  columns : List Column
  /-- The indexes; the primary one has the reserved name. -/
  indexes : List Index
deriving DecidableEq

/-- A physical column. -/
structure ColumnDescription where
  /-- The physical handle. -/
  handle : String
  /-- The handle of the field; the physical handle unless the column is localized. -/
  base : String
  /-- The locale of a localized column. -/
  locale : Option String
  /-- The definition of the column, which has the physical handle as its name. -/
  column : Column
deriving DecidableEq, BEq

/-- The column belongs to one locale. -/
def ColumnDescription.isLocalized (c : ColumnDescription) : Bool :=
  c.locale.isSome

/-- A physical index. -/
structure IndexDescription where
  /-- The physical handle. -/
  handle : String
  /-- The handle of the declared index; the physical handle unless the index is localized. -/
  base : String
  /-- The locale of a localized index. -/
  locale : Option String
  /-- The definition of the index over physical columns. -/
  index : Index
deriving DecidableEq

/-- The physical columns and indexes of a collection (`SchemaDescription`). -/
structure Description where
  /-- The collection. -/
  collection : CollectionRef
  /-- The columns, in order. -/
  columns : List ColumnDescription
  /-- The indexes, in order. -/
  indexes : List IndexDescription
deriving DecidableEq

namespace Description

/-- The column of a physical handle. -/
def column? (d : Description) (handle : String) : Option ColumnDescription :=
  d.columns.find? fun c => c.handle == handle

/-- The index of a physical handle. -/
def index? (d : Description) (handle : String) : Option IndexDescription :=
  d.indexes.find? fun i => i.handle == handle

/-- The columns and indexes as a backend would report them. -/
def toLive (d : Description) : LiveCollection :=
  ⟨d.collection, d.columns.map ColumnDescription.column, d.indexes.map IndexDescription.index⟩

/-- A creation with further columns. -/
def addColumns (q : CreateCollection) : List Column → Except Misuse CreateCollection
  | [] => .ok q
  | c :: r => do
    let q ← q.column c
    addColumns q r

/-- A creation with further indexes. -/
def addIndexes (q : CreateCollection) : List Index → Except Misuse CreateCollection
  | [] => .ok q
  | i :: r => do
    let q ← q.index i
    addIndexes q r

/-- The query that creates the described collection (`to_create`). -/
def toCreate (d : Description) : Except Misuse CreateCollection := do
  let q ← addColumns (.of d.collection) d.toLive.columns
  addIndexes q d.toLive.indexes

end Description

end SchemaMigration
