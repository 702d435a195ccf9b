import SchemaMigration.Collection.Json
import SchemaMigration.Column
import SchemaMigration.Index

/-!
# Creating collections

A query that creates a collection with its columns and indexes.

Model of `CreateCollection`.

* Columns are checked when they are added, and their names are distinct.
* Indexes are checked too: their names are distinct, so there is one primary index at most, and
  they cover columns that were added before.
-/

namespace SchemaMigration

/-- A query that creates a collection. -/
structure CreateCollection where
  /-- The created collection. -/
  collection : CollectionRef
  /-- Its columns, in order. -/
  columns : List Column
  /-- Its indexes, in order. -/
  indexes : List Index
deriving DecidableEq, BEq

namespace CreateCollection

/-- The creation of a collection without columns (`new`). -/
def of (collection : CollectionRef) : CreateCollection := ⟨collection, [], []⟩

/-- The creation has a column of this name. -/
def hasColumn (q : CreateCollection) (name : String) : Bool :=
  q.columns.any fun c => c.name == name

/-- The creation with a further column. -/
def column (q : CreateCollection) (c : Column) : Except Misuse CreateCollection := do
  c.check
  if q.hasColumn c.name then .error (.duplicateColumn c.name q.collection.identity)
  else return { q with columns := q.columns ++ [c] }

/-- The creation with a further index over its columns. -/
def index (q : CreateCollection) (i : Index) : Except Misuse CreateCollection := do
  i.check
  if q.indexes.any fun j => j.name == i.name then
    .error (if i.isPrimary then .secondPrimary q.collection.identity
      else .duplicateIndex i.name q.collection.identity)
  else
    match i.fields.find? fun f => !q.hasColumn f with
    | some missing => .error (.unknownIndexColumn i.name missing)
    | none => return { q with indexes := q.indexes ++ [i] }

/-- The primary index, if there is one (`primary_index`). -/
def primaryIndex? (q : CreateCollection) : Option Index :=
  q.indexes.find? Index.isPrimary

/-! ## JSON -/

/-- The JSON of a creation. -/
def toJson (q : CreateCollection) : Json :=
  .object [("collection", q.collection.toJson), ("columns", .array (q.columns.map Column.toJson)),
    ("indexes", .array (q.indexes.map Index.toJson))]

/-- The creation of a JSON value; columns and indexes are not checked. -/
def ofJson : Json → Read CreateCollection :=
  Record.read ["collection", "columns", "indexes"] fun r =>
    CreateCollection.mk <$> r.required "collection" CollectionRef.ofJson
      <*> r.required "columns" (Json.readList (Column.ofJson .direct))
      <*> r.required "indexes" (Json.readList (Index.ofJson .direct))

end CreateCollection

end SchemaMigration
