import SchemaMigration.Query
import SchemaMigration.Statement.Catalog
import SchemaMigration.Statement.Rows
import SchemaMigration.Statement.Tables

/-!
# Compiled queries

A query compiles to the statements that carry it out in a dialect, with the values of its variables
filled in. Every failure of a query itself shows here, before any backend is touched.

Model of `compile` and `CompiledQuery`.
-/

namespace SchemaMigration

/-- The statements of a query, with what is needed to interpret their result. -/
structure CompiledQuery where
  /-- The kind of the query. -/
  kind : QueryKind
  /-- The collection that it is about. -/
  collection : Option CollectionRef
  /-- The window of rows that it asks for. -/
  range : Range
  /-- The statements in the order of execution. -/
  statements : List Statement
deriving DecidableEq

/-- The texts of the statements, in order. -/
def CompiledQuery.sql (q : CompiledQuery) : List String :=
  q.statements.map Statement.sql

namespace Query

/-- The one statement of a query on rows. -/
def single (d : Dialect) (pieces : Except Error (List Piece)) : Except Error (List Statement) :=
  pieces.map fun ps => [Statement.ofPieces d ps]

/-- The statements of a structural query. -/
def structural (d : Dialect) (ddl : Except Error (List Ddl)) : Except Error (List Statement) :=
  ddl.map fun ds => ds.map fun s => Statement.ofPieces d (s.pieces d)

/-- The statements of a query. -/
def statements (d : Dialect) (vars : Variables) : Query → Except Error (List Statement)
  | .select q => single d (q.pieces d vars)
  | .insert q => single d (q.pieces vars)
  | .update q => single d (q.pieces vars)
  | .delete q => single d (q.pieces vars)
  | .createCollection q => structural d (q.ddl d)
  | .alterCollection q => structural d (q.ddl d)
  | .dropCollection c => structural d (.ok [.dropTable c])
  | .collectionExists c => .ok [d.existsStatement c]
  | .describeCollection c => .ok (d.describeStatements c)
  | .showCollections => .ok [d.listStatement]

/-- The compiled query. -/
def compile (d : Dialect) (vars : Variables) (q : Query) : Except Error CompiledQuery := do
  let statements ← q.statements d vars
  return ⟨q.kind, q.collection?, q.range, statements⟩

end Query

end SchemaMigration
