import SchemaMigration.Description
import SchemaMigration.Query.Select

/-!
# Results

What a backend answers: the kinds of results, the rows of a select, and the cursor that leads from
one page of rows to the next.

Model of `QueryResult`, `Rows` and `Cursor`.
-/

namespace SchemaMigration

/-- The place of a page among all rows. -/
structure Cursor where
  /-- Rows before the page. -/
  offset : UInt64
  /-- The most rows asked for. -/
  limit : Option UInt64
  /-- Rows on the page. -/
  returned : UInt64
deriving DecidableEq

namespace Cursor

/-- The cursor of a page that was asked for by a window. -/
def ofRange (r : Range) (returned : UInt64) : Cursor :=
  ⟨r.offset, r.limit, returned⟩

/-- The offset of the next page (`next_offset`); there is one after a full page only. -/
def nextOffset? (c : Cursor) : Option UInt64 :=
  match c.limit with
  | some limit => if 0 < limit ∧ c.returned = limit then some (c.offset + limit) else none
  | none => none

end Cursor

/-- The rows of a select. -/
structure Rows where
  /-- The names of the columns. -/
  columns : List String
  /-- The rows, their values in column order. -/
  rows : List (List Value)
  /-- The place of the rows among all. -/
  cursor : Cursor

namespace Rows

/-- The first column of a name (`column_index`). -/
def columnIndex? (r : Rows) (column : String) : Option Nat :=
  r.columns.findIdx? fun c => c == column

/-- The value of a column in a row (`value`). -/
def value? (r : Rows) (row : Nat) (column : String) : Option Value := do
  let index ← r.columnIndex? column
  let values ← r.rows[row]?
  values[index]?

end Rows

/-- The answer to a query. -/
inductive QueryResult where
  /-- A row was added, with the id that the backend gave it. -/
  | inserted (id : Option Int64)
  /-- Rows were changed. -/
  | updated (affected : UInt64)
  /-- Rows were removed. -/
  | deleted (affected : UInt64)
  /-- Rows were read. -/
  | selected (rows : Rows)
  /-- Whether the collection exists. -/
  | existence (answer : Bool)
  /-- The columns and indexes of a collection. -/
  | described (live : LiveCollection)
  /-- The collections. -/
  | collections (all : List CollectionRef)
  /-- A structural change was carried out. -/
  | acknowledged (answer : Bool)

namespace QueryResult

/-- The number of rows changed or removed. -/
def affected? : QueryResult → Option UInt64
  | .updated n => some n
  | .deleted n => some n
  | _ => none

/-- The id of an added row (`inserted_id`). -/
def insertedId? : QueryResult → Option Int64
  | .inserted id => id
  | _ => none

end QueryResult

end SchemaMigration
