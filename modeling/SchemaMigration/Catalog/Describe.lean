import SchemaMigration.Catalog.Autoincrement
import SchemaMigration.Catalog.Row
import SchemaMigration.Result
import SchemaMigration.Statement.Structure

/-!
# Reading an SQLite catalog

The three listings of a table's description become a live collection, and the listing of all tables
becomes the collections with a well-formed name.

Model of `decode_description` and `decode_show`.

* A column's type name must stand for a logical type. Its default counts if it is a literal other
  than null.
* The columns with a key position, in the order of their positions, make up the primary index.
* The key column counts up if it alone is the key, has the type `INTEGER`, and the definition of the
  table says so.
* Adjacent rows of one physical index make up an index. Rows that belong to the primary key are
  passed over, and so are indexes whose handle would be the reserved name.

Out of scope: the warnings about what is passed over.
-/

namespace SchemaMigration.Catalog

/-- A column as the catalog lists it (`LiveColumn`). -/
structure ListedColumn where
  /-- The column, not known to count up. -/
  column : Column
  /-- The type as it was declared. -/
  declaredType : String
  /-- The position in the primary key, from one; zero outside of it. -/
  position : Int64

/-- The listing of a collection's description. -/
def describing (c : CollectionRef) : Listing := ⟨.describeCollection, some c⟩

/-- The default that a default expression stands for, if it is a literal other than null. -/
def defaultOf (expression : Option String) : Option Value :=
  ((expression.map String.toList).bind Value.ofLiteral?).filter fun v => !v.isNull

/-- The column of a row. -/
def readColumn (c : CollectionRef) (r : Row) : Except Error ListedColumn := do
  let name ← (describing c).text r "name"
  let declaredType ← (describing c).text r "type"
  let expression ← (describing c).optionalText r "dflt_value"
  let position ← (describing c).integer r "pk"
  match Dialect.sqlite.parseTypeName? declaredType with
  | some (type, size) =>
    return ⟨⟨name, type, size, defaultOf expression, false⟩, declaredType, position⟩
  | none => .error (.decode (.unsupportedType c.identity name declaredType))

/-- The columns of several rows, or the first failure. -/
def readColumns (c : CollectionRef) : List Row → Except Error (List ListedColumn)
  | [] => .ok []
  | r :: rest => do
    let column ← readColumn c r
    let columns ← readColumns c rest
    return column :: columns

/-- The key columns in the order of their positions. -/
def keyColumns (columns : List ListedColumn) : List ListedColumn :=
  (columns.filter fun c => decide (0 < c.position)).mergeSort fun a b =>
    decide (a.position ≤ b.position)

/-- The primary index over key columns, if there are any. -/
def primaryIndex? (key : List ListedColumn) : Option Index :=
  if key.isEmpty then none
  else some (Index.make primaryName .primary (Index.ascending (key.map fun c => c.column.name)))

/-- The name of the key column whose values SQLite generates: the only one, if it is declared as an
`INTEGER`. -/
def rowidColumn? (key : List ListedColumn) : Option String :=
  match key with
  | [only] =>
    if Text.sameAsciiLetters only.declaredType.toList "INTEGER".toList then some only.column.name
    else none
  | _ => none

/-- The name of the column that counts up. -/
def countingColumn? (key : List ListedColumn) (definition : Option String) : Option String :=
  (rowidColumn? key).filter fun name =>
    match definition with
    | some sql => declaresCounting sql name
    | none => false

/-- A column, counting up if it has the name. -/
def markCounting (counting : Option String) (c : ListedColumn) : Column :=
  if counting = some c.column.name then { c.column with autoIncrement := true } else c.column

/-! ## Index rows -/

/-- One key field of a physical index. -/
structure KeyRow where
  /-- The physical name of the index. -/
  physical : String
  /-- The kind of the index. -/
  kind : IndexKind
  /-- The field with its direction. -/
  column : IndexColumn
deriving DecidableEq

/-- The key field of a row; none where the index belongs to the primary key. -/
def readKeyRow (c : CollectionRef) (r : Row) : Except Error (Option KeyRow) := do
  let physical ← (describing c).text r "name"
  let origin ← (describing c).text r "origin"
  if origin = "pk" then return none
  else
    let unique ← (describing c).integer r "is_unique"
    let field ← (describing c).text r "field"
    let descending ← (describing c).integer r "descending"
    let direction : Direction := if descending = 0 then .ascending else .descending
    let kind : IndexKind := if unique = 0 then .plain else .unique
    return some ⟨physical, kind, ⟨field, direction⟩⟩

/-- The key fields of several rows, or the first failure. -/
def readKeyRows (c : CollectionRef) : List Row → Except Error (List KeyRow)
  | [] => .ok []
  | r :: rest => do
    let row ← readKeyRow c r
    let rows ← readKeyRows c rest
    return row.toList ++ rows

/-- The index of a key field that starts one; none for the reserved handle. -/
def startIndex? (c : CollectionRef) (k : KeyRow) : Option (String × Index) :=
  let handle := indexHandle c k.physical
  if handle = primaryName then none
  else some (k.physical, Index.make handle k.kind [k.column])

/-- The indexes of key fields; `pending` is the index that the next field may belong to. -/
def groupKeys (c : CollectionRef) (pending : Option (String × Index)) : List KeyRow → List Index
  | [] => (pending.map Prod.snd).toList
  | k :: rest =>
    match pending with
    | some (physical, index) =>
      if physical = k.physical then groupKeys c (some (physical, index.extend k.column)) rest
      else index :: groupKeys c (startIndex? c k) rest
    | none => groupKeys c (startIndex? c k) rest

/-! ## Descriptions and listings -/

/-- The definition of the table in the first row of a listing. -/
def definitionOf (c : CollectionRef) (rows : List Row) : Except Error (Option String) :=
  match rows with
  | [] => .ok none
  | r :: _ => (describing c).optionalText r "sql"

/-- The live collection of the listings of its columns, its index keys and its definition
(`decode_description`). -/
def describe (c : CollectionRef) (columnRows indexRows tableRows : List Row) :
    Except Error LiveCollection := do
  if columnRows.isEmpty then .error (.decode (.missingCollection c.identity))
  else
    let definition ← definitionOf c tableRows
    let listed ← readColumns c columnRows
    let keys ← readKeyRows c indexRows
    let key := keyColumns listed
    let counting := countingColumn? key definition
    return ⟨c, listed.map (markCounting counting),
      (primaryIndex? key).toList ++ groupKeys c none keys⟩

/-- The names in the rows of a listing of tables. -/
def tableNames : List Row → Except Error (List String)
  | [] => .ok []
  | r :: rest => do
    let name ← (Listing.mk .showCollections none).text r "name"
    let names ← tableNames rest
    return name :: names

/-- The collections of a listing of tables, in the order of listings (`decode_show`); other tables
are passed over. -/
def collections (rows : List Row) : Except Error (List CollectionRef) := do
  let names ← tableNames rows
  return CollectionRef.sorted (names.filterMap fun name =>
    (CollectionRef.parseIdentity name).toOption)

end SchemaMigration.Catalog
