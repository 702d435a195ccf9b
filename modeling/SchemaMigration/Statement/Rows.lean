import SchemaMigration.Error
import SchemaMigration.Query.Change
import SchemaMigration.Statement.Piece

/-!
# Statements on rows

The pieces of selects, inserts, updates and deletes. Literals are always bound as parameters, and
every name is checked once more where it is written, so that a query from outside is held to the
same rules as one that was built step by step.

Model of `compile_select`, `compile_insert`, `compile_update` and `compile_delete`.

* `Operand.resolve` gives an operand its value; a variable without one fails.
* A compound is written without parentheses at the top; inside another compound it is put into them.
  The empty conjunction is `1 = 1` and the empty disjunction `1 = 0`.
* The dialects share these pieces up to the words for the window of rows.
-/

namespace SchemaMigration

/-- The value of an operand. -/
def Operand.resolve (vars : Variables) : Operand → Except Error Value
  | .value v => .ok v
  | .variable name =>
    match vars.lookup name with
    | some v => .ok v
    | none => .error (.unresolvedVariable name)

/-- The placeholder of an operand (`bind`). -/
def Operand.piece (vars : Variables) (x : Operand) : Except Error Piece :=
  (x.resolve vars).map .parameter

/-- A name that is checked before it is written (`push_identifier`). -/
def checkedName (name : String) : Except Error Piece :=
  match Identifier.misuse? name with
  | some m => .error (.construction m)
  | none => .ok (.name name)

/-- The pieces of every member of a list, or the first failure. -/
def piecesOfAll {α : Type} (f : α → Except Error (List Piece)) :
    List α → Except Error (List (List Piece))
  | [] => .ok []
  | a :: r => do
    let ps ← f a
    let rest ← piecesOfAll f r
    return ps :: rest

namespace Predicate

/-- The words of a null test. -/
def nullWords (negated : Bool) : String :=
  if negated then " IS NOT NULL" else " IS NULL"

/-- The words before the candidates of a membership test. -/
def membershipWords (negated : Bool) : String :=
  if negated then " NOT IN (" else " IN ("

/-- A compound inside a compound stands between parentheses (`compound`). -/
def enclose (p : Predicate) (ps : List Piece) : List Piece :=
  if p.isCompound then [.words "("] ++ ps ++ [.words ")"] else ps

mutual

/-- The pieces of a predicate (`predicate`). -/
def pieces (vars : Variables) : Predicate → Except Error (List Piece)
  | .compare field op x => do
    let name ← checkedName field
    let value ← x.piece vars
    return [name, .words (" " ++ op.operator ++ " "), value]
  | .isNull field negated => do
    let name ← checkedName field
    return [name, .words (nullWords negated)]
  | .inList field xs negated => do
    let name ← checkedName field
    let values ← piecesOfAll (fun x => (x.piece vars).map fun p => [p]) xs
    return [name, .words (membershipWords negated)] ++ Piece.commas values ++ [.words ")"]
  | .all ps => do
    let parts ← piecesOfMembers vars ps
    return if ps.isEmpty then [.words "1 = 1"] else Text.intersperse [.words " AND "] parts
  | .any ps => do
    let parts ← piecesOfMembers vars ps
    return if ps.isEmpty then [.words "1 = 0"] else Text.intersperse [.words " OR "] parts
  | .not p => do
    let inner ← pieces vars p
    return [.words "NOT ("] ++ inner ++ [.words ")"]

/-- The pieces of the members of a compound. -/
def piecesOfMembers (vars : Variables) : List Predicate → Except Error (List (List Piece))
  | [] => .ok []
  | p :: ps => do
    let first ← pieces vars p
    let rest ← piecesOfMembers vars ps
    return enclose p first :: rest

end

/-- The pieces of a condition on rows (`where_clause`); the condition is checked as a whole
first. -/
def wherePieces (vars : Variables) : Option Predicate → Except Error (List Piece)
  | none => .ok []
  | some p => do
    p.check.mapError .construction
    let ps ← p.pieces vars
    return .words " WHERE " :: ps

end Predicate

/-! ## The four queries -/

/-- The words for a window of rows (`limit_clause`). SQLite needs a limit before an offset, and
reads `-1` as none. -/
def Dialect.windowWords (d : Dialect) (r : Range) : String :=
  let limit : String := (r.limit.map fun n => "LIMIT " ++ Decimal.showNat n.toNat).getD ""
  let offset : String := "OFFSET " ++ Decimal.showNat r.offset.toNat
  match d with
  | .sqlite =>
    let limit := if r.limit.isNone then "LIMIT -1" else limit
    if r.offset == 0 then limit else limit ++ " " ++ offset
  | .postgres =>
    if r.limit.isNone then offset
    else if r.offset == 0 then limit
    else limit ++ " " ++ offset

/-- The pieces of a window of rows. -/
def Range.pieces (d : Dialect) (r : Range) : List Piece :=
  if r.isUnbounded then [] else [.words (" " ++ d.windowWords r)]

/-- The pieces of a sort order. -/
def sortPieces (terms : List SortTerm) : Except Error (List Piece) := do
  let parts ← piecesOfAll
    (fun (t : SortTerm) => (checkedName t.field).map fun n => [n, .words (" " ++ t.direction.keyword)])
    terms
  return if terms.isEmpty then [] else .words " ORDER BY " :: Piece.commas parts

/-- The pieces of a list of fields. -/
def fieldPieces (fields : List String) : Except Error (List Piece) := do
  let parts ← piecesOfAll (fun f => (checkedName f).map fun n => [n]) fields
  return Piece.commas parts

/-- The pieces of a select up to its window. -/
def Select.body (vars : Variables) (q : Select) : Except Error (List Piece) :=
  match q.collection with
  | none => .error (.construction .selectWithoutCollection)
  | some c => do
    let fields ← fieldPieces q.fields
    let condition ← Predicate.wherePieces vars q.predicate
    let order ← sortPieces q.sort
    let fields := if q.fields.isEmpty then [.words "*"] else fields
    return [.words "SELECT "] ++ fields ++ [.words " FROM ", .name c.identity] ++ condition ++ order

/-- The pieces of a select (`compile_select`). -/
def Select.pieces (d : Dialect) (vars : Variables) (q : Select) : Except Error (List Piece) := do
  let body ← q.body vars
  return body ++ q.range.pieces d

/-- The pieces of an insert (`compile_insert`). -/
def Insert.pieces (vars : Variables) (q : Insert) : Except Error (List Piece) :=
  if q.values.isEmpty then
    .ok [.words "INSERT INTO ", .name q.collection.identity, .words " DEFAULT VALUES"]
  else do
    let fields ← fieldPieces (q.values.map Prod.fst)
    let values ← piecesOfAll (fun (entry : String × Operand) => (entry.2.piece vars).map fun p => [p])
      q.values
    return [.words "INSERT INTO ", .name q.collection.identity, .words " ("] ++ fields ++
      [.words ") VALUES ("] ++ Piece.commas values ++ [.words ")"]

/-- The pieces of one assignment. -/
def assignmentPieces (vars : Variables) (entry : String × Operand) : Except Error (List Piece) := do
  let name ← checkedName entry.1
  let value ← entry.2.piece vars
  return [name, .words " = ", value]

/-- The pieces of an update (`compile_update`). -/
def Update.pieces (vars : Variables) (q : Update) : Except Error (List Piece) :=
  if q.values.isEmpty then
    .error (.construction (.updateWithoutFields q.collection.identity))
  else do
    let assignments ← piecesOfAll (assignmentPieces vars) q.values
    let condition ← Predicate.wherePieces vars q.predicate
    return [.words "UPDATE ", .name q.collection.identity, .words " SET "] ++
      Piece.commas assignments ++ condition

/-- The pieces of a delete (`compile_delete`). -/
def Delete.pieces (vars : Variables) (q : Delete) : Except Error (List Piece) := do
  let condition ← Predicate.wherePieces vars q.predicate
  return [.words "DELETE FROM ", .name q.collection.identity] ++ condition

end SchemaMigration
