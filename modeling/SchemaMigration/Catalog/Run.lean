import SchemaMigration.Compile
import SchemaMigration.Result

/-!
# Before a query runs

What an SQLite backend checks of a compiled query before any of its statements runs. A query on rows
takes one statement, and so do the questions whether a collection exists and which there are. A
description takes three statements and a collection. A structural query takes any number; without
statements it is carried out at once.

Model of `single` and of the checks that `run_on` makes.

Out of scope: binding parameters, running statements, and the transaction around several of them.
-/

namespace SchemaMigration.Catalog

/-- What a compiled query asks of the database. -/
inductive Task where
  /-- One statement is run. -/
  | statement (s : Statement)
  /-- Three listings are read for the description of a collection. -/
  | description (c : CollectionRef) (columns indexes table : Statement)
  /-- Statements are run one after the other. -/
  | sequence (ss : List Statement)

/-- The only statement of a compiled query. -/
def single (q : CompiledQuery) : Except Error Task :=
  match q.statements with
  | [s] => .ok (.statement s)
  | ss => .error (.decode (.statementCount q.kind ss.length))

/-- What a compiled query asks of the database, or why it cannot be run (`run_on`). -/
def taskOf (q : CompiledQuery) : Except Error Task :=
  match q.kind with
  | .createCollection | .alterCollection | .dropCollection => .ok (.sequence q.statements)
  | .describeCollection =>
    match q.collection with
    | none => .error (.decode .describeWithoutCollection)
    | some c =>
      match q.statements with
      | [columns, indexes, table] => .ok (.description c columns indexes table)
      | _ => .error (.decode .describeCount)
  | _ => single q

/-- The result of a compiled query that needs no statement to be run, if it is one. -/
def immediate? (q : CompiledQuery) : Except Error (Option QueryResult) := do
  let task ← taskOf q
  match task with
  | .sequence [] => return some (.acknowledged true)
  | _ => return none

end SchemaMigration.Catalog
