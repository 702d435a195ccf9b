import SchemaMigration.Migration.Batch
import SchemaMigration.Migration.Plan

/-!
# Migrating

A migration plans, batches, compiles and then dispatches. Nothing that changes the backend is run
before every decision is made and every query compiles, and nothing at all in a dry run.

Model of `dispatch`, `sql_for` and `migrate`.

* Dispatching runs every query, whatever the others do. One failure stands for itself, several are
  reported together in the order of their queries.

Out of scope: the queries of a migration are dispatched at the same time, and a backend that works
on several of them may mix their steps; here each query is run by itself, in order. What is logged
on the way is left out.
-/

namespace SchemaMigration

/-- What a migration did. -/
structure MigrationReport where
  /-- The planned operations. -/
  operations : List DiffOperation
  /-- The batched queries. -/
  queries : List Query
  /-- The texts of their statements, in order. -/
  sql : List String
  /-- How many queries were run. -/
  applied : Nat

namespace MigrationReport

/-- The report of a migration that had nothing to do. -/
def empty : MigrationReport := ⟨[], [], [], 0⟩

/-- The backend was in line with the schema already. -/
def isEmpty (r : MigrationReport) : Bool :=
  r.operations.isEmpty

end MigrationReport

namespace Migrator

variable {σ κ : Type}

/-- The texts of the statements that queries compile to, in order (`sql_for`). -/
def sqlFor (m : Migrator σ κ) : List Query → Except Error (List String)
  | [] => .ok []
  | q :: r => do
    let compiled ← q.compile m.backend.dialect []
    let rest ← m.sqlFor r
    return compiled.sql ++ rest

/-- Runs a query and keeps its failure. -/
def attempt (m : Migrator σ κ) (q : Query) : Action σ κ (Option MigrationError) :=
  ExceptT.mk do
    let answer ← (m.execute q).run
    return match answer with
      | .ok _ => .ok none
      | .error e => .ok (some e)

/-- Runs every query and keeps the failures, in order. -/
def attemptAll (m : Migrator σ κ) : List Query → Action σ κ (List MigrationError)
  | [] => return []
  | q :: r => do
    let failure ← m.attempt q
    let rest ← m.attemptAll r
    return failure.toList ++ rest

/-- Runs every query, and gives their number if none fails. -/
def dispatch (m : Migrator σ κ) (queries : List Query) : Action σ κ Nat := do
  let failures ← m.attemptAll queries
  match MigrationError.ofFailures? failures with
  | none => return queries.length
  | some e => throw e

/-- Brings the backend in line with a schema. -/
def migrate (m : Migrator σ κ) (schema : LogicalSchema) : Action σ κ MigrationReport := do
  let operations ← m.plan schema
  if operations.isEmpty then return .empty
  else
    let queries ← m.batch operations
    let sql ← lift (m.sqlFor queries)
    if m.dryRun then return ⟨operations, queries, sql, 0⟩
    else
      let applied ← m.dispatch queries
      return ⟨operations, queries, sql, applied⟩

end Migrator

end SchemaMigration
