import SchemaMigration.Compile
import SchemaMigration.Result.Shown

/-!
# Backends

A backend runs compiled queries. What it remembers from one query to the next is a state of which
nothing is assumed: the answers of a backend may depend on everything that it was asked before.

Model of `Driver`, as a function of what was compiled.

* `Backend.execute` compiles a query and runs it.
* `Backend.recording` remembers what was run.

Out of scope: `connect`, and the transactions that a driver begins, commits and rolls back
(`Transaction`).
-/

namespace SchemaMigration

/-- A backend with states of type `σ` (`Driver`). -/
structure Backend (σ : Type) where
  /-- The dialect of its SQL. -/
  dialect : Dialect
  /-- The answer to a compiled query, and the state after it. -/
  run : CompiledQuery → σ → Except Error QueryResult × σ

/-- The answer to a query whose variables have these values, and the state after it. A query that
does not compile never reaches the backend. -/
def Backend.execute {σ : Type} (b : Backend σ) (vars : Variables) (q : Query) (s : σ) :
    Except Error QueryResult × σ :=
  match q.compile b.dialect vars with
  | .ok compiled => b.run compiled s
  | .error e => (.error e, s)

/-- The same backend with a record of the compiled queries that it was handed, in order. -/
def Backend.recording {σ : Type} (b : Backend σ) : Backend (σ × List CompiledQuery) :=
  ⟨b.dialect, fun q s => ((b.run q s.1).1, ((b.run q s.1).2, s.2 ++ [q]))⟩

end SchemaMigration
