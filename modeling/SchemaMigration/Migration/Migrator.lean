import SchemaMigration.Backend
import SchemaMigration.Chooser

/-!
# Migrators

A migrator brings a backend in line with a declared schema and asks a chooser where data is at
stake. What it does happens in a `Situation`: the states of the backend and of the chooser, and the
compiled queries that were handed to the backend so far. A failure keeps the situation in which it
happened.

Model of `Migrator` and its `ask`.
-/

namespace SchemaMigration

/-- The state of a migration. -/
structure Situation (σ κ : Type) where
  /-- The state of the backend. -/
  backend : σ
  /-- The state of the chooser. -/
  chooser : κ
  /-- The compiled queries that the backend was handed, in order. -/
  runs : List CompiledQuery

/-- A part of a migration: it changes the situation, and gives a value or fails. -/
abbrev Action (σ κ α : Type) := ExceptT MigrationError (StateM (Situation σ κ)) α

/-- What brings a backend in line with a schema. -/
structure Migrator (σ κ : Type) where
  /-- The backend. -/
  backend : Backend σ
  /-- Who decides where data is at stake. -/
  chooser : Chooser κ
  /-- The locales, where those of the schema are not to count. -/
  locales : Option (List String)
  /-- Queries that change anything are shown and not run. -/
  dryRun : Bool

namespace Migrator

variable {σ κ : Type}

/-- An action that only gives a result. -/
def lift {α : Type} (a : Except Error α) : Action σ κ α :=
  match a with
  | .ok a => pure a
  | .error e => throw (.query e)

/-- An action that only gives the result of a construction. -/
def liftMisuse {α : Type} (a : Except Misuse α) : Action σ κ α :=
  lift (a.mapError .construction)

/-- Hands a compiled query to the backend. -/
def run (m : Migrator σ κ) (q : CompiledQuery) : Action σ κ QueryResult :=
  ExceptT.mk fun (s : Situation σ κ) =>
    let (answer, backend) := m.backend.run q s.backend
    (answer.mapError .query, ⟨backend, s.chooser, s.runs ++ [q]⟩)

/-- Compiles a query without variables and runs it. A query that does not compile is not run. -/
def execute (m : Migrator σ κ) (q : Query) : Action σ κ QueryResult := do
  let compiled ← lift (q.compile m.backend.dialect [])
  m.run compiled

/-- Puts a prompt to the chooser. -/
def put (m : Migrator σ κ) (prompt : String) (choices : List Choice) : Action σ κ (Option String) :=
  ExceptT.mk fun (s : Situation σ κ) =>
    let (answer, chooser) := m.chooser.choose prompt choices s.chooser
    (answer, ⟨s.backend, chooser, s.runs⟩)

/-- The key that a prompt about a collection is answered with. Declining aborts, and so does an
answer that is not on offer. -/
def ask (m : Migrator σ κ) (c : CollectionRef) (prompt : String) (choices : List Choice) :
    Action σ κ String := do
  let answer ← m.put prompt choices
  match answer with
  | none => throw (.aborted c.identity prompt)
  | some key => if offers choices key then return key else throw (.invalidChoice key)

end Migrator

end SchemaMigration
