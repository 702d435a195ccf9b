import SchemaMigration.Description.Expand
import SchemaMigration.Description.Live
import SchemaMigration.Diff
import SchemaMigration.Migration.Migrator

/-!
# Planning

Every declared collection is compared with what the backend has of it, in declared order. Only
queries that inspect are run.

Model of `read_schema`, `describe_live`, `plan_collection` and `plan`.

Out of scope: opening a schema file; its bytes are given.
-/

namespace SchemaMigration

/-- A schema file's text, decoded and with its locales checked. -/
def LogicalSchema.ofText (text : String) : Except MigrationError LogicalSchema := do
  let schema ← (LogicalSchema.decode text).mapError .unreadable
  (Locale.checkAll schema.locales).mapError fun m => .query (.construction m)
  return schema

/-- A schema file's bytes, decoded and with its locales checked (`read_schema`). -/
def LogicalSchema.ofBytes (bytes : List UInt8) : Except MigrationError LogicalSchema :=
  match String.fromUTF8? ⟨bytes.toArray⟩ with
  | some text => LogicalSchema.ofText text
  | none => .error (.io "stream did not contain valid UTF-8")

namespace Migrator

variable {σ κ : Type}

/-- The description of a collection as the backend has it, if it has it (`describe_live`). -/
def describeLive (m : Migrator σ κ) (c : CollectionRef) (locales : List String) :
    Action σ κ (Option Description) := do
  let answer ← m.execute (.collectionExists c)
  let found ← lift answer.existence?
  if found then
    let answer ← m.execute (.describeCollection c)
    let live ← lift answer.description
    return some (Description.ofLive live locales)
  else return none

/-- The operations that bring a collection in line with its declaration (`plan_collection`). -/
def planCollection (m : Migrator σ κ) (locales : List String) (s : CollectionSchema) :
    Action σ κ (List DiffOperation) := do
  let declared ← liftMisuse (Description.ofSchema s locales)
  let live ← m.describeLive s.collection locales
  return declared.diff live m.backend.dialect.compareTypes

/-- The operations for several collections, in their order. -/
def planAll (m : Migrator σ κ) (locales : List String) :
    List CollectionSchema → Action σ κ (List DiffOperation)
  | [] => return []
  | s :: r => do
    let first ← m.planCollection locales s
    let rest ← m.planAll locales r
    return first ++ rest

/-- The operations that bring the backend in line with a schema. -/
def plan (m : Migrator σ κ) (schema : LogicalSchema) : Action σ κ (List DiffOperation) :=
  m.planAll (m.locales.getD schema.locales) schema.collections

end Migrator

end SchemaMigration
