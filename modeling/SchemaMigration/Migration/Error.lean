import SchemaMigration.Error
import SchemaMigration.Json.Record
import SchemaMigration.Text.Slice

/-!
# Errors of migrations

Why a migration stops: a query fails, a step is declined, an answer was not on offer, the terminal
or a file cannot be read, or several queries fail at once.

Model of `MigrateError`.
-/

namespace SchemaMigration

/-- Why a migration stops (`MigrateError`). -/
inductive MigrationError where
  /-- A query cannot be built, compiled or run. -/
  | query (error : Error)
  /-- A step on a collection, named by its identity, was declined. -/
  | aborted (collection reason : String)
  /-- A prompt was answered with a key that it does not offer. -/
  | invalidChoice (key : String)
  /-- Input or output failed. -/
  | io (source : String)
  /-- A text could not be decoded. -/
  | unreadable (fault : ReadFault)
  /-- Several queries failed, in their order. -/
  | several (errors : List MigrationError)

namespace MigrationError

/-- The step was declined (`is_aborted`). -/
def isAborted : MigrationError → Bool
  | .aborted _ _ => true
  | _ => false

/-- The fault of a text in words. -/
def faultMessage : ReadFault → String
  | .malformed => "malformed document"
  | .refused m => Error.message (.construction m)

mutual

/-- The reason in words. -/
def message : MigrationError → String
  | .query e => "Query error: " ++ e.message
  | .aborted c reason => "Migration aborted on '" ++ c ++ "': " ++ reason
  | .invalidChoice key => "Invalid choice '" ++ key ++ "'"
  | .io source => "IO error: " ++ source
  | .unreadable fault => "Serialization error: " ++ faultMessage fault
  | .several errors => "Multiple errors occurred:\n" ++ Text.joinWith "\n" (lines errors)

/-- One line for every error. -/
def lines : List MigrationError → List String
  | [] => []
  | e :: r => ("  - " ++ message e) :: lines r

end

/-- What stands for a list of failures: one failure stands for itself. -/
def ofFailures? : List MigrationError → Option MigrationError
  | [] => none
  | [e] => some e
  | es => some (.several es)

end MigrationError

end SchemaMigration
