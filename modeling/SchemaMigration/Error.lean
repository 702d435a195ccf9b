import SchemaMigration.Collection
import SchemaMigration.Dialect
import SchemaMigration.Query.Kind

/-!
# Errors of queries

Why a query cannot be built, compiled or run, or why its result cannot be understood. Each reason is
a value; `Error.message` words it.

Model of `Error`, with the calls that make up its texts.

Out of scope: the errors of a database itself, which are kept as texts.
-/

namespace SchemaMigration

/-- What a backend cannot do. Collections are named by their identity. -/
inductive Unsupported where
  /-- A column counts up that is not alone in the primary key. -/
  | autoIncrementOutsideKey (column : String)
  /-- A primary key is added to a collection that exists. -/
  | addPrimary (collection : String)
  /-- The primary key of a collection that exists is dropped. -/
  | dropPrimary (collection : String)
  /-- An operation given in words. -/
  | stated (text : String)
deriving DecidableEq

/-- The operation in words. -/
def Unsupported.message : Unsupported → String
  | .autoIncrementOutsideKey n =>
    "auto-increment column '" ++ n ++ "' outside a single-column primary key"
  | .addPrimary c => "adding a primary key to existing collection " ++ c
  | .dropPrimary c => "dropping the primary key of existing collection " ++ c
  | .stated text => text

/-- Why a backend's answer cannot be understood. -/
inductive DecodeFault where
  /-- The result is of another kind; `got` shows it. -/
  | unexpectedResult (expected got : String)
  /-- The catalog has no such collection. -/
  | missingCollection (collection : String)
  /-- A column has a type that stands for no logical type. -/
  | unsupportedType (collection column type : String)
  /-- A query that takes one statement has another number of them. -/
  | statementCount (kind : QueryKind) (count : Nat)
  /-- A description is asked for of no collection. -/
  | describeWithoutCollection
  /-- A description takes another number of statements. -/
  | describeCount
  /-- A reason given in words. -/
  | stated (text : String)
deriving DecidableEq

/-- The reason in words. -/
def DecodeFault.message : DecodeFault → String
  | .unexpectedResult expected got => "expected " ++ expected ++ " result, got " ++ got
  | .missingCollection c => "collection " ++ c ++ " does not exist"
  | .unsupportedType c n t => "column " ++ c ++ "." ++ n ++ " has unsupported type '" ++ t ++ "'"
  | .statementCount kind n =>
    kind.label ++ " compiled to " ++ Decimal.showNat n ++ " statements, expected one"
  | .describeWithoutCollection => "describe without a collection"
  | .describeCount => "describe compiled to an unexpected statement count"
  | .stated text => text

/-- Why a query fails. -/
inductive Error where
  /-- The query is built from invalid parts. -/
  | construction (misuse : Misuse)
  /-- The backend cannot express the query. -/
  | unsupported (dialect : Dialect) (operation : Unsupported)
  /-- The query names a variable that has no value. -/
  | unresolvedVariable (name : String)
  /-- The backend cannot be reached. -/
  | connection (url source : String)
  /-- A transaction could not be begun, committed or rolled back. -/
  | transaction (source : String)
  /-- The backend fails a statement. -/
  | execution (kind : QueryKind) (collection : Option CollectionRef) (source : String)
  /-- The backend's answer cannot be understood. -/
  | decode (fault : DecodeFault)

namespace Error

/-- The reason in words. -/
def message : Error → String
  | .construction m => "Invalid query construction: " ++ m.message
  | .unsupported d op =>
    "Operation '" ++ op.message ++ "' is not supported by the " ++ d.name ++ " backend"
  | .unresolvedVariable name => "Unresolved variable: " ++ name
  | .connection url source => "Failed to connect to '" ++ url ++ "': " ++ source
  | .transaction source => "Transaction failed: " ++ source
  | .execution kind c source =>
    kind.label ++ " on " ++ (c.map CollectionRef.identity).getD "<none>" ++ " failed: " ++ source
  | .decode fault => "Failed to decode backend result: " ++ fault.message

/-- Another backend might accept the query (`is_unsupported`). -/
def isUnsupported : Error → Bool
  | .unsupported _ _ => true
  | _ => false

end Error

end SchemaMigration
