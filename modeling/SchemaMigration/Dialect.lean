import SchemaMigration.ColumnType
import SchemaMigration.Number.Decimal

/-!
# Dialects

The two SQL dialects that queries are written in. A dialect numbers its placeholders or not, and
may store several logical types alike.

Model of `SqliteDialect` and `PostgresDialect`, as far as they name themselves, number placeholders
and compare types.
-/

namespace SchemaMigration

/-- An SQL dialect. -/
inductive Dialect where
  | sqlite
  | postgres
deriving DecidableEq, Inhabited, Repr

namespace Dialect

/-- The name of a dialect. -/
def name : Dialect → String
  | .sqlite => "sqlite"
  | .postgres => "postgres"

/-- The placeholder of the parameter at a position, counted from one. -/
def placeholder : Dialect → Nat → String
  | .sqlite, _ => "?"
  | .postgres, n => "$" ++ Decimal.showNat n

/-- The backend stores both types alike: SQLite has one storage class for integers and one for
floats, PostgreSQL has no integers below 16 bits. -/
def storesAlike : Dialect → ColumnType → ColumnType → Bool
  | .sqlite, a, b => (a.isInteger && b.isInteger) || (a.isFloat && b.isFloat)
  | .postgres, a, b => (a == .int8 || a == .int16) && (b == .int8 || b == .int16)

/-- The relation of a target type to a stored type on the backend (`compare_types`). -/
def compareTypes (d : Dialect) (target stored : ColumnType) : Compatibility :=
  if d.storesAlike target stored then .full else ColumnType.compareTypes target stored

/-- On every backend a type relates to itself in every way. -/
theorem compareTypes_self (d : Dialect) (type : ColumnType) : d.compareTypes type type = .full := by
  simp [compareTypes, ColumnType.compareTypes_self]

end Dialect

end SchemaMigration
