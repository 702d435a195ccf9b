/-!
# Kinds and directions of indexes

An index is the primary key, a unique index or a plain one; every field of it, and every term of a
sort, ascends or descends.

Model of `IndexType` and `Direction`.
-/

namespace SchemaMigration

/-- The kind of an index (`IndexType`). -/
inductive IndexKind where
  | primary
  | unique
  | plain
deriving DecidableEq, Inhabited, Repr

/-- The name of an index kind in schema files and messages. -/
def IndexKind.name : IndexKind → String
  | .primary => "primary"
  | .unique => "unique"
  | .plain => "index"

/-- Names paired with their kinds. -/
def IndexKind.names : List (String × IndexKind) :=
  [.primary, .unique, .plain].map fun kind => (kind.name, kind)

/-- The direction of an index field or of a sort term. -/
inductive Direction where
  | ascending
  | descending
deriving DecidableEq, Inhabited, Repr

/-- The SQL keyword of a direction (`as_sql`). -/
def Direction.keyword : Direction → String
  | .ascending => "ASC"
  | .descending => "DESC"

/-- The name of a direction in schema files. -/
def Direction.name : Direction → String
  | .ascending => "asc"
  | .descending => "desc"

/-- Names paired with their directions. -/
def Direction.names : List (String × Direction) :=
  [.ascending, .descending].map fun direction => (direction.name, direction)

end SchemaMigration
