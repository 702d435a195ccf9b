import SchemaMigration.Collection
import SchemaMigration.Statement.Piece

/-!
# Catalog statements

The statements that inspect a database: whether a table exists, what its columns and indexes are,
and which tables there are. The table's name is bound as a parameter.

Model of `collection_exists`, `describe_collection` and `show_collections` of both dialects.

* SQLite is asked for the columns, for the index keys and for the text of the table's definition.
* PostgreSQL is asked for the columns and for the index keys, by the quoted name of the table.
-/

namespace SchemaMigration.Dialect

/-- The statement that counts the tables of a name (`collection_exists`). -/
def existsStatement (d : Dialect) (c : CollectionRef) : Statement :=
  match d with
  | .sqlite =>
    ⟨"SELECT COUNT(*) AS count FROM sqlite_master WHERE type = 'table' AND name = ?",
      [.text c.identity]⟩
  | .postgres =>
    ⟨"SELECT COUNT(*) AS count FROM pg_catalog.pg_tables " ++
        "WHERE schemaname = current_schema() AND tablename = $1",
      [.text c.identity]⟩

/-- The columns of a table in SQLite. -/
def sqliteColumnsQuery : String :=
  "SELECT name, type, dflt_value, pk FROM pragma_table_info(?) ORDER BY cid"

/-- The index keys of a table in SQLite. -/
def sqliteIndexesQuery : String :=
  "SELECT m.name AS name, il.\"unique\" AS is_unique, il.origin AS origin, " ++
    "ix.name AS field, ix.\"desc\" AS descending " ++
    "FROM sqlite_master AS m " ++
    "JOIN pragma_index_list(m.tbl_name) AS il ON il.name = m.name " ++
    "JOIN pragma_index_xinfo(m.name) AS ix " ++
    "WHERE m.type = 'index' AND m.tbl_name = ? AND ix.\"key\" = 1 " ++
    "ORDER BY m.rowid, ix.seqno"

/-- The text of a table's definition in SQLite. -/
def sqliteDefinitionQuery : String :=
  "SELECT sql FROM sqlite_master WHERE type = 'table' AND name = ?"

/-- The columns of a table in PostgreSQL. -/
def postgresColumnsQuery : String :=
  "SELECT a.attname AS name, format_type(a.atttypid, a.atttypmod) AS type, " ++
    "pg_get_expr(d.adbin, d.adrelid) AS dflt_value, " ++
    "a.attidentity <> '' AS auto_increment " ++
    "FROM pg_attribute AS a " ++
    "LEFT JOIN pg_attrdef AS d ON d.adrelid = a.attrelid AND d.adnum = a.attnum " ++
    "WHERE a.attrelid = to_regclass($1) AND a.attnum > 0 AND NOT a.attisdropped " ++
    "ORDER BY a.attnum"

/-- The index keys of a table in PostgreSQL. -/
def postgresIndexesQuery : String :=
  "SELECT CASE WHEN x.indisprimary THEN 'primary' ELSE i.relname END AS name, " ++
    "x.indisunique AS is_unique, x.indisprimary AS is_primary, " ++
    "a.attname AS field, (x.indoption[k.ord - 1] & 1) = 1 AS descending " ++
    "FROM pg_index AS x " ++
    "JOIN pg_class AS i ON i.oid = x.indexrelid " ++
    "CROSS JOIN LATERAL unnest(x.indkey) WITH ORDINALITY AS k(attnum, ord) " ++
    "JOIN pg_attribute AS a ON a.attrelid = x.indrelid AND a.attnum = k.attnum " ++
    "WHERE x.indrelid = to_regclass($1) " ++
    "ORDER BY i.oid, k.ord"

/-- The statements that describe a table (`describe_collection`). -/
def describeStatements (d : Dialect) (c : CollectionRef) : List Statement :=
  match d with
  | .sqlite =>
    [sqliteColumnsQuery, sqliteIndexesQuery, sqliteDefinitionQuery].map fun sql =>
      ⟨sql, [.text c.identity]⟩
  | .postgres =>
    [postgresColumnsQuery, postgresIndexesQuery].map fun sql =>
      ⟨sql, [.text (quoteName c.identity)]⟩

/-- The statement that lists the tables (`show_collections`). -/
def listStatement : Dialect → Statement
  | .sqlite =>
    ⟨"SELECT name FROM sqlite_master WHERE type = 'table' AND name NOT LIKE 'sqlite_%'", []⟩
  | .postgres =>
    ⟨"SELECT tablename AS name FROM pg_catalog.pg_tables " ++
        "WHERE schemaname = current_schema() ORDER BY tablename", []⟩

end SchemaMigration.Dialect
