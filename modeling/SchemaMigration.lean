import SchemaMigration.Backend
import SchemaMigration.Backend.Snapshot
import SchemaMigration.Catalog.Autoincrement
import SchemaMigration.Catalog.Describe
import SchemaMigration.Catalog.Row
import SchemaMigration.Catalog.Run
import SchemaMigration.Chooser
import SchemaMigration.Chooser.Operator
import SchemaMigration.Chooser.Terminal
import SchemaMigration.Collection
import SchemaMigration.Collection.Json
import SchemaMigration.Column
import SchemaMigration.ColumnType
import SchemaMigration.Compile
import SchemaMigration.Description
import SchemaMigration.Description.Collapse
import SchemaMigration.Description.Expand
import SchemaMigration.Description.Live
import SchemaMigration.Dialect
import SchemaMigration.Dialect.TypeName
import SchemaMigration.Diff
import SchemaMigration.Error
import SchemaMigration.Identifier
import SchemaMigration.Index
import SchemaMigration.IndexKind
import SchemaMigration.Json.Basic
import SchemaMigration.Json.Number
import SchemaMigration.Json.Reader
import SchemaMigration.Json.Record
import SchemaMigration.Json.Writer
import SchemaMigration.Locale
import SchemaMigration.Migration.Batch
import SchemaMigration.Migration.Error
import SchemaMigration.Migration.Migrate
import SchemaMigration.Migration.Migrator
import SchemaMigration.Migration.Plan
import SchemaMigration.Misuse
import SchemaMigration.Number.Binary64
import SchemaMigration.Number.Decimal
import SchemaMigration.Number.Extended
import SchemaMigration.Number.Power
import SchemaMigration.Number.Shortest
import SchemaMigration.Predicate
import SchemaMigration.Proofs.Catalog.Attribution
import SchemaMigration.Proofs.Catalog.Autoincrement
import SchemaMigration.Proofs.Catalog.Counting
import SchemaMigration.Proofs.Catalog.Created
import SchemaMigration.Proofs.Catalog.Definition
import SchemaMigration.Proofs.Catalog.Groups
import SchemaMigration.Proofs.Catalog.Handles
import SchemaMigration.Proofs.Catalog.Listing
import SchemaMigration.Proofs.Catalog.Reports
import SchemaMigration.Proofs.Checks
import SchemaMigration.Proofs.Chooser.Dialogue
import SchemaMigration.Proofs.Chooser.Verdict
import SchemaMigration.Proofs.Description.Creatable
import SchemaMigration.Proofs.Description.Expansion
import SchemaMigration.Proofs.Description.Folding
import SchemaMigration.Proofs.Description.Lossless
import SchemaMigration.Proofs.Description.Recognition
import SchemaMigration.Proofs.Description.Restoring
import SchemaMigration.Proofs.Description.Siblings
import SchemaMigration.Proofs.Description.Spreading
import SchemaMigration.Proofs.Dialect.Retyping
import SchemaMigration.Proofs.Dialect.TypeName
import SchemaMigration.Proofs.Diff.Changes
import SchemaMigration.Proofs.Diff.Convergence
import SchemaMigration.Proofs.Diff.Locales
import SchemaMigration.Proofs.Diff.Marks
import SchemaMigration.Proofs.Identity
import SchemaMigration.Proofs.Json.Conditions
import SchemaMigration.Proofs.Json.Definitions
import SchemaMigration.Proofs.Json.Queries
import SchemaMigration.Proofs.Json.Records
import SchemaMigration.Proofs.Json.Scalars
import SchemaMigration.Proofs.Json.Schemas
import SchemaMigration.Proofs.Json.Written
import SchemaMigration.Proofs.Keyed
import SchemaMigration.Proofs.Locale
import SchemaMigration.Proofs.Migration.Action
import SchemaMigration.Proofs.Migration.Alike
import SchemaMigration.Proofs.Migration.Alteration
import SchemaMigration.Proofs.Migration.Creation
import SchemaMigration.Proofs.Migration.Decisions
import SchemaMigration.Proofs.Migration.Dispatch
import SchemaMigration.Proofs.Migration.DryRun
import SchemaMigration.Proofs.Migration.Grouping
import SchemaMigration.Proofs.Migration.Interleaving
import SchemaMigration.Proofs.Migration.Prompts
import SchemaMigration.Proofs.Migration.Protection
import SchemaMigration.Proofs.Migration.Runs
import SchemaMigration.Proofs.Outcome
import SchemaMigration.Proofs.Query.Assigning
import SchemaMigration.Proofs.Query.Completeness
import SchemaMigration.Proofs.Query.Making
import SchemaMigration.Proofs.Query.Paging
import SchemaMigration.Proofs.Query.Rebuild
import SchemaMigration.Proofs.Query.Reloading
import SchemaMigration.Proofs.Query.Resolution
import SchemaMigration.Proofs.Statement.Agreement
import SchemaMigration.Proofs.Statement.Blanks
import SchemaMigration.Proofs.Statement.Clauses
import SchemaMigration.Proofs.Statement.ColumnText
import SchemaMigration.Proofs.Statement.Condition
import SchemaMigration.Proofs.Statement.Creation
import SchemaMigration.Proofs.Statement.IndexNames
import SchemaMigration.Proofs.Statement.IndexSpace
import SchemaMigration.Proofs.Statement.Lexemes
import SchemaMigration.Proofs.Statement.Meaning
import SchemaMigration.Proofs.Statement.Parameters
import SchemaMigration.Proofs.Statement.Placeholders
import SchemaMigration.Proofs.Statement.Precedence
import SchemaMigration.Proofs.Statement.Quoting
import SchemaMigration.Proofs.Statement.Scan
import SchemaMigration.Proofs.Statement.Separation
import SchemaMigration.Proofs.Statement.Sequence
import SchemaMigration.Proofs.Statement.Structural
import SchemaMigration.Proofs.Statement.TableText
import SchemaMigration.Proofs.Value.Bare
import SchemaMigration.Proofs.Value.Faithful
import SchemaMigration.Proofs.Value.Literal
import SchemaMigration.Query
import SchemaMigration.Query.Alter
import SchemaMigration.Query.Change
import SchemaMigration.Query.Create
import SchemaMigration.Query.Kind
import SchemaMigration.Query.Select
import SchemaMigration.Result
import SchemaMigration.Result.Shown
import SchemaMigration.Schema
import SchemaMigration.Statement.Catalog
import SchemaMigration.Statement.Piece
import SchemaMigration.Statement.Rows
import SchemaMigration.Statement.Structure
import SchemaMigration.Statement.Tables
import SchemaMigration.Text.Blank
import SchemaMigration.Text.CaseFold
import SchemaMigration.Text.Escaped
import SchemaMigration.Text.Quoted
import SchemaMigration.Text.Shown
import SchemaMigration.Text.Slice
import SchemaMigration.Text.Utf8
import SchemaMigration.Text.Word
import SchemaMigration.Value
import SchemaMigration.Value.Literal
