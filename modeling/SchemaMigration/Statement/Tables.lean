import SchemaMigration.Query.Alter
import SchemaMigration.Statement.Structure

/-!
# Creating and altering tables

The structural statements of a creation and of an alteration.

Model of `compile_create`, `create_index` and `compile_alter`.

* A creation checks its columns and indexes once more. The primary key is part of a column clause
  where one counting column alone makes it up, and a clause of its own otherwise; every other index
  gets a statement of its own after the table.
* An alteration goes step by step. Each step is checked, and applies to the table as the renamings
  before it left it.
-/

namespace SchemaMigration

/-- The statement that creates an index other than the primary one (`create_index`). -/
def createIndex (table : CollectionRef) (index : Index) : Ddl :=
  .createIndex (decide (index.kind = .unique)) (indexName table index.name) table index.columns

/-- The first failure of a list of checks. -/
def checkAll {α : Type} (misuse? : α → Option Misuse) (items : List α) : Except Error Unit :=
  match items.findSome? misuse? with
  | some m => .error (.construction m)
  | none => .ok ()

namespace CreateCollection

/-- The column whose clause holds the primary key: the only field of the primary index, if it counts
up. -/
def keyColumn? (q : CreateCollection) : Option String :=
  match q.primaryIndex? with
  | some ⟨_, _, [only]⟩ =>
    (q.columns.find? fun c => c.name == only.field && c.autoIncrement).map Column.name
  | _ => none

/-- The column clauses, or the first that the dialect cannot write. -/
def clauses (d : Dialect) (key : Option String) : List Column → Except Error (List ColumnClause)
  | [] => .ok []
  | c :: r => do
    let clause ← d.columnClause c (decide (some c.name = key))
    let rest ← clauses d key r
    return clause :: rest

/-- The fields of the primary key where no column clause holds it. -/
def keyFields? (q : CreateCollection) : Option (List String) :=
  match q.keyColumn? with
  | some _ => none
  | none => q.primaryIndex?.map Index.fields

/-- The indexes that get a statement of their own. -/
def secondaryIndexes (q : CreateCollection) : List Index :=
  q.indexes.filter fun i => !i.isPrimary

/-- The statements of a creation (`compile_create`). -/
def ddl (d : Dialect) (q : CreateCollection) : Except Error (List Ddl) := do
  checkAll Column.misuse? q.columns
  checkAll Index.misuse? q.indexes
  if q.columns.isEmpty then .error (.construction (.createWithoutColumns q.collection.identity))
  else
    let columns ← clauses d q.keyColumn? q.columns
    return .createTable q.collection columns q.keyFields? ::
      q.secondaryIndexes.map (createIndex q.collection)

end CreateCollection

/-- The statements of one step on a table. -/
def AlterStep.ddl (d : Dialect) (table : CollectionRef) : AlterStep → Except Error (List Ddl)
  | .addColumn column source => do
    let add ← d.addColumn table column
    return add :: (source.map fun s => d.copyColumn table s column).toList
  | .alterColumn source column => d.alterColumn table source column
  | .dropColumn name => .ok [.dropColumn table name]
  | .addIndex index =>
    if index.isPrimary then (d.addPrimaryIndex table index).map fun s => [s]
    else .ok [createIndex table index]
  | .dropIndex name =>
    if name = primaryName then (d.dropPrimaryIndex table).map fun s => [s]
    else .ok [.dropIndex (indexName table name)]
  | .rename target => .ok [.renameTable table target]

namespace AlterCollection

/-- The statements of steps that start on a table. -/
def ddlOfSteps (d : Dialect) (table : CollectionRef) : List AlterStep → Except Error (List Ddl)
  | [] => .ok []
  | step :: rest => do
    step.check.mapError .construction
    let first ← step.ddl d table
    let more ← ddlOfSteps d (step.tableAfter table) rest
    return first ++ more

/-- The table after steps that start on a table. -/
def tableAfter (table : CollectionRef) (steps : List AlterStep) : CollectionRef :=
  steps.foldl AlterStep.tableAfter table

/-- The statements of an alteration (`compile_alter`). -/
def ddl (d : Dialect) (q : AlterCollection) : Except Error (List Ddl) :=
  ddlOfSteps d q.collection q.steps

end AlterCollection

end SchemaMigration
