import SchemaMigration.Diff
import SchemaMigration.Migration.Migrator
import SchemaMigration.Query

/-!
# Batching

The operations of a plan are decided one after the other, with a prompt for every dropped column and
for every added column that could be filled from another one. What was decided is then grouped by
collection, in the order in which the collections first occur, and every group becomes a creation,
an alteration, or both.

Model of `batch`, with the decisions of `copy_decision` and `confirm_drop` and the grouping of
`group_for`, `Changes` and `into_alter`.

* Inside an alteration indexes are dropped first and added last, so that no column changes while an
  index declared over it is there: drop indexes, add columns, alter columns, drop columns, add
  indexes.
* A declared index that covers a retyped column is dropped and added again.
* `Decision`s of one collection determine its queries; the other collections have no say.
-/

namespace SchemaMigration

/-- What was decided about an operation. -/
inductive Decision where
  /-- The collection is created. -/
  | create (q : CreateCollection)
  /-- A column is added, filled from another one if one is named. -/
  | addColumn (column : Column) (source : Option String)
  /-- A column is dropped. -/
  | dropColumn (name : String)
  /-- A column is retyped; the declared indexes that cover it are built again. -/
  | alterColumn (source : String) (column : Column) (rebuilt : List Index)
  /-- An index is added. -/
  | addIndex (index : Index)
  /-- An index is dropped. -/
  | dropIndex (name : String)
deriving DecidableEq

namespace Description

/-- The declared indexes that cover a column, except the primary one. -/
def indexesOver (d : Description) (column : String) : List Index :=
  ((d.indexes.map IndexDescription.index).filter fun i => !i.isPrimary).filter fun i =>
    i.covers column

end Description

/-! ## Deciding -/

/-- The key that leaves a new column empty (`LEAVE_EMPTY`). -/
def leaveEmptyKey : String := "-"

/-- The key that agrees to a drop (`DROP`). -/
def dropKey : String := "drop"

/-- The key that declines a drop (`ABORT`). -/
def abortKey : String := "abort"

/-- The choices for filling a new column (`copy_decision`). -/
def copyChoices (candidates : List String) : List Choice :=
  ⟨leaveEmptyKey, "leave empty"⟩ :: candidates.map fun c => ⟨c, "copy from " ++ c⟩

/-- The choices for a drop (`confirm_drop`). -/
def dropChoices : List Choice :=
  [⟨dropKey, "drop the column and its data"⟩, ⟨abortKey, "abort the migration"⟩]

/-- The prompt and the choices that an operation is put with, if it needs a decision. -/
def DiffOperation.prompt? (op : DiffOperation) : Option (String × List Choice) :=
  match op.change with
  | .addColumn _ candidates =>
    if candidates.isEmpty then none
    else some (op.text ++ ": seed it from an existing column?", copyChoices candidates)
  | .dropColumn _ => some (op.text ++ ": its data will be lost.", dropChoices)
  | _ => none

namespace Migrator

variable {σ κ : Type}

/-- The answer to the prompt of an operation, if it has one. -/
def consult (m : Migrator σ κ) (op : DiffOperation) : Action σ κ (Option String) :=
  match op.prompt? with
  | none => return none
  | some (prompt, choices) => do
    let key ← m.ask op.collection prompt choices
    return some key

/-- The decision about an operation, given the answer to its prompt. -/
def settle (op : DiffOperation) (answer : Option String) : Except MigrationError Decision :=
  match op.change with
  | .addCollection =>
    (op.schema.toCreate.map .create).mapError fun m => .query (.construction m)
  | .addColumn column _ => .ok (.addColumn column.column (answer.filter fun k => k != leaveEmptyKey))
  | .dropColumn column =>
    if answer = some abortKey then
      .error (.aborted op.collection.identity ((op.prompt?.map Prod.fst).getD ""))
    else .ok (.dropColumn column.handle)
  | .alterColumn declared live =>
    .ok (.alterColumn live.handle declared.column (op.schema.indexesOver declared.handle))
  | .addIndex index => .ok (.addIndex index.index)
  | .dropIndex index => .ok (.dropIndex index.handle)

/-- The decision about an operation. -/
def decide (m : Migrator σ κ) (op : DiffOperation) : Action σ κ Decision := do
  let answer ← m.consult op
  match settle op answer with
  | .ok d => return d
  | .error e => throw e

/-- The decisions about several operations, each with its collection. -/
def decideAll (m : Migrator σ κ) :
    List DiffOperation → Action σ κ (List (CollectionRef × Decision))
  | [] => return []
  | op :: r => do
    let d ← m.decide op
    let rest ← m.decideAll r
    return (op.collection, d) :: rest

end Migrator

/-! ## Grouping -/

namespace Decision

/-- The created collection. -/
def creation? : Decision → Option CreateCollection
  | .create q => some q
  | _ => none

/-- The added column, as a step. -/
def addColumn? : Decision → Option AlterStep
  | .addColumn column source => some (.addColumn column source)
  | _ => none

/-- The retyped column, as a step. -/
def alterColumn? : Decision → Option AlterStep
  | .alterColumn source column _ => some (.alterColumn source column)
  | _ => none

/-- The dropped column, as a step. -/
def dropColumn? : Decision → Option AlterStep
  | .dropColumn name => some (.dropColumn name)
  | _ => none

/-- The added index. -/
def addIndex? : Decision → Option Index
  | .addIndex index => some index
  | _ => none

/-- The dropped index. -/
def dropIndex? : Decision → Option String
  | .dropIndex name => some name
  | _ => none

/-- The indexes to build again. -/
def rebuilt : Decision → List Index
  | .alterColumn _ _ indexes => indexes
  | _ => []

end Decision

/-- The indexes that an alteration drops and adds. -/
structure IndexPlan where
  /-- The dropped indexes. -/
  drops : List String
  /-- The added indexes. -/
  adds : List Index

/-- The plan with an index built again. An index that is added anyway is left alone, and one that is
dropped anyway is dropped once. -/
def IndexPlan.rebuild (p : IndexPlan) (index : Index) : IndexPlan :=
  if p.adds.any fun i => i.name == index.name then p
  else
    { drops := if p.drops.contains index.name then p.drops else p.drops ++ [index.name]
      adds := p.adds ++ [index] }

/-- The indexes that decisions drop, add and build again. -/
def indexPlan (ds : List Decision) : IndexPlan :=
  (ds.flatMap Decision.rebuilt).foldl IndexPlan.rebuild
    ⟨ds.filterMap Decision.dropIndex?, ds.filterMap Decision.addIndex?⟩

/-- The steps of the alteration that decisions about one collection make up (`into_alter`). -/
def alterSteps (ds : List Decision) : List AlterStep :=
  let indexes := indexPlan ds
  indexes.drops.map .dropIndex ++ ds.filterMap Decision.addColumn? ++
    ds.filterMap Decision.alterColumn? ++ ds.filterMap Decision.dropColumn? ++
    indexes.adds.map .addIndex

/-- The queries that decisions about one collection make up. -/
def queriesOf (c : CollectionRef) (ds : List Decision) : Except Misuse (List Query) := do
  let creation := ((ds.filterMap Decision.creation?).getLast?).toList
  let alter ← (AlterCollection.of c).stepAll (alterSteps ds)
  return creation.map .createCollection ++ if alter.isEmpty then [] else [.alterCollection alter]

/-- The decisions about one collection, in order. -/
def decisionsOn (c : CollectionRef) (ds : List (CollectionRef × Decision)) : List Decision :=
  (ds.filter fun d => d.1 = c).map Prod.snd

/-- The collections of decisions, each once, in the order of their first decision (`group_for`). -/
def collectionsOf (ds : List (CollectionRef × Decision)) : List CollectionRef :=
  (ds.map Prod.fst).eraseDups

/-- The queries for every one of the collections, in their order. -/
def groupQueries (ds : List (CollectionRef × Decision)) :
    List CollectionRef → Except Misuse (List Query)
  | [] => .ok []
  | c :: r => do
    let first ← queriesOf c (decisionsOn c ds)
    let rest ← groupQueries ds r
    return first ++ rest

namespace Migrator

variable {σ κ : Type}

/-- The queries that carry out operations, after every decision about them. -/
def batch (m : Migrator σ κ) (ops : List DiffOperation) : Action σ κ (List Query) := do
  let decisions ← m.decideAll ops
  liftMisuse (groupQueries decisions (collectionsOf decisions))

end Migrator

end SchemaMigration
