import SchemaMigration.Query.Create

/-!
# Altering collections

A query that changes the structure of a collection, in steps that are applied in order. A renaming
changes the collection that the later steps apply to.

Model of `AlterOperation` and `AlterCollection`.
-/

namespace SchemaMigration

/-- One step of an alteration (`AlterOperation`). -/
inductive AlterStep where
  /-- Adds a column, filled from an existing one if one is named. -/
  | addColumn (column : Column) (source : Option String)
  /-- Renames and retypes a column, keeping its data. -/
  | alterColumn (source : String) (column : Column)
  /-- Removes a column. -/
  | dropColumn (name : String)
  /-- Adds an index. -/
  | addIndex (index : Index)
  /-- Removes an index. -/
  | dropIndex (name : String)
  /-- Renames the collection. -/
  | rename (target : CollectionRef)
deriving DecidableEq, BEq

namespace AlterStep

/-- The first thing wrong with a step. -/
def misuse? : AlterStep → Option Misuse
  | .addColumn column source =>
    match column.misuse? with
    | some m => some m
    | none => source.bind Identifier.misuse?
  | .alterColumn source column =>
    match Identifier.misuse? source with
    | some m => some m
    | none => column.misuse?
  | .dropColumn name => Identifier.misuse? name
  | .addIndex index => index.misuse?
  | .dropIndex name => Identifier.misuse? name
  | .rename _ => none

/-- Refuses a step that is not well formed (`validate`). -/
def check (step : AlterStep) : Except Misuse Unit :=
  match step.misuse? with
  | some m => .error m
  | none => .ok ()

/-- The collection that the steps after this one apply to. -/
def tableAfter (table : CollectionRef) : AlterStep → CollectionRef
  | .rename target => target
  | _ => table

end AlterStep

/-- A query that changes the structure of a collection. -/
structure AlterCollection where
  /-- The changed collection. -/
  collection : CollectionRef
  /-- The steps, in order. -/
  steps : List AlterStep
deriving DecidableEq, BEq

namespace AlterCollection

/-- The alteration without steps (`new`). -/
def of (collection : CollectionRef) : AlterCollection := ⟨collection, []⟩

/-- The alteration with a further well-formed step (`push`). -/
def step (q : AlterCollection) (s : AlterStep) : Except Misuse AlterCollection := do
  s.check
  return { q with steps := q.steps ++ [s] }

/-- The alteration with further well-formed steps, in order. -/
def stepAll (q : AlterCollection) : List AlterStep → Except Misuse AlterCollection
  | [] => .ok q
  | s :: rest => do
    let q ← q.step s
    q.stepAll rest

/-- The alteration changes nothing (`is_empty`). -/
def isEmpty (q : AlterCollection) : Bool :=
  q.steps.isEmpty

end AlterCollection

/-! ## JSON -/

/-- The JSON of a step, tagged by its operation. -/
def AlterStep.toJson : AlterStep → Json
  | .addColumn column source =>
    .object [("op", .text "add_column"), ("column", column.toJson),
      ("copy_from", (source.map Json.text).getD .null)]
  | .alterColumn source column =>
    .object [("op", .text "alter_column"), ("from", .text source), ("column", column.toJson)]
  | .dropColumn name => .object [("op", .text "drop_column"), ("name", .text name)]
  | .addIndex index => .object [("op", .text "add_index"), ("index", index.toJson)]
  | .dropIndex name => .object [("op", .text "drop_index"), ("name", .text name)]
  | .rename target => .object [("op", .text "rename"), ("to", target.toJson)]

/-- The step of a tagged record. -/
def AlterStep.ofTagged (op : String) (rest : Json) : Read AlterStep :=
  if op = "add_column" then
    Record.read ["column", "copy_from"] (fun r =>
      AlterStep.addColumn <$> r.required "column" (Column.ofJson .held)
        <*> r.optional "copy_from" Json.readText) rest
  else if op = "alter_column" then
    Record.read ["from", "column"] (fun r =>
      AlterStep.alterColumn <$> r.required "from" Json.readText
        <*> r.required "column" (Column.ofJson .held)) rest
  else if op = "drop_column" then
    Record.read ["name"] (fun r => AlterStep.dropColumn <$> r.required "name" Json.readText) rest
  else if op = "add_index" then
    Record.read ["index"] (fun r =>
      AlterStep.addIndex <$> r.required "index" (Index.ofJson .held)) rest
  else if op = "drop_index" then
    Record.read ["name"] (fun r => AlterStep.dropIndex <$> r.required "name" Json.readText) rest
  else if op = "rename" then
    Record.read ["to"] (fun r => AlterStep.rename <$> r.required "to" CollectionRef.ofJson) rest
  else .error .malformed

/-- The step of a JSON value, unchecked. -/
def AlterStep.ofJson (j : Json) : Read AlterStep := do
  Json.requireData j
  let (op, rest) ← Record.splitTag "op" Json.readText j
  AlterStep.ofTagged op rest

/-- The JSON of an alteration. -/
def AlterCollection.toJson (q : AlterCollection) : Json :=
  .object [("collection", q.collection.toJson),
    ("operations", .array (q.steps.map AlterStep.toJson))]

/-- The alteration of a JSON value; its steps are not checked. -/
def AlterCollection.ofJson : Json → Read AlterCollection :=
  Record.read ["collection", "operations"] fun r =>
    AlterCollection.mk <$> r.required "collection" CollectionRef.ofJson
      <*> r.required "operations" (Json.readList AlterStep.ofJson)

end SchemaMigration
