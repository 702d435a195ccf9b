import SchemaMigration.Query.Select

/-!
# Inserts, updates and deletes

The queries that change rows. Inserts and updates assign operands to fields.

Model of `Assignments`, `Insert`, `Update` and `Delete`.

* Assignments keep the order in which fields were first assigned; assigning a field again replaces
  its operand in place.
* A condition on an update or a delete is added to the one that is there.
-/

namespace SchemaMigration

/-- Fields with the operands assigned to them, in order. -/
abbrev Assignments := List (String × Operand)

/-- The assignments with one more; a field that is there keeps its place. -/
def Assignments.put (field : String) (operand : Operand) : Assignments → Assignments
  | [] => [(field, operand)]
  | entry :: rest =>
    if entry.1 = field then (field, operand) :: rest
    else entry :: Assignments.put field operand rest

/-- The assignments with one more to a well-formed field (`with`). -/
def Assignments.set (a : Assignments) (field : String) (operand : Operand) :
    Except Misuse Assignments := do
  Identifier.check field
  return Assignments.put field operand a

/-- A query that adds a row. -/
structure Insert where
  /-- The collection that gets the row. -/
  collection : CollectionRef
  /-- The fields of the row. -/
  values : Assignments
deriving BEq

/-- A query that changes rows. -/
structure Update where
  /-- The changed collection. -/
  collection : CollectionRef
  /-- The new values. -/
  values : Assignments
  /-- The condition on the rows; every row where there is none. -/
  predicate : Option Predicate
deriving BEq

/-- A query that removes rows. -/
structure Delete where
  /-- The collection that loses rows. -/
  collection : CollectionRef
  /-- The condition on the rows; every row where there is none. -/
  predicate : Option Predicate
deriving BEq

/-- The insert of a row without fields. -/
def Insert.into (collection : CollectionRef) : Insert := ⟨collection, []⟩

/-- The insert with a field assigned. -/
def Insert.set (q : Insert) (field : String) (operand : Operand) : Except Misuse Insert := do
  let values ← Assignments.set q.values field operand
  return { q with values := values }

/-- The update that assigns nothing (`table`). -/
def Update.of (collection : CollectionRef) : Update := ⟨collection, [], none⟩

/-- The update with a field assigned. -/
def Update.set (q : Update) (field : String) (operand : Operand) : Except Misuse Update := do
  let values ← Assignments.set q.values field operand
  return { q with values := values }

/-- The update under this condition too (`where_clause`). -/
def Update.alsoMatching (q : Update) (p : Predicate) : Except Misuse Update := do
  p.check
  return { q with predicate := some (Predicate.combine q.predicate p) }

/-- The delete of every row (`from`). -/
def Delete.of (collection : CollectionRef) : Delete := ⟨collection, none⟩

/-- The delete under this condition too (`where_clause`). -/
def Delete.alsoMatching (q : Delete) (p : Predicate) : Except Misuse Delete := do
  p.check
  return { q with predicate := some (Predicate.combine q.predicate p) }

/-! ## JSON -/

/-- The JSON of assignments: an array of pairs. -/
def Assignments.toJson (a : Assignments) : Json :=
  .array (a.map fun entry => .array [.text entry.1, entry.2.toJson])

/-- The assignments of a JSON value, unchecked. -/
def Assignments.ofJson : Json → Read Assignments :=
  Json.readList (Json.readPair Json.readText Operand.ofJson)

/-- The JSON of an insert. -/
def Insert.toJson (q : Insert) : Json :=
  .object [("collection", q.collection.toJson), ("values", Assignments.toJson q.values)]

/-- The insert of a JSON value. -/
def Insert.ofJson : Json → Read Insert :=
  Record.read ["collection", "values"] fun r =>
    Insert.mk <$> r.required "collection" CollectionRef.ofJson
      <*> r.required "values" Assignments.ofJson

/-- The JSON of an update. -/
def Update.toJson (q : Update) : Json :=
  .object [("collection", q.collection.toJson), ("values", Assignments.toJson q.values),
    ("predicate", Json.ofOption Predicate.toJson q.predicate)]

/-- The update of a JSON value. -/
def Update.ofJson : Json → Read Update :=
  Record.read ["collection", "values", "predicate"] fun r =>
    Update.mk <$> r.required "collection" CollectionRef.ofJson
      <*> r.required "values" Assignments.ofJson
      <*> r.optional "predicate" Predicate.ofJson

/-- The JSON of a delete. -/
def Delete.toJson (q : Delete) : Json :=
  .object [("collection", q.collection.toJson),
    ("predicate", Json.ofOption Predicate.toJson q.predicate)]

/-- The delete of a JSON value. -/
def Delete.ofJson : Json → Read Delete :=
  Record.read ["collection", "predicate"] fun r =>
    Delete.mk <$> r.required "collection" CollectionRef.ofJson
      <*> r.optional "predicate" Predicate.ofJson

end SchemaMigration
