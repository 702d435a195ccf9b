import SchemaMigration.Collection.Json
import SchemaMigration.Predicate

/-!
# Selects

A select reads the rows of one collection: which fields, under which condition, in which order, and
which window of them. Building is pure; every step gives a new select or refuses.

Model of `Select`, `Sort` and `Range`.

* A condition and a sort term need a collection; the projection and the window do not.
* `Select.matching` replaces the condition, `Select.alsoMatching` adds to it.
-/

namespace SchemaMigration

/-- One term of a sort order (`Sort`). -/
structure SortTerm where
  /-- The sorted field. -/
  field : String
  /-- The direction. -/
  direction : Direction
deriving DecidableEq, Inhabited

/-- A window of rows. -/
structure Range where
  /-- Rows passed over. -/
  offset : UInt64
  /-- The most rows taken; all of them where there is none. -/
  limit : Option UInt64
deriving DecidableEq, Inhabited

/-- The window that holds every row. -/
def Range.full : Range := ⟨0, none⟩

/-- The window holds every row (`is_unbounded`). -/
def Range.isUnbounded (r : Range) : Bool :=
  r.offset == 0 && r.limit.isNone

/-- A query for rows. -/
structure Select where
  /-- The collection read from, once it is named. -/
  collection : Option CollectionRef
  /-- The fields of the result; every field where there are none. -/
  fields : List String
  /-- The condition on the rows. -/
  predicate : Option Predicate
  /-- The order of the rows. -/
  sort : List SortTerm
  /-- The window of the rows. -/
  range : Range
deriving Inhabited, BEq

/-- The condition `added` on top of an optional one (`combine`). -/
def Predicate.combine (existing : Option Predicate) (added : Predicate) : Predicate :=
  match existing with
  | some p => p.and added
  | none => added

namespace Select

/-- The select that says nothing yet (`new`). -/
def empty : Select := ⟨none, [], none, [], .full⟩

/-- The select from a collection (`from`). -/
def inCollection (q : Select) (collection : CollectionRef) : Select :=
  { q with collection := some collection }

/-- Refuses a clause on a select without a collection (`require_collection`). -/
def requireCollection (q : Select) (clause : String) : Except Misuse Unit :=
  if q.collection.isNone then .error (.clauseWithoutCollection clause) else .ok ()

/-- The select of these fields (`fields`). -/
def project (q : Select) (fields : List String) : Except Misuse Select :=
  match fields.findSome? Identifier.misuse? with
  | some m => .error m
  | none => .ok { q with fields := fields }

/-- The select under this condition alone (`where_clause`). -/
def matching (q : Select) (p : Predicate) : Except Misuse Select := do
  q.requireCollection "where"
  p.check
  return { q with predicate := some p }

/-- The select under this condition too (`and_where`). -/
def alsoMatching (q : Select) (p : Predicate) : Except Misuse Select := do
  q.requireCollection "where"
  p.check
  return { q with predicate := some (Predicate.combine q.predicate p) }

/-- The select with a further sort term (`order_by`). -/
def orderBy (q : Select) (field : String) (direction : Direction) : Except Misuse Select := do
  q.requireCollection "order by"
  Identifier.check field
  return { q with sort := q.sort ++ [⟨field, direction⟩] }

/-- The select of a window (`range`); negative bounds are refused. -/
def window (q : Select) (offset : Int64) (limit : Option Int64) : Except Misuse Select :=
  if offset < 0 then .error (.negativeOffset offset.toInt)
  else
    match limit with
    | some n =>
      if n < 0 then .error (.negativeLimit n.toInt)
      else .ok { q with range := ⟨offset.toUInt64, some n.toUInt64⟩ }
    | none => .ok { q with range := ⟨offset.toUInt64, none⟩ }

end Select

/-! ## JSON -/

/-- The JSON of an optional value. -/
def Json.ofOption {α : Type} (f : α → Json) : Option α → Json
  | some a => f a
  | none => .null

/-- The JSON of a sort term. -/
def SortTerm.toJson (t : SortTerm) : Json :=
  .object [("field", .text t.field), ("direction", .text t.direction.name)]

/-- The sort term of a JSON value. -/
def SortTerm.ofJson : Json → Read SortTerm :=
  Record.read ["field", "direction"] fun r =>
    SortTerm.mk <$> r.required "field" Json.readText
      <*> r.required "direction" (Json.readName .direct Direction.names)

/-- The JSON of a window. -/
def Range.toJson (r : Range) : Json :=
  .object [("offset", .int r.offset.toNat),
    ("limit", Json.ofOption (fun n : UInt64 => .int n.toNat) r.limit)]

/-- The window of a JSON value. -/
def Range.ofJson : Json → Read Range :=
  Record.read ["offset", "limit"] fun r =>
    Range.mk <$> r.required "offset" Json.readWord64
      <*> r.optional "limit" Json.readWord64

/-- The JSON of a select. -/
def Select.toJson (q : Select) : Json :=
  .object [("collection", Json.ofOption CollectionRef.toJson q.collection),
    ("fields", .array (q.fields.map .text)),
    ("predicate", Json.ofOption Predicate.toJson q.predicate),
    ("sort", .array (q.sort.map SortTerm.toJson)),
    ("range", q.range.toJson)]

/-- The select of a JSON value. -/
def Select.ofJson : Json → Read Select :=
  Record.read ["collection", "fields", "predicate", "sort", "range"] fun r =>
    Select.mk <$> r.optional "collection" CollectionRef.ofJson
      <*> r.required "fields" (Json.readList Json.readText)
      <*> r.optional "predicate" Predicate.ofJson
      <*> r.required "sort" (Json.readList SortTerm.ofJson)
      <*> r.required "range" Range.ofJson

end SchemaMigration
