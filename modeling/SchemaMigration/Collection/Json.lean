import SchemaMigration.Collection
import SchemaMigration.Json.Record

/-!
# Collections in JSON

A reference is written with both of its parts, the namespace being `null` where there is none. It is
checked when it is read: an invalid part is refused with its own misuse.

Model of `RawCollectionRef`, through which a `CollectionRef` is read.
-/

namespace SchemaMigration.CollectionRef

/-- The JSON of a reference. -/
def toJson (c : CollectionRef) : Json :=
  .object [("namespace", (c.scope.map Json.text).getD .null), ("name", .text c.name)]

/-- The parts of a reference in a JSON value, unchecked (`RawCollectionRef`). -/
def partsOfJson : Json → Read (Option String × String) :=
  Record.read ["namespace", "name"] fun r =>
    Prod.mk <$> r.defaulted "namespace" none (Json.readOption Json.readText)
      <*> r.required "name" Json.readText

/-- The reference of a JSON value (`try_from`). -/
def ofJson (j : Json) : Read CollectionRef := do
  let (scope, name) ← partsOfJson j
  (make scope name).mapError .refused

end SchemaMigration.CollectionRef
