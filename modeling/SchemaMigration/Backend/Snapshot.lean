import SchemaMigration.Backend

/-!
# Snapshots

A backend that answers from a fixed picture of its collections and never changes. Some collections
may be out of order: queries on them fail unless they only ask whether the collection exists or what
it looks like.

Model of `RecordingDriver`, which the scenarios of a migration run on; it records by
`Backend.recording`.
-/

namespace SchemaMigration

/-- A fixed picture of a backend (`RecordingDriver`). -/
structure Snapshot where
  /-- The dialect of its SQL. -/
  dialect : Dialect
  /-- The collections. Of two with one identity the later counts. -/
  live : List LiveCollection
  /-- The identities of the collections that are out of order. -/
  failing : List String

namespace Snapshot

/-- The collection of an identity. -/
def find? (s : Snapshot) (identity : String) : Option LiveCollection :=
  s.live.reverse.find? fun c => c.collection.identity == identity

/-- The collections in the order of their identities, each identity once. -/
def listing (s : Snapshot) : List CollectionRef :=
  let identities := (s.live.map fun c => c.collection.identity).eraseDups
  (identities.mergeSort fun a b => decide (a ≤ b)).filterMap fun identity =>
    (s.find? identity).map LiveCollection.collection

/-- The query fails because its collection is out of order. -/
def fails (s : Snapshot) (q : CompiledQuery) : Bool :=
  match q.collection with
  | some c =>
    s.failing.contains c.identity && q.kind != .collectionExists && q.kind != .describeCollection
  | none => false

/-- The live collection that a query is about. -/
def target? (s : Snapshot) (q : CompiledQuery) : Option LiveCollection :=
  q.collection.bind fun c => s.find? c.identity

/-- The answer to a compiled query. -/
def run (s : Snapshot) (q : CompiledQuery) : Except Error QueryResult :=
  if s.fails q then .error (.execution q.kind q.collection "disk full")
  else
    match q.kind with
    | .select => .ok (.selected ⟨[], [], .ofRange q.range 0⟩)
    | .insert => .ok (.inserted (some 1))
    | .update => .ok (.updated 0)
    | .delete => .ok (.deleted 0)
    | .createCollection => .ok (.acknowledged true)
    | .alterCollection => .ok (.acknowledged true)
    | .dropCollection => .ok (.acknowledged true)
    | .collectionExists => .ok (.existence (s.target? q).isSome)
    | .describeCollection =>
      match s.target? q with
      | some live => .ok (.described live)
      | none => .error (.decode (.stated "no such collection"))
    | .showCollections => .ok (.collections s.listing)

/-- The snapshot as a backend without a state of its own. -/
def backend (s : Snapshot) : Backend Unit :=
  ⟨s.dialect, fun q _ => (s.run q, ())⟩

end Snapshot

end SchemaMigration
