import SchemaMigration.Query.Alter
import SchemaMigration.Query.Change
import SchemaMigration.Query.Kind

/-!
# Queries

Everything that can be asked of a backend: the four queries on rows, the three that change the
structure of a collection, and the three that inspect it.

Model of `Query`.
-/

namespace SchemaMigration

/-- A query. -/
inductive Query where
  /-- Reads rows. -/
  | select (q : Select)
  /-- Adds a row. -/
  | insert (q : Insert)
  /-- Changes rows. -/
  | update (q : Update)
  /-- Removes rows. -/
  | delete (q : Delete)
  /-- Creates a collection. -/
  | createCollection (q : CreateCollection)
  /-- Changes the structure of a collection. -/
  | alterCollection (q : AlterCollection)
  /-- Removes a collection. -/
  | dropCollection (c : CollectionRef)
  /-- Asks whether a collection exists. -/
  | collectionExists (c : CollectionRef)
  /-- Asks for the columns and indexes of a collection. -/
  | describeCollection (c : CollectionRef)
  /-- Asks for every collection. -/
  | showCollections
deriving BEq

namespace Query

/-- The kind of a query. -/
def kind : Query → QueryKind
  | .select _ => .select
  | .insert _ => .insert
  | .update _ => .update
  | .delete _ => .delete
  | .createCollection _ => .createCollection
  | .alterCollection _ => .alterCollection
  | .dropCollection _ => .dropCollection
  | .collectionExists _ => .collectionExists
  | .describeCollection _ => .describeCollection
  | .showCollections => .showCollections

/-- The collection a query is about, if it names one. -/
def collection? : Query → Option CollectionRef
  | .select q => q.collection
  | .insert q => some q.collection
  | .update q => some q.collection
  | .delete q => some q.collection
  | .createCollection q => some q.collection
  | .alterCollection q => some q.collection
  | .dropCollection c => some c
  | .collectionExists c => some c
  | .describeCollection c => some c
  | .showCollections => none

/-- The window of rows that a query asks for. -/
def range : Query → Range
  | .select q => q.range
  | _ => .full

/-! ## JSON -/

/-- The JSON of a query that only names a collection. -/
def targetToJson (c : CollectionRef) : Json :=
  .object [("collection", c.toJson)]

/-- The collection of a query that only names one. -/
def targetOfJson : Json → Read CollectionRef :=
  Record.read ["collection"] fun r => r.required "collection" CollectionRef.ofJson

/-- The JSON of a query; its kind is told apart elsewhere. -/
def toJson : Query → Json
  | .select q => q.toJson
  | .insert q => q.toJson
  | .update q => q.toJson
  | .delete q => q.toJson
  | .createCollection q => q.toJson
  | .alterCollection q => q.toJson
  | .dropCollection c => targetToJson c
  | .collectionExists c => targetToJson c
  | .describeCollection c => targetToJson c
  | .showCollections => .null

/-- The query of a kind that a JSON value writes. -/
def ofJson (kind : QueryKind) (j : Json) : Read Query :=
  match kind with
  | .select => (Select.ofJson j).map .select
  | .insert => (Insert.ofJson j).map .insert
  | .update => (Update.ofJson j).map .update
  | .delete => (Delete.ofJson j).map .delete
  | .createCollection => (CreateCollection.ofJson j).map .createCollection
  | .alterCollection => (AlterCollection.ofJson j).map .alterCollection
  | .dropCollection => (targetOfJson j).map .dropCollection
  | .collectionExists => (targetOfJson j).map .collectionExists
  | .describeCollection => (targetOfJson j).map .describeCollection
  | .showCollections =>
    match j with
    | .null => .ok .showCollections
    | _ => .error .malformed

/-- The query of a kind that a text writes. -/
def ofText (kind : QueryKind) (text : String) : Read Query :=
  decodeText (ofJson kind) text

end Query

end SchemaMigration
