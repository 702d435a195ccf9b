/-!
# Kinds of queries

The ten kinds of queries with their two spellings: words with blanks in messages, words with
underscores in serialized form.

Model of `QueryKind`.
-/

namespace SchemaMigration

/-- The kind of a query. -/
inductive QueryKind where
  | select
  | insert
  | update
  | delete
  | createCollection
  | alterCollection
  | dropCollection
  | collectionExists
  | describeCollection
  | showCollections
deriving DecidableEq, Inhabited, Repr

namespace QueryKind

/-- Every kind. -/
def all : List QueryKind :=
  [.select, .insert, .update, .delete, .createCollection, .alterCollection, .dropCollection,
    .collectionExists, .describeCollection, .showCollections]

/-- The kind in messages. -/
def label : QueryKind → String
  | .select => "select"
  | .insert => "insert"
  | .update => "update"
  | .delete => "delete"
  | .createCollection => "create collection"
  | .alterCollection => "alter collection"
  | .dropCollection => "drop collection"
  | .collectionExists => "collection exists"
  | .describeCollection => "describe collection"
  | .showCollections => "show collection"

/-- The kind in serialized form. -/
def name : QueryKind → String
  | .select => "select"
  | .insert => "insert"
  | .update => "update"
  | .delete => "delete"
  | .createCollection => "create_collection"
  | .alterCollection => "alter_collection"
  | .dropCollection => "drop_collection"
  | .collectionExists => "collection_exists"
  | .describeCollection => "describe_collection"
  | .showCollections => "show_collection"

/-- The kind of a name. -/
def ofName? (name : String) : Option QueryKind :=
  all.find? fun kind => kind.name == name

/-- The kind changes the structure of the database (`is_ddl`). -/
def isStructural : QueryKind → Bool
  | .createCollection | .alterCollection | .dropCollection => true
  | _ => false

end QueryKind

end SchemaMigration
