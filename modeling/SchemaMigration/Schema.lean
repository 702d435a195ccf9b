import SchemaMigration.Collection.Json
import SchemaMigration.Column
import SchemaMigration.Index
import SchemaMigration.Locale

/-!
# Declared schemas

What an application wants a database to hold: collections with fields and indexes, and the locales
that localized fields are kept in. A field is a column, or a relation that is stored elsewhere.

Model of `FieldKind`, `FieldDefinition`, `CollectionSchema` and `LogicalSchema`.

* A schema file is the JSON of a `LogicalSchema`. `LogicalSchema.ofText` decodes it and then checks
  its locale codes.

Out of scope: other sources of schemas (`SchemaSource`), of which a migration takes the collections
and the locales alone.
-/

namespace SchemaMigration

/-- What a field is. -/
inductive FieldKind where
  /-- A physical column, its name aside. -/
  | column (type : ColumnType) (size : Option UInt32) (default : Option Value)
      (autoIncrement : Bool)
  /-- A relation to another collection, for which nothing is stored. -/
  | relation (target : CollectionRef)
deriving DecidableEq

/-- A declared field. -/
structure FieldDefinition where
  /-- The handle. -/
  handle : String
  /-- What the field is. -/
  kind : FieldKind
  /-- There is one column for every locale. -/
  localized : Bool
deriving DecidableEq

namespace FieldDefinition

/-- A field with a column that has neither size nor default. -/
def column (handle : String) (type : ColumnType) : FieldDefinition :=
  ⟨handle, .column type none none false, false⟩

/-- A relation. -/
def relation (handle : String) (target : CollectionRef) : FieldDefinition :=
  ⟨handle, .relation target, false⟩

/-- The field with one column for every locale (`localized`). -/
def asLocalized (f : FieldDefinition) : FieldDefinition :=
  { f with localized := true }

/-- The field with a size (`size`); a relation has none. -/
def withSize (f : FieldDefinition) (size : UInt32) : FieldDefinition :=
  match f.kind with
  | .column type _ default auto => { f with kind := .column type (some size) default auto }
  | .relation _ => f

/-- The field with a default (`default_value`); a relation has none. -/
def withDefault (f : FieldDefinition) (v : Value) : FieldDefinition :=
  match f.kind with
  | .column type size _ auto => { f with kind := .column type size (some v) auto }
  | .relation _ => f

/-- The field counting up (`auto_increment`); a relation does not. -/
def counting (f : FieldDefinition) : FieldDefinition :=
  match f.kind with
  | .column type size default _ => { f with kind := .column type size default true }
  | .relation _ => f

/-- The field is a relation. -/
def isRelation (f : FieldDefinition) : Bool :=
  match f.kind with
  | .relation _ => true
  | .column .. => false

/-- The column of a field under a name (`to_column`); a relation has none. -/
def toColumn? (f : FieldDefinition) (name : String) : Option Column :=
  match f.kind with
  | .column type size default auto => some ⟨name, type, size, default, auto⟩
  | .relation _ => none

/-- The field that a physical column stands for (`from_column`). -/
def ofColumn (handle : String) (c : Column) : FieldDefinition :=
  ⟨handle, .column c.type c.size c.default c.autoIncrement, false⟩

end FieldDefinition

/-- The declaration of a collection. -/
structure CollectionSchema where
  /-- The collection. -/
  collection : CollectionRef
  /-- The fields, in order. -/
  fields : List FieldDefinition
  /-- The indexes, in order; their keys name fields by handle. -/
  indexes : List Index
deriving DecidableEq

/-- The first field of a handle. -/
def CollectionSchema.field? (s : CollectionSchema) (handle : String) : Option FieldDefinition :=
  s.fields.find? fun f => f.handle == handle

/-- A whole declared schema. -/
structure LogicalSchema where
  /-- The collections, in order. -/
  collections : List CollectionSchema
  /-- The locale codes, in order. -/
  locales : List String
deriving DecidableEq

namespace LogicalSchema

/-- The schema that declares nothing. -/
def empty : LogicalSchema := ⟨[], []⟩

/-- The schema with these locales, every one of them a locale code (`with_locales`). -/
def withLocales (s : LogicalSchema) (codes : List String) : Except Misuse LogicalSchema := do
  Locale.checkAll codes
  return { s with locales := codes }

end LogicalSchema

/-! ## JSON -/

/-- The members of a field's kind, its tag first. -/
def FieldKind.members : FieldKind → List (String × Json)
  | .column type size default auto =>
    [("kind", .text "column"), ("type", .text type.name)] ++
      Column.attributeMembers size default ++ [("autoIncrement", .bool auto)]
  | .relation target => [("kind", .text "relation"), ("target", target.toJson)]

/-- The tags of field kinds, in the order of their positions. -/
def FieldKind.tags : List String := ["column", "relation"]

/-- The kind of a tagged record. -/
def FieldKind.ofTagged (kind : String) (rest : Json) : Read FieldKind :=
  if kind = "column" then
    Record.read ["type", "size", "defaultValue", "autoIncrement"] (fun r =>
      FieldKind.column <$> r.required "type" (Json.readName .held ColumnType.names)
        <*> r.defaulted "size" none (Json.readOption Json.readWord32)
        <*> r.defaulted "defaultValue" none (Json.readOption Value.ofJson)
        <*> r.defaulted "autoIncrement" false Json.readBool) rest
  else if kind = "relation" then
    Record.read ["target"] (fun r =>
      FieldKind.relation <$> r.required "target" CollectionRef.ofJson) rest
  else .error .malformed

/-- The JSON of a field: the members of its kind stand between its own. -/
def FieldDefinition.toJson (f : FieldDefinition) : Json :=
  .object ([("handle", .text f.handle)] ++ f.kind.members ++ [("localized", .bool f.localized)])

/-- The members of a field that belong to its kind. -/
def FieldDefinition.kindMembers (members : List (String × Json)) : List (String × Json) :=
  members.filter fun m => m.1 != "handle" && m.1 != "localized"

/-- The field of a JSON value. The members of its kind are read after its own, and
their tag may be a position. -/
def FieldDefinition.ofJson : Json → Read FieldDefinition
  | .object members => do
    let kindPart := kindMembers members
    let own : Record := ⟨false, members⟩
    let parts := Prod.mk <$> own.required "handle" Json.readText
      <*> own.defaulted "localized" false Json.readBool
    let (handle, localized) ← own.close (kindPart.map Prod.fst) parts
    Json.requireData (.object kindPart)
    let (kind, rest) ← Record.splitTag "kind" (Json.readWordOrPosition FieldKind.tags) (.object kindPart)
    let kind ← FieldKind.ofTagged kind rest
    return ⟨handle, kind, localized⟩
  | _ => .error .malformed

/-- The JSON of a collection's declaration. -/
def CollectionSchema.toJson (s : CollectionSchema) : Json :=
  .object [("collection", s.collection.toJson),
    ("fields", .array (s.fields.map FieldDefinition.toJson)),
    ("indexes", .array (s.indexes.map Index.toJson))]

/-- The declaration of a JSON value. -/
def CollectionSchema.ofJson : Json → Read CollectionSchema :=
  Record.read ["collection", "fields", "indexes"] fun r =>
    CollectionSchema.mk <$> r.required "collection" CollectionRef.ofJson
      <*> r.required "fields" (Json.readList FieldDefinition.ofJson)
      <*> r.defaulted "indexes" [] (Json.readList (Index.ofJson .direct))

/-- The JSON of a schema. -/
def LogicalSchema.toJson (s : LogicalSchema) : Json :=
  .object [("collections", .array (s.collections.map CollectionSchema.toJson)),
    ("locales", .array (s.locales.map .text))]

/-- The schema of a JSON value, its locales unchecked. -/
def LogicalSchema.ofJson : Json → Read LogicalSchema :=
  Record.read ["collections", "locales"] fun r =>
    LogicalSchema.mk <$> r.required "collections" (Json.readList CollectionSchema.ofJson)
      <*> r.defaulted "locales" [] (Json.readList Json.readText)

/-- The schema that a text writes, its locales unchecked. -/
def LogicalSchema.decode (text : String) : Read LogicalSchema :=
  decodeText LogicalSchema.ofJson text

end SchemaMigration
