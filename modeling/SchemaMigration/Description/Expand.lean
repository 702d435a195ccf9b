import SchemaMigration.Description

/-!
# Expanding a declaration

A declared collection is expanded to physical columns and indexes: a localized field becomes one
column for every locale, and an index over localized fields one index for every locale.

Model of `from_schema`.

* Relations have no column.
* Indexes cover declared columns, all localized or none, and the primary index covers plain ones.
* Physical columns have distinct handles, and so have physical indexes.
* What is refused first is found in this order: locales, columns, their handles, the number of
  primary indexes, indexes, their handles.
-/

namespace SchemaMigration

/-- The first text that occurs a second time (`first_duplicate`). -/
def firstRepeated? (seen : List String) : List String → Option String
  | [] => none
  | s :: r => if seen.contains s then some s else firstRepeated? (s :: seen) r

/-- The results for every member of a list one after the other, or the first refusal. -/
def concatMapM {α β : Type} (f : α → Except Misuse (List β)) : List α → Except Misuse (List β)
  | [] => .ok []
  | a :: r => do
    let first ← f a
    let rest ← concatMapM f r
    return first ++ rest

namespace FieldDefinition

/-- A column of a field in a locale, or its only column. -/
def describe (f : FieldDefinition) (c : Column) (locale : Option String) :
    Except Misuse (List ColumnDescription) := do
  c.check
  if c.autoIncrement && locale.isSome then .error (.localizedAutoIncrement f.handle)
  else return [⟨c.name, f.handle, locale, c⟩]

/-- The column of a field in a locale, or its only column (`expanded_column`). A relation has
none. -/
def columnIn (f : FieldDefinition) (locale : Option String) :
    Except Misuse (List ColumnDescription) :=
  let name :=
    match locale with
    | some code => Locale.localize f.handle code
    | none => f.handle
  match f.toColumn? name with
  | some c => f.describe c locale
  | none => .ok []

/-- The columns of a field of a collection. -/
def expand (f : FieldDefinition) (c : CollectionRef) (locales : List String) :
    Except Misuse (List ColumnDescription) :=
  if f.isRelation then .ok []
  else if f.localized then
    if locales.isEmpty then .error (.noLocales f.handle c.identity)
    else concatMapM (fun code => f.columnIn (some code)) locales
  else f.columnIn none

end FieldDefinition

namespace Index

/-- The index over the columns of one locale (`localize_index`). -/
def inLocale (i : Index) (code : String) : Index :=
  { i with
    name := Locale.localize i.name code
    columns := i.columns.map fun c => { c with field := Locale.localize c.field code } }

/-- The localized ones among the fields of a key, or the first field that no index may cover. -/
def localizedFields (i : Index) (s : CollectionSchema) : List String → Except Misuse (List String)
  | [] => .ok []
  | name :: r =>
    match s.field? name with
    | none => .error (.unknownIndexField i.name s.collection.identity name)
    | some f =>
      if f.isRelation then .error (.relationIndexField i.name s.collection.identity name)
      else do
        let rest ← localizedFields i s r
        return if f.localized then name :: rest else rest

/-- The physical indexes of a declared index. -/
def expand (i : Index) (s : CollectionSchema) (locales : List String) :
    Except Misuse (List IndexDescription) := do
  i.check
  let localized ← i.localizedFields s i.fields
  if localized.isEmpty then return [⟨i.name, i.name, none, i⟩]
  else if localized.length < i.columns.length then
    .error (.mixedIndex i.name s.collection.identity)
  else if i.isPrimary then .error (.localizedPrimary s.collection.identity)
  else
    return locales.map fun code =>
      ⟨Locale.localize i.name code, i.name, some code, i.inLocale code⟩

end Index

namespace Description

/-- Refuses columns that share a handle. -/
def checkColumns (c : CollectionRef) (columns : List ColumnDescription) : Except Misuse Unit :=
  match firstRepeated? [] (columns.map ColumnDescription.handle) with
  | some handle => .error (.duplicateColumn handle c.identity)
  | none => .ok ()

/-- Refuses indexes that share a handle. -/
def checkIndexes (c : CollectionRef) (indexes : List IndexDescription) : Except Misuse Unit :=
  match firstRepeated? [] (indexes.map IndexDescription.handle) with
  | some handle => .error (.duplicateIndex handle c.identity)
  | none => .ok ()

/-- The description of a declared collection (`from_schema`). -/
def ofSchema (s : CollectionSchema) (locales : List String) : Except Misuse Description := do
  Locale.checkAll locales
  let columns ← concatMapM (fun f => f.expand s.collection locales) s.fields
  checkColumns s.collection columns
  if 1 < (s.indexes.filter Index.isPrimary).length then
    .error (.severalPrimaries s.collection.identity)
  else
    let indexes ← concatMapM (fun i => i.expand s locales) s.indexes
    checkIndexes s.collection indexes
    return ⟨s.collection, columns, indexes⟩

end Description

end SchemaMigration
