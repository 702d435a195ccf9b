import SchemaMigration.Description

/-!
# Collapsing a description

The columns of a group fold back into one localized field, and the indexes of a group into one
declared index. The first member of a group stands for all of them. A plain column that has the
handle of a field which is there already cannot be folded.

Model of `collapse`.
-/

namespace SchemaMigration.Description

/-- The field that a column stands for (`from_column`). -/
def fieldOf (c : ColumnDescription) : FieldDefinition :=
  let f := FieldDefinition.ofColumn c.base c.column
  if c.isLocalized then f.asLocalized else f

/-- The fields that columns fold into, after the fields `folded`. -/
def foldColumns (collection : CollectionRef) (folded : List FieldDefinition) :
    List ColumnDescription → Except Misuse (List FieldDefinition)
  | [] => .ok folded
  | c :: r =>
    if folded.any fun f => f.handle == c.base then
      if c.isLocalized then foldColumns collection folded r
      else .error (.localizedClash c.handle collection.identity)
    else foldColumns collection (folded ++ [fieldOf c]) r

/-- The field that a key column stands for; an unknown column stands for itself. -/
def baseColumn (d : Description) (c : IndexColumn) : IndexColumn :=
  { c with field := ((d.column? c.field).map ColumnDescription.base).getD c.field }

/-- The indexes with the one that `i` folds into. -/
def foldIndex (d : Description) (folded : List Index) (i : IndexDescription) : List Index :=
  if i.locale.isSome then
    if folded.any fun j => j.name == i.base then folded
    else folded ++ [Index.make i.base i.index.kind (i.index.columns.map d.baseColumn)]
  else folded ++ [i.index]

/-- The declaration that a description folds into. -/
def collapse (d : Description) : Except Misuse CollectionSchema := do
  let fields ← foldColumns d.collection [] d.columns
  return ⟨d.collection, fields, d.indexes.foldl d.foldIndex []⟩

end SchemaMigration.Description
