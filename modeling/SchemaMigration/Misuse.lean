import SchemaMigration.ColumnType
import SchemaMigration.IndexKind
import SchemaMigration.Number.Shortest

/-!
# Misuse

The ways in which a name, a definition, a query or a schema can be invalid by itself, before any
backend is involved. `Misuse.message` words each of them.

Model of the texts that `construction` is called with.
-/

namespace SchemaMigration

/-- A reason to refuse what was asked for. Collections are named by their identity. -/
inductive Misuse where
  /-- An identifier has no characters. -/
  | emptyIdentifier
  /-- An identifier starts with neither a letter nor an underscore. -/
  | identifierStart (identifier : String)
  /-- An identifier holds a character that no identifier may hold. -/
  | identifierCharacter (identifier : String) (character : Char)
  /-- A part of a collection's name holds the separator of namespace and name. -/
  | separatorInName (part : String)
  /-- Only integer columns count up by themselves. -/
  | autoIncrementType (column : String) (type : ColumnType)
  /-- Only text and blob columns have a size. -/
  | sizeOnType (column : String) (type : ColumnType)
  /-- A default is not a finite number. -/
  | nonFiniteDefault (column : String) (value : Binary64)
  /-- The reserved name belongs to the primary index, and the primary index has no other. -/
  | reservedPrimary (index : String) (kind : IndexKind)
  /-- An index covers nothing. -/
  | indexWithoutColumns (index : String)
  /-- A membership test offers no candidates. -/
  | emptyMembership (field : String)
  /-- A clause was added to a select that names no collection yet. -/
  | clauseWithoutCollection (clause : String)
  /-- A row window starts before the first row. -/
  | negativeOffset (offset : Int)
  /-- A row window has less than no rows. -/
  | negativeLimit (limit : Int)
  /-- A select names no collection. -/
  | selectWithoutCollection
  /-- An update assigns nothing. -/
  | updateWithoutFields (collection : String)
  /-- A created collection has no columns. -/
  | createWithoutColumns (collection : String)
  /-- Two columns of a collection share a name. -/
  | duplicateColumn (column collection : String)
  /-- Two indexes of a collection share a name. -/
  | duplicateIndex (index collection : String)
  /-- A collection is given a primary index again. -/
  | secondPrimary (collection : String)
  /-- An index covers a column that the collection does not have. -/
  | unknownIndexColumn (index column : String)
  /-- A text is no locale code. -/
  | invalidLocale (code : String)
  /-- A field is localized where no locale is configured. -/
  | noLocales (field collection : String)
  /-- A localized field counts up by itself. -/
  | localizedAutoIncrement (field : String)
  /-- A collection declares several primary indexes. -/
  | severalPrimaries (collection : String)
  /-- An index covers a field that is not declared. -/
  | unknownIndexField (index collection field : String)
  /-- An index covers a relation. -/
  | relationIndexField (index collection field : String)
  /-- An index covers localized and plain fields together. -/
  | mixedIndex (index collection : String)
  /-- The primary index covers localized fields. -/
  | localizedPrimary (collection : String)
  /-- A plain column has the name of a localized field. -/
  | localizedClash (column collection : String)
  /-- A reason given in words. -/
  | stated (text : String)
deriving DecidableEq, Repr

/-- Doubles in SQL text and in messages: positional from `1e-4` below `1e16`, a bare exponent
otherwise, and of two nearest decimals the greater. -/
def literalLayout : Layout := ⟨-4, 15, "", false, true⟩

/-- The reason in words. -/
def Misuse.message : Misuse → String
  | .emptyIdentifier => "identifier must not be empty"
  | .identifierStart i => "identifier '" ++ i ++ "' must start with a letter or underscore"
  | .identifierCharacter i c =>
    "identifier '" ++ i ++ "' contains invalid character '" ++ String.singleton c ++ "'"
  | .separatorInName p => "collection name '" ++ p ++ "' must not contain '__'"
  | .autoIncrementType n t =>
    "column '" ++ n ++ "' is auto-increment but has non-integer type " ++ t.name
  | .sizeOnType n t => "column '" ++ n ++ "' of type " ++ t.name ++ " cannot carry a size"
  | .nonFiniteDefault n x =>
    "column '" ++ n ++ "' has non-finite default " ++ String.ofList (literalLayout.write x)
  | .reservedPrimary n k =>
    "index handle 'primary' is reserved for the primary index, got '" ++ n ++ "' (" ++ k.name ++ ")"
  | .indexWithoutColumns n => "index '" ++ n ++ "' has no columns"
  | .emptyMembership f => "IN list on '" ++ f ++ "' must not be empty"
  | .clauseWithoutCollection clause => clause ++ " requires a collection; call from() first"
  | .negativeOffset n => "negative range offset " ++ String.ofList (Decimal.showInt n)
  | .negativeLimit n => "negative range limit " ++ String.ofList (Decimal.showInt n)
  | .selectWithoutCollection => "select without a collection"
  | .updateWithoutFields c => "update of " ++ c ++ " assigns no fields"
  | .createWithoutColumns c => "collection " ++ c ++ " has no columns"
  | .duplicateColumn n c => "duplicate column '" ++ n ++ "' in " ++ c
  | .duplicateIndex n c => "duplicate index '" ++ n ++ "' in " ++ c
  | .secondPrimary c => "a second primary index in " ++ c
  | .unknownIndexColumn n f => "index '" ++ n ++ "' references unknown column '" ++ f ++ "'"
  | .invalidLocale code => "invalid locale code '" ++ code ++ "'"
  | .noLocales f c => "field '" ++ f ++ "' of " ++ c ++ " is localized but no locales are configured"
  | .localizedAutoIncrement f => "localized field '" ++ f ++ "' cannot auto-increment"
  | .severalPrimaries c => c ++ " declares more than one primary index"
  | .unknownIndexField n c f => "index '" ++ n ++ "' of " ++ c ++ " references unknown field '" ++ f ++ "'"
  | .relationIndexField n c f =>
    "index '" ++ n ++ "' of " ++ c ++ " references relation field '" ++ f ++ "'"
  | .mixedIndex n c => "index '" ++ n ++ "' of " ++ c ++ " mixes localized and non-localized fields"
  | .localizedPrimary c => "primary index of " ++ c ++ " cannot cover localized fields"
  | .localizedClash n c => "column '" ++ n ++ "' of " ++ c ++ " clashes with a localized field"
  | .stated text => text

end SchemaMigration
