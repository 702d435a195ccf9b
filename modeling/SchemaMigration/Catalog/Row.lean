import SchemaMigration.Error
import SchemaMigration.Number.Extended
import SchemaMigration.Text.Escaped
import SchemaMigration.Text.Utf8
import SchemaMigration.Value

/-!
# Catalog rows

A row of a catalog listing is a list of named values, read by column name. SQLite keeps no truth
values, and it converts a value to what a reader asks for: a number is read as text by its digits,
a text as an integer by the integer at its front.

Model of `column_names`, `decode_row` and `first_integer`, and of the conversions that a catalog
column is read by.

* Of two columns with one name the later counts.
* A column that is not there fails the query that listed the row.
-/

namespace SchemaMigration

/-- The named values of a row. -/
abbrev Row := List (String × Value)

/-- Floats read as text have at most fifteen digits. -/
def catalogFloatLayout : Layout := ⟨-4, 14, "+", true, true⟩

namespace Value

/-- An exponent of at least two digits. -/
def padExponent : List Char → List Char
  | 'e' :: sign :: [digit] => ['e', sign, '0', digit]
  | c :: r => c :: padExponent r
  | [] => []

/-- The text of a double with at most fifteen digits. -/
def floatText (x : Binary64) : List Char :=
  if x.isFinite && !x.isZero then
    (if x.isNegative then ['-'] else []) ++
      padExponent (catalogFloatLayout.place (x.scaledDigits 15))
  else if x.isZero then "0.0".toList
  else if x.isNegative then "-Inf".toList
  else "Inf".toList

/-- The value that SQLite stores. -/
def stored : Value → Value
  | .bool true => .int 1
  | .bool false => .int 0
  | .float x => if x.isNaN then .null else .float x
  | v => v

/-- The value read as text; bytes that are no text have none. -/
def asText? (v : Value) : Option String :=
  match v.stored with
  | .text s => some s
  | .int n => some (String.ofList (Decimal.showInt n.toInt))
  | .float x => some (String.ofList (floatText x))
  | .blob bytes => String.fromUTF8? ⟨bytes.toArray⟩
  | _ => some ""

/-- The bytes of a byte string. -/
def bytes : Value → List UInt8
  | .blob bytes => bytes
  | _ => []

/-- The nearest integer of 64 bits. -/
def clampInt64 (n : Int) : Int64 :=
  Int64.ofInt (max (-(twoTo 63 : Int)) (min n ((twoTo 63 : Int) - 1)))

/-- A blank that may stand before a number. -/
def isNumberBlank (c : Char) : Bool :=
  c == ' ' || (decide (9 ≤ c.toNat) && decide (c.toNat ≤ 13))

/-- The integer at the front of a text; zero where there is none. -/
def leadingInteger (s : List Char) : Int :=
  match s.dropWhile isNumberBlank with
  | '-' :: r => -(Decimal.ofDigits (r.takeWhile Decimal.isDigit) : Int)
  | '+' :: r => Decimal.ofDigits (r.takeWhile Decimal.isDigit)
  | s => Decimal.ofDigits (s.takeWhile Decimal.isDigit)

/-- The value read as an integer. -/
def asInteger (v : Value) : Int64 :=
  match v.stored with
  | .int n => n
  | .float x =>
    if x.isFinite then clampInt64 x.truncate
    else clampInt64 (if x.isNegative then -(twoTo 63 : Int) else twoTo 63)
  | .text s => clampInt64 (leadingInteger s.toList)
  | .blob bytes => clampInt64 (leadingInteger (bytes.map fun b => Char.ofNat b.toNat))
  | _ => 0

end Value

namespace Row

/-- The value of a column. -/
def find? (r : Row) (column : String) : Option Value :=
  (r.reverse.find? fun entry => entry.1 == column).map Prod.snd

/-- The names of the columns (`column_names`). -/
def columns (r : Row) : List String :=
  r.map Prod.fst

/-- The values as SQLite stores them (`decode_row`). -/
def values (r : Row) : List Value :=
  r.map fun entry => entry.2.stored

end Row

/-- Where rows come from: the query that lists them and the collection that it is about. -/
structure Listing where
  /-- The kind of the query. -/
  kind : QueryKind
  /-- The collection, if there is one. -/
  collection : Option CollectionRef

namespace Listing

/-- The failure of the query. -/
def failure (l : Listing) (source : String) : Error :=
  .execution l.kind l.collection source

/-- The value of a column that must be there. -/
def value (l : Listing) (r : Row) (column : String) : Except Error Value :=
  match Row.find? r column with
  | some v => .ok v
  | none => .error (l.failure ("no column found for name: " ++ column))

/-- Why bytes are no text. -/
def utf8Message (bytes : List UInt8) : String :=
  match Text.utf8Fault? bytes with
  | some ⟨index, some length⟩ =>
    "invalid utf-8 sequence of " ++ Decimal.showNat length ++ " bytes from index " ++
      Decimal.showNat index
  | some ⟨index, none⟩ => "incomplete utf-8 byte sequence from index " ++ Decimal.showNat index
  | none => ""

/-- The text of a column. -/
def text (l : Listing) (r : Row) (column : String) : Except Error String := do
  let v ← l.value r column
  match v.asText? with
  | some s => return s
  | none =>
    .error (l.failure ("error occurred while decoding column " ++ Text.escaped column ++ ": " ++
      utf8Message v.bytes))

/-- The text of a column, unless it is null. -/
def optionalText (l : Listing) (r : Row) (column : String) : Except Error (Option String) := do
  let v ← l.value r column
  if v.stored.isNull then return none
  else
    let s ← l.text r column
    return some s

/-- The integer of a column. -/
def integer (l : Listing) (r : Row) (column : String) : Except Error Int64 := do
  let v ← l.value r column
  return v.asInteger

theorem text_eq_ok_iff {l : Listing} {r : Row} {column s : String} :
    l.text r column = .ok s ↔ (Row.find? r column).bind Value.asText? = some s := by
  unfold text value
  cases Row.find? r column with
  | none =>
    constructor
    · intro h
      cases h
    · intro h
      cases h
  | some v =>
    show (match v.asText? with
      | some s => Except.ok s
      | none => _) = .ok s ↔ v.asText? = some s
    cases v.asText? <;> simp

theorem integer_eq_ok_iff {l : Listing} {r : Row} {column : String} {n : Int64} :
    l.integer r column = .ok n ↔ (Row.find? r column).map Value.asInteger = some n := by
  unfold integer value
  cases Row.find? r column with
  | none =>
    constructor
    · intro h
      cases h
    · intro h
      cases h
  | some v =>
    show Except.ok v.asInteger = .ok n ↔ some v.asInteger = some n
    simp

end Listing

/-- The integer in the first column of the first row, if there is a row (`first_integer`). -/
def firstInteger? (rows : List Row) : Option Int64 :=
  match rows with
  | [] => none
  | r :: _ => some ((r.head?.map fun entry => entry.2.asInteger).getD 0)

end SchemaMigration
