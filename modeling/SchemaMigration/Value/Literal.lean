import SchemaMigration.Value
import SchemaMigration.Text.Blank
import SchemaMigration.Text.Quoted
import SchemaMigration.Text.Slice

/-!
# SQL literals

The text of a value inside an SQL statement, and the reading of the default expressions that a
catalog reports.

Model of `to_sql_inline` and `parse_inline`.

* `Value.literal` writes a text between single quotes, its quotes doubled, and bytes as a quoted
  run of capital hexadecimal digits after an `X`.
* `Value.ofLiteral?` reads such a literal between blanks, with an optional cast after it, in one
  pair of parentheses if it is a number. Every other expression is no literal.
-/

namespace SchemaMigration.Value

/-- The capital hexadecimal digit of a number below sixteen. -/
def hexDigit (n : Nat) : Char :=
  if n < 10 then Char.ofNat (48 + n) else Char.ofNat (55 + n)

/-- Two capital hexadecimal digits for every byte. -/
def hexDigits : List UInt8 → List Char
  | [] => []
  | b :: r => hexDigit (b.toNat / 16) :: hexDigit (b.toNat % 16) :: hexDigits r

/-- The characters of a value's SQL literal. -/
def literalChars : Value → List Char
  | .null => "NULL".toList
  | .bool true => "TRUE".toList
  | .bool false => "FALSE".toList
  | .int n => Decimal.showInt n.toInt
  | .float x => literalLayout.write x
  | .text s => Text.quoted '\'' s.toList
  | .blob bytes => 'X' :: '\'' :: hexDigits bytes ++ ['\'']

/-- The SQL literal of a value (`to_sql_inline`). -/
def literal (v : Value) : String :=
  String.ofList v.literalChars

/-! ## Reading -/

/-- The byte of two hexadecimal digits; a plus may stand for the first. -/
def byte? (a b : Char) : Option UInt8 := do
  let low ← Json.hexValue? b
  let high ← if a = '+' then some 0 else Json.hexValue? a
  return UInt8.ofNat (16 * high + low)

/-- The bytes of a run of digit pairs (`decode_hex`). -/
def bytes? : List Char → Option (List UInt8)
  | [] => some []
  | [_] => none
  | a :: b :: r => do
    let byte ← byte? a b
    let rest ← bytes? r
    return byte :: rest

/-- The text without its last cast (`strip_cast`); what follows a cast mark is a cast only without
quotes. -/
def dropCast (s : List Char) : List Char :=
  match Text.splitLast? [':', ':'] s with
  | some (before, after) => if after.contains '\'' then s else before
  | none => s

/-- The digits of a byte string literal, with the mark in either case. -/
def blobBody? (s : List Char) : Option (List Char) :=
  match s with
  | 'X' :: '\'' :: r => ['\''].isSuffixOf? r
  | 'x' :: '\'' :: r => ['\''].isSuffixOf? r
  | _ => none

/-- The number that stands alone or in one pair of parentheses. -/
def number? (s : List Char) : Option Value :=
  let s := (Text.enclosed? ['('] [')'] s).getD s
  match (Decimal.readSigned? s).bind int64? with
  | some n => some (.int n)
  | none => (Binary64.read? s).map .float

/-- The value of a literal without blanks and cast. -/
def ofBareLiteral? (s : List Char) : Option Value :=
  if Text.sameAsciiLetters s "NULL".toList then some .null
  else if Text.sameAsciiLetters s "TRUE".toList then some (.bool true)
  else if Text.sameAsciiLetters s "FALSE".toList then some (.bool false)
  else
    match blobBody? s with
    | some body => (bytes? body).map .blob
    | none =>
      match Text.enclosed? ['\''] ['\''] s with
      | some body => some (.text (String.ofList (Text.collapse '\'' body)))
      | none => number? s

/-- The value of a default expression, if it is a literal (`parse_inline`). -/
def ofLiteral? (s : List Char) : Option Value :=
  ofBareLiteral? (dropCast (Text.trim s))

end SchemaMigration.Value
