import SchemaMigration.Json.Basic
import SchemaMigration.Number.Shortest

/-!
# Writing JSON text

The compact form: no blanks, members in order. Quotes, backslashes and control characters are
escaped, five controls by a letter and the others by four hexadecimal digits; every other character
stands for itself. Not-a-number and the infinities have no JSON text and are written as `null`.
-/

namespace SchemaMigration.Json

/-- Floats are positional from `1e-5` below `1e16`; exponents carry their sign, a lone digit before
an exponent has no point, and of two nearest decimals the even one is taken. -/
def floatLayout : Layout := ⟨-5, 15, "+", false, false⟩

/-- The lower-case hexadecimal digit of a number below sixteen. -/
def hexDigit (n : Nat) : Char :=
  if n < 10 then Char.ofNat (48 + n) else Char.ofNat (87 + n)

/-- One character of a string. -/
def writeChar (c : Char) : List Char :=
  if c = '"' then ['\\', '"']
  else if c = '\\' then ['\\', '\\']
  else if c = '\x08' then ['\\', 'b']
  else if c = '\x0c' then ['\\', 'f']
  else if c = '\n' then ['\\', 'n']
  else if c = '\r' then ['\\', 'r']
  else if c = '\t' then ['\\', 't']
  else if c.toNat < 0x20 then
    ['\\', 'u', '0', '0', hexDigit (c.toNat / 16), hexDigit (c.toNat % 16)]
  else [c]

/-- A string between quotes. -/
def writeString (s : String) : List Char :=
  '"' :: s.toList.flatMap writeChar ++ ['"']

mutual

/-- The compact text of a value; what is no data is written as `null`. -/
def write : Json → List Char
  | .null => "null".toList
  | .bool true => "true".toList
  | .bool false => "false".toList
  | .int n => Decimal.showInt n
  | .float x => if x.isFinite then floatLayout.write x else "null".toList
  | .text s => writeString s
  | .array items => '[' :: writeItems items ++ [']']
  | .object members => '{' :: writeMembers members ++ ['}']
  | .refused => "null".toList
  | .nameless => "null".toList
  | .broken => "null".toList

/-- The items of an array with commas between them. -/
def writeItems : List Json → List Char
  | [] => []
  | [j] => write j
  | j :: k :: r => write j ++ ',' :: writeItems (k :: r)

/-- The members of an object with commas between them. -/
def writeMembers : List (String × Json) → List Char
  | [] => []
  | [m] => writeString m.1 ++ ':' :: write m.2
  | m :: n :: r => writeString m.1 ++ ':' :: write m.2 ++ ',' :: writeMembers (n :: r)

end

/-- The compact text of a value as a string. -/
def render (j : Json) : String :=
  String.ofList j.write

end SchemaMigration.Json
