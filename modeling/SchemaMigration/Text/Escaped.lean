import SchemaMigration.Text.Shown

/-!
# Diagnostic text

Values in diagnostic messages: texts between double quotes with escapes for what cannot be seen,
records by the names of their parts, lists between brackets.
-/

namespace SchemaMigration.Text

/-- The lower-case hexadecimal digits of a number. -/
def hexDigits (n : Nat) : List Char :=
  let digit (d : Nat) : Char := if d < 10 then Char.ofNat (48 + d) else Char.ofNat (87 + d)
  if n < 16 then [digit n] else hexDigits (n / 16) ++ [digit (n % 16)]
termination_by n

/-- One character inside a quoted text. -/
def escapeChar (c : Char) : List Char :=
  if c = '\x00' then ['\\', '0']
  else if c = '\t' then ['\\', 't']
  else if c = '\r' then ['\\', 'r']
  else if c = '\n' then ['\\', 'n']
  else if c = '\\' then ['\\', '\\']
  else if c = '"' then ['\\', '"']
  else if isShown c then [c]
  else ['\\', 'u', '\x7b'] ++ hexDigits c.toNat ++ ['\x7d']

/-- A text between double quotes. -/
def escaped (s : String) : String :=
  String.ofList ('"' :: s.toList.flatMap escapeChar ++ ['"'])

/-- Members with commas between them. -/
def commas : List String → String
  | [] => ""
  | [s] => s
  | s :: t :: r => s ++ ", " ++ commas (t :: r)

/-- A list between brackets. -/
def bracketed (members : List String) : String :=
  "[" ++ commas members ++ "]"

/-- A record: its name, and its parts with their names between braces. -/
def recordText (name : String) (parts : List (String × String)) : String :=
  name ++ " \x7b " ++ commas (parts.map fun part => part.1 ++ ": " ++ part.2) ++ " \x7d"

/-- A value under a name. -/
def applied (name value : String) : String :=
  name ++ "(" ++ value ++ ")"

/-- An optional value. -/
def optionText {α : Type} (f : α → String) : Option α → String
  | some a => applied "Some" (f a)
  | none => "None"

/-- A truth value. -/
def boolText (b : Bool) : String :=
  if b then "true" else "false"

end SchemaMigration.Text
