import SchemaMigration.Text.Blank
import SchemaMigration.Text.CaseFold
import SchemaMigration.Text.Word

/-!
# Counting columns in a table's definition

SQLite tells only by the text of a table's definition whether its key column counts up. The text is
searched for the name of the column, quoted in one of four ways, followed by the words of a counting
key. Letters are compared without their case.

Model of `declares_autoincrement`.

* The name stands at the start of the text or after a blank, an opening parenthesis or a comma.
* The words are separated by blanks; an order may stand before the last one, which ends there.

Out of scope: the search is carried out by a pattern that is made from the name. The pattern of a
very long name is refused as too big, and then the description fails with a text about it. Here
every name is searched for.
-/

namespace SchemaMigration

open Text

/-- The rest of a text that starts with these letters, case aside. -/
def dropLetters? : List Char → List Char → Option (List Char)
  | [], s => some s
  | _ :: _, [] => none
  | a :: p, b :: s => if sameLetter a b then dropLetters? p s else none

/-- The rest of a text that starts with blanks and these letters, case aside. -/
def dropWord? (word s : List Char) : Option (List Char) :=
  (skipBlanks? s).bind (dropLetters? word)

/-- The rest of a text that starts with these words. -/
def dropWords? : List (List Char) → List Char → Option (List Char)
  | [], s => some s
  | w :: ws, s => (dropWord? w s).bind (dropWords? ws)

/-- The text starts with these words, and the last one ends there. -/
def startsWithWords (words : List String) (s : List Char) : Bool :=
  match dropWords? (words.map String.toList) s with
  | some rest => endsWord rest
  | none => false

/-- The words of a counting key, with an optional order before the last one. -/
def countingKeys : List (List String) :=
  [["INTEGER", "PRIMARY", "KEY", "AUTOINCREMENT"],
    ["INTEGER", "PRIMARY", "KEY", "ASC", "AUTOINCREMENT"],
    ["INTEGER", "PRIMARY", "KEY", "DESC", "AUTOINCREMENT"]]

/-- The spellings of a column's name in a definition. -/
def nameSpellings (name : List Char) : List (List Char) :=
  ['"' :: name ++ ['"'], '\x60' :: name ++ ['\x60'], '[' :: name ++ [']'], name]

/-- A counting column of this name is defined at the front of the text. -/
def definesCounting (name s : List Char) : Bool :=
  (nameSpellings name).any fun spelling =>
    match dropLetters? spelling s with
    | some rest => countingKeys.any fun words => startsWithWords words rest
    | none => false

/-- A column definition may stand after the character. -/
def opensDefinition (c : Char) : Bool :=
  isBlank c || c == '(' || c == ','

/-- A counting column of this name is defined after some character of the text. -/
def definesCountingInside (name : List Char) : List Char → Bool
  | [] => false
  | c :: r => (opensDefinition c && definesCounting name r) || definesCountingInside name r

/-- The definition of a table says that the column counts up (`declares_autoincrement`). -/
def declaresCounting (definition name : String) : Bool :=
  definesCounting name.toList definition.toList ||
    definesCountingInside name.toList definition.toList

end SchemaMigration
