/-!
# Cutting texts

Finding a mark in a text, and taking what stands before, after or between marks.

* `splitFirst?` and `splitLast?` cut at the first and at the last occurrence of a mark.
* `enclosed?` takes the text between an opening and a closing mark that do not overlap.
* `joinWith` and `intersperse` put a separator between the members of a list.
-/

namespace SchemaMigration.Text

/-- What stands before and after the first occurrence of `mark`. -/
def splitFirst? (mark : List Char) : List Char → Option (List Char × List Char)
  | [] => (mark.isPrefixOf? []).map fun after => ([], after)
  | c :: r =>
    match mark.isPrefixOf? (c :: r) with
    | some after => some ([], after)
    | none => (splitFirst? mark r).map fun cut => (c :: cut.1, cut.2)

/-- What stands before and after the last occurrence of `mark`. -/
def splitLast? (mark : List Char) : List Char → Option (List Char × List Char)
  | [] => (mark.isPrefixOf? []).map fun after => ([], after)
  | c :: r =>
    match splitLast? mark r with
    | some cut => some (c :: cut.1, cut.2)
    | none => (mark.isPrefixOf? (c :: r)).map fun after => ([], after)

/-- The mark occurs somewhere in the text. -/
def occurs (mark s : List Char) : Bool :=
  (splitFirst? mark s).isSome

/-- The text between `opening` at the front and `closing` at the end. -/
def enclosed? (opening closing s : List Char) : Option (List Char) :=
  (opening.isPrefixOf? s).bind fun rest => closing.isSuffixOf? rest

/-- The texts are equal when the ASCII letters are read without their case. -/
def sameAsciiLetters (a b : List Char) : Bool :=
  a.map Char.toLower == b.map Char.toLower

/-- The members in order with `separator` between them. -/
def joinWith (separator : String) : List String → String
  | [] => ""
  | [s] => s
  | s :: t :: rest => s ++ separator ++ joinWith separator (t :: rest)

/-- The members in order with `separator` between the groups. -/
def intersperse {α : Type} (separator : List α) : List (List α) → List α
  | [] => []
  | [g] => g
  | g :: h :: rest => g ++ separator ++ intersperse separator (h :: rest)

end SchemaMigration.Text
