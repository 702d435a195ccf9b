import SchemaMigration.Collection

/-!
# Locales

A locale code is a language of two small letters, with an optional region of two capitals after a
hyphen. The handle of a localized column is its base handle, the separator and the code.

Model of `validate_locale`, `localize` and `split_localized`.

* `splitLocalized?` cuts a handle into base and code. A code holds no underscore, so the separator
  before it is the last one of the handle that has a code after it, and the cut is unique.
-/

namespace SchemaMigration.Locale

/-- A small ASCII letter. -/
def isSmall (c : Char) : Bool :=
  decide ('a' ≤ c) && decide (c ≤ 'z')

/-- A capital ASCII letter. -/
def isCapital (c : Char) : Bool :=
  decide ('A' ≤ c) && decide (c ≤ 'Z')

/-- The characters of a base handle. -/
def isHandleChar (c : Char) : Bool :=
  c.isAlphanum || c == '_' || c == '-'

/-- The characters make up a locale code. -/
def isCode : List Char → Bool
  | [a, b] => isSmall a && isSmall b
  | [a, b, '-', c, d] => isSmall a && isSmall b && isCapital c && isCapital d
  | _ => false

/-- The text is a locale code. -/
def isValid (code : String) : Bool :=
  isCode code.toList

/-- Refuses a text that is no locale code (`validate_locale`). -/
def check (code : String) : Except Misuse Unit :=
  if isValid code then .ok () else .error (.invalidLocale code)

/-- Refuses the first text of a list that is no locale code. -/
def checkAll (codes : List String) : Except Misuse Unit :=
  match codes.find? fun code => !isValid code with
  | some code => .error (.invalidLocale code)
  | none => .ok ()

/-- The handle of a localized column or index. -/
def localize (handle code : String) : String :=
  handle ++ separator ++ code

/-- Base and code of the characters of a localized handle. -/
def splitChars? : List Char → Option (List Char × List Char)
  | [] => none
  | c :: r =>
    if isHandleChar c then
      match r with
      | '_' :: '_' :: code => if isCode code then some ([c], code) else (splitChars? r).map fun cut => (c :: cut.1, cut.2)
      | _ => (splitChars? r).map fun cut => (c :: cut.1, cut.2)
    else none

/-- Base and code of a localized handle (`split_localized`). -/
def splitLocalized? (handle : String) : Option (String × String) :=
  (splitChars? handle.toList).map fun cut => (String.ofList cut.1, String.ofList cut.2)

end SchemaMigration.Locale
