import SchemaMigration.Misuse

/-!
# Identifiers

Names that are safe to write into SQL: one ASCII letter or underscore, then ASCII letters, digits,
underscores and hyphens.

Model of `validate_identifier`.

* `Identifier.misuse?` is the first thing wrong with a name, and `Identifier.check` refuses it.
* **`Identifier.misuse?_eq_none_iff`**: nothing is wrong iff the name starts and continues with the
  right characters.
-/

namespace SchemaMigration

namespace Identifier

/-- An identifier may start with the character. -/
def isStart (c : Char) : Bool :=
  c.isAlpha || c == '_'

/-- An identifier may go on with the character. -/
def isRest (c : Char) : Bool :=
  c.isAlphanum || c == '_' || c == '-'

/-- The first thing wrong with a name. -/
def misuse? (name : String) : Option Misuse :=
  match name.toList with
  | [] => some .emptyIdentifier
  | c :: r =>
    if isStart c = false then some (.identifierStart name)
    else (r.find? fun d => !isRest d).map (.identifierCharacter name)

/-- Refuses a name that is no identifier (`validate_identifier`). -/
def check (name : String) : Except Misuse Unit :=
  match misuse? name with
  | some m => .error m
  | none => .ok ()

/-- The characters make up an identifier. -/
def Spelled : List Char → Prop
  | [] => False
  | c :: r => isStart c = true ∧ ∀ d ∈ r, isRest d = true

theorem isRest_of_isStart {c : Char} (h : isStart c = true) : isRest c = true := by
  simp only [isStart, isRest, Char.isAlphanum, Bool.or_eq_true] at *
  rcases h with h | h
  · exact Or.inl (Or.inl (Or.inl h))
  · exact Or.inl (Or.inr h)

/-- Nothing is wrong with a name iff its characters make up an identifier. -/
theorem misuse?_eq_none_iff (name : String) : misuse? name = none ↔ Spelled name.toList := by
  unfold misuse?
  cases name.toList with
  | nil => simp [Spelled]
  | cons c r => cases h : isStart c <;> simp [Spelled, h]

theorem check_eq_ok_iff (name : String) : check name = .ok () ↔ misuse? name = none := by
  unfold check
  cases misuse? name <;> simp

end Identifier

end SchemaMigration
