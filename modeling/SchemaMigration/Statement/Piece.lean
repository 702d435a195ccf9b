import SchemaMigration.Dialect
import SchemaMigration.Value.Literal

/-!
# Pieces of a statement

A statement is put together from pieces: fixed words, quoted names, literals and parameters. Its
text is the text of the pieces one after the other, and its parameters are the parameter pieces in
the same order, so the two cannot fall out of step.

Model of `StatementWriter` and `CompiledStatement`.

* `sqlText` writes the text, counting placeholders from a given position.
* **`sqlText_append`**: the text of a concatenation is the concatenation of the texts, the second
  one counted on from the parameters of the first.
-/

namespace SchemaMigration

/-- A piece of a statement. -/
inductive Piece where
  /-- Words of SQL as they stand. -/
  | words (s : String)
  /-- A name between double quotes. -/
  | name (s : String)
  /-- A value written into the text. -/
  | literal (v : Value)
  /-- A value bound to a placeholder. -/
  | parameter (v : Value)
deriving DecidableEq

/-- A name between double quotes, its own quotes doubled (`quote_identifier`). -/
def quoteName (s : String) : String :=
  String.ofList (Text.quoted '"' s.toList)

namespace Piece

/-- The text of a piece, the next placeholder being at the position. -/
def sqlText (d : Dialect) (position : Nat) : Piece → String
  | .words s => s
  | .name s => quoteName s
  | .literal v => v.literal
  | .parameter _ => d.placeholder position

/-- The value that a piece binds. -/
def parameter? : Piece → Option Value
  | .parameter v => some v
  | _ => none

end Piece

/-- The position of the next placeholder after a piece. -/
def positionAfter (position : Nat) (p : Piece) : Nat :=
  if p.parameter?.isSome then position + 1 else position

/-- The text of a statement, its first placeholder being at the position. -/
def sqlText (d : Dialect) (position : Nat) : List Piece → String
  | [] => ""
  | p :: ps => p.sqlText d position ++ sqlText d (positionAfter position p) ps

/-- The parameters of a statement, in the order of their placeholders. -/
def parameters (ps : List Piece) : List Value :=
  ps.filterMap Piece.parameter?

@[simp]
theorem parameters_nil : parameters [] = [] :=
  rfl

@[simp]
theorem parameters_words (w : String) (ps : List Piece) :
    parameters (.words w :: ps) = parameters ps :=
  rfl

@[simp]
theorem parameters_name (name : String) (ps : List Piece) :
    parameters (.name name :: ps) = parameters ps :=
  rfl

@[simp]
theorem parameters_parameter (v : Value) (ps : List Piece) :
    parameters (.parameter v :: ps) = v :: parameters ps :=
  rfl

theorem parameters_append (ps qs : List Piece) :
    parameters (ps ++ qs) = parameters ps ++ parameters qs := by
  simp [parameters]

theorem positionAfter_add (n : Nat) (p : Piece) (ps : List Piece) :
    positionAfter n p + (parameters ps).length = n + (parameters (p :: ps)).length := by
  have hp : parameters (p :: ps) = p.parameter?.toList ++ parameters ps := by
    cases p <;> rfl
  rw [hp]
  cases p <;> simp [positionAfter, Piece.parameter?]
  omega

/-- The text of a concatenation: the second part counts its placeholders on from the first. -/
theorem sqlText_append (d : Dialect) (n : Nat) (ps qs : List Piece) :
    sqlText d n (ps ++ qs) = sqlText d n ps ++ sqlText d (n + (parameters ps).length) qs := by
  induction ps generalizing n with
  | nil => simp [sqlText, parameters]
  | cons p ps ih =>
    show p.sqlText d n ++ sqlText d (positionAfter n p) (ps ++ qs) = _
    rw [ih, positionAfter_add, ← String.append_assoc]
    rfl

/-- A statement with its parameters in the order of their placeholders (`CompiledStatement`). -/
structure Statement where
  /-- The text. -/
  sql : String
  /-- The parameters. -/
  parameters : List Value
deriving DecidableEq

/-- The statement that the pieces make up (`finish`). -/
def Statement.ofPieces (d : Dialect) (ps : List Piece) : Statement :=
  ⟨sqlText d 1 ps, SchemaMigration.parameters ps⟩

/-- The pieces of a list with commas between its members. -/
def Piece.commas (groups : List (List Piece)) : List Piece :=
  Text.intersperse [.words ", "] groups

end SchemaMigration
