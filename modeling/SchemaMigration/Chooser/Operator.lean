import SchemaMigration.Chooser.Terminal

/-!
# Operators

One chooser that stands for any of the three: it is told at the start which one it is, and keeps the
state of that one.
-/

namespace SchemaMigration

/-- Who answers the prompts. -/
inductive Operator where
  /-- Nobody: the defaults hold. -/
  | defaults
  /-- A script. -/
  | script (s : Chooser.Script)
  /-- A person at a terminal. -/
  | terminal (t : Terminal)

namespace Operator

/-- The answer of an operator to a prompt. -/
def answer (prompt : String) (choices : List Choice) :
    Operator → Except MigrationError (Option String) × Operator
  | .defaults => (.ok (defaultKey? choices), .defaults)
  | .script s => (.ok (s.answer prompt).1, .script (s.answer prompt).2)
  | .terminal t => ((t.answer prompt choices).1, .terminal (t.answer prompt choices).2)

/-- The chooser that asks an operator. -/
def chooser : Chooser Operator :=
  ⟨fun prompt choices o => o.answer prompt choices⟩

end Operator

end SchemaMigration
