import SchemaMigration.Migration.Error

/-!
# Choosers

A chooser answers prompts. It is shown a prompt and the choices in order, the first one being the
default, and gives the key of one of them or declines. What it remembers between prompts is a state.

Model of `Chooser`, `AcceptDefaults` and `ScriptedChooser`.

* `Chooser.defaults` takes the first choice.
* `Chooser.script` gives prepared answers in order and remembers the prompts; after the last answer
  it declines.
-/

namespace SchemaMigration

/-- One of the answers to a prompt. -/
structure Choice where
  /-- What the chooser answers with. -/
  key : String
  /-- What is shown. -/
  label : String
deriving DecidableEq

/-- A way to answer prompts. -/
structure Chooser (κ : Type) where
  /-- The key of the answer, or none to decline, and the state after the prompt. -/
  choose : String → List Choice → κ → Except MigrationError (Option String) × κ

/-- The key of the default choice. -/
def defaultKey? (choices : List Choice) : Option String :=
  choices.head?.map Choice.key

/-- The key is on offer. -/
def offers (choices : List Choice) (key : String) : Bool :=
  choices.any fun c => c.key == key

namespace Chooser

/-- The chooser that takes every default (`AcceptDefaults`). -/
def defaults : Chooser Unit :=
  ⟨fun _ choices _ => (.ok (defaultKey? choices), ())⟩

/-- Prepared answers that are still to be given, and the prompts so far. -/
structure Script where
  /-- The answers to come. -/
  answers : List (Option String)
  /-- The prompts so far, in order. -/
  prompts : List String

/-- The answer to a prompt from a script. -/
def Script.answer (s : Script) (prompt : String) : Option String × Script :=
  match s.answers with
  | [] => (none, ⟨[], s.prompts ++ [prompt]⟩)
  | a :: r => (a, ⟨r, s.prompts ++ [prompt]⟩)

/-- The chooser that gives prepared answers (`ScriptedChooser`). -/
def script : Chooser Script :=
  ⟨fun prompt _ s => ((.ok (s.answer prompt).1), (s.answer prompt).2)⟩

end Chooser

end SchemaMigration
