import SchemaMigration.Chooser
import SchemaMigration.Number.Decimal
import SchemaMigration.Text.Blank

/-!
# Choosing at a terminal

The prompt and its numbered choices are written out, and lines are read until one decides:

* an empty line takes the default;
* a number from one up takes that choice, even where another choice has it as its key;
* a key takes its choice, even where the key is `q`;
* `q` in either case, or the end of the input, declines.

Any other line is called unknown and the prompt is put again. A line that is no text is read and
fails the prompt.

Model of `TerminalChooser`.

Out of scope: a prompt that cannot be written out, which fails with the error of the output; here
the output is a text that grows. Also out of scope: an input that fails otherwise than by a line
that is no text, and the standard streams of a process (`stdio`).
-/

namespace SchemaMigration

/-- A line of input. -/
inductive Line where
  /-- A line of text. -/
  | text (s : String)
  /-- A line whose bytes are no text. -/
  | unreadable

/-- The bytes cut after every line feed. -/
def splitLines (current : List UInt8) : List UInt8 → List (List UInt8)
  | [] => if current.isEmpty then [] else [current.reverse]
  | b :: r =>
    if b = 10 then (b :: current).reverse :: splitLines [] r else splitLines (b :: current) r

/-- The line that bytes make up. -/
def Line.ofBytes (bytes : List UInt8) : Line :=
  match String.fromUTF8? ⟨bytes.toArray⟩ with
  | some s => .text s
  | none => .unreadable

/-- A terminal: the lines that are still to be read, and all that was written. -/
structure Terminal where
  /-- The input to come. -/
  pending : List Line
  /-- The output so far. -/
  written : String

namespace Terminal

/-- The terminal with these bytes as its input. -/
def ofBytes (bytes : List UInt8) : Terminal :=
  ⟨(splitLines [] bytes).map Line.ofBytes, ""⟩

/-- The lines of the choices, numbered from `n`; the first one is the default. -/
def choiceLines (n : Nat) : List Choice → String
  | [] => ""
  | c :: r =>
    "  [" ++ Decimal.showNat n ++ "] " ++ c.label ++ (if n = 1 then " (default)" else "") ++ "\n" ++
      choiceLines (n + 1) r

/-- A prompt as it is written out (`render`). -/
def question (prompt : String) (choices : List Choice) : String :=
  prompt ++ "\n" ++ choiceLines 1 choices ++ "Choice [1-" ++ Decimal.showNat choices.length ++
    ", q to abort]: "

/-- The choice that a number stands for. -/
def numbered? (choices : List Choice) (answer : List Char) : Option Choice :=
  match Decimal.readUnsigned? answer with
  | some n => if 0 < n ∧ n < twoTo 64 then choices[n - 1]? else none
  | none => none

/-- The choice that a trimmed answer stands for. -/
def picked? (choices : List Choice) (answer : List Char) : Option Choice :=
  match numbered? choices answer with
  | some c => some c
  | none => choices.find? fun c => c.key == String.ofList answer

/-- What a line decides: a key, or to decline; nothing if it is unknown. -/
def verdict? (choices : List Choice) (answer : List Char) : Option (Option String) :=
  if answer.isEmpty then some (defaultKey? choices)
  else
    match picked? choices answer with
    | some c => some (some c.key)
    | none => if answer = ['q'] ∨ answer = ['Q'] then some none else none

/-- The complaint about an unknown answer. -/
def complaint (answer : List Char) : String :=
  "Unknown choice '" ++ String.ofList answer ++ "'.\n"

/-- Puts a prompt until a line decides it (`choose`). -/
def converse (prompt : String) (choices : List Choice) (written : String) :
    List Line → Except MigrationError (Option String) × Terminal
  | [] => (.ok none, ⟨[], written ++ question prompt choices⟩)
  | .unreadable :: rest =>
    (.error (.io "stream did not contain valid UTF-8"), ⟨rest, written ++ question prompt choices⟩)
  | .text line :: rest =>
    let answer := Text.trim line.toList
    match verdict? choices answer with
    | some key => (.ok key, ⟨rest, written ++ question prompt choices⟩)
    | none => converse prompt choices (written ++ question prompt choices ++ complaint answer) rest

/-- The answer to a prompt at the terminal. -/
def answer (t : Terminal) (prompt : String) (choices : List Choice) :
    Except MigrationError (Option String) × Terminal :=
  converse prompt choices t.written t.pending

end Terminal

/-- The chooser that asks at a terminal (`TerminalChooser`). -/
def Chooser.terminal : Chooser Terminal :=
  ⟨fun prompt choices t => t.answer prompt choices⟩

end SchemaMigration
