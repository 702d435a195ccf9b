import SchemaMigration.Json.Number

/-!
# Reading JSON text

`parse` reads one value at the front of a text and gives it with the text after it. It follows the
grammar strictly: four blanks, no comments, no trailing commas, no control characters in strings.

* A fault becomes `Json.broken` at its place (see `SchemaMigration.Json.Basic`).
* An escape of a surrogate that has no partner, a number beyond the doubles, and an array or object
  more than `deepest` levels down are `Json.refused`.
* The recursion is bounded by the length of the text; every step takes a character off it.
-/

namespace SchemaMigration.Json

/-- The deepest level at which an array or object may be read. -/
def deepest : Nat := 127

/-- One of the four blanks of JSON. -/
def isSpace (c : Char) : Bool :=
  c == ' ' || c == '\n' || c == '\t' || c == '\r'

/-- The text from its first character that is no blank. -/
def skipSpace (s : List Char) : List Char :=
  s.dropWhile isSpace

/-! ## Strings -/

/-- The value of a hexadecimal digit in either case. -/
def hexValue? (c : Char) : Option Nat :=
  let n := c.toNat
  if 48 ≤ n ∧ n ≤ 57 then some (n - 48)
  else if 97 ≤ n ∧ n ≤ 102 then some (n - 87)
  else if 65 ≤ n ∧ n ≤ 70 then some (n - 55)
  else none

/-- Four hexadecimal digits at the front of a text, and the rest. -/
def hexUnit? : List Char → Option (Nat × List Char)
  | a :: b :: c :: d :: r => do
    let a ← hexValue? a
    let b ← hexValue? b
    let c ← hexValue? c
    let d ← hexValue? d
    return (((a * 16 + b) * 16 + c) * 16 + d, r)
  | _ => none

/-- The unit is the first half of a surrogate pair. -/
def isLeading (unit : Nat) : Bool :=
  decide (0xD800 ≤ unit) && decide (unit ≤ 0xDBFF)

/-- The unit is the second half of a surrogate pair. -/
def isTrailing (unit : Nat) : Bool :=
  decide (0xDC00 ≤ unit) && decide (unit ≤ 0xDFFF)

/-- The second half of a surrogate pair at the front of a text, and the rest. -/
def trailingUnit? : List Char → Option (Nat × List Char)
  | '\\' :: 'u' :: r => (hexUnit? r).filter fun unit => isTrailing unit.1
  | _ => none

/-- One piece of a string: a character, or the end of what can be read. -/
inductive Piece where
  /-- The string stands for this character here. -/
  | char (c : Char) (rest : List Char)
  /-- A surrogate without its partner stands here. -/
  | lone (rest : List Char)
  /-- The closing quote. -/
  | done (rest : List Char)
  /-- No string has this text. -/
  | wrong

/-- The character that a one-letter escape stands for. -/
def shortEscape? (c : Char) : Option Char :=
  if c = '"' ∨ c = '\\' ∨ c = '/' then some c
  else if c = 'b' then some '\x08'
  else if c = 'f' then some '\x0c'
  else if c = 'n' then some '\n'
  else if c = 'r' then some '\r'
  else if c = 't' then some '\t'
  else none

/-- What four hexadecimal digits after an escape mark stand for. -/
def unitPiece (s : List Char) : Piece :=
  match hexUnit? s with
  | none => .wrong
  | some (unit, rest) =>
    if isLeading unit then
      match trailingUnit? rest with
      | some (low, rest) => .char (Char.ofNat (0x10000 + (unit - 0xD800) * 0x400 + (low - 0xDC00))) rest
      | none => .lone rest
    else if isTrailing unit then .lone rest
    else .char (Char.ofNat unit) rest

/-- The next piece of a string's inside. -/
def nextPiece : List Char → Piece
  | [] => .wrong
  | '"' :: r => .done r
  | '\\' :: 'u' :: r => unitPiece r
  | '\\' :: c :: r =>
    match shortEscape? c with
    | some c => .char c r
    | none => .wrong
  | c :: r => if c.toNat < 0x20 ∨ c = '\\' then .wrong else .char c r

/-- The inside of a string up to its closing quote, in reverse after `read`, and whether it holds a
lone surrogate. -/
def readString? : Nat → List Char → Bool → List Char → Option (List Char × Bool × List Char)
  | 0, _, _, _ => none
  | fuel + 1, read, lone, s =>
    match nextPiece s with
    | .char c rest => readString? fuel (c :: read) lone rest
    | .lone rest => readString? fuel read true rest
    | .done rest => some (read.reverse, lone, rest)
    | .wrong => none

/-- A string after its opening quote. -/
def stringBody? (s : List Char) : Option (List Char × Bool × List Char) :=
  readString? (s.length + 1) [] false s

/-! ## Values -/

/-- What stands after `word` at the front of a text gives the literal `j`. -/
def literal (word : List Char) (j : Json) (s : List Char) : Json × List Char :=
  match word.isPrefixOf? s with
  | some rest => (j, rest)
  | none => (.broken, [])

/-- A collection below the deepest level is refused. -/
def shallow (depth : Nat) (j : Json) : Json :=
  if depth = 0 ∧ j.isWhole then .refused else j

mutual

/-- One value at the front of a text, `depth` more levels being allowed. -/
def parseValue : Nat → Nat → List Char → Json × List Char
  | 0, _, _ => (.broken, [])
  | fuel + 1, depth, s =>
    match skipSpace s with
    | [] => (.broken, [])
    | '"' :: r =>
      match stringBody? r with
      | some (cs, lone, rest) => (if lone then .refused else .text (String.ofList cs), rest)
      | none => (.broken, [])
    | '[' :: r =>
      let (items, rest) :=
        match skipSpace r with
        | ']' :: t => ([], t)
        | t => parseItems fuel (depth - 1) t
      (shallow depth (.array items), rest)
    | '{' :: r =>
      let (members, rest) :=
        match skipSpace r with
        | '}' :: t => ([], t)
        | t => parseMembers fuel (depth - 1) t
      (shallow depth (.object members), rest)
    | 't' :: r => literal "rue".toList (.bool true) r
    | 'f' :: r => literal "alse".toList (.bool false) r
    | 'n' :: r => literal "ull".toList .null r
    | t =>
      match readNumber? t with
      | some (number, rest) => (number.value, rest)
      | none => (.broken, [])

/-- The items of an array from one item to the closing bracket. -/
def parseItems : Nat → Nat → List Char → List Json × List Char
  | 0, _, _ => ([.broken], [])
  | fuel + 1, depth, s =>
    let (j, rest) := parseValue fuel depth s
    if j.isWhole then
      match skipSpace rest with
      | ',' :: r =>
        let (items, rest) := parseItems fuel depth r
        (j :: items, rest)
      | ']' :: r => ([j], r)
      | _ => ([j, .broken], [])
    else ([j], [])

/-- The members of an object from one key to the closing brace. -/
def parseMembers : Nat → Nat → List Char → List (String × Json) × List Char
  | 0, _, _ => ([("", .broken)], [])
  | fuel + 1, depth, s =>
    match skipSpace s with
    | '"' :: r =>
      match stringBody? r with
      | some (cs, lone, rest) =>
        match skipSpace rest with
        | ':' :: r =>
          let key := if lone then "" else String.ofList cs
          let (j, rest) := parseValue fuel depth r
          if j.isWhole then
            let j := if lone then .nameless else j
            match skipSpace rest with
            | ',' :: r =>
              let (members, rest) := parseMembers fuel depth r
              ((key, j) :: members, rest)
            | '}' :: r => ([(key, j)], r)
            | _ => ([(key, j), ("", .broken)], [])
          else ([(key, j)], [])
        | _ => ([("", .broken)], [])
      | none => ([("", .broken)], [])
    | _ => ([("", .broken)], [])

end

/-- One value at the front of a text, and the text after it. -/
def parse (s : List Char) : Json × List Char :=
  parseValue (2 * s.length + 2) deepest s

end SchemaMigration.Json
