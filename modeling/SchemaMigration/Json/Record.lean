import SchemaMigration.Json.Reader
import SchemaMigration.Misuse

/-!
# Decoding JSON

A decoder turns a JSON value into a value of the domain or says why not. Only one kind of reason is
worth telling apart: a meaning the domain itself refuses, with its `Misuse`. All else is malformed.

* `Json.readText`, `Json.readBool`, `Json.readWord`, `Json.readList` and the other leaves read one
  value.
* A record is written as an object, or as an array of its fields in declared order. Its fields are
  read with `Record.required`, `Record.optional` and `Record.defaulted` and put together by
  `<$>` and `<*>`. Unknown members are passed over; a repeated key is malformed.
* Of several faults the one that is written first wins. That is what `Located` keeps track of, so
  that the order in which a decoder names its fields does not matter.
-/

namespace SchemaMigration

/-- Why a text could not be decoded. -/
inductive ReadFault where
  /-- The text is not JSON, or is JSON of another shape. -/
  | malformed
  /-- The text says something that the domain refuses. -/
  | refused (misuse : Misuse)
deriving DecidableEq, Repr

/-- A decoded value, or the reason why there is none. -/
abbrev Read (α : Type) := Except ReadFault α

namespace Json

/-! ## Leaves -/

/-- How a value comes to its decoder. -/
inductive Reading where
  /-- Straight from the text. -/
  | direct
  /-- Out of a value that was taken in as a whole to find its tag. -/
  | held
deriving DecidableEq, Repr

/-- A string. -/
def readText : Json → Read String
  | .text s => .ok s
  | _ => .error .malformed

/-- A truth value. -/
def readBool : Json → Read Bool
  | .bool b => .ok b
  | _ => .error .malformed

/-- A natural number up to a bound. -/
def readNat (bound : Nat) : Json → Read Nat
  | .int n => if 0 ≤ n ∧ n ≤ bound then .ok n.toNat else .error .malformed
  | _ => .error .malformed

/-- A natural number of 32 bits. -/
def readWord32 (j : Json) : Read UInt32 :=
  (readNat (twoTo 32 - 1) j).map UInt32.ofNat

/-- A natural number of 64 bits. -/
def readWord64 (j : Json) : Read UInt64 :=
  (readNat (twoTo 64 - 1) j).map UInt64.ofNat

/-- A value or `null`. -/
def readOption {α : Type} (read : Json → Read α) : Json → Read (Option α)
  | .null => .ok none
  | j => (read j).map some

/-- The items of a list, in order. -/
def readItems {α : Type} (read : Json → Read α) : List Json → Read (List α)
  | [] => .ok []
  | j :: r => do
    let a ← read j
    let rest ← readItems read r
    return a :: rest

/-- An array of values of one kind. -/
def readList {α : Type} (read : Json → Read α) : Json → Read (List α)
  | .array items => readItems read items
  | _ => .error .malformed

/-- The word that a value writes: alone, or as the only key of an object with the value `null`. In a
value that was held the empty object may stand for `null`. -/
def word? (reading : Reading) : Json → Option String
  | .text s => some s
  | .object [(s, .null)] => some s
  | .object [(s, .object [])] => if reading = .held then some s else none
  | _ => none

/-- One of finitely many words. -/
def readName {α : Type} (reading : Reading) (names : List (String × α)) (j : Json) : Read α :=
  match (word? reading j).bind fun s => names.lookup s with
  | some a => .ok a
  | none => .error .malformed

/-- One of some words, as it stands or by its position among them. -/
def readWordOrPosition (words : List String) : Json → Read String
  | .text s => .ok s
  | .int n => if n < 0 then .error .malformed else (words[n.toNat]?).elim (.error .malformed) .ok
  | _ => .error .malformed

/-- Refuses a value of which a part could not be read. -/
def requireData (j : Json) : Read Unit :=
  if j.isData then .ok () else .error .malformed

/-- A pair, written as an array of two. -/
def readPair {α β : Type} (first : Json → Read α) (second : Json → Read β) : Json → Read (α × β)
  | .array [j, k] => do
    let a ← first j
    let b ← second k
    return (a, b)
  | _ => .error .malformed

end Json

/-! ## Records -/

/-- A value decoded from the members of a record, or a fault with the place of its member. -/
structure Located (α : Type) where
  /-- The value, or the place and the reason of the earliest fault. -/
  outcome : Except (Nat × ReadFault) α

namespace Located

/-- Both parts; of two faults the earlier. -/
def both {α β : Type} (f : Located (α → β)) (x : Located α) : Located β :=
  ⟨match f.outcome, x.outcome with
    | .ok g, .ok a => .ok (g a)
    | .error e, .ok _ => .error e
    | .ok _, .error e => .error e
    | .error e, .error e' => .error (if e'.1 < e.1 then e' else e)⟩

instance : Applicative Located where
  pure a := ⟨.ok a⟩
  seq f x := both f (x ())

/-- A value decoded at a place. -/
def atPlace {α : Type} (place : Nat) (a : Read α) : Located α :=
  ⟨a.mapError fun fault => (place, fault)⟩

end Located

/-- The members of a record as they are written. -/
structure Record where
  /-- The record is an array of fields in declared order. -/
  positional : Bool
  /-- Keys and values. -/
  members : List (String × Json)

namespace Record

/-- The values of a key with the places where they stand. -/
def find (r : Record) (key : String) : List (Nat × Json) :=
  r.members.zipIdx.filterMap fun member =>
    if member.1.1 = key then some (member.2, member.1.2) else none

/-- The value of a field, or `absent` where the record does not have it. -/
def field {α : Type} (r : Record) (key : String) (absent : Read α) (read : Json → Read α) :
    Located α :=
  match r.find key with
  | [] => Located.atPlace r.members.length absent
  | [(place, j)] => Located.atPlace place (read j)
  | (place, j) :: (again, _) :: _ =>
    match read j with
    | .ok _ => Located.atPlace again (.error .malformed)
    | .error fault => Located.atPlace place (.error fault)

/-- A field that must be there. -/
def required {α : Type} (r : Record) (key : String) (read : Json → Read α) : Located α :=
  r.field key (.error .malformed) read

/-- A field that an object may leave out or set to `null`. -/
def optional {α : Type} (r : Record) (key : String) (read : Json → Read α) : Located (Option α) :=
  r.field key (if r.positional then .error .malformed else .ok none) (Json.readOption read)

/-- A field with a default where it is left out. -/
def defaulted {α : Type} (r : Record) (key : String) (value : α) (read : Json → Read α) :
    Located α :=
  r.field key (.ok value) read

/-- The value may be passed over under a key that is none of the fields. -/
def isPassed : Json → Bool
  | .nameless => false
  | j => j.isWhole

/-- The first member that is none of the fields and may not be passed over, or that exceeds an
array's fields. -/
def strays (r : Record) (fields : List String) : Located Unit :=
  match r.members.zipIdx.find? fun member =>
      !fields.contains member.1.1 && (r.positional || !isPassed member.1.2) with
  | some member => Located.atPlace member.2 (.error .malformed)
  | none => ⟨.ok ()⟩

/-- The decoded fields of a record that has no stray members. -/
def close {α : Type} (r : Record) (fields : List String) (value : Located α) : Read α :=
  match (Located.both ((fun a (_ : Unit) => a) <$> value) (r.strays fields)).outcome with
  | .ok a => .ok a
  | .error e => .error e.2

/-- The items of an array under the names of the fields; items beyond the fields have no name. -/
def nameItems : List String → List Json → List (String × Json)
  | _, [] => []
  | [], j :: r => ("", j) :: nameItems [] r
  | f :: fs, j :: r => (f, j) :: nameItems fs r

/-- The record that a value writes, with the given fields. -/
def ofJson? (fields : List String) : Json → Option Record
  | .object members => some ⟨false, members⟩
  | .array items => some ⟨true, nameItems fields items⟩
  | _ => none

/-- Decodes a record with the given fields. -/
def read {α : Type} (fields : List String) (value : Record → Located α) (j : Json) : Read α :=
  match ofJson? fields j with
  | some r => r.close fields (value r)
  | none => .error .malformed

/-! ## Tagged records -/

/-- The tag of a tagged record, and the record without it. The tag is a member of the object, or
the first item of the array; `readTag` says which values are tags. -/
def splitTag (tag : String) (readTag : Json → Read String) : Json → Read (String × Json)
  | .object members =>
    match members.filter fun member => member.1 == tag with
    | [member] => do
      let word ← readTag member.2
      return (word, .object (members.filter fun member => member.1 != tag))
    | _ => .error .malformed
  | .array (j :: items) => do
    let word ← readTag j
    return (word, .array items)
  | _ => .error .malformed

end Record

/-- Decodes a whole text: a value and nothing but blanks after it. -/
def decodeText {α : Type} (read : Json → Read α) (text : String) : Read α := do
  let (j, rest) := Json.parse text.toList
  let a ← read j
  if (Json.skipSpace rest).isEmpty then return a else .error .malformed

end SchemaMigration
