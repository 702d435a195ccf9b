import SchemaMigration.Number.Binary64

/-!
# JSON documents

A document as a reader meets it, from left to right. The reader does not stop at a fault: the value
at which the text goes wrong stands as `broken` in its place, and nothing follows it. A decoder that
walks the members in order therefore meets the faults of the text and of its meaning in the order in
which they are written.

* `int` holds every integer that fits 64 bits, signed or unsigned; other numbers are `float`s.
* `refused` is well-formed text that is no data: a lone surrogate, a number beyond the doubles, or a
  value nested too deeply. It may be passed over but not read.
* `nameless` stands for the value of a member whose key holds a lone surrogate. Such an object may be
  passed over as a whole, but whoever reads its keys meets a fault there.
* `isWhole` says that the text is well formed, `isData` that all of it may also be read.
-/

namespace SchemaMigration

/-- A JSON value. -/
inductive Json where
  /-- The literal `null`. -/
  | null
  /-- A truth value. -/
  | bool (b : Bool)
  /-- An integer of at most 64 bits. -/
  | int (n : Int)
  /-- Any other number. -/
  | float (x : Binary64)
  /-- A string. -/
  | text (s : String)
  /-- An array. -/
  | array (items : List Json)
  /-- An object, its members in written order, repeated keys included. -/
  | object (members : List (String × Json))
  /-- Well-formed text that is no data. -/
  | refused
  /-- The well-formed value of a member whose key is no text. -/
  | nameless
  /-- The text is not well formed from here on. -/
  | broken

namespace Json

mutual

/-- The text of the value is well formed. -/
def isWhole : Json → Bool
  | .broken => false
  | .array items => allWhole items
  | .object members => membersWhole members
  | _ => true

/-- Every item is well formed. -/
def allWhole : List Json → Bool
  | [] => true
  | j :: r => isWhole j && allWhole r

/-- Every member is well formed. -/
def membersWhole : List (String × Json) → Bool
  | [] => true
  | m :: r => isWhole m.2 && membersWhole r

end

mutual

/-- All of the value may be read. -/
def isData : Json → Bool
  | .broken => false
  | .refused => false
  | .nameless => false
  | .array items => allData items
  | .object members => membersData members
  | _ => true

/-- Every item may be read. -/
def allData : List Json → Bool
  | [] => true
  | j :: r => isData j && allData r

/-- Every member may be read. -/
def membersData : List (String × Json) → Bool
  | [] => true
  | m :: r => isData m.2 && membersData r

end

end Json

end SchemaMigration
