import SchemaMigration.Identifier
import SchemaMigration.Text.Slice

/-!
# Collections

A collection has a name and may live in a namespace, its scope. Both are identifiers without the
separator `__`, which the type keeps as an invariant. The identity `scope__name`, or just the name,
is the name of the physical table.

Model of `CollectionRef` and of `validate_part`.

* `CollectionRef.named` and `CollectionRef.within` build references; `parseIdentity` cuts an
  identity at the first separator.
* References are ordered by scope, none first, and then by name.
-/

namespace SchemaMigration

/-- What stands between scope and name in an identity, and between a handle and its locale
(`NAMESPACE_SEPARATOR`). -/
def separator : String := "__"

/-- The first thing wrong with a scope or a name (`validate_part`). -/
def partMisuse? (part : String) : Option Misuse :=
  match Identifier.misuse? part with
  | some m => some m
  | none =>
    if Text.occurs separator.toList part.toList then some (.separatorInName part) else none

/-- A reference to a collection. -/
structure CollectionRef where
  /-- The namespace the collection lives in. -/
  scope : Option String
  /-- The name inside the namespace. -/
  name : String
  /-- The namespace is a well-formed part. -/
  scope_valid : ∀ s, scope = some s → partMisuse? s = none
  /-- The name is a well-formed part. -/
  name_valid : partMisuse? name = none
deriving DecidableEq

namespace CollectionRef

/-- A collection outside every namespace (`new`). -/
def named (name : String) : Except Misuse CollectionRef :=
  match h : partMisuse? name with
  | some m => .error m
  | none => .ok ⟨none, name, by simp, h⟩

/-- The collection of the same name inside a namespace (`in_namespace`). -/
def within (c : CollectionRef) (scope : String) : Except Misuse CollectionRef :=
  match h : partMisuse? scope with
  | some m => .error m
  | none => .ok ⟨some scope, c.name, by rintro s ⟨⟩; exact h, c.name_valid⟩

/-- A collection by its optional namespace and its name; the name is checked first. -/
def make (scope : Option String) (name : String) : Except Misuse CollectionRef := do
  let c ← named name
  match scope with
  | some s => c.within s
  | none => return c

/-- The text that names the collection everywhere: the physical table has this name. -/
def identity (c : CollectionRef) : String :=
  match c.scope with
  | some s => s ++ separator ++ c.name
  | none => c.name

/-- The collection that an identity names (`parse_identity`). -/
def parseIdentity (identity : String) : Except Misuse CollectionRef :=
  match Text.splitFirst? separator.toList identity.toList with
  | some (scope, name) => make (some (String.ofList scope)) (String.ofList name)
  | none => named identity

/-- The order of listings: no namespace first, then by namespace, then by name. -/
def le (a b : CollectionRef) : Bool :=
  match a.scope, b.scope with
  | none, none => decide (a.name ≤ b.name)
  | none, some _ => true
  | some _, none => false
  | some s, some t => decide (s < t) || (decide (s = t) && decide (a.name ≤ b.name))

/-- References in the order of listings. -/
def sorted (cs : List CollectionRef) : List CollectionRef :=
  cs.mergeSort le

end CollectionRef

end SchemaMigration
