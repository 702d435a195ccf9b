import SchemaMigration.Identifier
import SchemaMigration.Value

/-!
# Predicates

Conditions on the fields of a row: comparisons with literals or variables, tests for null and for
membership, and their conjunctions, disjunctions and negations.

Model of `Operand`, `CompareOp` and `Predicate`.

* `Predicate.and` and `Predicate.or` append to a compound of their own kind on the left.
* `Predicate.operands` lists the operands from left to right, `Predicate.variableNames` the names of
  those that are variables.
* `Predicate.check` refuses bad field names and empty membership tests, the leftmost first.

Out of scope: the shorthands `field` and `var`, which put predicates and operands together.
-/

namespace SchemaMigration

/-- The right-hand side of a comparison or of an assignment. -/
inductive Operand where
  /-- A literal. -/
  | value (v : Value)
  /-- A variable, by its name. -/
  | variable (name : String)
deriving DecidableEq, BEq, Inhabited

/-- A comparison operator (`CompareOp`). -/
inductive Comparison where
  | eq
  | notEq
  | less
  | lessEq
  | greater
  | greaterEq
  | like
deriving DecidableEq, Inhabited

namespace Comparison

/-- The SQL operator (`as_sql`). -/
def operator : Comparison → String
  | .eq => "="
  | .notEq => "<>"
  | .less => "<"
  | .lessEq => "<="
  | .greater => ">"
  | .greaterEq => ">="
  | .like => "LIKE"

/-- The name of a comparison in serialized queries. -/
def name : Comparison → String
  | .eq => "eq"
  | .notEq => "not_eq"
  | .less => "lt"
  | .lessEq => "lt_eq"
  | .greater => "gt"
  | .greaterEq => "gt_eq"
  | .like => "like"

/-- Names paired with their comparisons. -/
def names : List (String × Comparison) :=
  [.eq, .notEq, .less, .lessEq, .greater, .greaterEq, .like].map fun op => (op.name, op)

end Comparison

/-- A condition on the fields of a row. -/
inductive Predicate where
  /-- The field compares with the operand. -/
  | compare (field : String) (op : Comparison) (operand : Operand)
  /-- The field is null, or is not when negated. -/
  | isNull (field : String) (negated : Bool)
  /-- The field is one of the operands, or is none when negated. -/
  | inList (field : String) (operands : List Operand) (negated : Bool)
  /-- Every condition holds. -/
  | all (predicates : List Predicate)
  /-- Some condition holds. -/
  | any (predicates : List Predicate)
  /-- The condition does not hold. -/
  | not (predicate : Predicate)
deriving Inhabited

namespace Predicate

/-- Both conditions hold; a conjunction on the left takes the other as its last member. -/
def and : Predicate → Predicate → Predicate
  | .all ps, q => .all (ps ++ [q])
  | p, q => .all [p, q]

/-- One of the conditions holds; a disjunction on the left takes the other as its last member. -/
def or : Predicate → Predicate → Predicate
  | .any ps, q => .any (ps ++ [q])
  | p, q => .any [p, q]

/-- A conjunction or a disjunction. -/
def isCompound : Predicate → Bool
  | .all _ => true
  | .any _ => true
  | _ => false

mutual

/-- The operands from left to right. -/
def operands : Predicate → List Operand
  | .compare _ _ x => [x]
  | .isNull _ _ => []
  | .inList _ xs _ => xs
  | .all ps => operandsOfAll ps
  | .any ps => operandsOfAll ps
  | .not p => operands p

/-- The operands of several predicates, in order. -/
def operandsOfAll : List Predicate → List Operand
  | [] => []
  | p :: ps => operands p ++ operandsOfAll ps

end

/-- The variable that an operand names. -/
def variableName? : Operand → Option String
  | .variable name => some name
  | .value _ => none

/-- The names of the variables from left to right (`variables`). -/
def variableNames (p : Predicate) : List String :=
  p.operands.filterMap variableName?

mutual

/-- The first thing wrong with a predicate. -/
def misuse? : Predicate → Option Misuse
  | .compare field _ _ => Identifier.misuse? field
  | .isNull field _ => Identifier.misuse? field
  | .inList field xs _ =>
    match Identifier.misuse? field with
    | some m => some m
    | none => if xs.isEmpty then some (.emptyMembership field) else none
  | .all ps => misuseOfAll? ps
  | .any ps => misuseOfAll? ps
  | .not p => misuse? p

/-- The first thing wrong with one of several predicates. -/
def misuseOfAll? : List Predicate → Option Misuse
  | [] => none
  | p :: ps =>
    match misuse? p with
    | some m => some m
    | none => misuseOfAll? ps

end

/-- Refuses a predicate that is not well formed (`validate`). -/
def check (p : Predicate) : Except Misuse Unit :=
  match p.misuse? with
  | some m => .error m
  | none => .ok ()

mutual

/-- The predicates are equal, doubles in them as numbers. -/
def same : Predicate → Predicate → Bool
  | .compare f o x, .compare g o' y => f == g && o == o' && x == y
  | .isNull f n, .isNull g m => f == g && n == m
  | .inList f xs n, .inList g ys m => f == g && xs == ys && n == m
  | .all ps, .all qs => sameAll ps qs
  | .any ps, .any qs => sameAll ps qs
  | .not p, .not q => same p q
  | _, _ => false

/-- The predicates are equal one by one. -/
def sameAll : List Predicate → List Predicate → Bool
  | [], [] => true
  | p :: ps, q :: qs => same p q && sameAll ps qs
  | _, _ => false

end

instance : BEq Predicate := ⟨same⟩

end Predicate

/-! ## JSON -/

/-- The JSON of an operand: an object with one key that tells literals from variables. -/
def Operand.toJson : Operand → Json
  | .value v => .object [("value", v.toJson)]
  | .variable name => .object [("variable", .text name)]

/-- The operand of a JSON value. -/
def Operand.ofJson : Json → Read Operand
  | .object [(key, j)] =>
    if key = "value" then (Value.ofJson j).map .value
    else if key = "variable" then (Json.readText j).map .variable
    else .error .malformed
  | _ => .error .malformed

namespace Predicate

mutual

/-- The JSON of a predicate, tagged by its kind. -/
def toJson : Predicate → Json
  | .compare field op x =>
    .object [("kind", .text "compare"), ("field", .text field), ("op", .text op.name),
      ("operand", x.toJson)]
  | .isNull field negated =>
    .object [("kind", .text "is_null"), ("field", .text field), ("negated", .bool negated)]
  | .inList field xs negated =>
    .object [("kind", .text "in_list"), ("field", .text field),
      ("operands", .array (xs.map Operand.toJson)), ("negated", .bool negated)]
  | .all ps => .object [("kind", .text "and"), ("predicates", .array (allToJson ps))]
  | .any ps => .object [("kind", .text "or"), ("predicates", .array (allToJson ps))]
  | .not p => .object [("kind", .text "not"), ("predicate", toJson p)]

/-- The JSON of several predicates. -/
def allToJson : List Predicate → List Json
  | [] => []
  | p :: ps => toJson p :: allToJson ps

end

/-- The predicate of a tagged record, given how the predicates inside it are read. -/
def ofTagged (inner : Json → Read Predicate) (kind : String) (rest : Json) : Read Predicate :=
  if kind = "compare" then
    Record.read ["field", "op", "operand"] (fun r =>
      Predicate.compare <$> r.required "field" Json.readText
        <*> r.required "op" (Json.readName .held Comparison.names)
        <*> r.required "operand" Operand.ofJson) rest
  else if kind = "is_null" then
    Record.read ["field", "negated"] (fun r =>
      Predicate.isNull <$> r.required "field" Json.readText
        <*> r.required "negated" Json.readBool) rest
  else if kind = "in_list" then
    Record.read ["field", "operands", "negated"] (fun r =>
      Predicate.inList <$> r.required "field" Json.readText
        <*> r.required "operands" (Json.readList Operand.ofJson)
        <*> r.required "negated" Json.readBool) rest
  else if kind = "and" then
    Record.read ["predicates"] (fun r =>
      Predicate.all <$> r.required "predicates" (Json.readList inner)) rest
  else if kind = "or" then
    Record.read ["predicates"] (fun r =>
      Predicate.any <$> r.required "predicates" (Json.readList inner)) rest
  else if kind = "not" then
    Record.read ["predicate"] (fun r => Predicate.not <$> r.required "predicate" inner) rest
  else .error .malformed

/-- The kinds of predicates, in the order of their positions. -/
def kinds : List String := ["compare", "is_null", "in_list", "and", "or", "not"]

/-- The predicate of a JSON value that is nested at most `depth` deep. Its tag is read as told; the
tags further inside may be positions. -/
def ofJsonWithin (readTag : Json → Read String) : Nat → Json → Read Predicate
  | 0, _ => .error .malformed
  | depth + 1, j => do
    let (kind, rest) ← Record.splitTag "kind" readTag j
    ofTagged (ofJsonWithin (Json.readWordOrPosition kinds) depth) kind rest

/-- The predicate of a JSON value. No document is nested deeper than `Json.deepest`, and every
predicate inside another is at least one level down. -/
def ofJson (j : Json) : Read Predicate := do
  Json.requireData j
  ofJsonWithin Json.readText (Json.deepest + 1) j

end Predicate

end SchemaMigration
