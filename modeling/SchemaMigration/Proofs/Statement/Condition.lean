import SchemaMigration.Statement.Rows
import SchemaMigration.Proofs.Statement.Scan

/-!
# Reading the condition of a statement

What a statement selects is read off its text and its parameters alone, by the rules of SQL.

* `Statement.lexemes?` takes the text apart into words, names and marks, and puts the parameters in
  the place of their placeholders.
* `Statement.condition?` reads what stands after `WHERE`: `Reading.items?` puts the lexemes of a
  test together, and `Frame.read` groups the tests. `NOT` binds tighter than `AND`, `AND` tighter
  than `OR`, and parentheses come first.
* `Condition.truth` and `Predicate.truth?` evaluate a condition and a predicate to one of three
  truth values, given the outcome of every test.
-/

namespace SchemaMigration

/-! ## Truth -/

/-- A truth value; a comparison with null is unknown. -/
inductive Truth where
  | yes
  | no
  | unknown
deriving DecidableEq

namespace Truth

/-- Both hold. -/
def and : Truth → Truth → Truth
  | .no, _ => .no
  | _, .no => .no
  | .yes, .yes => .yes
  | _, _ => .unknown

/-- One of them holds. -/
def or : Truth → Truth → Truth
  | .yes, _ => .yes
  | _, .yes => .yes
  | .no, .no => .no
  | _, _ => .unknown

/-- It does not hold. -/
def not : Truth → Truth
  | .yes => .no
  | .no => .yes
  | .unknown => .unknown

/-- All of them hold. -/
def all (ts : List Truth) : Truth :=
  ts.foldr and .yes

/-- One of them holds. -/
def any (ts : List Truth) : Truth :=
  ts.foldr or .no

end Truth

/-- A test of a field against values. -/
inductive Atom where
  /-- The field compares with the value. -/
  | compare (field : String) (op : Comparison) (value : Value)
  /-- The field is null, or is not when negated. -/
  | isNull (field : String) (negated : Bool)
  /-- The field is one of the values, or is none when negated. -/
  | inList (field : String) (values : List Value) (negated : Bool)

/-- A condition as SQL has it. -/
inductive Condition where
  /-- A test of a field. -/
  | test (a : Atom)
  /-- Two numbers are equal. -/
  | equal (m n : Nat)
  | and (a b : Condition)
  | or (a b : Condition)
  | not (a : Condition)

/-- The truth value of a condition, given the outcome of every test. -/
def Condition.truth (outcome : Atom → Truth) : Condition → Truth
  | .test a => outcome a
  | .equal m n => if m = n then .yes else .no
  | .and a b => (a.truth outcome).and (b.truth outcome)
  | .or a b => (a.truth outcome).or (b.truth outcome)
  | .not a => (a.truth outcome).not

/-! ## Lexemes -/

/-- A part of a statement: a word, a name or a text between quotes, a mark, or a bound value. -/
inductive Lexeme where
  | word (s : String)
  | name (s : String)
  | text (s : String)
  | mark (c : Char)
  | value (v : Value)
deriving DecidableEq

namespace Lexeme

/-- The word of the characters read so far, if there are any. -/
def flush (read : List Char) : List Lexeme :=
  if read.isEmpty then [] else [.word (String.ofList read)]

/-- The lexemes of tokens, after the characters of an unfinished word. -/
def gather (read : List Char) : List Token → List Lexeme
  | [] => flush read
  | .name s :: r => flush read ++ Lexeme.name (String.ofList s) :: gather [] r
  | .text s :: r => flush read ++ Lexeme.text (String.ofList s) :: gather [] r
  | .bare c :: r =>
    if c = ' ' then flush read ++ gather [] r
    else if isBreak c then flush read ++ Lexeme.mark c :: gather [] r
    else gather (read ++ [c]) r

/-- The parameter that a lexeme stands for, if it is a placeholder: `?` for the next one, `$` and a
number for the one of that number, counted from one. -/
def parameter? (next : Nat) : Lexeme → Option Nat
  | .word w =>
    match w.toList with
    | ['?'] => some next
    | '$' :: digits =>
      (Decimal.readNat? digits).bind fun n => if n = 0 then none else some (n - 1)
    | _ => none
  | _ => none

/-- The lexemes with the parameters in the place of their placeholders. -/
def bind? (parameters : List Value) (next : Nat) : List Lexeme → Option (List Lexeme)
  | [] => some []
  | s :: r =>
    match s.parameter? next with
    | none => (bind? parameters next r).map (s :: ·)
    | some k => do
      let v ← parameters[k]?
      let rest ← bind? parameters (next + 1) r
      return .value v :: rest

end Lexeme

/-- The lexemes of a statement with its parameters in their places. -/
def Statement.lexemes? (s : Statement) : Option (List Lexeme) :=
  (Token.tokens? s.sql).bind fun ts => Lexeme.bind? s.parameters 0 (Lexeme.gather [] ts)

/-! ## Tests -/

/-- A part of a condition: a test, a connective or a parenthesis. -/
inductive Item where
  | test (c : Condition)
  | not
  | and
  | or
  | opening
  | closing

/-- The comparison that an operator spells. -/
def Comparison.ofOperator? (w : String) : Option Comparison :=
  [eq, notEq, less, lessEq, greater, greaterEq, like].find? fun op => op.operator == w

/-- What was read of a test. -/
inductive Reading where
  /-- Nothing. -/
  | start
  /-- A field. -/
  | field (f : String)
  /-- A field and `NOT`. -/
  | refused (f : String)
  /-- A field and `IS`, or `IS NOT` when negated. -/
  | isTest (f : String) (negated : Bool)
  /-- A field and an operator. -/
  | comparison (f : String) (op : Comparison)
  /-- A field and `IN`, or `NOT IN` when negated. -/
  | inTest (f : String) (negated : Bool)
  /-- A membership test up to an opening parenthesis or a comma. -/
  | listed (f : String) (negated : Bool) (values : List Value)
  /-- A membership test up to a value. -/
  | member (f : String) (negated : Bool) (values : List Value)
  /-- A number. -/
  | number (m : Nat)
  /-- A number and an equals sign. -/
  | equals (m : Nat)

namespace Reading

/-- What is read after one more lexeme, and what that completes. -/
def step : Reading → Lexeme → Option (Reading × List Item)
  | .start, .name f => some (.field f, [])
  | .start, .mark c =>
    if c = '(' then some (.start, [.opening])
    else if c = ')' then some (.start, [.closing])
    else none
  | .start, .word w =>
    if w = "NOT" then some (.start, [.not])
    else if w = "AND" then some (.start, [.and])
    else if w = "OR" then some (.start, [.or])
    else (Decimal.readNat? w.toList).map fun m => (.number m, [])
  | .field f, .word w =>
    if w = "IS" then some (.isTest f false, [])
    else if w = "IN" then some (.inTest f false, [])
    else if w = "NOT" then some (.refused f, [])
    else (Comparison.ofOperator? w).map fun op => (.comparison f op, [])
  | .refused f, .word w => if w = "IN" then some (.inTest f true, []) else none
  | .isTest f negated, .word w =>
    if w = "NULL" then some (.start, [.test (.test (.isNull f negated))])
    else if w = "NOT" ∧ negated = false then some (.isTest f true, [])
    else none
  | .comparison f op, .value v => some (.start, [.test (.test (.compare f op v))])
  | .inTest f negated, .mark c => if c = '(' then some (.listed f negated [], []) else none
  | .listed f negated values, .value v => some (.member f negated (values ++ [v]), [])
  | .member f negated values, .mark c =>
    if c = ',' then some (.listed f negated values, [])
    else if c = ')' then some (.start, [.test (.test (.inList f values negated))])
    else none
  | .number m, .word w => if w = "=" then some (.equals m, []) else none
  | .equals m, .word w =>
    (Decimal.readNat? w.toList).map fun n => (.start, [.test (.equal m n)])
  | _, _ => none

/-- What is read after several lexemes, and the items that they complete. -/
def steps (reading : Reading) : List Lexeme → Option (Reading × List Item)
  | [] => some (reading, [])
  | s :: r =>
    (reading.step s).bind fun x => (steps x.1 r).map fun y => (y.1, x.2 ++ y.2)

/-- The items of lexemes, if no test is left unfinished. -/
def items? (lexemes : List Lexeme) : Option (List Item) :=
  match steps .start lexemes with
  | some (.start, items) => some items
  | _ => none

end Reading

/-! ## Precedence -/

/-- What was read between two parentheses. -/
structure Frame where
  /-- What stands before the last `OR`. -/
  disjunction : Option Condition
  /-- What stands between it and the last `AND`. -/
  conjunction : Option Condition
  /-- The number of times that the operand is negated. -/
  negations : Nat
  /-- The last operand, once it is there. -/
  operand : Option Condition

namespace Frame

/-- Nothing was read. -/
def empty : Frame := ⟨none, none, 0, none⟩

/-- A condition on top of what stands before its connective, if anything does. -/
def join (connective : Condition → Condition → Condition) (before : Option Condition)
    (c : Condition) : Condition :=
  match before with
  | some b => connective b c
  | none => c

/-- A condition negated several times. -/
def negate : Nat → Condition → Condition
  | 0, c => c
  | n + 1, c => negate n (.not c)

/-- The frame with an operand, where one is due. -/
def supply? (f : Frame) (c : Condition) : Option Frame :=
  match f.operand with
  | some _ => none
  | none => some { f with negations := 0, operand := some (negate f.negations c) }

/-- The conjunction up to the last operand. -/
def conjoined? (f : Frame) : Option Condition :=
  f.operand.map (join .and f.conjunction)

/-- Everything that was read. -/
def whole? (f : Frame) : Option Condition :=
  f.conjoined?.map (join .or f.disjunction)

/-- The condition of items, inside of the frames `outer`. -/
def read (f : Frame) (outer : List Frame) : List Item → Option Condition
  | [] => if outer.isEmpty then f.whole? else none
  | .test c :: r => (f.supply? c).bind fun f => read f outer r
  | .not :: r =>
    if f.operand.isSome then none else read { f with negations := f.negations + 1 } outer r
  | .and :: r => f.conjoined?.bind fun c => read ⟨f.disjunction, some c, 0, none⟩ outer r
  | .or :: r => f.whole?.bind fun c => read ⟨some c, none, 0, none⟩ outer r
  | .opening :: r => if f.operand.isSome then none else read empty (f :: outer) r
  | .closing :: r =>
    match outer with
    | [] => none
    | g :: outer => f.whole?.bind fun c => (g.supply? c).bind fun g => read g outer r

example (a b c : Condition) :
    Frame.empty.read [] [.test a, .or, .not, .test b, .and, .test c] =
      some (.or a (.and (.not b) c)) :=
  rfl

end Frame

namespace Lexeme

/-- The lexeme starts a clause after the condition. -/
def isLater (s : Lexeme) : Bool :=
  s == .word "ORDER" || s == .word "LIMIT" || s == .word "OFFSET"

/-- The lexemes of the condition: what stands after `WHERE`, up to the order or the window. -/
def whereClause (lexemes : List Lexeme) : List Lexeme :=
  ((lexemes.dropWhile fun s => s != .word "WHERE").drop 1).takeWhile fun s => !s.isLater

end Lexeme

/-- The condition of a statement, read by the precedence of SQL. -/
def Statement.condition? (s : Statement) : Option Condition :=
  s.lexemes?.bind fun lexemes =>
    (Reading.items? (Lexeme.whereClause lexemes)).bind (Frame.read .empty [])

/-! ## Predicates -/

namespace Predicate

/-- The values of operands, if every variable has one. -/
def values? (vars : Variables) (xs : List Operand) : Option (List Value) :=
  xs.mapM fun x => (x.resolve vars).toOption

mutual

/-- The truth value of a predicate, given the outcome of every test. A variable without a value has
none. An empty conjunction holds and an empty disjunction does not. -/
def truth? (vars : Variables) (outcome : Atom → Truth) : Predicate → Option Truth
  | .compare field op x => (x.resolve vars).toOption.map fun v => outcome (.compare field op v)
  | .isNull field negated => some (outcome (.isNull field negated))
  | .inList field xs negated => (values? vars xs).map fun vs => outcome (.inList field vs negated)
  | .all ps => (truths? vars outcome ps).map Truth.all
  | .any ps => (truths? vars outcome ps).map Truth.any
  | .not p => (truth? vars outcome p).map Truth.not

/-- The truth values of several predicates. -/
def truths? (vars : Variables) (outcome : Atom → Truth) : List Predicate → Option (List Truth)
  | [] => some []
  | p :: ps => do
    let t ← truth? vars outcome p
    let ts ← truths? vars outcome ps
    return t :: ts

end

end Predicate

end SchemaMigration
