import SchemaMigration.Proofs.Description.Expansion
import SchemaMigration.Proofs.Statement.Clauses
import SchemaMigration.Proofs.Statement.Parameters

/-!
# The meaning of a condition

The condition that a compiled statement is under means what its predicate says, and what was said
when the predicate was built up.

About `predicate`, `compound` and `where_clause` of `StatementWriter`.

* `Built`: a condition as it was built up; `Built.truth?_tree`: its predicate means what was said.
* `Connective.truth?_build`: a compound that takes a further member means the connection of both.
* `Predicate.exists_wherePieces`: a predicate that is well formed is written down when its variables
  have values.
* **`Query.condition?_compile`**: the condition read off a compiled statement has the truth value of
  the predicate, for every outcome of the tests.
-/

namespace SchemaMigration

/-! ## Building conditions up -/

/-- A condition as it was built up. -/
inductive Built where
  /-- A predicate as it is. -/
  | given (p : Predicate)
  /-- Both. -/
  | and (a b : Built)
  /-- One of them. -/
  | or (a b : Built)
  /-- The contrary. -/
  | not (a : Built)
  /-- The condition added to a query that has none. -/
  | first (a : Built)
  /-- The condition added to a query that has one. -/
  | further (a b : Built)

namespace Built

/-- The predicate that is built. -/
def tree : Built → Predicate
  | .given p => p
  | .and a b => a.tree.and b.tree
  | .or a b => a.tree.or b.tree
  | .not a => .not a.tree
  | .first a => Predicate.combine none a.tree
  | .further a b => Predicate.combine (some a.tree) b.tree

/-- The predicates that it is built from. -/
def parts : Built → List Predicate
  | .given p => [p]
  | .and a b => a.parts ++ b.parts
  | .or a b => a.parts ++ b.parts
  | .not a => a.parts
  | .first a => a.parts
  | .further a b => a.parts ++ b.parts

/-- The truth value of what was said, given the outcome of every test. -/
def truth? (vars : Variables) (outcome : Atom → Truth) : Built → Option Truth
  | .given p => p.truth? vars outcome
  | .and a b => do return (← a.truth? vars outcome).and (← b.truth? vars outcome)
  | .or a b => do return (← a.truth? vars outcome).or (← b.truth? vars outcome)
  | .not a => (a.truth? vars outcome).map Truth.not
  | .first a => a.truth? vars outcome
  | .further a b => do return (← a.truth? vars outcome).and (← b.truth? vars outcome)

end Built

namespace Predicate

theorem misuseOfAll?_eq_none_iff {ps : List Predicate} :
    misuseOfAll? ps = none ↔ ∀ p ∈ ps, p.misuse? = none := by
  induction ps with
  | nil => simp [misuseOfAll?]
  | cons p ps ih => rw [misuseOfAll?_cons_iff, List.forall_mem_cons, ih]

theorem truths?_append (vars : Variables) (outcome : Atom → Truth) (ps : List Predicate)
    (q : Predicate) : truths? vars outcome (ps ++ [q]) =
      (truths? vars outcome ps).bind fun ts => (q.truth? vars outcome).map fun t => ts ++ [t] := by
  induction ps with
  | nil =>
    simp only [List.nil_append, truths?]
    cases q.truth? vars outcome <;> rfl
  | cons p ps ih =>
    rw [List.cons_append, truths?, ih, truths?]
    cases p.truth? vars outcome <;> cases truths? vars outcome ps <;>
      cases q.truth? vars outcome <;> rfl

end Predicate

namespace Connective

/-- The compound of several predicates. -/
def compound : Connective → List Predicate → Predicate
  | .and => .all
  | .or => .any

/-- A predicate with one more. -/
def build : Connective → Predicate → Predicate → Predicate
  | .and => Predicate.and
  | .or => Predicate.or

/-- The members of a compound of the connective; another predicate is a member itself. -/
def members : Connective → Predicate → List Predicate
  | .and, .all ps => ps
  | .or, .any ps => ps
  | _, p => [p]

theorem build_eq (k : Connective) (p q : Predicate) :
    k.build p q = k.compound (k.members p ++ [q]) := by
  cases k <;> cases p <;> rfl

theorem members_eq (k : Connective) (p : Predicate) :
    k.members p = [p] ∨ p = k.compound (k.members p) := by
  cases k <;> cases p <;> simp [members, compound]

theorem misuse?_compound (k : Connective) (ps : List Predicate) :
    (k.compound ps).misuse? = Predicate.misuseOfAll? ps := by
  cases k <;> rfl

theorem truth?_compound (k : Connective) (vars : Variables) (outcome : Atom → Truth)
    (ps : List Predicate) : (k.compound ps).truth? vars outcome =
      (Predicate.truths? vars outcome ps).map (List.foldr k.truth k.neutral) := by
  cases k <;> rfl

theorem foldr_concat (k : Connective) (ts : List Truth) (t : Truth) :
    (ts ++ [t]).foldr k.truth k.neutral = k.truth (ts.foldr k.truth k.neutral) t := by
  induction ts with
  | nil => exact (k.truth_neutral t).trans (k.neutral_truth t).symm
  | cons a ts ih =>
    show k.truth a ((ts ++ [t]).foldr k.truth k.neutral) = _
    rw [ih, ← k.truth_assoc]
    rfl

/-- A predicate means what its members do. -/
theorem truth?_members (k : Connective) (vars : Variables) (outcome : Atom → Truth)
    (p : Predicate) :
    (Predicate.truths? vars outcome (k.members p)).map (List.foldr k.truth k.neutral) =
      p.truth? vars outcome := by
  rcases k.members_eq p with h | h
  · rw [h, Predicate.truths?, Predicate.truths?]
    cases p.truth? vars outcome with
    | none => rfl
    | some a => exact congrArg some (k.truth_neutral a)
  · rw [← k.truth?_compound vars outcome, ← h]

/-- A compound that takes a further member means the connection of both. -/
theorem truth?_build (k : Connective) (vars : Variables) (outcome : Atom → Truth)
    (p q : Predicate) : (k.build p q).truth? vars outcome =
      (p.truth? vars outcome).bind fun a => (q.truth? vars outcome).map (k.truth a) := by
  rw [k.build_eq, k.truth?_compound, Predicate.truths?_append, ← k.truth?_members vars outcome p]
  cases Predicate.truths? vars outcome (k.members p) with
  | none => rfl
  | some ts =>
    cases q.truth? vars outcome with
    | none => rfl
    | some t => exact congrArg some (k.foldr_concat ts t)

theorem misuse?_build (k : Connective) {p q : Predicate} (hp : p.misuse? = none)
    (hq : q.misuse? = none) : (k.build p q).misuse? = none := by
  have hmembers : ∀ r ∈ k.members p, r.misuse? = none := by
    rcases k.members_eq p with h | h
    · rw [h, List.forall_mem_singleton]
      exact hp
    · rw [h, k.misuse?_compound] at hp
      exact Predicate.misuseOfAll?_eq_none_iff.mp hp
  rw [k.build_eq, k.misuse?_compound, Predicate.misuseOfAll?_eq_none_iff, List.forall_mem_append,
    List.forall_mem_singleton]
  exact ⟨hmembers, hq⟩

end Connective

/-- The predicate that is built means what was said. -/
theorem Built.truth?_tree (vars : Variables) (outcome : Atom → Truth) :
    ∀ b : Built, b.tree.truth? vars outcome = b.truth? vars outcome
  | .given p => rfl
  | .and a b => by
    refine (Connective.truth?_build .and vars outcome a.tree b.tree).trans ?_
    rw [truth?_tree vars outcome a, truth?_tree vars outcome b, truth?]
    cases a.truth? vars outcome <;> cases b.truth? vars outcome <;> rfl
  | .or a b => by
    refine (Connective.truth?_build .or vars outcome a.tree b.tree).trans ?_
    rw [truth?_tree vars outcome a, truth?_tree vars outcome b, truth?]
    cases a.truth? vars outcome <;> cases b.truth? vars outcome <;> rfl
  | .not a => by
    rw [tree, Predicate.truth?, truth?_tree vars outcome a, truth?]
  | .first a => truth?_tree vars outcome a
  | .further a b => by
    refine (Connective.truth?_build .and vars outcome a.tree b.tree).trans ?_
    rw [truth?_tree vars outcome a, truth?_tree vars outcome b, truth?]
    cases a.truth? vars outcome <;> cases b.truth? vars outcome <;> rfl

/-- What is built from well-formed predicates is well formed. -/
theorem Built.misuse?_tree : ∀ {b : Built}, (∀ p ∈ b.parts, p.misuse? = none) →
    b.tree.misuse? = none
  | .given p, h => h p (by simp [parts])
  | .and a b, h => by
    obtain ⟨ha, hb⟩ := List.forall_mem_append.mp h
    exact Connective.misuse?_build .and (misuse?_tree ha) (misuse?_tree hb)
  | .or a b, h => by
    obtain ⟨ha, hb⟩ := List.forall_mem_append.mp h
    exact Connective.misuse?_build .or (misuse?_tree ha) (misuse?_tree hb)
  | .not a, h => misuse?_tree (b := a) h
  | .first a, h => misuse?_tree (b := a) h
  | .further a b, h => by
    obtain ⟨ha, hb⟩ := List.forall_mem_append.mp h
    exact Connective.misuse?_build .and (misuse?_tree ha) (misuse?_tree hb)

/-! ## Conditions that can be written down -/

theorem Predicate.check_eq_ok_iff {p : Predicate} : p.check = .ok () ↔ p.misuse? = none := by
  unfold check
  cases p.misuse? <;> simp

theorem exists_piecesOfAll {α : Type} {f : α → Except Error (List Piece)} :
    ∀ {l : List α}, (∀ a ∈ l, ∃ ps, f a = .ok ps) → ∃ parts, piecesOfAll f l = .ok parts
  | [], _ => ⟨[], rfl⟩
  | a :: l, h => by
    rw [List.forall_mem_cons] at h
    obtain ⟨⟨ps, hps⟩, h⟩ := h
    obtain ⟨parts, hparts⟩ := exists_piecesOfAll h
    exact ⟨ps :: parts, bind_eq_ok_iff.mpr ⟨ps, hps, bind_eq_ok_iff.mpr ⟨parts, hparts, rfl⟩⟩⟩

theorem checkedName_of_misuse? {name : String} (h : Identifier.misuse? name = none) :
    checkedName name = .ok (.name name) := by
  rw [checkedName, h]

theorem Operand.piece_of_resolve {x : Operand} {vars : Variables} {v : Value}
    (h : x.resolve vars = .ok v) : x.piece vars = .ok (.parameter v) :=
  map_eq_ok_iff.mpr ⟨v, h, rfl⟩

namespace Predicate

variable {vars : Variables}

mutual

theorem exists_pieces : ∀ (p : Predicate), p.misuse? = none →
    (∀ x ∈ p.operands, ∃ v, x.resolve vars = .ok v) → ∃ ps, p.pieces vars = .ok ps
  | .compare field op x, hp, hx => by
    obtain ⟨v, hv⟩ := hx x (by simp [operands])
    exact ⟨_, bind_eq_ok_iff.mpr ⟨_, checkedName_of_misuse? hp,
      bind_eq_ok_iff.mpr ⟨_, Operand.piece_of_resolve hv, rfl⟩⟩⟩
  | .isNull field negated, hp, _ =>
    ⟨_, bind_eq_ok_iff.mpr ⟨_, checkedName_of_misuse? hp, rfl⟩⟩
  | .inList field xs negated, hp, hx => by
    obtain ⟨values, hvalues⟩ := exists_piecesOfAll
      (f := fun x => (Operand.piece vars x).map fun p => [p]) (l := xs) fun x hmem => by
        obtain ⟨v, hv⟩ := hx x hmem
        exact ⟨_, map_eq_ok_iff.mpr ⟨_, Operand.piece_of_resolve hv, rfl⟩⟩
    exact ⟨_, bind_eq_ok_iff.mpr ⟨_, checkedName_of_misuse? (misuse?_field_of_misuse? hp),
      bind_eq_ok_iff.mpr ⟨_, hvalues, rfl⟩⟩⟩
  | .all ps, hp, hx => by
    obtain ⟨parts, hparts⟩ := exists_piecesOfMembers ps hp hx
    exact ⟨_, bind_eq_ok_iff.mpr ⟨_, hparts, rfl⟩⟩
  | .any ps, hp, hx => by
    obtain ⟨parts, hparts⟩ := exists_piecesOfMembers ps hp hx
    exact ⟨_, bind_eq_ok_iff.mpr ⟨_, hparts, rfl⟩⟩
  | .not p, hp, hx => by
    obtain ⟨ps, hps⟩ := exists_pieces p hp hx
    exact ⟨_, bind_eq_ok_iff.mpr ⟨_, hps, rfl⟩⟩

theorem exists_piecesOfMembers : ∀ (ps : List Predicate), misuseOfAll? ps = none →
    (∀ x ∈ operandsOfAll ps, ∃ v, x.resolve vars = .ok v) →
      ∃ parts, piecesOfMembers vars ps = .ok parts
  | [], _, _ => ⟨[], rfl⟩
  | p :: ps, hp, hx => by
    obtain ⟨hp, hps⟩ := misuseOfAll?_cons_iff.mp hp
    obtain ⟨hx, hxs⟩ := List.forall_mem_append.mp hx
    obtain ⟨first, hfirst⟩ := exists_pieces p hp hx
    obtain ⟨rest, hrest⟩ := exists_piecesOfMembers ps hps hxs
    exact ⟨_, bind_eq_ok_iff.mpr ⟨_, hfirst, bind_eq_ok_iff.mpr ⟨_, hrest, rfl⟩⟩⟩

end

theorem exists_resolve {p : Predicate}
    (h : ∀ name ∈ p.variableNames, (vars.lookup name).isSome = true) :
    ∀ x ∈ p.operands, ∃ v, x.resolve vars = .ok v := by
  intro x hx
  match x, hx with
  | .value v, _ => exact ⟨v, rfl⟩
  | .variable name, hx =>
    have hname : name ∈ p.variableNames := List.mem_filterMap.mpr ⟨_, hx, rfl⟩
    obtain ⟨v, hv⟩ := Option.isSome_iff_exists.mp (h name hname)
    refine ⟨v, ?_⟩
    rw [Operand.resolve, hv]

/-- A well-formed predicate is written down when its variables have values. -/
theorem exists_wherePieces {p : Predicate} (hp : p.misuse? = none)
    (h : ∀ name ∈ p.variableNames, (vars.lookup name).isSome = true) :
    ∃ ps, wherePieces vars (some p) = .ok ps := by
  obtain ⟨ps, hps⟩ := exists_pieces p hp (exists_resolve h)
  have hcheck : p.check.mapError Error.construction = .ok () :=
    mapError_eq_ok_iff.mpr (check_eq_ok_iff.mpr hp)
  exact ⟨_, bind_eq_ok_iff.mpr ⟨_, hcheck, bind_eq_ok_iff.mpr ⟨_, hps, rfl⟩⟩⟩

end Predicate

/-! ## Queries under a condition -/

namespace Query

/-- The query on every row. -/
def unconditional : Query → Query
  | .select q => .select { q with predicate := none }
  | .update q => .update { q with predicate := none }
  | .delete q => .delete { q with predicate := none }
  | q => q

variable {d : Dialect} {vars : Variables}

theorem exists_compile_iff {q : Query} :
    (∃ cq, q.compile d vars = .ok cq) ↔ ∃ ss, q.statements d vars = .ok ss := by
  constructor
  · rintro ⟨cq, h⟩
    obtain ⟨ss, hss, -⟩ := bind_eq_ok_iff.mp h
    exact ⟨ss, hss⟩
  · rintro ⟨ss, hss⟩
    exact ⟨_, bind_eq_ok_iff.mpr ⟨ss, hss, rfl⟩⟩

theorem exists_single_iff {pieces : Except Error (List Piece)} :
    (∃ ss, single d pieces = .ok ss) ↔ ∃ ps, pieces = .ok ps := by
  constructor
  · rintro ⟨ss, h⟩
    obtain ⟨ps, hps, -⟩ := map_eq_ok_iff.mp h
    exact ⟨ps, hps⟩
  · rintro ⟨ps, hps⟩
    exact ⟨_, map_eq_ok_iff.mpr ⟨ps, hps, rfl⟩⟩

end Query

section Conditional

variable {d : Dialect} {vars : Variables} {ps condition : List Piece}

theorem Select.exists_pieces {q : Select}
    (h : Select.pieces d vars { q with predicate := none } = .ok ps)
    (hcondition : Predicate.wherePieces vars q.predicate = .ok condition) :
    ∃ ps, q.pieces d vars = .ok ps := by
  obtain ⟨c, fields, -, order, hc, hfields, -, horder, -⟩ := pieces_eq_ok_iff.mp h
  exact ⟨_, pieces_eq_ok_iff.mpr
    ⟨c, fields, condition, order, hc, hfields, hcondition, horder, rfl⟩⟩

theorem Update.exists_pieces {q : Update}
    (h : Update.pieces vars { q with predicate := none } = .ok ps)
    (hcondition : Predicate.wherePieces vars q.predicate = .ok condition) :
    ∃ ps, q.pieces vars = .ok ps := by
  obtain ⟨hne, assignments, -, hassignments, -, -⟩ := pieces_eq_ok_iff.mp h
  exact ⟨_, pieces_eq_ok_iff.mpr ⟨hne, assignments, condition, hassignments, hcondition, rfl⟩⟩

theorem Delete.exists_pieces {q : Delete}
    (hcondition : Predicate.wherePieces vars q.predicate = .ok condition) :
    ∃ ps, q.pieces vars = .ok ps :=
  ⟨_, bind_eq_ok_iff.mpr ⟨condition, hcondition, rfl⟩⟩

end Conditional

namespace Query

variable {d : Dialect} {vars : Variables}

/-- A condition that can be written down does not keep a query from compiling. -/
theorem exists_compile {q : Query} {p : Predicate} {condition : List Piece}
    (hq : q.condition? = some p)
    (hcondition : Predicate.wherePieces vars (some p) = .ok condition)
    (h : ∃ cq, q.unconditional.compile d vars = .ok cq) : ∃ cq, q.compile d vars = .ok cq := by
  rw [exists_compile_iff] at h ⊢
  rw [← hq] at hcondition
  cases q with
  | select q =>
    obtain ⟨ps, hps⟩ := exists_single_iff.mp h
    exact exists_single_iff.mpr (Select.exists_pieces hps hcondition)
  | update q =>
    obtain ⟨ps, hps⟩ := exists_single_iff.mp h
    exact exists_single_iff.mpr (Update.exists_pieces hps hcondition)
  | delete q => exact exists_single_iff.mpr (Delete.exists_pieces hcondition)
  | insert q => cases hq
  | createCollection q => cases hq
  | alterCollection q => cases hq
  | dropCollection c => cases hq
  | collectionExists c => cases hq
  | describeCollection c => cases hq
  | showCollections => cases hq

/-- A query under a condition compiles to one statement under it. -/
theorem under_statements {q : Query} {p : Predicate} {ss : List Statement}
    (hq : q.condition? = some p) (h : q.statements d vars = .ok ss) :
    ∃ ps, ss = [Statement.ofPieces d ps] ∧ Under vars p ps ∧ Plain ps := by
  cases q with
  | select q =>
    obtain ⟨ps, hps, rfl⟩ := map_eq_ok_iff.mp h
    exact ⟨ps, rfl, Select.under_pieces hps hq, Select.plain_pieces hps⟩
  | update q =>
    obtain ⟨ps, hps, rfl⟩ := map_eq_ok_iff.mp h
    exact ⟨ps, rfl, Update.under_pieces hps hq, Update.plain_pieces hps⟩
  | delete q =>
    obtain ⟨ps, hps, rfl⟩ := map_eq_ok_iff.mp h
    exact ⟨ps, rfl, Delete.under_pieces hps hq, Delete.plain_pieces hps⟩
  | insert q => cases hq
  | createCollection q => cases hq
  | alterCollection q => cases hq
  | dropCollection c => cases hq
  | collectionExists c => cases hq
  | describeCollection c => cases hq
  | showCollections => cases hq

/-- **The condition of a compiled query means its predicate.** A condition that is built up from
well-formed predicates, its variables bound, keeps no query from compiling. The one statement of the
compiled query is read back to a condition which has, for every outcome of the tests, the truth
value of the predicate tree and of what was said to build it. -/
theorem condition?_compile (d : Dialect) (vars : Variables) {q : Query} {b : Built}
    (hq : q.condition? = some b.tree) :
    ((∀ p ∈ b.parts, p.check = .ok ()) →
      (∀ name ∈ b.tree.variableNames, (vars.lookup name).isSome = true) →
        (∃ cq, q.unconditional.compile d vars = .ok cq) → ∃ cq, q.compile d vars = .ok cq) ∧
    ∀ cq, q.compile d vars = .ok cq → ∃ s c, cq.statements = [s] ∧ s.condition? = some c ∧
      ∀ outcome, b.tree.truth? vars outcome = some (c.truth outcome) ∧
        b.truth? vars outcome = some (c.truth outcome) := by
  constructor
  · intro hparts hvars hcompile
    have htree := Built.misuse?_tree fun p hp => Predicate.check_eq_ok_iff.mp (hparts p hp)
    obtain ⟨condition, hcondition⟩ := Predicate.exists_wherePieces htree hvars
    exact exists_compile hq hcondition hcompile
  · intro cq hcq
    obtain ⟨ss, hss, hcq⟩ := bind_eq_ok_iff.mp hcq
    cases hcq
    obtain ⟨ps, rfl, hunder, hplain⟩ := under_statements hq hss
    obtain ⟨c, hc, htruth⟩ := hunder.condition?_ofPieces hplain d
    refine ⟨_, c, rfl, hc, fun outcome => ⟨htruth outcome, ?_⟩⟩
    rw [← Built.truth?_tree]
    exact htruth outcome

end Query

namespace Posts

/-- Posts with a motto and a question mark in the title, or any at all, among the first and one
more. -/
def wanted : Built :=
  .further
    (.first (.or
      (.and (.given (.compare "title" .like (.value (.text "%?%"))))
        (.given (.isNull "motto" true)))
      (.not (.given (.any [])))))
    (.given (.inList "id" [.value (.int 1), .variable "id"] false))

/-- A window of the wanted posts. -/
def page : Query :=
  .select ⟨some collection, ["title"], some wanted.tree, [⟨"title", .ascending⟩], ⟨5, some 10⟩⟩

end Posts

/-- A disjunction in a conjunction is read back from between its parentheses. -/
theorem Query.condition?_compile_of_posts :
    ∃ cq, Posts.page.compile .postgres [("id", .int 7)] = .ok cq ∧
      ∃ s c, cq.statements = [s] ∧ s.condition? = some c ∧
        ∀ outcome, Posts.wanted.truth? [("id", .int 7)] outcome = some (c.truth outcome) := by
  have hq : Posts.page.condition? = some Posts.wanted.tree := rfl
  obtain ⟨hexists, hmeans⟩ := Query.condition?_compile .postgres [("id", .int 7)] hq
  have hparts : ∀ p ∈ Posts.wanted.parts, p.check = .ok () := by
    simp only [Posts.wanted, Built.parts, List.forall_mem_append, List.forall_mem_singleton]
    exact ⟨⟨⟨rfl, rfl⟩, rfl⟩, rfl⟩
  have hvars : ∀ name ∈ Posts.wanted.tree.variableNames,
      (List.lookup name [("id", Value.int 7)]).isSome = true := by
    decide
  obtain ⟨cq, hcq⟩ := hexists hparts hvars ⟨_, rfl⟩
  obtain ⟨s, c, hs, hc, htruth⟩ := hmeans cq hcq
  exact ⟨cq, hcq, s, c, hs, hc, fun outcome => (htruth outcome).2⟩

end SchemaMigration
