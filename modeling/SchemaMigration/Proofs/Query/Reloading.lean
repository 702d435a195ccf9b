import SchemaMigration.Compile
import SchemaMigration.Proofs.Description.Expansion
import SchemaMigration.Proofs.Json.Queries
import SchemaMigration.Proofs.Query.Making

/-!
# A query that is written and read compiles to the same

A query without doubles that is nested at most `Json.deepest` levels deep reads back from its text,
and compiles to what it compiled to before. It need not be the same query: a column with the default
null comes back without a default. But only the effective default of a column is ever compiled.

About the serialized form of `Query`, and `compile`.

* `Query.compile_settled`: a query and the query with its effective defaults compile alike.
* **`Query.compile_reloaded`**: what the text of a query reads as, and how that compiles.
* `Query.negated_refused`: a query of a few builder steps whose text is nested too deep.
-/

namespace SchemaMigration

/-! ## Columns -/

namespace Column

variable {c : Column}

theorem effectiveDefault_settled : c.settled.effectiveDefault = c.effectiveDefault := by
  simp only [settled, effectiveDefault, Option.filter_filter, Bool.and_self]

/-- No default is as good as the default null. -/
theorem misuse?_settled : c.settled.misuse? = c.misuse? := by
  obtain ⟨name, type, size, default, counts⟩ := c
  rcases default with - | (- | - | - | - | - | -) <;> rfl

theorem columnClause_settled (d : Dialect) (isKey : Bool) :
    d.columnClause c.settled isKey = d.columnClause c isKey := by
  unfold Dialect.columnClause
  simp only [effectiveDefault_settled]
  rfl

theorem addColumn_settled (d : Dialect) (table : CollectionRef) :
    d.addColumn table c.settled = d.addColumn table c := by
  rw [Dialect.addColumn, columnClause_settled]
  rfl

theorem renamed_settled (name : String) : c.settled.renamed name = (c.renamed name).settled := rfl

theorem replaceColumn_settled (d : Dialect) (table : CollectionRef) (source : String) :
    d.replaceColumn table source c.settled = d.replaceColumn table source c := by
  rw [Dialect.replaceColumn, addColumn_settled]
  rfl

theorem alterColumn_settled (d : Dialect) (table : CollectionRef) (source : String) :
    d.alterColumn table source c.settled = d.alterColumn table source c := by
  cases d with
  | sqlite =>
    simp only [Dialect.alterColumn, renamed_settled, replaceColumn_settled]
    rfl
  | postgres =>
    simp only [Dialect.alterColumn, Dialect.reshapeColumn, effectiveDefault_settled]
    rfl

end Column

/-! ## Creations and alterations -/

namespace CreateCollection

theorem clauses_settled (d : Dialect) (key : Option String) (columns : List Column) :
    clauses d key (columns.map Column.settled) = clauses d key columns := by
  induction columns with
  | nil => rfl
  | cons c r ih =>
    rw [List.map_cons, clauses, Column.columnClause_settled, ih]
    rfl

theorem keyColumn?_settled (q : CreateCollection) : q.settled.keyColumn? = q.keyColumn? := by
  have hindex : q.settled.primaryIndex? = q.primaryIndex? := rfl
  unfold keyColumn?
  rw [hindex]
  split
  · rw [settled, List.find?_map, Option.map_map]
    rfl
  · rfl

theorem ddl_settled (d : Dialect) (q : CreateCollection) : q.settled.ddl d = q.ddl d := by
  have hchecks : checkAll Column.misuse? q.settled.columns = checkAll Column.misuse? q.columns := by
    have hmisuse : Column.misuse? ∘ Column.settled = Column.misuse? :=
      funext fun c => Column.misuse?_settled
    rw [checkAll, settled, List.findSome?_map, hmisuse]
    rfl
  have hempty : q.settled.columns.isEmpty = q.columns.isEmpty := List.isEmpty_map
  have hclauses : clauses d q.keyColumn? q.settled.columns = clauses d q.keyColumn? q.columns :=
    clauses_settled d _ _
  have hkey : q.settled.keyFields? = q.keyFields? := by
    rw [keyFields?, keyFields?, keyColumn?_settled]
    rfl
  rw [ddl, ddl, hchecks, hempty, keyColumn?_settled, hclauses, hkey]
  rfl

end CreateCollection

namespace AlterStep

theorem misuse?_settled (step : AlterStep) : step.settled.misuse? = step.misuse? := by
  cases step <;> simp only [settled, misuse?, Column.misuse?_settled]

theorem check_settled (step : AlterStep) : step.settled.check = step.check := by
  rw [check, misuse?_settled]
  rfl

theorem tableAfter_settled (table : CollectionRef) (step : AlterStep) :
    step.settled.tableAfter table = step.tableAfter table := by
  cases step <;> rfl

theorem ddl_settled (d : Dialect) (table : CollectionRef) (step : AlterStep) :
    step.settled.ddl d table = step.ddl d table := by
  cases step with
  | addColumn column source =>
    rw [settled, ddl, Column.addColumn_settled]
    rfl
  | alterColumn source column =>
    rw [settled, ddl, Column.alterColumn_settled]
    rfl
  | dropColumn name => rfl
  | addIndex index => rfl
  | dropIndex name => rfl
  | rename target => rfl

end AlterStep

/-- The steps of an alteration, one after the other, on the table that the steps before them
leave. -/
theorem AlterCollection.ddlOfSteps_settled (d : Dialect) (table : CollectionRef)
    (steps : List AlterStep) :
    ddlOfSteps d table (steps.map AlterStep.settled) = ddlOfSteps d table steps := by
  induction steps generalizing table with
  | nil => rfl
  | cons step rest ih =>
    rw [List.map_cons, ddlOfSteps, AlterStep.check_settled, AlterStep.ddl_settled,
      AlterStep.tableAfter_settled, ih]
    rfl

/-! ## Queries -/

namespace Query

/-- **A query and the query with its effective defaults compile alike.** -/
theorem compile_settled (d : Dialect) (vars : Variables) (q : Query) :
    q.settled.compile d vars = q.compile d vars := by
  cases q with
  | createCollection q =>
    simp only [compile, settled, statements, CreateCollection.ddl_settled]
    rfl
  | alterCollection q =>
    have hddl : q.settled.ddl d = q.ddl d := AlterCollection.ddlOfSteps_settled d _ q.steps
    simp only [compile, settled, statements, hddl]
    rfl
  | select q => rfl
  | insert q => rfl
  | update q => rfl
  | delete q => rfl
  | dropCollection c => rfl
  | collectionExists c => rfl
  | describeCollection c => rfl
  | showCollections => rfl

/-- **A query without doubles compiles the same after it was written and read**, on both dialects
and under all variables, provided its text is nested at most `Json.deepest` levels deep. A deeper
text is refused, and only the condition of a select, an update or a delete makes it one. -/
theorem compile_reloaded {q : Query} (h : q.FloatFree) :
    (q.toJson.height ≤ Json.deepest → ∃ q', ofText q.kind q.toJson.render = .ok q' ∧
      ∀ d vars, q'.compile d vars = q.compile d vars) ∧
    (Json.deepest < q.toJson.height → ofText q.kind q.toJson.render = .error .malformed) ∧
    (Json.deepest < q.toJson.height ↔ ∃ p ∈ q.condition?, Json.deepest ≤ p.toJson.height) := by
  have hread : ofText q.kind q.toJson.render =
      if q.toJson.height ≤ Json.deepest then .ok q.settled else .error .malformed :=
    decodesTo h
  rw [hread]
  refine ⟨fun hlevels => ?_, fun hdeep => ?_, ?_⟩
  · rw [if_pos hlevels]
    exact ⟨q.settled, rfl, fun d vars => compile_settled d vars q⟩
  · rw [if_neg (Nat.not_le.mpr hdeep)]
  · rw [← Nat.not_le, height_le_iff h]
    push Not
    exact Iff.rfl

end Query

namespace Posts

/-- Posts whose title is null unless it is given. -/
def untitled : Query :=
  .createCollection ⟨collection, [⟨"id", .int64, none, none, true⟩,
    ⟨"title", .text, some 80, some .null, false⟩,
    ⟨"cover", .blob, none, some (.blob [0, 255]), false⟩],
    [⟨primaryName, .primary, [⟨"id", .ascending⟩]⟩]⟩

end Posts

/-- A creation that is not read back as it is, and compiles the same. -/
theorem Query.compile_reloaded_of_posts :
    ∃ q', ofText .createCollection Posts.untitled.toJson.render = .ok q' ∧
      ∀ d vars, q'.compile d vars = Posts.untitled.compile d vars := by
  have hfloat : Posts.untitled.FloatFree := ⟨List.forall_mem_nil _, by decide⟩
  exact (Query.compile_reloaded hfloat).1 (by decide)

/-- The predicate under so many negations. -/
def Predicate.negated : Nat → Predicate → Predicate
  | 0, p => p
  | n + 1, p => .not (negated n p)

namespace Posts

/-- The posts without a number, in many words. -/
def doubted : Select :=
  ⟨some collection, [], some (.negated 126 (.isNull "id" false)), [], .full⟩

theorem made_doubted : doubted.Made := by
  have hread : (Select.empty.inCollection collection).matching
      (.negated 126 (.isNull "id" false)) = .ok doubted := rfl
  exact (Select.Made.empty.inCollection collection).matching hread

end Posts

/-- A select that is made by builders and compiles on both dialects, but whose text is refused. -/
theorem Query.negated_refused :
    (Query.select Posts.doubted).Made ∧ (Query.select Posts.doubted).FloatFree ∧
      (∀ d, ∃ cq, (Query.select Posts.doubted).compile d [] = .ok cq) ∧
        ofText .select (Query.select Posts.doubted).toJson.render = .error .malformed := by
  have hfloat : (Query.select Posts.doubted).FloatFree :=
    ⟨by simp [Query.operands, Posts.doubted, Predicate.negated, Predicate.operands],
      List.forall_mem_nil _⟩
  have hread := Query.decodesTo hfloat
  rw [DecodesTo, if_neg (by decide +kernel)] at hread
  refine ⟨Posts.made_doubted, hfloat, fun d => ?_, hread⟩
  have hok : ((Query.select Posts.doubted).compile d []).toBool = true := by
    cases d <;> decide +kernel
  cases hcompile : (Query.select Posts.doubted).compile d [] with
  | error e =>
    rw [hcompile] at hok
    cases hok
  | ok cq => exact ⟨cq, rfl⟩

end SchemaMigration
