import SchemaMigration.Proofs.Query.Making
import SchemaMigration.Proofs.Statement.Parameters

/-!
# What can be made compiles

The builders find every mistake there is. A query that was made compiles, its variables having
values, unless it is still missing a part that no step can insist on, or the dialect has no
statement for it. SQLite has none for four things: a column that counts up without being the primary
key alone, one that is added or altered into later, and a primary key that is added or dropped
later.

About `compile`, on what the builders make.

* `Query.missing?`: the part that a query still needs; `Query.BeyondSqlite`: what SQLite cannot do.
* `Limited`: how a compilation ends that only the dialect can refuse; `Limited.bind`: one after the
  other.
* `CreateCollection.Made.limited`, `AlterCollection.Made.limited`, `Query.Made.limited`: whatever
  was made and misses nothing is refused by its dialect or compiles.
* **`Query.Made.compile_iff`**: when a query that was made compiles, when it is refused as
  incomplete, and when as unsupported.
-/

namespace SchemaMigration

/-! ## Incomplete and unsupported queries -/

/-- The part that a query still needs: the collection of a select, the first assignment of an
update, the first column of a creation. -/
def Query.missing? : Query → Option Misuse
  | .select q => if q.collection.isNone then some .selectWithoutCollection else none
  | .update q =>
    if q.values.isEmpty then some (.updateWithoutFields q.collection.identity) else none
  | .createCollection q =>
    if q.columns.isEmpty then some (.createWithoutColumns q.collection.identity) else none
  | _ => none

/-- A column counts up that does not make up the primary index alone. -/
def CreateCollection.CountsOutsideKey (q : CreateCollection) : Prop :=
  ∃ c ∈ q.columns, c.autoIncrement = true ∧ q.primaryIndex?.map Index.fields ≠ some [c.name]

/-- The step counts a column up, or changes the primary key of a table that exists. -/
def AlterStep.BeyondSqlite : AlterStep → Prop
  | .addColumn c _ => c.autoIncrement = true
  | .alterColumn _ c => c.autoIncrement = true
  | .addIndex i => i.isPrimary = true
  | .dropIndex name => name = primaryName
  | _ => False

/-- SQLite has no statement for the query. -/
def Query.BeyondSqlite : Query → Prop
  | .createCollection q => q.CountsOutsideKey
  | .alterCollection q => ∃ s ∈ q.steps, s.BeyondSqlite
  | _ => False

/-- Nothing is missing where SQLite refuses. -/
theorem Query.BeyondSqlite.missing?_eq_none {q : Query} (h : q.BeyondSqlite) :
    q.missing? = none := by
  cases q with
  | createCollection q =>
    obtain ⟨c, hc, -⟩ := h
    have hcolumns : q.columns.isEmpty = false := List.isEmpty_eq_false_iff_exists_mem.mpr ⟨c, hc⟩
    rw [missing?, hcolumns]
    rfl
  | alterCollection q => rfl
  | _ => exact h.elim

/-! ## Limits of a dialect -/

/-- How a compilation ends that only the dialect can refuse, under a condition. -/
structure Limited {α : Type} (d : Dialect) (beyond : Prop) (x : Except Error α) : Prop where
  /-- The dialect refuses under the condition. -/
  refused : beyond → ∃ op, x = .error (.unsupported d op)
  /-- Otherwise there is a result. -/
  done : ¬beyond → ∃ a, x = .ok a

namespace Limited

variable {α β : Type} {d : Dialect} {A B : Prop}

theorem ok (a : α) : Limited d False (.ok a : Except Error α) :=
  ⟨False.elim, fun _ => ⟨a, rfl⟩⟩

theorem of_exists {x : Except Error α} (h : ∃ a, x = .ok a) : Limited d False x :=
  ⟨False.elim, fun _ => h⟩

/-- There is a result unless the dialect refuses. -/
theorem exists_ok_iff {x : Except Error α} (h : Limited d A x) : (∃ a, x = .ok a) ↔ ¬A := by
  constructor
  · rintro ⟨a, ha⟩ hA
    obtain ⟨op, hop⟩ := h.refused hA
    rw [ha] at hop
    cases hop
  · exact h.done

theorem congr {x : Except Error α} (h : Limited d A x) (hAB : A ↔ B) : Limited d B x :=
  ⟨fun hB => h.refused (hAB.mpr hB), fun hB => h.done fun hA => hB (hAB.mp hA)⟩

/-- The dialect refuses a sequence where it refuses one of its parts. -/
theorem bind {x : Except Error α} {f : α → Except Error β} (hx : Limited d A x)
    (hf : ∀ a, x = .ok a → Limited d B (f a)) : Limited d (A ∨ B) (x >>= f) := by
  by_cases hA : A
  · obtain ⟨op, hop⟩ := hx.refused hA
    exact ⟨fun _ => ⟨op, by rw [hop]; rfl⟩, fun h => absurd (Or.inl hA) h⟩
  · obtain ⟨a, ha⟩ := hx.done hA
    have hrest : Limited d B (x >>= f) := by
      rw [ha]
      exact hf a ha
    exact hrest.congr (or_iff_right hA).symm

theorem map {x : Except Error α} (f : α → β) (hx : Limited d A x) : Limited d A (x.map f) := by
  constructor
  · intro hA
    obtain ⟨op, rfl⟩ := hx.refused hA
    exact ⟨op, rfl⟩
  · intro hA
    obtain ⟨a, rfl⟩ := hx.done hA
    exact ⟨f a, rfl⟩

end Limited

/-! ## Structural queries -/

theorem Dialect.columnClause_limited (d : Dialect) (c : Column) (isKey : Bool) :
    Limited d (d = .sqlite ∧ c.autoIncrement = true ∧ isKey = false) (d.columnClause c isKey) := by
  cases d with
  | postgres => exact (Limited.ok _).congr (by simp)
  | sqlite =>
    cases isKey with
    | true => exact (Limited.ok _).congr (by simp)
    | false =>
      cases hc : c.autoIncrement with
      | true =>
        refine ⟨fun _ => ⟨.autoIncrementOutsideKey c.name, ?_⟩, fun h => absurd ⟨rfl, rfl, rfl⟩ h⟩
        simp [columnClause, hc]
      | false =>
        have hok : columnClause .sqlite c false =
            .ok ⟨c.name, typeName .sqlite c, false, false, c.effectiveDefault⟩ := by
          simp [columnClause, hc]
        rw [hok]
        exact (Limited.ok _).congr (by simp)

namespace CreateCollection

/-- The column clauses are refused where one of them is, by induction on the columns. -/
theorem clauses_limited (d : Dialect) (key : Option String) : ∀ columns : List Column,
    Limited d (d = .sqlite ∧ ∃ c ∈ columns, c.autoIncrement = true ∧ key ≠ some c.name)
      (clauses d key columns)
  | [] => (Limited.ok _).congr (by simp)
  | c :: r => by
    have hall := (d.columnClause_limited c (decide (some c.name = key))).bind fun clause _ =>
      (clauses_limited d key r).bind fun rest _ => Limited.ok (d := d) (clause :: rest)
    refine hall.congr ?_
    simp only [List.exists_mem_cons_iff, decide_eq_false_iff_not, or_false, ← and_or_left,
      ne_eq, eq_comm (a := key)]

/-- A column clause holds the key iff its column counts up and alone makes up the primary index. -/
theorem keyColumn?_eq_some_iff {q : CreateCollection} {name : String} :
    q.keyColumn? = some name ↔ q.primaryIndex?.map Index.fields = some [name] ∧
      ∃ c ∈ q.columns, c.name = name ∧ c.autoIncrement = true := by
  have hfound : ∀ {only : IndexColumn} {c : Column},
      q.columns.find? (fun c => c.name == only.field && c.autoIncrement) = some c →
        c.name = only.field ∧ c.autoIncrement = true := fun hfind => by
    simpa using List.find?_some hfind
  unfold keyColumn?
  split
  · rename_i indexName kind only hprimary
    rw [hprimary, Option.map_eq_some_iff]
    constructor
    · rintro ⟨c, hfind, rfl⟩
      obtain ⟨hname, hcounts⟩ := hfound hfind
      exact ⟨by simp [Index.fields, hname], c, List.mem_of_find?_eq_some hfind, rfl, hcounts⟩
    · rintro ⟨hfields, c, hc, rfl, hcounts⟩
      have honly : only.field = c.name := by simpa [Index.fields] using hfields
      have hsome : (q.columns.find? fun c => c.name == only.field && c.autoIncrement).isSome :=
        List.find?_isSome.mpr ⟨c, hc, by simp [honly, hcounts]⟩
      obtain ⟨c', hfind⟩ := Option.isSome_iff_exists.mp hsome
      exact ⟨c', hfind, (hfound hfind).1.trans honly⟩
  · rename_i hother
    constructor
    · intro h
      cases h
    · rintro ⟨h, -⟩
      obtain ⟨⟨indexName, kind, columns⟩, hprimary, hfields⟩ := Option.map_eq_some_iff.mp h
      obtain ⟨only, rfl, -⟩ := List.map_eq_singleton_iff.mp hfields
      exact absurd hprimary (hother indexName kind only)

theorem checkAll_of_forall {α : Type} {misuse? : α → Option Misuse} {items : List α}
    (h : ∀ a ∈ items, misuse? a = none) : checkAll misuse? items = .ok () := by
  rw [checkAll, List.findSome?_eq_none_iff.mpr h]

variable {d : Dialect} {q : CreateCollection}

theorem Made.ddl_eq (h : q.Made) : q.ddl d =
    if q.columns.isEmpty then .error (.construction (.createWithoutColumns q.collection.identity))
    else do
      let columns ← clauses d q.keyColumn? q.columns
      return .createTable q.collection columns q.keyFields? ::
        q.secondaryIndexes.map (createIndex q.collection) := by
  obtain ⟨hcolumns, hindexes, -⟩ := rebuild_eq_ok_iff.mp h.rebuild
  rw [ddl, checkAll_of_forall hcolumns, checkAll_of_forall hindexes]
  rfl

/-- **A creation that was made and has a column** is refused by SQLite for a counting column outside
the key, or gives statements. -/
theorem Made.limited (h : q.Made) (hcolumns : q.columns.isEmpty = false) :
    Limited d (d = .sqlite ∧ q.CountsOutsideKey) (q.ddl d) := by
  rw [h.ddl_eq, hcolumns]
  have hall := (clauses_limited d q.keyColumn? q.columns).bind fun columns _ =>
    Limited.ok (d := d) (Ddl.createTable q.collection columns q.keyFields? ::
      q.secondaryIndexes.map (createIndex q.collection))
  refine hall.congr ?_
  rw [or_false, CountsOutsideKey]
  refine and_congr_right fun _ => exists_congr fun c => and_congr_right fun hc =>
    and_congr_right fun hcounts => not_congr
      (keyColumn?_eq_some_iff.trans (and_iff_left ⟨c, hc, rfl, hcounts⟩))

end CreateCollection

theorem Dialect.addColumn_limited (d : Dialect) (table : CollectionRef) (c : Column) :
    Limited d (d = .sqlite ∧ c.autoIncrement = true) (d.addColumn table c) := by
  have hall := (d.columnClause_limited c false).bind fun clause _ =>
    Limited.ok (d := d) (Ddl.addColumn table clause)
  exact hall.congr (by simp)

theorem Dialect.replaceColumn_limited (d : Dialect) (table : CollectionRef) (source : String)
    (c : Column) :
    Limited d (d = .sqlite ∧ c.autoIncrement = true) (d.replaceColumn table source c) := by
  have hall := (d.addColumn_limited table c).bind fun add _ =>
    Limited.ok (d := d) [add, d.copyColumn table source c, .dropColumn table source]
  exact hall.congr (or_false _).to_iff

/-- **A step** is refused where SQLite has no statement for it. -/
theorem AlterStep.ddl_limited (d : Dialect) (table : CollectionRef) (s : AlterStep) :
    Limited d (d = .sqlite ∧ s.BeyondSqlite) (s.ddl d table) := by
  cases s with
  | addColumn c source =>
    have hall := (d.addColumn_limited table c).bind fun add _ =>
      Limited.ok (d := d) (add :: (source.map fun s => d.copyColumn table s c).toList)
    exact hall.congr (or_false _).to_iff
  | alterColumn source c =>
    cases d with
    | postgres => exact (Limited.ok _).congr (by simp)
    | sqlite =>
      show Limited _ _ (Dialect.alterColumn .sqlite table source c)
      unfold Dialect.alterColumn
      by_cases hname : source = c.name
      · rw [if_pos hname]
        have hall := (Dialect.replaceColumn_limited .sqlite table source
          (c.renamed (Dialect.scratchName c.name))).bind fun moved _ =>
            Limited.ok (d := .sqlite)
              (moved ++ [Ddl.renameColumn table (Dialect.scratchName c.name) c.name])
        exact hall.congr (or_false _).to_iff
      · rw [if_neg hname]
        exact Dialect.replaceColumn_limited .sqlite table source c
  | addIndex i =>
    unfold ddl
    by_cases hprimary : i.isPrimary = true
    · simp only [hprimary, if_true]
      cases d with
      | postgres => exact (Limited.ok _).congr (by simp)
      | sqlite => exact ⟨fun _ => ⟨_, rfl⟩, fun h => absurd ⟨rfl, hprimary⟩ h⟩
    · simp only [hprimary]
      exact (Limited.ok _).congr (by simp [BeyondSqlite, hprimary])
  | dropIndex name =>
    unfold ddl
    by_cases hprimary : name = primaryName
    · simp only [hprimary, if_true]
      cases d with
      | postgres => exact (Limited.ok _).congr (by simp)
      | sqlite => exact ⟨fun _ => ⟨_, rfl⟩, fun h => absurd ⟨rfl, rfl⟩ h⟩
    · simp only [hprimary]
      exact (Limited.ok _).congr (by simp [BeyondSqlite, hprimary])
  | dropColumn name => exact (Limited.ok _).congr (by simp [BeyondSqlite])
  | rename target => exact (Limited.ok _).congr (by simp [BeyondSqlite])

namespace AlterCollection

variable {d : Dialect}

/-- Well-formed steps are refused where one of them is, whatever the renamings between them. -/
theorem ddlOfSteps_limited : ∀ {steps : List AlterStep} (table : CollectionRef),
    (∀ s ∈ steps, s.misuse? = none) →
      Limited d (d = .sqlite ∧ ∃ s ∈ steps, s.BeyondSqlite) (ddlOfSteps d table steps)
  | [], _, _ => (Limited.ok _).congr (by simp)
  | s :: rest, table, h => by
    obtain ⟨hs, hrest⟩ := List.forall_mem_cons.mp h
    rw [ddlOfSteps, AlterStep.check_mapError_eq_ok_iff.mpr hs]
    have hall := (s.ddl_limited d table).bind fun first _ =>
      (ddlOfSteps_limited (s.tableAfter table) hrest).bind fun more _ =>
        Limited.ok (d := d) (first ++ more)
    refine hall.congr ?_
    simp only [List.exists_mem_cons_iff, or_false, ← and_or_left]

/-- **An alteration that was made** is refused by SQLite for one of its steps, or gives
statements. -/
theorem Made.limited {q : AlterCollection} (h : q.Made) :
    Limited d (d = .sqlite ∧ ∃ s ∈ q.steps, s.BeyondSqlite) (q.ddl d) :=
  ddlOfSteps_limited q.collection h.wellFormed

end AlterCollection

/-! ## Queries on rows -/

/-- The names of the variables of a query. -/
def Query.variableNames (q : Query) : List String :=
  q.operands.filterMap Predicate.variableName?

section Rows

variable {d : Dialect} {vars : Variables}

/-- Every variable of a query has a value. -/
def Query.Bound (vars : Variables) (q : Query) : Prop :=
  ∀ name ∈ q.variableNames, (vars.lookup name).isSome = true

theorem exists_wherePieces_of_fits {p : Option Predicate} (hp : ConditionFits p)
    (h : ∀ name ∈ (p.toList.flatMap Predicate.operands).filterMap Predicate.variableName?,
      (vars.lookup name).isSome = true) :
    ∃ ps, Predicate.wherePieces vars p = .ok ps := by
  cases p with
  | none => exact ⟨[], rfl⟩
  | some p =>
    rw [Option.toList_some, List.flatMap_singleton] at h
    exact Predicate.exists_wherePieces (hp p rfl) h

theorem exists_fieldPieces {fields : List String} (h : ∀ f ∈ fields, Identifier.misuse? f = none) :
    ∃ ps, fieldPieces fields = .ok ps := by
  obtain ⟨parts, hparts⟩ := exists_piecesOfAll (l := fields)
    (f := fun f => (checkedName f).map fun n => [n]) fun f hf => by
      rw [checkedName_of_misuse? (h f hf)]
      exact ⟨_, rfl⟩
  exact ⟨_, bind_eq_ok_iff.mpr ⟨parts, hparts, rfl⟩⟩

theorem exists_sortPieces {terms : List SortTerm}
    (h : ∀ t ∈ terms, Identifier.misuse? t.field = none) : ∃ ps, sortPieces terms = .ok ps := by
  obtain ⟨parts, hparts⟩ := exists_piecesOfAll (l := terms)
    (f := fun t => (checkedName t.field).map fun n => [n, .words (" " ++ t.direction.keyword)])
    fun t ht => by
      rw [checkedName_of_misuse? (h t ht)]
      exact ⟨_, rfl⟩
  exact ⟨_, bind_eq_ok_iff.mpr ⟨parts, hparts, rfl⟩⟩

/-- Assigned operands whose variables have values have values themselves. -/
theorem exists_piece_of_assigned {a : Assignments}
    (h : ∀ name ∈ (a.map Prod.snd).filterMap Predicate.variableName?,
      (vars.lookup name).isSome = true) :
    ∀ entry ∈ a, ∃ v, entry.2.piece vars = .ok (.parameter v) := by
  intro entry hentry
  cases hx : entry.2 with
  | value v => exact ⟨v, rfl⟩
  | «variable» name =>
    have hname : name ∈ (a.map Prod.snd).filterMap Predicate.variableName? :=
      List.mem_filterMap.mpr ⟨_, List.mem_map_of_mem hentry, by rw [hx]; rfl⟩
    obtain ⟨v, hv⟩ := Option.isSome_iff_exists.mp (h name hname)
    refine ⟨v, Operand.piece_of_resolve ?_⟩
    rw [Operand.resolve, hv]

theorem Select.Made.exists_pieces {q : Select} (h : q.Made) (hq : q.collection ≠ none)
    (hvars : (Query.select q).Bound vars) : ∃ ps, q.pieces d vars = .ok ps := by
  obtain ⟨hfields, hcondition, hsort⟩ := h.wellFormed
  obtain ⟨c, hc⟩ := Option.ne_none_iff_exists'.mp hq
  obtain ⟨fields, hfields⟩ := exists_fieldPieces hfields
  obtain ⟨condition, hcondition⟩ := exists_wherePieces_of_fits hcondition hvars
  obtain ⟨order, horder⟩ := exists_sortPieces hsort
  exact ⟨_, pieces_eq_ok_iff.mpr
    ⟨c, fields, condition, order, hc, hfields, hcondition, horder, rfl⟩⟩

theorem Insert.Made.exists_pieces {q : Insert} (h : q.Made) (hvars : (Query.insert q).Bound vars) :
    ∃ ps, q.pieces vars = .ok ps := by
  unfold Insert.pieces
  split
  · exact ⟨_, rfl⟩
  · obtain ⟨fields, hfields⟩ := exists_fieldPieces (List.forall_mem_map.mpr h.named)
    obtain ⟨values, hvalues⟩ := exists_piecesOfAll (l := q.values)
      (f := fun entry => (entry.2.piece vars).map fun p => [p]) fun entry hentry => by
        obtain ⟨v, hv⟩ := exists_piece_of_assigned hvars entry hentry
        rw [hv]
        exact ⟨_, rfl⟩
    exact ⟨_, bind_eq_ok_iff.mpr ⟨fields, hfields, bind_eq_ok_iff.mpr ⟨values, hvalues, rfl⟩⟩⟩

theorem Update.Made.exists_pieces {q : Update} (h : q.Made) (hq : q.values.isEmpty = false)
    (hvars : (Query.update q).Bound vars) : ∃ ps, q.pieces vars = .ok ps := by
  obtain ⟨hnamed, hcondition⟩ := h.wellFormed
  unfold Query.Bound Query.variableNames Query.operands at hvars
  rw [List.filterMap_append] at hvars
  obtain ⟨hassigned, hvars⟩ := List.forall_mem_append.mp hvars
  obtain ⟨assignments, hassignments⟩ := exists_piecesOfAll (l := q.values)
    (f := assignmentPieces vars) fun entry hentry => by
      obtain ⟨v, hv⟩ := exists_piece_of_assigned hassigned entry hentry
      exact ⟨_, bind_eq_ok_iff.mpr ⟨_, checkedName_of_misuse? (hnamed entry hentry),
        bind_eq_ok_iff.mpr ⟨_, hv, rfl⟩⟩⟩
  obtain ⟨condition, hcondition⟩ := exists_wherePieces_of_fits hcondition hvars
  exact ⟨_, pieces_eq_ok_iff.mpr ⟨hq, assignments, condition, hassignments, hcondition, rfl⟩⟩

theorem Delete.Made.exists_pieces {q : Delete} (h : q.Made) (hvars : (Query.delete q).Bound vars) :
    ∃ ps, q.pieces vars = .ok ps := by
  obtain ⟨condition, hcondition⟩ := exists_wherePieces_of_fits h.conditionFits hvars
  exact Delete.exists_pieces hcondition

end Rows

/-! ## Every query -/

namespace Query

variable {d : Dialect} {vars : Variables} {q : Query}

theorem compile_limited {A : Prop} (h : Limited d A (q.statements d vars)) :
    Limited d A (q.compile d vars) :=
  (h.bind fun ss _ => Limited.ok (d := d)
    (⟨q.kind, q.collection?, q.range, ss⟩ : CompiledQuery)).congr (or_false _).to_iff

/-- **A query that was made and misses nothing** compiles, unless SQLite has no statement for it. -/
theorem Made.limited (h : q.Made) (hvars : q.Bound vars) (hmissing : q.missing? = none) :
    Limited d (d = .sqlite ∧ q.BeyondSqlite) (q.compile d vars) := by
  refine compile_limited ?_
  have hrows : (d = .sqlite ∧ False) ↔ False := and_false _ |>.to_iff
  cases q with
  | select q =>
    have hq : q.collection ≠ none := by simpa [missing?] using hmissing
    exact (Limited.of_exists (exists_single_iff.mpr (h.exists_pieces hq hvars))).congr hrows.symm
  | insert q =>
    exact (Limited.of_exists (exists_single_iff.mpr (h.exists_pieces hvars))).congr hrows.symm
  | update q =>
    have hq : q.values.isEmpty = false := by simpa [missing?] using hmissing
    exact (Limited.of_exists (exists_single_iff.mpr (h.exists_pieces hq hvars))).congr hrows.symm
  | delete q =>
    exact (Limited.of_exists (exists_single_iff.mpr (h.exists_pieces hvars))).congr hrows.symm
  | createCollection q =>
    have hq : q.columns.isEmpty = false := by simpa [missing?] using hmissing
    exact (h.limited hq).map _
  | alterCollection q => exact h.limited.map _
  | dropCollection c => exact (Limited.ok _).congr hrows.symm
  | collectionExists c => exact (Limited.ok _).congr hrows.symm
  | describeCollection c => exact (Limited.ok _).congr hrows.symm
  | showCollections => exact (Limited.ok _).congr hrows.symm

/-- A query that was made and misses a part is refused for just that. -/
theorem Made.compile_of_missing (h : q.Made) {m : Misuse} (hmissing : q.missing? = some m) :
    q.compile d vars = .error (.construction m) := by
  have hrefused : q.statements d vars = .error (.construction m) := by
    cases q with
    | select q =>
      obtain ⟨hq, rfl⟩ := by simpa [missing?] using hmissing
      simp [statements, Select.pieces, Select.body, hq, single]
      rfl
    | update q =>
      obtain ⟨hq, rfl⟩ := by simpa [missing?] using hmissing
      simp [statements, Update.pieces, hq, single]
      rfl
    | createCollection q =>
      obtain ⟨hq, rfl⟩ := by simpa [missing?] using hmissing
      simp [statements, h.ddl_eq, hq, structural]
      rfl
    | _ => nomatch hmissing
  rw [compile, hrefused]
  rfl

/-- **The builders' checks are complete**: a query that was made, its variables having values,
compiles unless a part is missing or SQLite has no statement for it; it is refused as badly built
exactly for the missing part, and as unsupported exactly where SQLite has no statement. -/
theorem Made.compile_iff (h : q.Made) (hvars : q.Bound vars) :
    ((∃ cq, q.compile d vars = .ok cq) ↔
      q.missing? = none ∧ ¬(d = .sqlite ∧ q.BeyondSqlite)) ∧
    (∀ m, q.compile d vars = .error (.construction m) ↔ q.missing? = some m) ∧
    ((∃ op, q.compile d vars = .error (.unsupported d op)) ↔ d = .sqlite ∧ q.BeyondSqlite) := by
  cases hmissing : q.missing? with
  | some m =>
    have hwithin : ¬(d = .sqlite ∧ q.BeyondSqlite) := by
      rintro ⟨-, hbeyond⟩
      rw [hbeyond.missing?_eq_none] at hmissing
      cases hmissing
    rw [h.compile_of_missing hmissing]
    simp [hwithin]
  | none =>
    have hlimited : Limited d (d = .sqlite ∧ q.BeyondSqlite) (q.compile d vars) :=
      h.limited hvars hmissing
    by_cases hbeyond : d = .sqlite ∧ q.BeyondSqlite
    · obtain ⟨op, hop⟩ := hlimited.refused hbeyond
      rw [hop]
      simp [hbeyond]
    · obtain ⟨cq, hcq⟩ := hlimited.done hbeyond
      rw [hcq]
      simp [hbeyond]

end Query

namespace Posts

/-- Posts numbered twice, the second number being outside the primary index. -/
def numbered : CreateCollection :=
  ⟨collection, [⟨"id", .int64, none, none, true⟩, ⟨"serial", .int32, none, none, true⟩],
    [⟨primaryName, .primary, Index.ascending ["id"]⟩]⟩

/-- The retitling of one post. -/
def retitled : Update :=
  ⟨collection, [("title", .variable "title")], some (.compare "id" .eq (.variable "id"))⟩

theorem made_numbered : numbered.Made :=
  CreateCollection.made_iff_rebuild.mpr rfl

theorem made_retitled : retitled.Made := by
  have hset : (Update.of collection).set "title" (.variable "title") =
      .ok ⟨collection, [("title", .variable "title")], none⟩ := rfl
  exact ((Update.Made.of collection).set hset).alsoMatching (p := .compare "id" .eq
    (.variable "id")) rfl

end Posts

/-- A second number is refused by SQLite alone, and a retitling compiles there. -/
theorem Query.Made.compile_numbered :
    (∃ cq, (Query.createCollection Posts.numbered).compile .postgres [] = .ok cq) ∧
      (∃ op, (Query.createCollection Posts.numbered).compile .sqlite [] =
        .error (.unsupported .sqlite op)) ∧
      ∃ cq, (Query.update Posts.retitled).compile .sqlite
        [("id", .int 7), ("title", .text "Hello")] = .ok cq := by
  have hmade : (Query.createCollection Posts.numbered).Made := Posts.made_numbered
  have hserial : Posts.numbered.CountsOutsideKey :=
    ⟨⟨"serial", .int32, none, none, true⟩, by simp [Posts.numbered], rfl, by decide⟩
  have hbound : (Query.update Posts.retitled).Bound [("id", .int 7), ("title", .text "Hello")] := by
    unfold Query.Bound
    decide
  refine ⟨?_, ?_, ?_⟩
  · exact (Query.Made.compile_iff hmade (List.forall_mem_nil _)).1.mpr ⟨rfl, by simp⟩
  · exact (Query.Made.compile_iff hmade (List.forall_mem_nil _)).2.2.mpr ⟨rfl, hserial⟩
  · exact (Query.Made.compile_iff (q := .update Posts.retitled) Posts.made_retitled hbound).1.mpr
      ⟨rfl, fun h => h.2⟩

end SchemaMigration
