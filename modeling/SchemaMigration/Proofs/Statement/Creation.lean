import SchemaMigration.Proofs.Catalog.Handles
import SchemaMigration.Proofs.Query.Completeness
import SchemaMigration.Proofs.Statement.TableText

/-!
# What a creation writes

A creation compiles to one `CREATE TABLE` and one `CREATE INDEX` for every index other than the
primary one. The table declares every column once and the primary key once, inside of the clause of
a column or as a clause of its own, and what the statements define, read off their texts, is all
that the creation says of its indexes but for the directions of the primary one.

About `compile_create`, with `create_index` and `primary_key_columns`.

* `Column.DefinedBy`: what a dialect makes of a column; `definedBy_clauses`: of all of them, by
  induction on the columns.
* `keyColumn?_append_keyFields?`: the key is written in one of the two places.
* `CreateCollection.definedIndexes`: the indexes as their statements define them.
* **`Made.statements_complete`**: the table and the indexes that a creation defines.
* **`Made.compile_keeps_indexes`**: when two creations of the same columns compile to the same
  statements, and what these define.
-/

namespace SchemaMigration

open Lexeme

/-- Of two lists that are related member by member, every member of the second one is related to a
member of the first. -/
theorem exists_mem_of_forall₂ {α β : Type} {R : α → β → Prop} {as : List α} {bs : List β}
    (h : List.Forall₂ R as bs) : ∀ b ∈ bs, ∃ a ∈ as, R a b := by
  induction h with
  | nil => exact List.forall_mem_nil _
  | @cons a b as bs hab _ ih =>
    refine List.forall_mem_cons.mpr ⟨⟨a, List.mem_cons_self, hab⟩, fun b' hb' => ?_⟩
    obtain ⟨a', ha', hab'⟩ := ih b' hb'
    exact ⟨a', List.mem_cons_of_mem a ha', hab'⟩

/-! ## Clauses of columns -/

variable {d : Dialect}

/-- The column is defined by a clause; `key` names the column whose clause holds the primary key. -/
structure Column.DefinedBy (key : Option String) (column : Column) (c : ColumnClause) : Prop where
  /-- The clause has the name of the column. -/
  name : c.name = column.name
  /-- It holds the key iff the column is the named one. -/
  isKey : c.isKey = decide (some column.name = key)
  /-- Its type is quiet. -/
  typed : c.Typed

/-- Either dialect defines a column by its clause, or refuses it. -/
theorem Dialect.definedBy_columnClause {key : Option String} {column : Column} {c : ColumnClause}
    (h : d.columnClause column (decide (some column.name = key)) = .ok c) :
    column.DefinedBy key c := by
  cases d with
  | postgres =>
    cases h
    exact ⟨rfl, rfl, quiet_typeName .postgres column⟩
  | sqlite =>
    unfold columnClause at h
    by_cases hkey : some column.name = key
    · simp only [hkey, decide_true, if_true] at h
      have htype : Quiet (gather [] ("INTEGER".toList.map Token.bare)) := ⟨by decide, by decide⟩
      cases h
      exact ⟨rfl, by simp [hkey], htype⟩
    · simp only [hkey, decide_false, Bool.false_eq_true, if_false] at h
      split at h
      · cases h
      · cases h
        exact ⟨rfl, by simp [hkey], quiet_typeName .sqlite column⟩

/-- The index of a table that a statement defines. -/
def DefinedIndex.index (table : CollectionRef) (i : DefinedIndex) : Index :=
  ⟨indexHandle table i.name, if i.unique then .unique else .plain, i.columns⟩

namespace CreateCollection

/-- Every column is defined by its clause, by induction on the columns. -/
theorem definedBy_clauses {key : Option String} : ∀ {columns : List Column}
    {cs : List ColumnClause}, clauses d key columns = .ok cs →
      List.Forall₂ (Column.DefinedBy key) columns cs
  | [], _, h => by
    cases h
    exact .nil
  | column :: r, _, h => by
    obtain ⟨clause, hclause, h⟩ := bind_eq_ok_iff.mp h
    obtain ⟨rest, hrest, h⟩ := bind_eq_ok_iff.mp h
    cases h
    exact .cons (Dialect.definedBy_columnClause hclause) (definedBy_clauses hrest)

section Items

variable {key : Option String} {columns : List Column} {cs : List ColumnClause}
  (h : List.Forall₂ (Column.DefinedBy key) columns cs)

include h

theorem filterMap_column?_items :
    (cs.map (ColumnClause.item d)).filterMap TableItem.column? = columns.map Column.name := by
  induction h with
  | nil => rfl
  | @cons column c columns cs hc _ ih =>
    show c.name :: (cs.map (ColumnClause.item d)).filterMap TableItem.column? = _
    rw [ih, hc.name, List.map_cons]

/-- Only the clause of the key column declares a key. -/
theorem flatMap_keys_items : (cs.map (ColumnClause.item d)).flatMap TableItem.keys =
    ((columns.map Column.name).filter fun name => decide (some name = key)).map
      fun name => [name] := by
  induction h with
  | nil => rfl
  | cons hc _ ih =>
    rw [List.map_cons, List.flatMap_cons, ih, (ColumnClause.reads_pieces d hc.typed).2.2, hc.isKey,
      hc.name, List.map_cons, List.filter_cons]
    split <;> rfl

end Items

variable {q : CreateCollection} {vars : Variables} {cq : CompiledQuery} {ds : List Ddl}

/-- The column whose clause holds the key is one of the columns, and only one. -/
theorem Made.filter_keyColumn? (hq : q.Made) :
    ((q.columns.map Column.name).filter fun name => decide (some name = q.keyColumn?)) =
      q.keyColumn?.toList := by
  obtain ⟨-, -, hconsistent⟩ := rebuild_eq_ok_iff.mp hq.rebuild
  cases hkey : q.keyColumn? with
  | none => simp
  | some name =>
    obtain ⟨-, c, hc, rfl, -⟩ := keyColumn?_eq_some_iff.mp hkey
    simp only [Option.some.injEq]
    rw [List.filter_eq, List.count_eq_one_of_mem hconsistent.columns_nodup
      (List.mem_map_of_mem hc)]
    rfl

/-- A secondary index has a key, and neither the kind nor the name of the primary one. -/
theorem Made.mem_secondaryIndexes (hq : q.Made) {i : Index} (hi : i ∈ q.secondaryIndexes) :
    i.columns ≠ [] ∧ i.kind ≠ .primary ∧ i.name ≠ primaryName := by
  obtain ⟨-, hindexes, -⟩ := rebuild_eq_ok_iff.mp hq.rebuild
  obtain ⟨hi, hsecondary⟩ := List.mem_filter.mp hi
  have hprimary : i.isPrimary = false := by simpa using hsecondary
  have hname := Index.isPrimary_eq (hindexes i hi)
  rw [hprimary] at hname
  exact ⟨Index.columns_ne_nil (hindexes i hi), of_decide_eq_false hprimary,
    of_decide_eq_false hname.symm⟩

/-- A creation compiles to the texts of its structural statements. -/
theorem compile_eq_ok_iff :
    (Query.createCollection q).compile d vars = .ok cq ↔ ∃ ds, q.ddl d = .ok ds ∧
      cq = ⟨.createCollection, some q.collection, .full, ds.map (Ddl.statement d)⟩ := by
  constructor
  · intro h
    obtain ⟨ss, hss, h⟩ := bind_eq_ok_iff.mp h
    cases h
    obtain ⟨ds, hds, rfl⟩ := map_eq_ok_iff.mp hss
    exact ⟨ds, hds, rfl⟩
  · rintro ⟨ds, hds, rfl⟩
    exact bind_eq_ok_iff.mpr ⟨_, map_eq_ok_iff.mpr ⟨ds, hds, rfl⟩, rfl⟩

/-- The primary key is written in the clause of a column or as a clause of its own, over the fields
of the primary index. -/
theorem keyColumn?_append_keyFields? (q : CreateCollection) :
    q.keyColumn?.toList.map (fun name => [name]) ++ q.keyFields?.toList =
      (q.primaryIndex?.map Index.fields).toList := by
  unfold keyFields?
  cases hkey : q.keyColumn? with
  | none => rfl
  | some name =>
    rw [(keyColumn?_eq_some_iff.mp hkey).1]
    rfl

/-- The statements of a creation: a table whose clauses define the columns, and its other
indexes. -/
theorem Made.exists_clauses (hq : q.Made) (hds : q.ddl d = .ok ds) :
    q.columns ≠ [] ∧ ∃ cs, List.Forall₂ (Column.DefinedBy q.keyColumn?) q.columns cs ∧
      ds = .createTable q.collection cs q.keyFields? ::
        q.secondaryIndexes.map (createIndex q.collection) := by
  rw [hq.ddl_eq] at hds
  split at hds
  · cases hds
  · rename_i hcolumns
    obtain ⟨cs, hcs, hds⟩ := bind_eq_ok_iff.mp hds
    cases hds
    exact ⟨fun h => hcolumns (List.isEmpty_iff.mpr h), cs, definedBy_clauses hcs, rfl⟩

theorem Made.keyFields?_ne_nil (hq : q.Made) : ∀ fields ∈ q.keyFields?, fields ≠ [] := by
  obtain ⟨-, hindexes, -⟩ := rebuild_eq_ok_iff.mp hq.rebuild
  intro fields hfields
  have hmem : fields ∈ (q.primaryIndex?.map Index.fields).toList := by
    rw [← q.keyColumn?_append_keyFields?, List.mem_append, Option.mem_toList]
    exact Or.inr hfields
  obtain ⟨i, hi, rfl⟩ := Option.map_eq_some_iff.mp (Option.mem_toList.mp hmem)
  exact fun h => Index.columns_ne_nil (hindexes i (List.mem_of_find?_eq_some hi))
    (List.map_eq_nil_iff.mp h)

/-- **The table of a creation, read back**: the columns in order, and the fields of the primary
index as the one key. -/
theorem Made.exists_definedTable (hq : q.Made) {cs : List ColumnClause} (hne : q.columns ≠ [])
    (hcs : List.Forall₂ (Column.DefinedBy q.keyColumn?) q.columns cs)
    (hsafe : (Ddl.createTable q.collection cs q.keyFields?).Safe) :
    ∃ t, ((Ddl.createTable q.collection cs q.keyFields?).statement d).definedTable? = some t ∧
      t.name = q.collection.identity ∧
        t.items = cs.map (ColumnClause.item d) ++ q.keyFields?.toList.map .key ∧
          t.columns = q.columns.map Column.name ∧
            t.keys = (q.primaryIndex?.map Index.fields).toList := by
  have hclauses : cs ≠ [] := by
    rintro rfl
    exact hne (List.forall₂_nil_right_iff.mp hcs)
  have htyped : ∀ c ∈ cs, c.Typed := by
    intro c hc
    obtain ⟨column, -, hdefines⟩ := exists_mem_of_forall₂ hcs c hc
    exact hdefines.typed
  refine ⟨_, Ddl.definedTable?_statement hsafe hclauses htyped hq.keyFields?_ne_nil, rfl, rfl,
    ?_, ?_⟩
  · have hkey : (q.keyFields?.toList.map TableItem.key).filterMap TableItem.column? = [] := by
      cases q.keyFields? <;> rfl
    rw [DefinedTable.columns, List.filterMap_append, filterMap_column?_items hcs, hkey,
      List.append_nil]
  · have hkey : (q.keyFields?.toList.map TableItem.key).flatMap TableItem.keys =
        q.keyFields?.toList := by
      cases q.keyFields? <;> rfl
    rw [DefinedTable.keys, List.flatMap_append, flatMap_keys_items hcs, hkey,
      hq.filter_keyColumn?, keyColumn?_append_keyFields?]

/-- The indexes of a creation as their statements define them. -/
def definedIndexes (q : CreateCollection) : List DefinedIndex :=
  q.secondaryIndexes.map fun i =>
    ⟨decide (i.kind = .unique), indexName q.collection i.name, q.collection.identity, i.columns⟩

/-- **The indexes of a creation, read back.** -/
theorem Made.map_definedIndex? (hq : q.Made)
    (hsafe : ∀ s ∈ q.secondaryIndexes.map (createIndex q.collection), s.Safe) :
    ((q.secondaryIndexes.map (createIndex q.collection)).map (Ddl.statement d)).map
      Statement.definedIndex? = q.definedIndexes.map some := by
  rw [definedIndexes, List.map_map, List.map_map, List.map_map]
  refine List.map_congr_left fun i hi => ?_
  exact Ddl.definedIndex?_statement (hsafe _ (List.mem_map_of_mem hi))
    (hq.mem_secondaryIndexes hi).1

/-- **A created table is complete.** The first statement of a compiled creation is a `CREATE TABLE`
that defines the columns, each once and in order, and declares one primary key, over the fields of
the primary index, if there is one, and else none. The other statements are one `CREATE INDEX` for
every other index in order, with its fields and their directions, unique iff the index is. -/
theorem Made.statements_complete (hq : q.Made)
    (hcq : (Query.createCollection q).compile d vars = .ok cq) :
    ∃ first rest t, cq.statements = first :: rest ∧ first.definedTable? = some t ∧
      t.name = q.collection.identity ∧ t.columns = q.columns.map Column.name ∧
        t.keys = (q.primaryIndex?.map Index.fields).toList ∧
          rest.map Statement.definedIndex? = q.definedIndexes.map some := by
  obtain ⟨ds, hds, rfl⟩ := compile_eq_ok_iff.mp hcq
  have hsafe := (ddl_ok hds).1
  obtain ⟨hne, cs, hcs, rfl⟩ := hq.exists_clauses hds
  obtain ⟨hfirst, hrest⟩ := List.forall_mem_cons.mp hsafe
  obtain ⟨t, ht, hname, -, hcolumns, hkeys⟩ := hq.exists_definedTable (d := d) hne hcs hfirst
  exact ⟨_, _, t, rfl, ht, hname, hcolumns, hkeys, hq.map_definedIndex? hrest⟩

end CreateCollection

namespace Posts

/-- The creation of counted posts that are ranked by their titles in a direction. -/
def ranked (direction : Direction) : CreateCollection :=
  ⟨collection, [⟨"id", .int64, none, none, true⟩, ⟨"title", .text, some 80, none, false⟩],
    [⟨"ranking", .unique, [⟨"title", direction⟩, ⟨"id", .ascending⟩]⟩,
      ⟨primaryName, .primary, Index.ascending ["id"]⟩]⟩

theorem made_ranked (direction : Direction) : (ranked direction).Made := by
  cases direction with
  | ascending => exact CreateCollection.made_iff_rebuild.mpr rfl
  | descending => exact CreateCollection.made_iff_rebuild.mpr rfl

theorem compile_ranked (direction : Direction) (d : Dialect) :
    ∃ cq, (Query.createCollection (ranked direction)).compile d [] = .ok cq := by
  cases direction <;> cases d <;> exact ⟨_, rfl⟩

end Posts

/-- Counted posts get one key, in the clause of their number, and a unique index. -/
theorem CreateCollection.statements_of_ranked :
    ∃ cq first rest t, (Query.createCollection (Posts.ranked .descending)).compile .sqlite [] =
        .ok cq ∧ cq.statements = first :: rest ∧ first.definedTable? = some t ∧
      t.columns = ["id", "title"] ∧ t.keys = [["id"]] ∧ rest.map Statement.definedIndex? =
        [some ⟨true, "post_ranking", "post", [⟨"title", .descending⟩, ⟨"id", .ascending⟩]⟩] := by
  obtain ⟨cq, hcq⟩ := Posts.compile_ranked .descending .sqlite
  obtain ⟨first, rest, t, htext, ht, -, hcolumns, hkeys, hindexes⟩ :=
    (Posts.made_ranked .descending).statements_complete hcq
  refine ⟨cq, first, rest, t, hcq, htext, ht, hcolumns, hkeys, hindexes.trans ?_⟩
  decide +kernel

/-! ## Creations with the same statements -/

namespace CreateCollection

variable {q q' : CreateCollection} {vars : Variables} {cq cq' : CompiledQuery}
  {ds ds' : List Ddl}

/-- The secondary indexes are told by what their statements define. -/
theorem Made.secondaryIndexes_eq (hq : q.Made) :
    q.secondaryIndexes = q.definedIndexes.map (DefinedIndex.index q.collection) := by
  rw [definedIndexes, List.map_map]
  refine (List.map_id q.secondaryIndexes).symm.trans (List.map_congr_left fun i hi => ?_)
  obtain ⟨name, kind, columns⟩ := i
  show Index.mk name kind columns = ⟨indexHandle q.collection (indexName q.collection name),
    if decide (kind = .unique) then .unique else .plain, columns⟩
  rw [indexHandle_indexName]
  cases kind with
  | primary => exact absurd rfl (hq.mem_secondaryIndexes hi).2.1
  | unique => rfl
  | plain => rfl

/-- The statements of a creation tell the fields of its primary index and its other indexes. -/
theorem Made.told_by_statements (hq : q.Made) (hds : q.ddl d = .ok ds) :
    ((ds.map (Ddl.statement d)).head?.bind Statement.definedTable?).map DefinedTable.keys =
        some (q.primaryIndex?.map Index.fields).toList ∧
      (ds.map (Ddl.statement d)).tail.map Statement.definedIndex? = q.definedIndexes.map some := by
  have hsafe := (ddl_ok hds).1
  obtain ⟨hne, cs, hcs, rfl⟩ := hq.exists_clauses hds
  obtain ⟨hfirst, hrest⟩ := List.forall_mem_cons.mp hsafe
  obtain ⟨t, ht, -, -, -, hkeys⟩ := hq.exists_definedTable (d := d) hne hcs hfirst
  refine ⟨?_, hq.map_definedIndex? hrest⟩
  rw [List.map_cons, List.head?_cons, Option.bind_some, ht, Option.map_some, hkeys]

/-- What a creation writes depends on its collection, its columns, its secondary indexes and the
fields of its primary index. -/
theorem Made.ddl_congr (hq : q.Made) (hq' : q'.Made) (hcollection : q.collection = q'.collection)
    (hcolumns : q.columns = q'.columns) (hsecondary : q.secondaryIndexes = q'.secondaryIndexes)
    (hprimary : q.primaryIndex?.map Index.fields = q'.primaryIndex?.map Index.fields) :
    q.ddl d = q'.ddl d := by
  have hkey : q.keyColumn? = q'.keyColumn? := by
    refine Option.ext fun name => ?_
    rw [keyColumn?_eq_some_iff, keyColumn?_eq_some_iff, hprimary, hcolumns]
  have hfields : q.keyFields? = q'.keyFields? := by
    rw [keyFields?, keyFields?, hkey, hprimary]
  rw [hq.ddl_eq, hq'.ddl_eq, hcollection, hcolumns, hkey, hfields, hsecondary]

/-- Two creations of one collection with the same columns have the same statements iff they have the
same secondary indexes in the same order, and primary indexes over the same fields in the same
order. -/
theorem Made.map_statement_eq_iff (hq : q.Made) (hq' : q'.Made)
    (hcollection : q.collection = q'.collection) (hcolumns : q.columns = q'.columns)
    (hds : q.ddl d = .ok ds) (hds' : q'.ddl d = .ok ds') :
    ds.map (Ddl.statement d) = ds'.map (Ddl.statement d) ↔
      q.secondaryIndexes = q'.secondaryIndexes ∧
        q.primaryIndex?.map Index.fields = q'.primaryIndex?.map Index.fields := by
  constructor
  · intro hsame
    obtain ⟨hkeys, hindexes⟩ := hq.told_by_statements hds
    obtain ⟨hkeys', hindexes'⟩ := hq'.told_by_statements hds'
    rw [hsame] at hkeys hindexes
    constructor
    · have hdefined := List.map_injective_iff.mpr (Option.some_injective _)
        (hindexes.symm.trans hindexes')
      rw [hq.secondaryIndexes_eq, hq'.secondaryIndexes_eq, hcollection, hdefined]
    · have hfields := congrArg List.head? (Option.some.inj (hkeys.symm.trans hkeys'))
      rwa [Option.head?_toList, Option.head?_toList] at hfields
  · rintro ⟨hsecondary, hprimary⟩
    rw [hq.ddl_congr hq' hcollection hcolumns hsecondary hprimary, hds'] at hds
    cases hds
    rfl

/-- **The composition of the indexes survives compilation**, but for the directions of the primary
one: two creations of one collection with the same columns that compile in a dialect compile to the
same statements iff they have the same secondary indexes in the same order, and primary indexes over
the same fields in the same order. What compiles is not altered either: the statements declare the
fields of the primary index as the key, and define every secondary index as it is. -/
theorem Made.compile_keeps_indexes (hq : q.Made) (hq' : q'.Made)
    (hcollection : q.collection = q'.collection) (hcolumns : q.columns = q'.columns)
    (hcq : (Query.createCollection q).compile d vars = .ok cq)
    (hcq' : (Query.createCollection q').compile d vars = .ok cq') :
    (cq.statements = cq'.statements ↔ q.secondaryIndexes = q'.secondaryIndexes ∧
      q.primaryIndex?.map Index.fields = q'.primaryIndex?.map Index.fields) ∧
    (cq.statements.head?.bind Statement.definedTable?).map DefinedTable.keys =
      some (q.primaryIndex?.map Index.fields).toList ∧
    cq.statements.tail.map Statement.definedIndex? = q.definedIndexes.map some := by
  obtain ⟨ds, hds, rfl⟩ := compile_eq_ok_iff.mp hcq
  obtain ⟨ds', hds', rfl⟩ := compile_eq_ok_iff.mp hcq'
  exact ⟨hq.map_statement_eq_iff hq' hcollection hcolumns hds hds', hq.told_by_statements hds⟩

end CreateCollection

namespace Posts

/-- The creation of posts whose primary index goes in a direction. -/
def keyed (direction : Direction) : CreateCollection :=
  ⟨collection, [.plain "id" .int64], [⟨primaryName, .primary, [⟨"id", direction⟩]⟩]⟩

theorem made_keyed (direction : Direction) : (keyed direction).Made := by
  cases direction with
  | ascending => exact CreateCollection.made_iff_rebuild.mpr rfl
  | descending => exact CreateCollection.made_iff_rebuild.mpr rfl

end Posts

/-- The direction of a title in a unique index is kept. -/
theorem CreateCollection.ranked_apart :
    ∃ cq cq', (Query.createCollection (Posts.ranked .ascending)).compile .postgres [] = .ok cq ∧
      (Query.createCollection (Posts.ranked .descending)).compile .postgres [] = .ok cq' ∧
      cq.statements ≠ cq'.statements := by
  obtain ⟨cq, hcq⟩ := Posts.compile_ranked .ascending .postgres
  obtain ⟨cq', hcq'⟩ := Posts.compile_ranked .descending .postgres
  refine ⟨cq, cq', hcq, hcq', fun hsame => ?_⟩
  obtain ⟨hsecondary, -⟩ := ((Posts.made_ranked .ascending).compile_keeps_indexes
    (Posts.made_ranked .descending) rfl rfl hcq hcq').1.mp hsame
  exact absurd hsecondary (by decide +kernel)

/-- **The direction of the primary index is lost**: two creations that differ in it alone compile to
the same statements in either dialect. -/
theorem CreateCollection.keyed_together :
    (Posts.keyed .ascending).Made ∧ (Posts.keyed .descending).Made ∧
      (Posts.keyed .ascending).collection = (Posts.keyed .descending).collection ∧
      (Posts.keyed .ascending).columns = (Posts.keyed .descending).columns ∧
      (Posts.keyed .ascending).indexes =
        [⟨primaryName, .primary, [⟨"id", .ascending⟩]⟩] ∧
      (Posts.keyed .descending).indexes =
        [⟨primaryName, .primary, [⟨"id", .descending⟩]⟩] ∧
      (∃ cq cq', (Query.createCollection (Posts.keyed .ascending)).compile .sqlite [] = .ok cq ∧
        (Query.createCollection (Posts.keyed .descending)).compile .sqlite [] = .ok cq' ∧
        cq.statements = cq'.statements ∧
        cq'.sql = ["CREATE TABLE \"post\" (\"id\" INTEGER, PRIMARY KEY (\"id\"))"]) ∧
      ∃ cq cq', (Query.createCollection (Posts.keyed .ascending)).compile .postgres [] = .ok cq ∧
        (Query.createCollection (Posts.keyed .descending)).compile .postgres [] = .ok cq' ∧
        cq.statements = cq'.statements ∧
        cq'.sql = ["CREATE TABLE \"post\" (\"id\" BIGINT, PRIMARY KEY (\"id\"))"] := by
  refine ⟨Posts.made_keyed .ascending, Posts.made_keyed .descending, rfl, rfl, rfl, rfl, ?_, ?_⟩
  · exact ⟨_, _, rfl, rfl, rfl, by decide +kernel⟩
  · exact ⟨_, _, rfl, rfl, rfl, by decide +kernel⟩

end SchemaMigration
