import SchemaMigration.Proofs.Catalog.Created
import SchemaMigration.Proofs.Catalog.Definition

/-!
# Which columns are read to count up

The catalog does not report that a column counts up; the definition of its table is searched for it.
A column that was created to count up is always found. Another key column is found where a text
default of the table reads like the clause of a counting key.

About `declares_autoincrement` and `decode_description`, on tables that `compile_create` writes.

* `Column.Imitates`: the text default of a column reads like such a clause.
* `CreateCollection.Made.declaresCounting_iff`: when a created table is said to count its key up.
* `Listed.forall₂_countsAlike_iff`: the marked column has to be the one that was created to count
  up.
* **`CreateCollection.Made.describe_counts_iff`**: when the described columns count up as they did.
-/

namespace SchemaMigration

open Text

/-! ## Created tables -/

/-- The text default of the column says that a column of the name counts up. -/
def Column.Imitates (name : String) (c : Column) : Prop :=
  ∃ s, c.default = some (.text s) ∧ definesCountingInside name.toList s.toList = true

/-- The text defaults among the columns' defaults. -/
theorem mem_textDefaults {columns : List Column} {s : String} :
    s ∈ (columns.filterMap Column.effectiveDefault).filterMap Value.text? ↔
      ∃ c ∈ columns, c.default = some (.text s) := by
  have hdefault : ∀ c : Column, (c.effectiveDefault.bind Value.text?) = some s ↔
      c.default = some (.text s) := by
    intro c
    unfold Column.effectiveDefault
    cases c.default with
    | none => simp
    | some v => cases v <;> simp [Option.filter, Value.isNull, Value.text?]
  rw [List.filterMap_filterMap, List.mem_filterMap]
  exact exists_congr fun c => and_congr_right fun _ => hdefault c

namespace CreateCollection

variable {q : CreateCollection} {ds : List Ddl} {key : String}

/-- The field of the primary index is a column. -/
theorem Made.exists_key (hq : q.Made) (hkey : q.keyNames = [key]) :
    ∃ c ∈ q.columns, c.name = key := by
  have hmem : key ∈ q.keyNames := by
    rw [hkey]
    exact List.mem_singleton_self key
  exact List.mem_map.mp (hq.mem_columns_of_mem_keyNames hmem)

theorem Made.safe_key (hq : q.Made) (hkey : q.keyNames = [key]) : Identifier.Safe key := by
  obtain ⟨hcolumns, -, -⟩ := rebuild_eq_ok_iff.mp hq.rebuild
  obtain ⟨c, hc, rfl⟩ := hq.exists_key hkey
  exact Column.safe_name (hcolumns c hc)

/-- Where a column counts up, its clause holds the key. -/
theorem Made.keyColumn?_eq_key (hq : q.Made) (hds : q.ddl .sqlite = .ok ds)
    (hkey : q.keyNames = [key]) (hcounts : ∃ c ∈ q.columns, c.autoIncrement = true) :
    q.keyColumn? = some key := by
  obtain ⟨c, hc, hauto⟩ := hcounts
  have hcolumn := (hq.ddl_sqlite hds).2.1 c hc hauto
  have hnames := (keyColumn?_eq_some hcolumn).1
  rw [hkey] at hnames
  rw [hcolumn, (List.cons.inj hnames).1]

/-- **A created table is said to count its key up** iff a column counts up or a default says so. -/
theorem Made.declaresCounting_iff {table : Ddl} (hq : q.Made)
    (hds : q.ddl .sqlite = .ok (table :: ds)) (hkey : q.keyNames = [key]) :
    declaresCounting (table.sql .sqlite) key = true ↔
      (∃ c ∈ q.columns, c.autoIncrement = true) ∨ ∃ c ∈ q.columns, c.Imitates key := by
  obtain ⟨-, -, heq⟩ := hq.ddl_sqlite hds
  obtain ⟨rfl, -⟩ := List.cons.inj heq
  have hsafe := (ddl_ok hds).1 _ List.mem_cons_self
  by_cases hcounts : ∃ c ∈ q.columns, c.autoIncrement = true
  · refine iff_of_true ?_ (.inl hcounts)
    obtain ⟨c, hc, rfl⟩ := hq.exists_key hkey
    have hclause : c.sqliteClause q.keyColumn? =
        ⟨c.name, "INTEGER", true, true, c.effectiveDefault⟩ :=
      if_pos (hq.keyColumn?_eq_key hds hkey hcounts).symm
    have hmem := List.mem_map_of_mem (f := Column.sqliteClause q.keyColumn?) hc
    rw [hclause] at hmem
    have hfound := Ddl.declaresCounting_of_key q.collection q.keyFields? hmem (hq.safe_key hkey)
      rfl rfl
    exact hfound
  · rw [or_iff_right hcounts]
    have hnone : ∀ c ∈ q.columns, some c.name ≠ q.keyColumn? := fun c hc hcolumn =>
      hcounts ⟨c, hc, (hq.keyColumn?_iff hds hc).mp hcolumn⟩
    have hcalm : ∀ c ∈ q.columns.map (Column.sqliteClause q.keyColumn?),
        Tame c.typeName.toList ∧ c.isKey = false := by
      rw [List.forall_mem_map]
      intro c hc
      rw [Column.sqliteClause, if_neg (hnone c hc)]
      exact ⟨tame_typeName c, rfl⟩
    have hdefaults : (q.columns.map (Column.sqliteClause q.keyColumn?)).filterMap
        ColumnClause.default = q.columns.filterMap Column.effectiveDefault := by
      simp [List.filterMap_map]
    rw [Ddl.declaresCounting_of_calm hsafe hcalm (hq.safe_key hkey), hdefaults, List.any_eq_true]
    constructor
    · rintro ⟨s, hs, hfound⟩
      obtain ⟨c, hc, hdefault⟩ := mem_textDefaults.mp hs
      exact ⟨c, hc, s, hdefault, hfound⟩
    · rintro ⟨c, hc, s, hdefault, hfound⟩
      exact ⟨s, mem_textDefaults.mpr ⟨c, hc, hdefault⟩, hfound⟩

end CreateCollection

/-! ## The described columns -/

namespace Catalog

theorem autoIncrement_of_readColumn {c : CollectionRef} {r : Row} {l : ListedColumn}
    (h : readColumn c r = .ok l) : l.column.autoIncrement = false := by
  obtain ⟨_, -, h⟩ := bind_eq_ok_iff.mp h
  obtain ⟨_, -, h⟩ := bind_eq_ok_iff.mp h
  obtain ⟨_, -, h⟩ := bind_eq_ok_iff.mp h
  obtain ⟨_, -, h⟩ := bind_eq_ok_iff.mp h
  split at h
  · cases h
    rfl
  · cases h

/-- No column is known to count up when it is read. -/
theorem autoIncrement_of_readColumns {c : CollectionRef} : ∀ {rows : List Row}
    {listed : List ListedColumn}, readColumns c rows = .ok listed →
      ∀ l ∈ listed, l.column.autoIncrement = false
  | [], _, h => by
    cases h
    exact List.forall_mem_nil _
  | r :: rows, _, h => by
    obtain ⟨first, hfirst, h⟩ := bind_eq_ok_iff.mp h
    obtain ⟨rest, hrest, h⟩ := bind_eq_ok_iff.mp h
    cases h
    exact List.forall_mem_cons.mpr
      ⟨autoIncrement_of_readColumn hfirst, autoIncrement_of_readColumns hrest⟩

end Catalog

/-- The column is read back under its name, and counts up iff it did. -/
structure Column.CountsAlike (c c' : Column) : Prop where
  /-- The name is the same. -/
  name : c'.name = c.name
  /-- The same columns count up. -/
  counts : c'.autoIncrement = c.autoIncrement

/-- Two lists are related if every member of the first one is what it takes. -/
theorem forall₂_iff_forall_mem {α β : Type} {R S : α → β → Prop} {P : α → Prop} {as : List α}
    {bs : List β} (h : List.Forall₂ S as bs) (hP : ∀ a, ∀ b ∈ bs, S a b → (R a b ↔ P a)) :
    List.Forall₂ R as bs ↔ ∀ a ∈ as, P a := by
  induction h with
  | nil => exact iff_of_true .nil (List.forall_mem_nil _)
  | cons hab _ ih =>
    rw [List.forall₂_cons, List.forall_mem_cons, hP _ _ List.mem_cons_self hab,
      ih fun a b hb => hP a b (List.mem_cons_of_mem _ hb)]

namespace CreateCollection

section Reading

variable {q : CreateCollection} {ds : List Ddl} {key : String} {columnRows : List Row}
  {listed : List Catalog.ListedColumn}

/-- The key column of a creation is declared as an integer. -/
theorem Made.rowidColumn?_listed (hq : q.Made) (hds : q.ddl .sqlite = .ok ds)
    (hkey : q.keyNames = [key])
    (htype : ∀ c ∈ q.columns, c.name = key → c.type = .int64 ∨ c.autoIncrement = true)
    (hlisted : q.Listed listed) :
    Catalog.rowidColumn? (Catalog.keyColumns listed) = some key := by
  have hfields : ∀ i ∈ q.primaryIndex?, i.fields.Nodup := by
    intro i hi
    rw [keyNames, hi, Option.map_some, Option.getD_some] at hkey
    rw [hkey]
    exact List.nodup_singleton key
  have hnames := hq.map_name_keyColumns hlisted hfields
  rw [hkey] at hnames
  obtain ⟨only, honly, rfl⟩ := List.map_eq_singleton_iff.mp hnames
  have hmem : only ∈ listed :=
    ((Catalog.mem_keyColumns hlisted.position).mp (honly ▸ List.mem_singleton_self only)).1
  obtain ⟨c, hc, hreads⟩ := exists_mem_of_forall₂ hlisted only hmem
  have hdeclared : only.declaredType = "INTEGER" := by
    rw [hreads.declared, ColumnClause.listing, Column.sqliteClause]
    split
    · rfl
    · rename_i hcolumn
      have hname : c.name = only.column.name := by
        rw [hreads.name, ColumnClause.listing, Column.name_sqliteClause]
      have hcounts : c.autoIncrement ≠ true := fun h =>
        hcolumn ((hq.keyColumn?_iff hds hc).mpr h)
      show Dialect.sqliteTypeName c.type c.size = "INTEGER"
      rw [(htype c hc hname).resolve_right hcounts]
      rfl
  rw [honly]
  show (if sameAsciiLetters only.declaredType.toList "INTEGER".toList then
    some only.column.name else none) = some only.column.name
  rw [hdeclared, if_pos (by decide)]

/-- The columns are read back to count up as they did iff the marked column is the one that did. -/
theorem Listed.forall₂_countsAlike_iff (hlisted : q.Listed listed)
    (hread : ∀ l ∈ listed, l.column.autoIncrement = false) (counting : Option String) :
    List.Forall₂ Column.CountsAlike q.columns (listed.map (Catalog.markCounting counting)) ↔
      ∀ c ∈ q.columns, counting = some c.name ↔ c.autoIncrement = true := by
  rw [List.forall₂_map_right_iff]
  refine forall₂_iff_forall_mem hlisted fun c l hl hreads => ?_
  have hname : l.column.name = c.name := hreads.name.trans Column.name_sqliteClause
  have hcounts : (Catalog.markCounting counting l).autoIncrement =
      decide (counting = some c.name) := by
    rw [Catalog.markCounting_eq, hread l hl, Bool.or_false, hname]
  have hsame : (Catalog.markCounting counting l).autoIncrement = c.autoIncrement ↔
      (counting = some c.name ↔ c.autoIncrement = true) := by
    rw [hcounts, Bool.eq_iff_iff, decide_eq_true_iff]
  rw [← hsame]
  refine ⟨fun h => h.counts, fun h => ⟨?_, h⟩⟩
  rw [Catalog.markCounting_eq, ← hname]

/-- What is described of a created table, whose text is the definition of the table. -/
theorem Made.describe_counts {table : Ddl} (hq : q.Made) (hds : q.ddl .sqlite = .ok (table :: ds))
    (hkey : q.keyNames = [key])
    (htype : ∀ c ∈ q.columns, c.name = key → c.type = .int64 ∨ c.autoIncrement = true)
    {indexRows tableRows : List Row}
    (hreports : Catalog.Reports q.collection ((table :: ds).map (Ddl.statement .sqlite)) columnRows
      indexRows)
    (hdefinition : Catalog.definitionOf q.collection tableRows = .ok (some (table.sql .sqlite))) :
    ∃ live, Catalog.describe q.collection columnRows indexRows tableRows = .ok live ∧
      (List.Forall₂ Column.CountsAlike q.columns live.columns ↔
        (∃ c ∈ q.columns, c.autoIncrement = true) ∨ ∀ c ∈ q.columns, ¬c.Imitates key) := by
  obtain ⟨listed, hread, hlisted⟩ := hq.readColumns_of_reports hds hreports
  refine ⟨_, hq.describe_of_readColumns hds hreports hdefinition hread, ?_⟩
  have hcounting : Catalog.countingColumn? (Catalog.keyColumns listed) (some (table.sql .sqlite)) =
      if declaresCounting (table.sql .sqlite) key then some key else none := by
    rw [Catalog.countingColumn?, hq.rowidColumn?_listed hds hkey htype hlisted]
    rfl
  have hdeclares := hq.declaresCounting_iff hds hkey
  refine (hlisted.forall₂_countsAlike_iff (Catalog.autoIncrement_of_readColumns hread) _).trans ?_
  rw [hcounting]
  by_cases hcounts : ∃ c ∈ q.columns, c.autoIncrement = true
  · refine iff_of_true ?_ (.inl hcounts)
    rw [if_pos (hdeclares.mpr (.inl hcounts))]
    intro c hc
    rw [← hq.keyColumn?_iff hds hc, hq.keyColumn?_eq_key hds hkey hcounts]
    exact eq_comm
  · rw [or_iff_right hcounts] at hdeclares ⊢
    have hnone : ∀ c ∈ q.columns, c.autoIncrement ≠ true := fun c hc h => hcounts ⟨c, hc, h⟩
    by_cases hdeclared : declaresCounting (table.sql .sqlite) key = true
    · obtain ⟨c, hc, rfl⟩ := hq.exists_key hkey
      obtain ⟨c', hc', himitates⟩ := hdeclares.mp hdeclared
      rw [if_pos hdeclared]
      exact iff_of_false (fun h => hnone c hc ((h c hc).mp rfl)) fun h => h c' hc' himitates
    · rw [if_neg hdeclared]
      refine iff_of_true (fun c hc => iff_of_false (by simp) (hnone c hc)) fun c hc h => ?_
      exact hdeclared (hdeclares.mpr ⟨c, hc, h⟩)

end Reading

variable {q : CreateCollection} {key : String} {vars : Variables} {cq : CompiledQuery}

/-- **Which columns are read to count up.** Where a creation whose primary index has a single
column, of 64 bits or counting up, compiles on SQLite, the rows that the catalog reports of its
statements are described. The columns that count up are those that were created to iff there is
one, or no text default reads like the clause of a counting key. -/
theorem Made.describe_counts_iff (hq : q.Made) (hkey : q.keyNames = [key])
    (htype : ∀ c ∈ q.columns, c.name = key → c.type = .int64 ∨ c.autoIncrement = true)
    (hcq : (Query.createCollection q).compile .sqlite vars = .ok cq) :
    ∃ ds, q.ddl .sqlite = .ok ds ∧ cq.statements = ds.map (Ddl.statement .sqlite) ∧
      ∀ columnRows indexRows tableRows sql,
        Catalog.Reports q.collection cq.statements columnRows indexRows →
        cq.sql.head? = some sql → Catalog.definitionOf q.collection tableRows = .ok (some sql) →
          ∃ live, Catalog.describe q.collection columnRows indexRows tableRows = .ok live ∧
            (List.Forall₂ Column.CountsAlike q.columns live.columns ↔
              (∃ c ∈ q.columns, c.autoIncrement = true) ∨ ∀ c ∈ q.columns, ¬c.Imitates key) := by
  obtain ⟨ds, hds, rfl⟩ := compile_eq_ok_iff.mp hcq
  refine ⟨ds, hds, rfl, fun columnRows indexRows tableRows sql hreports hsql hdefinition => ?_⟩
  obtain ⟨table, rest, rfl⟩ : ∃ table rest, ds = table :: rest := ⟨_, _, (hq.ddl_sqlite hds).2.2⟩
  obtain rfl : table.sql .sqlite = sql := Option.some.inj hsql
  exact hq.describe_counts hds hkey htype hreports hdefinition

end CreateCollection

/-! ## An example -/

namespace Posts

/-- The creation of posts with a note, which is this one by default. -/
def annotated (note : String) : CreateCollection :=
  ⟨collection, [⟨"id", .int64, none, none, false⟩, ⟨"note", .text, none, some (.text note), false⟩],
    [⟨primaryName, .primary, Index.ascending ["id"]⟩]⟩

/-- The statement that creates the annotated posts. -/
def annotatedTable (note : String) : Ddl :=
  .createTable collection [⟨"id", "INTEGER", false, false, none⟩,
    ⟨"note", "TEXT", false, false, some (.text note)⟩] (some ["id"])

/-- The columns of the annotated posts as the catalog lists them. -/
def annotatedColumns (note : String) : List Row :=
  [columnRow "id" "INTEGER" .null 1, columnRow "note" "TEXT" (.text (Value.text note).literal) 0]

/-- The definition of a table as the catalog lists it. -/
def definitionRow (sql : String) : Row :=
  [("sql", .text sql)]

/-- A note that reads like the clause of a counting key. -/
def clauseNote : String :=
  " \"id\" INTEGER PRIMARY KEY AUTOINCREMENT"

variable {note : String}

theorem made_annotated : (annotated note).Made :=
  CreateCollection.made_iff_rebuild.mpr (by cbv)

theorem ddl_annotated : (annotated note).ddl .sqlite = .ok [annotatedTable note] := by
  cbv

theorem reports_annotated : Catalog.Reports collection
    ([annotatedTable note].map (Ddl.statement .sqlite)) (annotatedColumns note) [] := by
  refine (made_annotated.reports_iff ddl_annotated).mpr ⟨?_, .nil, List.forall_mem_nil _⟩
  exact .cons ⟨rfl, rfl, rfl, 1, rfl, rfl⟩ (.cons ⟨rfl, rfl, rfl, 0, rfl, rfl⟩ .nil)

/-- The notes of annotated posts are looked through, and nothing else of them. -/
theorem imitates_annotated : (∃ c ∈ (annotated note).columns, c.Imitates "id") ↔
    definesCountingInside "id".toList note.toList = true := by
  simp [annotated, Column.Imitates]

theorem not_counting_annotated : ¬∃ c ∈ (annotated note).columns, c.autoIncrement = true := by
  simp [annotated]

end Posts

/-- No column is read to count up where a note only names the last word. -/
theorem CreateCollection.describe_counts_of_posts :
    ∃ live, Catalog.describe Posts.collection (Posts.annotatedColumns "AUTOINCREMENT") []
        [Posts.definitionRow ((Posts.annotatedTable "AUTOINCREMENT").sql .sqlite)] = .ok live ∧
      List.Forall₂ Column.CountsAlike (Posts.annotated "AUTOINCREMENT").columns live.columns := by
  have htype : ∀ c ∈ (Posts.annotated "AUTOINCREMENT").columns, c.name = "id" →
      c.type = .int64 ∨ c.autoIncrement = true := by decide
  have hcompile : (Query.createCollection (Posts.annotated "AUTOINCREMENT")).compile .sqlite [] =
      .ok _ := compile_eq_ok_iff.mpr ⟨_, Posts.ddl_annotated, rfl⟩
  have hkey : (Posts.annotated "AUTOINCREMENT").keyNames = ["id"] := rfl
  obtain ⟨ds, hds, -, hdescribe⟩ :=
    Posts.made_annotated.describe_counts_iff hkey htype hcompile
  obtain rfl : [Posts.annotatedTable "AUTOINCREMENT"] = ds :=
    Except.ok.inj (Posts.ddl_annotated.symm.trans hds)
  obtain ⟨live, hlive, hcounts⟩ := hdescribe _ [] [Posts.definitionRow _] _
    Posts.reports_annotated rfl rfl
  refine ⟨live, hlive, hcounts.mpr (.inr fun c hc himitates => ?_)⟩
  have hfound := Posts.imitates_annotated.mp ⟨c, hc, himitates⟩
  exact absurd hfound (by decide +kernel)

/-- **A column is read to count up that was not created to**, for the note reads as if it did. -/
theorem CreateCollection.describe_imitating :
    (Posts.annotated Posts.clauseNote).Made ∧
      (Query.createCollection (Posts.annotated Posts.clauseNote)).compile .sqlite [] =
        .ok ⟨.createCollection, some Posts.collection, .full,
          [(Posts.annotatedTable Posts.clauseNote).statement .sqlite]⟩ ∧
      (Posts.annotatedTable Posts.clauseNote).sql .sqlite = "CREATE TABLE \"post\" (" ++
        "\"id\" INTEGER, \"note\" TEXT DEFAULT ' \"id\" INTEGER PRIMARY KEY AUTOINCREMENT', " ++
          "PRIMARY KEY (\"id\"))" ∧
      Catalog.Reports Posts.collection [(Posts.annotatedTable Posts.clauseNote).statement .sqlite]
        (Posts.annotatedColumns Posts.clauseNote) [] ∧
      ∃ live, Catalog.describe Posts.collection (Posts.annotatedColumns Posts.clauseNote) []
          [Posts.definitionRow ((Posts.annotatedTable Posts.clauseNote).sql .sqlite)] = .ok live ∧
        ¬List.Forall₂ Column.CountsAlike (Posts.annotated Posts.clauseNote).columns
          live.columns := by
  have htype : ∀ c ∈ (Posts.annotated Posts.clauseNote).columns, c.name = "id" →
      c.type = .int64 ∨ c.autoIncrement = true := by decide
  have hclause : definesCountingInside "id".toList Posts.clauseNote.toList = true := by
    have hopening : opensDefinition ' ' = true := rfl
    have hends : endsWord [] = true := rfl
    exact definesCountingInside_of_key hopening hends "id".toList []
  have hkey : (Posts.annotated Posts.clauseNote).keyNames = ["id"] := rfl
  have hdefinition : Catalog.definitionOf Posts.collection
      [Posts.definitionRow ((Posts.annotatedTable Posts.clauseNote).sql .sqlite)] =
        .ok (some ((Posts.annotatedTable Posts.clauseNote).sql .sqlite)) := rfl
  obtain ⟨live, hlive, hcounts⟩ := Posts.made_annotated.describe_counts Posts.ddl_annotated hkey
    htype Posts.reports_annotated hdefinition
  refine ⟨Posts.made_annotated, compile_eq_ok_iff.mpr ⟨_, Posts.ddl_annotated, rfl⟩, ?_,
    Posts.reports_annotated, live, hlive, fun h => ?_⟩
  · decide +kernel
  · obtain ⟨c, hc, himitates⟩ := Posts.imitates_annotated.mpr hclause
    exact (hcounts.mp h).elim Posts.not_counting_annotated fun hnone => hnone c hc himitates

end SchemaMigration
