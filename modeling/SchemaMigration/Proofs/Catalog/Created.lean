import Mathlib
import SchemaMigration.Proofs.Catalog.Reports
import SchemaMigration.Proofs.Dialect.TypeName
import SchemaMigration.Proofs.Statement.Creation

/-!
# Describing undoes creating

A creation compiles to the statement of a table and one for every secondary index. When these were
carried out on SQLite, the catalog describes the collection as it was created: the columns with
their names, types, sizes and defaults in order, the primary index, and then the secondary ones in
order.

About `decode_description`, on what `compile_create` writes.

* `Column.sqliteClause`, `CreateCollection.keyNames`: the clauses and the primary key of the table.
* `CreateCollection.Made.ddl_sqlite`: the statements of a creation.
* `Made.columnListings_sqlite`, `Made.keyRows_sqlite`: what their texts give the catalog to report;
  `Made.reports_iff`: so this is what the catalog reports.
* `Made.describe_of_reports`: what the catalog describes, for every creation.
* `Column.ReadBack`: the column as it is read back.
* **`Made.describe_created`**: a created collection is described as it was created.
-/

namespace SchemaMigration

/-! ## The statements of a creation -/

theorem ColumnType.isInteger_of_isSized {type : ColumnType} (h : type.isSized = true) :
    type.isInteger = false := by
  cases type <;> first | rfl | cases h

/-- The clause of a column on SQLite; `key` names the column whose clause holds the primary key. -/
def Column.sqliteClause (key : Option String) (c : Column) : ColumnClause :=
  if some c.name = key then ⟨c.name, "INTEGER", true, true, c.effectiveDefault⟩
  else ⟨c.name, Dialect.sqlite.typeName c, false, false, c.effectiveDefault⟩

namespace Column

variable {key : Option String} {c : Column}

@[simp]
theorem name_sqliteClause : (c.sqliteClause key).name = c.name := by
  unfold sqliteClause
  split <;> rfl

@[simp]
theorem default_sqliteClause : (c.sqliteClause key).default = c.effectiveDefault := by
  unfold sqliteClause
  split <;> rfl

theorem legible_sqliteClause : LegibleType (c.sqliteClause key).typeName := by
  unfold sqliteClause
  split
  · exact legible_integer
  · exact legible_typeName c

/-- The declared type stands for the type of the column; the key is declared as an integer. -/
theorem parseTypeName?_sqliteClause (hc : c.misuse? = none) :
    Dialect.sqlite.parseTypeName? (c.sqliteClause key).typeName =
      some (if some c.name = key then (.int64, none) else (c.type, c.size)) := by
  unfold sqliteClause
  split
  · show Dialect.sqlite.parseTypeName? "INTEGER" = some (.int64, none)
    decide +kernel
  · exact Dialect.parseTypeName?_typeName hc

/-- A column that counts up has no size. -/
theorem size_of_autoIncrement (hc : c.misuse? = none) (hcounts : c.autoIncrement = true) :
    c.size = none := by
  have hinteger := isInteger_of_autoIncrement hc hcounts
  cases hsize : c.size with
  | none => rfl
  | some n =>
    have hsized := isSized_of_misuse? hc (by rw [hsize]; rfl)
    rw [ColumnType.isInteger_of_isSized hsized] at hinteger
    cases hinteger

end Column

namespace CreateCollection

/-- The fields of the primary index; none where there is no such index. -/
def keyNames (q : CreateCollection) : List String :=
  (q.primaryIndex?.map Index.fields).getD []

/-- The fields of the primary index are columns. -/
theorem Made.mem_columns_of_mem_keyNames {q : CreateCollection} (hq : q.Made) {name : String}
    (hname : name ∈ q.keyNames) : name ∈ q.columns.map Column.name := by
  obtain ⟨-, -, hconsistent⟩ := rebuild_eq_ok_iff.mp hq.rebuild
  unfold keyNames at hname
  cases hprimary : q.primaryIndex? with
  | none => simp [hprimary] at hname
  | some i =>
    rw [hprimary] at hname
    exact hconsistent.covered i (List.mem_of_find?_eq_some hprimary) name hname

theorem clauses_sqlite {key : Option String} : ∀ {columns : List Column} {cs : List ColumnClause},
    clauses .sqlite key columns = .ok cs → cs = columns.map (Column.sqliteClause key) ∧
      ∀ c ∈ columns, c.autoIncrement = true → key = some c.name
  | [], _, h => by
    cases h
    exact ⟨rfl, List.forall_mem_nil _⟩
  | c :: r, _, h => by
    obtain ⟨clause, hclause, h⟩ := bind_eq_ok_iff.mp h
    obtain ⟨rest, hrest, h⟩ := bind_eq_ok_iff.mp h
    cases h
    obtain ⟨rfl, hcounting⟩ := clauses_sqlite hrest
    have hfirst : clause = c.sqliteClause key ∧ (c.autoIncrement = true → key = some c.name) := by
      unfold Dialect.columnClause at hclause
      unfold Column.sqliteClause
      by_cases hkey : some c.name = key
      · subst hkey
        simp only [decide_true, if_true] at hclause ⊢
        exact ⟨(Except.ok.inj hclause).symm, fun _ => trivial⟩
      · simp only [hkey, decide_false, Bool.false_eq_true, if_false] at hclause ⊢
        split at hclause
        · cases hclause
        · rename_i hcounts
          exact ⟨(Except.ok.inj hclause).symm, fun h => absurd h hcounts⟩
    exact ⟨congrArg (· :: _) hfirst.1, List.forall_mem_cons.mpr ⟨hfirst.2, hcounting⟩⟩

variable {q : CreateCollection} {ds : List Ddl}

/-- The statements of a creation on SQLite. -/
theorem Made.ddl_sqlite (hq : q.Made) (hds : q.ddl .sqlite = .ok ds) :
    q.columns ≠ [] ∧ (∀ c ∈ q.columns, c.autoIncrement = true → q.keyColumn? = some c.name) ∧
      ds = .createTable q.collection (q.columns.map (Column.sqliteClause q.keyColumn?))
        q.keyFields? :: q.secondaryIndexes.map (createIndex q.collection) := by
  rw [hq.ddl_eq] at hds
  split at hds
  · cases hds
  · rename_i hcolumns
    obtain ⟨cs, hcs, hds⟩ := bind_eq_ok_iff.mp hds
    cases hds
    obtain ⟨rfl, hcounting⟩ := clauses_sqlite hcs
    exact ⟨fun h => hcolumns (List.isEmpty_iff.mpr h), hcounting, rfl⟩

/-- The column whose clause holds the key counts up, and it alone is the primary index. -/
theorem keyColumn?_eq_some {name : String} (h : q.keyColumn? = some name) :
    q.keyNames = [name] ∧ ∃ c ∈ q.columns, c.name = name ∧ c.autoIncrement = true := by
  obtain ⟨hfields, hcolumn⟩ := keyColumn?_eq_some_iff.mp h
  exact ⟨by rw [keyNames, hfields, Option.getD_some], hcolumn⟩

/-- The column whose clause holds the key is the one that counts up. -/
theorem Made.keyColumn?_iff (hq : q.Made) (hds : q.ddl .sqlite = .ok ds) {c : Column}
    (hc : c ∈ q.columns) : some c.name = q.keyColumn? ↔ c.autoIncrement = true := by
  obtain ⟨-, -, hconsistent⟩ := rebuild_eq_ok_iff.mp hq.rebuild
  constructor
  · intro hkey
    obtain ⟨-, c', hc', hname, hcounts⟩ := keyColumn?_eq_some hkey.symm
    rwa [List.inj_on_of_nodup_map hconsistent.columns_nodup hc' hc hname] at hcounts
  · exact fun hcounts => ((hq.ddl_sqlite hds).2.1 c hc hcounts).symm

/-! ## What is read back -/

/-- The fields of the primary index are those of the one key that a table declares. -/
theorem flatten_keys (q : CreateCollection) :
    (q.primaryIndex?.map Index.fields).toList.flatten = q.keyNames := by
  unfold keyNames
  cases q.primaryIndex? <;> simp

/-- A secondary index is reported by the key fields that it was declared with. -/
theorem keyRows_createIndex {c : CollectionRef} {i : Index} (hcolumns : i.columns ≠ [])
    (hkind : i.kind ≠ .primary) (hsafe : (createIndex c i).Safe) :
    ((createIndex c i).statement .sqlite).keyRows c = i.keyRows c := by
  have hsame : (if decide (i.kind = .unique) then IndexKind.unique else .plain) = i.kind := by
    cases hi : i.kind with
    | primary => exact absurd hi hkind
    | unique => rfl
    | plain => rfl
  rw [Statement.keyRows, createIndex, Ddl.definedIndex?_statement hsafe hcolumns]
  show (if c.identity = c.identity then _ else []) = _
  rw [if_pos rfl, DefinedIndex.keyRows, hsame]
  rfl

/-- **The columns to report of a creation**, read off the texts of its statements. -/
theorem Made.columnListings_sqlite (hq : q.Made) (hds : q.ddl .sqlite = .ok ds) :
    (ds.map (Ddl.statement .sqlite)).flatMap (Statement.columnListings q.collection) =
      q.columns.map fun c => (c.sqliteClause q.keyColumn?).listing q.keyNames := by
  have hsafe := (ddl_ok hds).1
  obtain ⟨hne, cs, hcs, hclauses⟩ := hq.exists_clauses hds
  obtain ⟨-, -, rfl⟩ := hq.ddl_sqlite hds
  obtain rfl : q.columns.map (Column.sqliteClause q.keyColumn?) = cs := by
    injection hclauses with htable
    injection htable
  obtain ⟨hfirst, hrest⟩ := List.forall_mem_cons.mp hsafe
  obtain ⟨t, ht, hname, hitems, -, hkeys⟩ := hq.exists_definedTable hne hcs hfirst
  have hlegible : ∀ c ∈ q.columns.map (Column.sqliteClause q.keyColumn?),
      LegibleType c.typeName :=
    List.forall_mem_map.mpr fun _ _ => Column.legible_sqliteClause
  have hindexes : ((q.secondaryIndexes.map (createIndex q.collection)).map
      (Ddl.statement .sqlite)).flatMap (Statement.columnListings q.collection) = [] := by
    rw [List.flatMap_eq_nil_iff, List.forall_mem_map, List.forall_mem_map]
    intro i hi
    rw [Statement.columnListings, createIndex,
      Ddl.definedTable?_createIndex (hrest _ (List.mem_map_of_mem hi))]
  rw [List.map_cons, List.flatMap_cons, hindexes, List.append_nil, Statement.columnListings, ht]
  show (if t.name = q.collection.identity then t.listings else []) = _
  rw [if_pos hname, DefinedTable.listings_eq hitems hlegible, hkeys, flatten_keys, List.map_map]
  rfl

/-- **The key fields to report of a creation**, read off the texts of its statements. -/
theorem Made.keyRows_sqlite (hq : q.Made) (hds : q.ddl .sqlite = .ok ds) :
    (ds.map (Ddl.statement .sqlite)).flatMap (Statement.keyRows q.collection) =
      q.secondaryIndexes.flatMap (Index.keyRows q.collection) := by
  have hsafe := (ddl_ok hds).1
  obtain ⟨-, -, rfl⟩ := hq.ddl_sqlite hds
  obtain ⟨hfirst, hrest⟩ := List.forall_mem_cons.mp hsafe
  have htable : ((Ddl.createTable q.collection (q.columns.map (Column.sqliteClause q.keyColumn?))
      q.keyFields?).statement .sqlite).keyRows q.collection = [] := by
    rw [Statement.keyRows, Ddl.definedIndex?_createTable hfirst]
  rw [List.map_cons, List.flatMap_cons, htable, List.nil_append, List.flatMap_map,
    List.flatMap_map]
  refine List.flatMap_congr fun i hi => ?_
  obtain ⟨hcolumns, hkind, -⟩ := hq.mem_secondaryIndexes hi
  exact keyRows_createIndex hcolumns hkind (hrest _ (List.mem_map_of_mem hi))

variable {columnRows indexRows tableRows : List Row} {definition : Option String}

/-- **What the catalog reports of a creation**, in terms of its columns and its indexes. -/
theorem Made.reports_iff (hq : q.Made) (hds : q.ddl .sqlite = .ok ds) :
    Catalog.Reports q.collection (ds.map (Ddl.statement .sqlite)) columnRows indexRows ↔
      List.Forall₂ Catalog.ColumnListing.Reported
        (q.columns.map fun c => (c.sqliteClause q.keyColumn?).listing q.keyNames) columnRows ∧
      List.Forall₂ Catalog.KeyRow.Reported
        (q.secondaryIndexes.flatMap (Index.keyRows q.collection))
        (indexRows.filter fun r => !Catalog.ofPrimaryKey r) ∧
      ∀ r ∈ indexRows, Catalog.ofPrimaryKey r = true →
        ∃ physical, Row.find? r "name" = some (.text physical) := by
  rw [← hq.columnListings_sqlite hds, ← hq.keyRows_sqlite hds]
  constructor
  · rintro ⟨hcolumns, hkeys, hnamed⟩
    exact ⟨hcolumns, hkeys, hnamed⟩
  · rintro ⟨hcolumns, hkeys, hnamed⟩
    exact ⟨hcolumns, hkeys, hnamed⟩

/-- The listed columns are what is read of the columns of a creation. -/
def Listed (q : CreateCollection) (listed : List Catalog.ListedColumn) : Prop :=
  List.Forall₂ (fun c (l : Catalog.ListedColumn) =>
    l.Reads ((c.sqliteClause q.keyColumn?).listing q.keyNames)) q.columns listed

/-- A column is read for every column of a creation. -/
theorem Made.readColumns_of_reports (hq : q.Made) (hds : q.ddl .sqlite = .ok ds)
    (hreports : Catalog.Reports q.collection (ds.map (Ddl.statement .sqlite)) columnRows
      indexRows) :
    ∃ listed, Catalog.readColumns q.collection columnRows = .ok listed ∧ q.Listed listed := by
  obtain ⟨hcolumns, -, -⟩ := rebuild_eq_ok_iff.mp hq.rebuild
  obtain ⟨hcolumnRows, -⟩ := (hq.reports_iff hds).mp hreports
  obtain ⟨listed, hlisted, hreads⟩ := Catalog.readColumns_of_reported (c := q.collection)
    hcolumnRows (by
      rw [List.forall_mem_map]
      intro c hc
      rw [ColumnClause.listing, Column.parseTypeName?_sqliteClause (hcolumns c hc)]
      rfl)
  exact ⟨listed, hlisted, List.forall₂_map_left_iff.mp hreads⟩

/-- What is described of a creation is made up of the columns that are read. -/
theorem Made.describe_of_readColumns (hq : q.Made) (hds : q.ddl .sqlite = .ok ds)
    (hreports : Catalog.Reports q.collection (ds.map (Ddl.statement .sqlite)) columnRows indexRows)
    (hdefinition : Catalog.definitionOf q.collection tableRows = .ok definition)
    {listed : List Catalog.ListedColumn}
    (hlisted : Catalog.readColumns q.collection columnRows = .ok listed) :
    Catalog.describe q.collection columnRows indexRows tableRows =
      .ok ⟨q.collection,
        listed.map (Catalog.markCounting
          (Catalog.countingColumn? (Catalog.keyColumns listed) definition)),
        (Catalog.primaryIndex? (Catalog.keyColumns listed)).toList ++ q.secondaryIndexes⟩ := by
  obtain ⟨-, -, hconsistent⟩ := rebuild_eq_ok_iff.mp hq.rebuild
  obtain ⟨hcolumnRows, hkeyRows, hnamed⟩ := (hq.reports_iff hds).mp hreports
  have hkinds : ∀ k ∈ q.secondaryIndexes.flatMap (Index.keyRows q.collection),
      k.kind ≠ .primary := by
    intro k hk
    obtain ⟨i, hi, hk⟩ := List.mem_flatMap.mp hk
    obtain ⟨column, -, rfl⟩ := List.mem_map.mp hk
    exact (hq.mem_secondaryIndexes hi).2.1
  have hrows : columnRows.isEmpty = false := by
    rw [List.isEmpty_eq_false_iff]
    rintro rfl
    exact (hq.ddl_sqlite hds).1 (List.map_eq_nil_iff.mp (List.forall₂_nil_right_iff.mp hcolumnRows))
  unfold Catalog.describe
  rw [hrows]
  refine bind_eq_ok_iff.mpr ⟨definition, hdefinition, ?_⟩
  refine bind_eq_ok_iff.mpr ⟨listed, hlisted, ?_⟩
  refine bind_eq_ok_iff.mpr ⟨_, Catalog.readKeyRows_of_reported hkeyRows hkinds hnamed, ?_⟩
  rw [Catalog.groupKeys_flatMap q.collection (fun i hi => hq.mem_secondaryIndexes hi)
    (hconsistent.indexes_nodup.sublist (List.filter_sublist.map _))]
  rfl

/-- **What is read of the reported rows of a creation**: a column for every column, key columns and
the secondary indexes. -/
theorem Made.describe_of_reports (hq : q.Made) (hds : q.ddl .sqlite = .ok ds)
    (hreports : Catalog.Reports q.collection (ds.map (Ddl.statement .sqlite)) columnRows indexRows)
    (hdefinition : Catalog.definitionOf q.collection tableRows = .ok definition) :
    ∃ listed, Catalog.describe q.collection columnRows indexRows tableRows =
        .ok ⟨q.collection,
          listed.map (Catalog.markCounting
            (Catalog.countingColumn? (Catalog.keyColumns listed) definition)),
          (Catalog.primaryIndex? (Catalog.keyColumns listed)).toList ++ q.secondaryIndexes⟩ ∧
      q.Listed listed := by
  obtain ⟨listed, hlisted, hreads⟩ := hq.readColumns_of_reports hds hreports
  exact ⟨listed, hq.describe_of_readColumns hds hreports hdefinition hlisted, hreads⟩

/-! ## The described collection -/

section Described

variable {listed : List Catalog.ListedColumn}

theorem Listed.map_name (h : q.Listed listed) :
    (listed.map fun l => l.column.name) = q.columns.map Column.name := by
  have hnames : List.Forall₂ Eq (q.columns.map Column.name)
      (listed.map fun l => l.column.name) := by
    rw [List.forall₂_map_left_iff, List.forall₂_map_right_iff]
    exact h.imp fun c l h => by rw [h.name, ColumnClause.listing, Column.name_sqliteClause]
  rw [List.forall₂_eq_eq_eq] at hnames
  exact hnames.symm

theorem Listed.position (h : q.Listed listed) :
    ∀ l ∈ listed, l.position.toInt = Catalog.keyPosition q.keyNames l.column.name := by
  intro l hl
  obtain ⟨c, -, hreads⟩ := exists_mem_of_forall₂ h l hl
  rw [hreads.position, hreads.name, ColumnClause.listing]

/-- A primary index is read back iff there was one, over its fields in the order of the key. -/
theorem Made.primaryIndex?_listed (hq : q.Made) (h : q.Listed listed) :
    Catalog.primaryIndex? (Catalog.keyColumns listed) = q.primaryIndex?.map fun _ =>
      ⟨primaryName, .primary,
        Index.ascending ((Catalog.keyColumns listed).map fun l => l.column.name)⟩ := by
  obtain ⟨-, hindexes, hconsistent⟩ := rebuild_eq_ok_iff.mp hq.rebuild
  have hmem := fun l => Catalog.mem_keyColumns h.position (l := l)
  cases hprimary : q.primaryIndex? with
  | none =>
    have hnone : Catalog.keyColumns listed = [] := by
      refine List.eq_nil_iff_forall_not_mem.mpr fun l hl => ?_
      have hname := ((hmem l).mp hl).2
      simp [keyNames, hprimary] at hname
    rw [hnone]
    rfl
  | some i =>
    have hi : i ∈ q.indexes := List.mem_of_find?_eq_some hprimary
    obtain ⟨column, hcolumn⟩ := List.exists_mem_of_ne_nil _ (Index.columns_ne_nil (hindexes i hi))
    have hfield : column.field ∈ i.fields := List.mem_map_of_mem hcolumn
    have hlisted : column.field ∈ listed.map fun l => l.column.name := by
      rw [h.map_name]
      exact hconsistent.covered i hi _ hfield
    obtain ⟨l, hl, hname⟩ := List.mem_map.mp hlisted
    have hkey : l ∈ Catalog.keyColumns listed := by
      refine (hmem l).mpr ⟨hl, ?_⟩
      simpa [keyNames, hprimary, hname] using hfield
    rw [Catalog.primaryIndex?, if_neg (by simpa using List.ne_nil_of_mem hkey)]
    rfl

/-- The primary index that is read back covers the fields of the declared one in order. -/
theorem Made.map_name_keyColumns (hq : q.Made) (h : q.Listed listed)
    (hkey : ∀ i ∈ q.primaryIndex?, i.fields.Nodup) :
    ((Catalog.keyColumns listed).map fun l => l.column.name) = q.keyNames := by
  obtain ⟨-, -, hconsistent⟩ := rebuild_eq_ok_iff.mp hq.rebuild
  have hnames : (listed.map fun l => l.column.name).Nodup := by
    rw [h.map_name]
    exact hconsistent.columns_nodup
  refine Catalog.map_name_keyColumns h.position hnames ?_ fun name hname => ?_
  · unfold keyNames
    cases hprimary : q.primaryIndex? with
    | none => exact List.nodup_nil
    | some i => exact hkey i hprimary
  · rw [h.map_name]
    exact hq.mem_columns_of_mem_keyNames hname

/-- The name, the type and the size that are read of a column. -/
theorem Made.column_of_reads (hq : q.Made) (hds : q.ddl .sqlite = .ok ds) {c : Column}
    (hc : c ∈ q.columns) {l : Catalog.ListedColumn}
    (h : l.Reads ((c.sqliteClause q.keyColumn?).listing q.keyNames)) :
    l.column.name = c.name ∧ l.column.type = (if c.autoIncrement then .int64 else c.type) ∧
      l.column.size = c.size := by
  obtain ⟨hcolumns, -, -⟩ := rebuild_eq_ok_iff.mp hq.rebuild
  refine ⟨h.name.trans Column.name_sqliteClause, ?_⟩
  have htype := h.type
  rw [ColumnClause.listing, Column.parseTypeName?_sqliteClause (hcolumns c hc)] at htype
  by_cases hcounts : c.autoIncrement = true
  · rw [if_pos ((hq.keyColumn?_iff hds hc).mpr hcounts)] at htype
    obtain ⟨htype, hsize⟩ := Prod.mk.inj (Option.some.inj htype)
    rw [if_pos hcounts, ← htype, ← hsize, Column.size_of_autoIncrement (hcolumns c hc) hcounts]
    exact ⟨rfl, rfl⟩
  · rw [if_neg fun h => hcounts ((hq.keyColumn?_iff hds hc).mp h)] at htype
    obtain ⟨htype, hsize⟩ := Prod.mk.inj (Option.some.inj htype)
    rw [if_neg hcounts, ← htype, ← hsize]
    exact ⟨rfl, rfl⟩

end Described

end CreateCollection

namespace Catalog

/-- Marking a column as counting changes nothing else. -/
theorem markCounting_eq (counting : Option String) (l : ListedColumn) :
    markCounting counting l = { l.column with
      autoIncrement := decide (counting = some l.column.name) || l.column.autoIncrement } := by
  unfold markCounting
  by_cases h : counting = some l.column.name <;> simp [h]

/-- A default other than null that is no double is read back from its literal. -/
theorem defaultOf_literal {v : Option Value} (hfloat : ∀ w ∈ v, w.isFloat = false)
    (hnull : ∀ w ∈ v, w.isNull = false) : defaultOf (v.map Value.literal) = v := by
  cases v with
  | none => rfl
  | some w =>
    have hread : Value.ofLiteral? w.literal.toList = some w := by
      rw [Value.literal, String.toList_ofList]
      exact Value.ofLiteral?_literalChars (hfloat w rfl)
    rw [defaultOf, Option.map_some, Option.map_some, Option.bind_some, hread, Option.filter_some,
      if_pos (by simp [hnull w rfl])]

end Catalog

/-- A column as it is read back. -/
structure Column.ReadBack (c c' : Column) : Prop where
  /-- The name is the same. -/
  name : c'.name = c.name
  /-- The type is the same, except that a counting column holds integers of 64 bits. -/
  type : c'.type = if c.autoIncrement then .int64 else c.type
  /-- The size is the same. -/
  size : c'.size = c.size
  /-- The default is the same, a null one being none. -/
  default : c'.default = c.effectiveDefault

namespace CreateCollection

variable {q : CreateCollection} {ds : List Ddl} {vars : Variables} {cq : CompiledQuery}

/-- The columns that are read back where no default is a double. -/
theorem Made.forall₂_readBack (hq : q.Made) (hds : q.ddl .sqlite = .ok ds)
    (hfloat : ∀ c ∈ q.columns, ∀ v ∈ c.default, v.isFloat = false)
    {listed : List Catalog.ListedColumn} (h : q.Listed listed) (counting : Option String) :
    List.Forall₂ Column.ReadBack q.columns (listed.map (Catalog.markCounting counting)) := by
  rw [List.forall₂_map_right_iff]
  refine ((List.forall₂_and_left _ _).mpr ⟨fun c hc => hc, h⟩).imp fun c l ⟨hc, hreads⟩ => ?_
  obtain ⟨hname, htype, hsize⟩ := hq.column_of_reads hds hc hreads
  rw [Catalog.markCounting_eq]
  refine ⟨hname, htype, hsize, hreads.default.trans ?_⟩
  rw [ColumnClause.listing, Column.default_sqliteClause]
  refine Catalog.defaultOf_literal (fun v hv => ?_) fun v hv => ?_
  · exact hfloat c hc v (Option.mem_filter_iff.mp hv).1
  · simpa using (Option.mem_filter_iff.mp hv).2

/-- **Describing undoes creating.** Where a creation without floating defaults, whose primary index
names no field twice, compiles on SQLite, the rows that the catalog reports of its statements, whose
texts are all that the rows depend on, describe the collection: every column with its name, type,
size and default in order, the primary index over its fields in order and ascending, and then the
secondary indexes as they were declared. -/
theorem Made.describe_created (hq : q.Made)
    (hfloat : ∀ c ∈ q.columns, ∀ v ∈ c.default, v.isFloat = false)
    (hkey : ∀ i ∈ q.primaryIndex?, i.fields.Nodup)
    (hcq : (Query.createCollection q).compile .sqlite vars = .ok cq) :
    ∃ ds, q.ddl .sqlite = .ok ds ∧ cq.statements = ds.map (Ddl.statement .sqlite) ∧
      ∀ columnRows indexRows tableRows definition,
        Catalog.Reports q.collection cq.statements columnRows indexRows →
        Catalog.definitionOf q.collection tableRows = .ok definition →
          ∃ live, Catalog.describe q.collection columnRows indexRows tableRows = .ok live ∧
            live.collection = q.collection ∧
            List.Forall₂ Column.ReadBack q.columns live.columns ∧
            live.indexes =
              (q.primaryIndex?.map fun i =>
                Index.mk primaryName .primary (Index.ascending i.fields)).toList ++
                  q.indexes.filter fun i => !i.isPrimary := by
  obtain ⟨ds, hds, rfl⟩ := compile_eq_ok_iff.mp hcq
  refine ⟨ds, hds, rfl, fun columnRows indexRows tableRows definition hreports hdef => ?_⟩
  obtain ⟨listed, hdescribe, hlisted⟩ := hq.describe_of_reports hds hreports hdef
  refine ⟨_, hdescribe, rfl, hq.forall₂_readBack hds hfloat hlisted _, ?_⟩
  show (Catalog.primaryIndex? (Catalog.keyColumns listed)).toList ++ q.secondaryIndexes = _
  rw [hq.primaryIndex?_listed hlisted, hq.map_name_keyColumns hlisted hkey, keyNames]
  cases q.primaryIndex? <;> rfl

end CreateCollection

/-! ## An example -/

namespace Posts

/-- The creation of posts that are known by their title and a number. -/
def titled : CreateCollection :=
  ⟨collection,
    [⟨"id", .int32, none, none, false⟩, ⟨"title", .text, some 80, some (.text "it's"), false⟩,
      ⟨"views", .int64, none, some .null, false⟩],
    [⟨"titles", .unique, [⟨"title", .descending⟩]⟩,
      ⟨primaryName, .primary, Index.ascending ["title", "id"]⟩,
      ⟨"ranking", .plain, Index.ascending ["views", "id"]⟩]⟩

/-- The statements that create the titled posts. -/
def titledStatements : List Ddl :=
  [.createTable collection
      [⟨"id", "INT", false, false, none⟩,
        ⟨"title", "VARCHAR(80)", false, false, some (.text "it's")⟩,
        ⟨"views", "INTEGER", false, false, none⟩] (some ["title", "id"]),
    .createIndex true "post_titles" collection [⟨"title", .descending⟩],
    .createIndex false "post_ranking" collection (Index.ascending ["views", "id"])]

/-- The row of a column. -/
def columnRow (name type : String) (default : Value) (pk : Int64) : Row :=
  [("name", .text name), ("type", .text type), ("dflt_value", default), ("pk", .int pk)]

/-- The row of a key field. -/
def keyRow (physical origin : String) (unique : Int64) (field : String) (descending : Int64) :
    Row :=
  [("name", .text physical), ("origin", .text origin), ("is_unique", .int unique),
    ("field", .text field), ("descending", .int descending)]

/-- The columns of the titled posts as the catalog lists them. -/
def titledColumns : List Row :=
  [columnRow "id" "INT" .null 2, columnRow "title" "VARCHAR(80)" (.text "'it''s'") 1,
    columnRow "views" "INTEGER" .null 0]

/-- The key fields of the titled posts as the catalog lists them. -/
def titledKeys : List Row :=
  [keyRow "sqlite_autoindex_post_1" "pk" 1 "title" 0,
    keyRow "sqlite_autoindex_post_1" "pk" 1 "id" 0,
    keyRow "post_titles" "c" 1 "title" 1, keyRow "post_ranking" "c" 0 "views" 0,
    keyRow "post_ranking" "c" 0 "id" 0]

theorem ddl_titled : titled.ddl .sqlite = .ok titledStatements := by
  cbv

theorem made_titled : titled.Made :=
  CreateCollection.made_iff_rebuild.mpr rfl

theorem listings_titled :
    (titled.columns.map fun c => (c.sqliteClause titled.keyColumn?).listing titled.keyNames) =
      [⟨"id", "INT", none, 2⟩, ⟨"title", "VARCHAR(80)", some "'it''s'", 1⟩,
        ⟨"views", "INTEGER", none, 0⟩] := by
  decide +kernel

theorem reports_titled : Catalog.Reports collection
    (titledStatements.map (Ddl.statement .sqlite)) titledColumns titledKeys := by
  refine (made_titled.reports_iff ddl_titled).mpr ⟨?_, ?_, ?_⟩
  · rw [listings_titled]
    exact .cons ⟨rfl, rfl, rfl, 2, rfl, rfl⟩ (.cons ⟨rfl, rfl, rfl, 1, rfl, rfl⟩
      (.cons ⟨rfl, rfl, rfl, 0, rfl, rfl⟩ .nil))
  · exact .cons ⟨rfl, rfl, rfl, rfl, rfl⟩ (.cons ⟨rfl, rfl, rfl, rfl, rfl⟩
      (.cons ⟨rfl, rfl, rfl, rfl, rfl⟩ .nil))
  · intro r hr hkey
    simp only [titledKeys, List.mem_cons, List.not_mem_nil, or_false] at hr
    rcases hr with rfl | rfl | rfl | rfl | rfl
    all_goals exact ⟨_, rfl⟩

end Posts

/-- Titled posts are described with their primary index first, in the order of its fields. -/
theorem CreateCollection.describe_titled :
    ∃ live, Catalog.describe Posts.collection Posts.titledColumns Posts.titledKeys [] = .ok live ∧
      List.Forall₂ Column.ReadBack Posts.titled.columns live.columns ∧
      live.indexes = [⟨primaryName, .primary, Index.ascending ["title", "id"]⟩,
        ⟨"titles", .unique, [⟨"title", .descending⟩]⟩,
        ⟨"ranking", .plain, Index.ascending ["views", "id"]⟩] := by
  have hfloat : ∀ c ∈ Posts.titled.columns, ∀ v ∈ c.default, v.isFloat = false := by decide
  have hkey : ∀ i ∈ Posts.titled.primaryIndex?, i.fields.Nodup := by decide
  have hcompile : (Query.createCollection Posts.titled).compile .sqlite [] = .ok _ :=
    compile_eq_ok_iff.mpr ⟨_, Posts.ddl_titled, rfl⟩
  obtain ⟨ds, hds, -, hdescribe⟩ := Posts.made_titled.describe_created hfloat hkey hcompile
  obtain rfl : Posts.titledStatements = ds := Except.ok.inj (Posts.ddl_titled.symm.trans hds)
  obtain ⟨live, hlive, -, hcolumns, hindexes⟩ :=
    hdescribe _ _ [] none Posts.reports_titled rfl
  exact ⟨live, hlive, hcolumns, hindexes⟩

end SchemaMigration
