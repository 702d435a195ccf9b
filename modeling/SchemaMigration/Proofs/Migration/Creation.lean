import SchemaMigration.Proofs.Catalog.Created
import SchemaMigration.Proofs.Migration.Alteration
import SchemaMigration.Proofs.Migration.Runs

/-!
# A created collection needs no changes

A declaration is expanded, created, reported by the catalog, read back, searched for locales and
compared with itself. No stage changes what the comparison looks at, so nothing is left to do, and a
migration that finds the collection like that ends with its plan.

About `decode_description`, `from_live` and `diff_collection`, on what `to_create` compiles to.

* `Column.castable_readBack`: what is read back of a column converts to its declared type.
* `CreateCollection.Keeps`: a live collection has the names of a creation, and its types convert;
  `Made.keeps_of_reports`: so it is with what the catalog reports of the creation.
* `diff_of_keeps`: there is no difference then.
* `outcome_planCollection`, `outcome_planAll`: planning collections that are in line gives no
  operation, by induction on the collections.
* **`migrate_of_stands`**: a migration that finds every collection in line does nothing.
* **`Description.diff_created`**: the creation of a declaration leaves no difference.
-/

namespace SchemaMigration

/-! ## What is read back of a creation -/

/-- What is read back of a column converts to the type that was declared. A counting column is read
back as a wider integer, which SQLite stores in the same way. -/
theorem Column.castable_readBack {c : Column} (hc : c.misuse? = none) :
    (Dialect.sqlite.compareTypes c.type (if c.autoIncrement then .int64 else c.type)).castable =
      true := by
  by_cases hcounts : c.autoIncrement = true
  · have halike : Dialect.sqlite.storesAlike c.type .int64 = true := by
      rw [Dialect.storesAlike, Column.isInteger_of_autoIncrement hc hcounts]
      rfl
    rw [if_pos hcounts, Dialect.compareTypes, if_pos halike]
    rfl
  · rw [if_neg hcounts, Dialect.compareTypes_self]
    rfl

namespace CreateCollection

variable {q : CreateCollection} {ds : List Ddl}

/-- The live collection has the names of a creation, and its types convert to the created ones. -/
structure Keeps (q : CreateCollection) (live : LiveCollection) : Prop where
  /-- It is the created collection. -/
  collection : live.collection = q.collection
  /-- The columns have the names of the created ones. -/
  columns : live.columns.map Column.name = q.columns.map Column.name
  /-- The indexes have the names of the created ones, in some order. -/
  indexes : ∀ name, name ∈ live.indexes.map Index.name ↔ name ∈ q.indexes.map Index.name
  /-- The columns convert to the created ones. -/
  types : ∀ c' ∈ live.columns, ∃ c ∈ q.columns, c'.name = c.name ∧
    (Dialect.sqlite.compareTypes c.type c'.type).castable = true

/-- The indexes that are read back have the names of the created ones. -/
theorem Made.mem_map_name_listed (hq : q.Made) {listed : List Catalog.ListedColumn}
    (h : q.Listed listed) (name : String) :
    name ∈ ((Catalog.primaryIndex? (Catalog.keyColumns listed)).toList ++
        q.secondaryIndexes).map Index.name ↔ name ∈ q.indexes.map Index.name := by
  obtain ⟨-, hindexes, -⟩ := rebuild_eq_ok_iff.mp hq.rebuild
  have hreserved : ∀ i ∈ q.indexes, i.isPrimary = true → i.name = primaryName :=
    fun i hi hprimary => Index.name_eq_of_isPrimary (hindexes i hi) hprimary
  rw [hq.primaryIndex?_listed h, List.map_append, List.mem_append]
  constructor
  · rintro (hname | hname)
    · cases hprimary : q.primaryIndex? with
      | none => simp [hprimary] at hname
      | some i =>
        have hi : i ∈ q.indexes := List.mem_of_find?_eq_some hprimary
        have hreads : name = primaryName := by simpa [hprimary] using hname
        rw [hreads, ← hreserved i hi (List.find?_some hprimary)]
        exact List.mem_map_of_mem hi
    · exact (List.filter_sublist.map _).subset hname
  · intro hname
    obtain ⟨i, hi, rfl⟩ := List.mem_map.mp hname
    cases hprimary : i.isPrimary with
    | true =>
      left
      obtain ⟨j, hj⟩ := Option.isSome_iff_exists.mp (List.find?_isSome.mpr ⟨i, hi, hprimary⟩)
      rw [primaryIndex?, hj, hreserved i hi hprimary]
      exact List.mem_singleton_self _
    | false => exact Or.inr (List.mem_map_of_mem (List.mem_filter.mpr ⟨hi, by simp [hprimary]⟩))

variable {columnRows indexRows tableRows : List Row} {definition : Option String}

/-- **What the catalog reports of a creation keeps its names**, and its types as far as a comparison
can tell. -/
theorem Made.keeps_of_reports (hq : q.Made) (hds : q.ddl .sqlite = .ok ds)
    (hreports : Catalog.Reports q.collection (ds.map (Ddl.statement .sqlite)) columnRows indexRows)
    (hdefinition : Catalog.definitionOf q.collection tableRows = .ok definition) :
    ∃ live, Catalog.describe q.collection columnRows indexRows tableRows = .ok live ∧
      q.Keeps live := by
  obtain ⟨hcolumns, -, -⟩ := rebuild_eq_ok_iff.mp hq.rebuild
  obtain ⟨listed, hdescribe, hlisted⟩ := hq.describe_of_reports hds hreports hdefinition
  refine ⟨_, hdescribe, rfl, ?_, hq.mem_map_name_listed hlisted, ?_⟩
  · rw [← hlisted.map_name, List.map_map]
    exact List.map_congr_left fun l _ => by rw [Function.comp_apply, Catalog.markCounting_eq]
  · rw [List.forall_mem_map]
    intro l hl
    obtain ⟨c, hc, hreads⟩ := exists_mem_of_forall₂ hlisted l hl
    obtain ⟨hname, htype, -⟩ := hq.column_of_reads hds hc hreads
    rw [Catalog.markCounting_eq]
    exact ⟨c, hc, hname, htype ▸ Column.castable_readBack (hcolumns c hc)⟩

end CreateCollection

/-! ## Nothing to change -/

namespace Description

variable {s : CollectionSchema} {locales : List String} {d : Description} {q : CreateCollection}

/-- The creation of a description creates its columns and its indexes. -/
theorem toCreate_eq_ok (h : d.toCreate = .ok q) :
    q.Made ∧ q = ⟨d.collection, d.columns.map ColumnDescription.column,
      d.indexes.map IndexDescription.index⟩ := by
  obtain ⟨built, hbuilt, h⟩ := bind_eq_ok_iff.mp h
  refine ⟨((CreateCollection.Made.of _).addColumns hbuilt).addIndexes h, ?_⟩
  obtain ⟨-, -, rfl⟩ := CreateCollection.addColumns_eq_ok_iff.mp hbuilt
  obtain ⟨-, -, -, rfl⟩ := CreateCollection.addIndexes_eq_ok_iff.mp h
  rfl

/-- A live collection that keeps the creation of a declaration does not differ from it, whatever is
taken for localized. -/
theorem diff_of_keeps (hs : ofSchema s locales = .ok d) (hq : d.toCreate = .ok q)
    {live : LiveCollection} (h : q.Keeps live) (found : List String) :
    d.diff (some (.ofLive live found)) Dialect.sqlite.compareTypes = [] := by
  have hd := wellFormed_of_ofSchema hs
  obtain ⟨-, rfl⟩ := toCreate_eq_ok hq
  -- by name the creation is the declaration, and so is the live collection
  have hdeclared := hd.shape_toLive
  have hlive := shape_ofLive live found
  have hcolumns : (ofLive live found).columns.map ColumnDescription.handle =
      d.columns.map ColumnDescription.handle :=
    (congrArg Shape.columns hlive).trans (h.columns.trans (congrArg Shape.columns hdeclared))
  have hindexes : ∀ name, name ∈ d.indexes.map IndexDescription.handle ↔
      name ∈ (ofLive live found).indexes.map IndexDescription.handle := by
    intro name
    rw [show (ofLive live found).indexes.map IndexDescription.handle = live.indexes.map Index.name
      from congrArg Shape.indexes hlive, h.indexes]
    exact iff_of_eq (congrArg (name ∈ ·) (congrArg Shape.indexes hdeclared).symm)
  refine List.map_eq_nil_iff.mpr (changes_eq_nil_iff.mpr
    ⟨fun name => by rw [hcolumns], hindexes, fun c hc wanted hwanted => ?_⟩)
  obtain ⟨column, hcolumn, rfl⟩ := List.mem_map.mp hc
  obtain ⟨created, hcreated, hname, hcast⟩ := h.types column hcolumn
  obtain ⟨declared, hmem, rfl⟩ := List.mem_map.mp hcreated
  obtain ⟨hwanted, hhandle⟩ := (Keyed.find?_eq_some_iff hd.columns_nodup).mp hwanted
  have hsame : wanted = declared := by
    refine List.inj_on_of_nodup_map hd.columns_nodup hwanted hmem ?_
    rw [hhandle, ← hd.column_name declared hmem]
    exact hname
  rw [hsame]
  exact hcast

end Description

/-! ## Migrating what is in line -/

/-- The declaration and the live collection do not differ on a backend of the dialect. -/
def CollectionSchema.InLine (s : CollectionSchema) (locales : List String) (d : Dialect)
    (live : LiveCollection) : Prop :=
  ∃ declared, Description.ofSchema s locales = .ok declared ∧
    declared.diff (some (.ofLive live locales)) d.compareTypes = []

/-- The queries that inspect a collection. -/
def CollectionRef.inspections (c : CollectionRef) : List Query :=
  [.collectionExists c, .describeCollection c]

section Standing

variable {σ κ : Type}

/-- Asked for the collection, the backend answers that it exists and what it looks like, and is then
in another state. -/
def Backend.Tells (b : Backend σ) (c : CollectionRef) (live : LiveCollection) (s s' : σ) : Prop :=
  ∃ between, b.execute [] (.collectionExists c) s = (.ok (.existence true), between) ∧
    b.execute [] (.describeCollection c) between = (.ok (.described live), s')

/-- A snapshot tells of the collections that it has. -/
theorem Snapshot.tells {picture : Snapshot} {c : CollectionRef} {live : LiveCollection}
    (h : picture.find? c.identity = some live) : picture.backend.Tells c live () () := by
  have htarget : ∀ q : CompiledQuery, q.collection = some c → picture.target? q = some live := by
    intro q hq
    rw [Snapshot.target?, hq]
    exact h
  refine ⟨(), ?_, ?_⟩
  · show (picture.run ⟨.collectionExists, some c, .full, _⟩, ()) = _
    simp [Snapshot.run, Snapshot.fails, htarget]
  · show (picture.run ⟨.describeCollection, some c, .full, _⟩, ()) = _
    simp [Snapshot.run, Snapshot.fails, htarget]

/-- Asked for several collections one after the other, the backend has each of them in line with its
declaration. -/
inductive Backend.Stands (b : Backend σ) (locales : List String) :
    List CollectionSchema → σ → σ → Prop
  | nil (s : σ) : Stands b locales [] s s
  | cons {c : CollectionSchema} {cs : List CollectionSchema} {live : LiveCollection}
    {s s' s'' : σ} (tells : b.Tells c.collection live s s')
    (inLine : c.InLine locales b.dialect live) (rest : Stands b locales cs s' s'') :
    Stands b locales (c :: cs) s s''

namespace Migrator

open SchemaMigration.Action

variable {m : Migrator σ κ} {s : Situation σ κ} {b : σ}

/-- A query that the backend answers is executed. -/
theorem outcome_execute_of_ok {q : Query} {answer : QueryResult}
    (h : m.backend.execute [] q s.backend = (.ok answer, b)) :
    (m.execute q).outcome s = (.ok answer, ⟨b, s.chooser, s.runs ++ m.compiling [q]⟩) := by
  rw [outcome_execute, h]
  rfl

theorem outcome_describeLive {c : CollectionRef} {live : LiveCollection} {locales : List String}
    (h : m.backend.Tells c live s.backend b) :
    (m.describeLive c locales).outcome s = (.ok (some (.ofLive live locales)),
      ⟨b, s.chooser, s.runs ++ m.compiling c.inspections⟩) := by
  obtain ⟨between, hexists, hdescribe⟩ := h
  have hfound : ∀ u : Situation σ κ,
      (lift (QueryResult.existence true).existence? : Action σ κ Bool).outcome u = (.ok true, u) :=
    fun u => rfl
  have hlive : ∀ u : Situation σ κ,
      (lift (QueryResult.described live).description : Action σ κ _).outcome u = (.ok live, u) :=
    fun u => rfl
  have hruns : m.compiling c.inspections =
      m.compiling [.collectionExists c] ++ m.compiling [.describeCollection c] :=
    m.compiling_append [_] [_]
  unfold describeLive
  rw [outcome_bind_of_ok (outcome_execute_of_ok hexists), outcome_bind_of_ok (hfound _), if_pos rfl,
    outcome_bind_of_ok (outcome_execute_of_ok (b := b) hdescribe), outcome_bind_of_ok (hlive _),
    outcome_pure, hruns, List.append_assoc]

/-- Planning a collection that is in line gives no operation. -/
theorem outcome_planCollection {c : CollectionSchema} {live : LiveCollection}
    {locales : List String} (h : m.backend.Tells c.collection live s.backend b)
    (hline : c.InLine locales m.backend.dialect live) :
    (m.planCollection locales c).outcome s =
      (.ok [], ⟨b, s.chooser, s.runs ++ m.compiling c.collection.inspections⟩) := by
  obtain ⟨declared, hdeclared, hdiff⟩ := hline
  unfold planCollection
  rw [hdeclared]
  show (m.describeLive c.collection locales >>= _ : Action σ κ _).outcome s = _
  rw [outcome_bind_of_ok (outcome_describeLive h), outcome_pure, hdiff]

/-- Planning collections that are all in line gives no operation. -/
theorem outcome_planAll {locales : List String} : ∀ {cs : List CollectionSchema}
    {s : Situation σ κ}, m.backend.Stands locales cs s.backend b →
      (m.planAll locales cs).outcome s = (.ok [], ⟨b, s.chooser,
        s.runs ++ m.compiling (cs.flatMap fun c => c.collection.inspections)⟩)
  | [], s, h => by
    cases h
    rw [List.flatMap_nil, compiling, List.filterMap_nil, List.append_nil]
    rfl
  | c :: cs, s, h => by
    cases h with
    | cons tells inLine rest =>
      unfold planAll
      rw [outcome_bind_of_ok (outcome_planCollection tells inLine),
        outcome_bind_of_ok (outcome_planAll (s := ⟨_, _, _⟩) rest), outcome_pure, List.flatMap_cons,
        compiling_append, List.append_assoc]
      rfl

/-- **A migration that finds every collection in line does nothing** but inspect them. -/
theorem migrate_of_stands {schema : LogicalSchema}
    (h : m.backend.Stands (m.locales.getD schema.locales) schema.collections s.backend b) :
    (m.migrate schema).outcome s = (.ok .empty, ⟨b, s.chooser,
      s.runs ++ m.compiling (schema.collections.flatMap fun c => c.collection.inspections)⟩) := by
  unfold migrate
  rw [outcome_bind_of_ok (show (m.plan schema).outcome s = _ from outcome_planAll h)]
  rfl

end Migrator

end Standing

/-- **Creation converges.** Where the creation of an accepted declaration compiles on SQLite, the
rows that the catalog reports of its statements describe a collection that does not differ from the
declaration. A migration of the declaration to a backend that describes the collection like that has
nothing to do: it hands over the two inspections and no more. -/
theorem Description.diff_created {s : CollectionSchema} {locales : List String} {d : Description}
    {q : CreateCollection} {vars : Variables} {cq : CompiledQuery}
    (hs : Description.ofSchema s locales = .ok d) (hq : d.toCreate = .ok q)
    (hcq : (Query.createCollection q).compile .sqlite vars = .ok cq) :
    ∃ ds, q.ddl .sqlite = .ok ds ∧ cq.statements = ds.map (Ddl.statement .sqlite) ∧
      ∀ columnRows indexRows tableRows definition,
        Catalog.Reports s.collection cq.statements columnRows indexRows →
        Catalog.definitionOf s.collection tableRows = .ok definition →
          ∃ live, Catalog.describe s.collection columnRows indexRows tableRows = .ok live ∧
            live.collection = s.collection ∧
            d.diff (some (.ofLive live locales)) Dialect.sqlite.compareTypes = [] ∧
            ∀ {σ κ : Type} (m : Migrator σ κ) (schema : LogicalSchema) (t : Situation σ κ) (b : σ),
              m.backend.dialect = .sqlite → schema.collections = [s] →
                m.locales.getD schema.locales = locales →
                  m.backend.Tells s.collection live t.backend b →
                    (m.migrate schema).outcome t = (.ok .empty,
                      ⟨b, t.chooser, t.runs ++ m.compiling s.collection.inspections⟩) := by
  obtain ⟨hmade, hcreated⟩ := toCreate_eq_ok hq
  have hcollection : q.collection = s.collection := by
    rw [hcreated]
    exact (ofSchema_ok hs).2.1
  obtain ⟨ds, hds, rfl⟩ := CreateCollection.compile_eq_ok_iff.mp hcq
  refine ⟨ds, hds, rfl, fun columnRows indexRows tableRows definition hreports hdef => ?_⟩
  rw [← hcollection] at hreports hdef ⊢
  obtain ⟨live, hdescribe, hkeeps⟩ := hmade.keeps_of_reports hds hreports hdef
  have hdiff := diff_of_keeps hs hq hkeeps locales
  refine ⟨live, hdescribe, hkeeps.collection, hdiff,
    fun m schema t b hdialect hschema hlocales htells => ?_⟩
  rw [hcollection] at htells ⊢
  have hstands : m.backend.Stands (m.locales.getD schema.locales) schema.collections t.backend
      b := by
    rw [hschema, hlocales]
    exact .cons htells ⟨d, hs, hdialect ▸ hdiff⟩ (.nil b)
  have hmigrate := Migrator.migrate_of_stands hstands
  rw [hschema, List.flatMap_singleton] at hmigrate
  exact hmigrate

/-! ## An example -/

namespace Posts

/-- Posts with a number that the backend generates and a title in every locale. -/
def serial : CollectionSchema :=
  ⟨collection,
    [(FieldDefinition.column "id" .int32).counting,
      ((FieldDefinition.column "title" .text).withSize 80).asLocalized],
    [⟨primaryName, .primary, Index.ascending ["id"]⟩,
      ⟨"titles", .unique, Index.ascending ["title"]⟩]⟩

/-- The expansion of these posts in English and French. -/
def serialDeclared : Description :=
  ⟨collection,
    [⟨"id", "id", none, ⟨"id", .int32, none, none, true⟩⟩,
      ⟨"title__en", "title", some "en", ⟨"title__en", .text, some 80, none, false⟩⟩,
      ⟨"title__fr", "title", some "fr", ⟨"title__fr", .text, some 80, none, false⟩⟩],
    [⟨primaryName, primaryName, none, ⟨primaryName, .primary, Index.ascending ["id"]⟩⟩,
      ⟨"titles__en", "titles", some "en", ⟨"titles__en", .unique, Index.ascending ["title__en"]⟩⟩,
      ⟨"titles__fr", "titles", some "fr",
        ⟨"titles__fr", .unique, Index.ascending ["title__fr"]⟩⟩]⟩

/-- The creation of these posts. -/
def serialCreation : CreateCollection :=
  ⟨collection, serialDeclared.toLive.columns, serialDeclared.toLive.indexes⟩

/-- The statements that create these posts. -/
def serialStatements : List Ddl :=
  [.createTable collection
      [⟨"id", "INTEGER", true, true, none⟩, ⟨"title__en", "VARCHAR(80)", false, false, none⟩,
        ⟨"title__fr", "VARCHAR(80)", false, false, none⟩] none,
    .createIndex true "post_titles__en" collection (Index.ascending ["title__en"]),
    .createIndex true "post_titles__fr" collection (Index.ascending ["title__fr"])]

/-- The columns of these posts as the catalog lists them. -/
def serialColumns : List Row :=
  [columnRow "id" "INTEGER" .null 1, columnRow "title__en" "VARCHAR(80)" .null 0,
    columnRow "title__fr" "VARCHAR(80)" .null 0]

/-- The key fields of these posts as the catalog lists them. -/
def serialKeys : List Row :=
  [keyRow "post_titles__en" "c" 1 "title__en" 0, keyRow "post_titles__fr" "c" 1 "title__fr" 0]

theorem ofSchema_serial : Description.ofSchema serial ["en", "fr"] = .ok serialDeclared := rfl

theorem ddl_serial : serialCreation.ddl .sqlite = .ok serialStatements := by
  cbv

theorem listings_serial :
    (serialCreation.columns.map fun c =>
      (c.sqliteClause serialCreation.keyColumn?).listing serialCreation.keyNames) =
      [⟨"id", "INTEGER", none, 1⟩, ⟨"title__en", "VARCHAR(80)", none, 0⟩,
        ⟨"title__fr", "VARCHAR(80)", none, 0⟩] := by
  decide +kernel

theorem reports_serial : Catalog.Reports collection
    (serialStatements.map (Ddl.statement .sqlite)) serialColumns serialKeys := by
  have hmade : serialCreation.Made := (Description.toCreate_eq_ok (d := serialDeclared) rfl).1
  refine (hmade.reports_iff ddl_serial).mpr ⟨?_, ?_, ?_⟩
  · rw [listings_serial]
    exact .cons ⟨rfl, rfl, rfl, 1, rfl, rfl⟩ (.cons ⟨rfl, rfl, rfl, 0, rfl, rfl⟩
      (.cons ⟨rfl, rfl, rfl, 0, rfl, rfl⟩ .nil))
  · exact .cons ⟨rfl, rfl, rfl, rfl, rfl⟩ (.cons ⟨rfl, rfl, rfl, rfl, rfl⟩ .nil)
  · intro r hr hkey
    simp only [serialKeys, List.mem_cons, List.not_mem_nil, or_false] at hr
    rcases hr with rfl | rfl <;> cases hkey

/-- A migrator of posts that a backend has just like that. -/
def settled (live : LiveCollection) : Migrator Unit Unit :=
  ⟨(Snapshot.mk .sqlite [live] []).backend, .defaults, none, false⟩

end Posts

/-- Posts are created and read back with a wider number, and a second migration does nothing. -/
theorem Description.diff_serial :
    ∃ live, Catalog.describe Posts.collection Posts.serialColumns Posts.serialKeys [] = .ok live ∧
      Posts.serialDeclared.diff (some (.ofLive live ["en", "fr"])) Dialect.sqlite.compareTypes =
        [] ∧
      ((Posts.settled live).migrate ⟨[Posts.serial], ["en", "fr"]⟩).outcome ⟨(), (), []⟩ =
        (.ok .empty, ⟨(), (), (Posts.settled live).compiling Posts.collection.inspections⟩) := by
  have hcompile : (Query.createCollection Posts.serialCreation).compile .sqlite [] = .ok _ :=
    CreateCollection.compile_eq_ok_iff.mpr ⟨_, Posts.ddl_serial, rfl⟩
  obtain ⟨ds, hds, -, hcreated⟩ :=
    Description.diff_created Posts.ofSchema_serial rfl hcompile
  obtain rfl : Posts.serialStatements = ds := Except.ok.inj (Posts.ddl_serial.symm.trans hds)
  obtain ⟨live, hlive, hcollection, hdiff, hmigrate⟩ :=
    hcreated _ _ [] none Posts.reports_serial rfl
  have hfound : (Snapshot.mk .sqlite [live] []).find? Posts.collection.identity = some live := by
    rw [Snapshot.find?, List.reverse_singleton, List.find?_cons_of_pos]
    rw [hcollection]
    exact beq_self_eq_true _
  exact ⟨live, hlive, hdiff, hmigrate (Posts.settled live) ⟨[Posts.serial], ["en", "fr"]⟩
    ⟨(), (), []⟩ () rfl rfl rfl (Snapshot.tells hfound)⟩

end SchemaMigration
