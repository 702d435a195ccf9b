import Mathlib
import SchemaMigration.Proofs.Catalog.Groups
import SchemaMigration.Proofs.Migration.Protection
import SchemaMigration.Proofs.Statement.IndexNames

/-!
# Handles of live indexes

A live index gets its handle by taking the table's name off its physical name, and is dropped by
putting the table's name back. An index that is not named after the table keeps its whole name as
its handle, and putting the table's name before it names another index.

About `index_handle` beside `index_name`, as `decode_description` and `compile_alter` use them.

* `indexName_indexHandle_iff`: when a handle leads back to the physical name;
  `indexHandle_eq_iff`: when two indexes share a handle.
* `DropsItself`: a live index is dropped by its handle, alone and in what is batched for a diff.
* **`Catalog.describe_dropsItself_iff`**: the indexes of a described collection that are dropped by
  their handles, and the ones that share a handle.
-/

namespace SchemaMigration

/-! ## Handles and physical names -/

theorem toList_indexName (c : CollectionRef) (handle : String) :
    (indexName c handle).toList = (c.identity ++ "_").toList ++ handle.toList := by
  rw [indexName, String.toList_append]

/-- The physical name of an index leads back to its handle. -/
theorem indexHandle_indexName (c : CollectionRef) (handle : String) :
    indexHandle c (indexName c handle) = handle := by
  have hfront : (c.identity ++ "_").toList.isPrefixOf? (indexName c handle).toList =
      some handle.toList :=
    List.isPrefixOf?_eq_some_iff_append_eq.mpr (toList_indexName c handle).symm
  unfold indexHandle
  rw [hfront]
  exact String.ofList_toList

/-- A physical name is named after the table, or is its own handle. -/
theorem indexHandle_cases (c : CollectionRef) (physical : String) :
    physical = indexName c (indexHandle c physical) ∨
      (∀ handle, physical ≠ indexName c handle) ∧ indexHandle c physical = physical := by
  by_cases h : ∃ handle, physical = indexName c handle
  · obtain ⟨handle, rfl⟩ := h
    rw [indexHandle_indexName]
    exact Or.inl rfl
  · refine Or.inr ⟨fun handle e => h ⟨handle, e⟩, ?_⟩
    unfold indexHandle
    split
    · rename_i handle hfront
      have happend := List.isPrefixOf?_eq_some_iff_append_eq.mp hfront
      refine absurd ⟨String.ofList handle, ?_⟩ h
      rw [← String.toList_inj, toList_indexName, String.toList_ofList, happend]
    · rfl

/-- A handle leads back to the physical name iff that is named after the table. -/
theorem indexName_indexHandle_iff {c : CollectionRef} {physical : String} :
    indexName c (indexHandle c physical) = physical ↔ ∃ handle, physical = indexName c handle := by
  constructor
  · exact fun h => ⟨_, h.symm⟩
  · rintro ⟨handle, rfl⟩
    rw [indexHandle_indexName]

/-- Two indexes share a handle iff one of them is not named after the table, and the other one has
its name with the table's name before it. -/
theorem indexHandle_eq_iff {c : CollectionRef} {p q : String} (hne : p ≠ q) :
    indexHandle c p = indexHandle c q ↔
      ((∀ handle, p ≠ indexName c handle) ∧ q = indexName c p) ∨
        ((∀ handle, q ≠ indexName c handle) ∧ p = indexName c q) := by
  constructor
  · intro h
    rcases indexHandle_cases c p with hp | ⟨hp, hhandle⟩
    · rcases indexHandle_cases c q with hq | ⟨hq, hhandle'⟩
      · exact absurd (by rw [hp, hq, h]) hne
      · exact Or.inr ⟨hq, by rw [hp, h, hhandle']⟩
    · rcases indexHandle_cases c q with hq | ⟨hq, hhandle'⟩
      · exact Or.inl ⟨hp, by rw [hq, ← h, hhandle]⟩
      · exact absurd (by rw [← hhandle, h, hhandle']) hne
  · rintro (⟨hp, hq⟩ | ⟨hq, hp⟩)
    · have hhandle := ((indexHandle_cases c p).resolve_left fun e => hp _ e).2
      rw [hhandle, hq, indexHandle_indexName]
    · have hhandle := ((indexHandle_cases c q).resolve_left fun e => hq _ e).2
      rw [hhandle, hp, indexHandle_indexName]

/-! ## Dropping a live index -/

/-- A live index of a physical name is dropped by the handle that it has. -/
structure DropsItself (live : LiveCollection) (physical : String) (i : Index) : Prop where
  /-- The handle names it. -/
  named : indexName live.collection i.name = physical
  /-- The step that drops the handle drops it. -/
  dropped : ∀ vars, ∃ cq,
    (Query.alterCollection ⟨live.collection, [.dropIndex i.name]⟩).compile .sqlite vars = .ok cq ∧
      cq.statements.map Statement.droppedIndex? = [some physical]
  /-- Where the handle is not declared, what is batched for the diff drops it. -/
  batched : ∀ {σ κ : Type} {m : Migrator σ κ} {s t : Situation σ κ} {schema : CollectionSchema}
    {locales found : List String} {declared : Description}
    {compare : ColumnType → ColumnType → Compatibility} {queries : List Query},
    Description.ofSchema schema locales = .ok declared → declared.collection = live.collection →
      i.name ∉ declared.indexes.map IndexDescription.handle →
        (m.batch (declared.diff (some (.ofLive live found)) compare)).outcome s = (.ok queries, t) →
          ∃ q, queries = [q] ∧ ∀ vars cq, q.compile .sqlite vars = .ok cq →
            ∃ st ∈ cq.statements, st.droppedIndex? = some physical

namespace AlterCollection

variable {d : Dialect} {vars : Variables} {c : CollectionRef} {handle : String}

/-- Dropping the index of a handle compiles to one statement, if the handle is an identifier. -/
theorem exists_compile_dropIndex_iff (hprimary : handle ≠ primaryName) :
    (∃ cq, (Query.alterCollection ⟨c, [.dropIndex handle]⟩).compile d vars = .ok cq ∧
      cq.statements.map Statement.droppedIndex? = [some (indexName c handle)]) ↔
        Identifier.misuse? handle = none := by
  constructor
  · rintro ⟨cq, hcq, -⟩
    obtain ⟨trace, hsteps, hemits, -⟩ := exists_compile_iff.mp ⟨cq, hcq, rfl⟩
    have hsteps : trace.map Prod.fst = [] ++ .dropIndex handle :: [] := hsteps
    obtain ⟨first, ss, last, rfl, -⟩ := exists_cut hsteps
    exact (emits_append_iff.mp hemits).2.1.1
  · intro h
    have hddl : AlterStep.ddl d c (.dropIndex handle) = .ok [.dropIndex (indexName c handle)] :=
      if_neg hprimary
    have hsafe : (Ddl.dropIndex (indexName c handle)).Safe :=
      safe_indexName (Identifier.safe_of_misuse?_eq_none h)
    have hemits : Emits d c [(.dropIndex handle, [Ddl.dropIndex (indexName c handle)].map
        (Ddl.statement d))] := ⟨⟨h, _, hddl, rfl⟩, trivial⟩
    have hcompile : ∃ cq,
        (Query.alterCollection ⟨c, [.dropIndex handle]⟩).compile d vars = .ok cq ∧
          cq.statements = [Ddl.statement d (.dropIndex (indexName c handle))] :=
      exists_compile_iff.mpr ⟨_, rfl, hemits, rfl⟩
    obtain ⟨cq, hcq, hstatements⟩ := hcompile
    refine ⟨cq, hcq, ?_⟩
    rw [hstatements, List.map_singleton, Ddl.droppedIndex?_statement hsafe]
    rfl

end AlterCollection

section Batch

variable {σ κ : Type} {m : Migrator σ κ} {s t : Situation σ κ} {schema : CollectionSchema}
  {locales found : List String} {declared : Description} {live : LiveCollection}
  {compare : ColumnType → ColumnType → Compatibility} {queries : List Query}

/-- A live index whose handle is not declared is dropped by what is batched for the diff, by the
physical name of its handle. -/
theorem batch_drops_beyond (hs : Description.ofSchema schema locales = .ok declared)
    (hc : declared.collection = live.collection)
    (h : (m.batch (declared.diff (some (.ofLive live found)) compare)).outcome s =
      (.ok queries, t)) {i : Index} (hi : i ∈ live.indexes) (hprimary : i.name ≠ primaryName)
    (hbeyond : i.name ∉ declared.indexes.map IndexDescription.handle) :
    ∃ q, queries = [q] ∧ ∀ vars cq, q.compile .sqlite vars = .ok cq →
      ∃ st ∈ cq.statements, st.droppedIndex? = some (indexName live.collection i.name) := by
  obtain ⟨added, -, rfl⟩ := Description.batch_diff_ok h
  have hdrop : i.name ∈ (declared.plannedIndexes (.ofLive live found) compare).drops :=
    (Description.name_mem_drops_iff (Description.wellFormed_of_ofSchema hs)
      (name_mem_ofLive hi)).mpr fun j hj e => absurd (e ▸ List.mem_map_of_mem hj) hbeyond
  obtain ⟨before, after, hdrops⟩ := List.append_of_mem hdrop
  have hsteps : ∃ rest, declared.steps (.ofLive live found) compare added =
      before.map .dropIndex ++ .dropIndex i.name :: rest := by
    unfold Description.steps
    rw [hdrops, List.map_append, List.map_cons]
    simp only [List.append_assoc, List.cons_append]
    exact ⟨_, rfl⟩
  obtain ⟨rest, hsteps⟩ := hsteps
  refine ⟨.alterCollection ⟨declared.collection, _⟩, if_neg (by simp [hsteps]), ?_⟩
  intro vars cq hcq
  obtain ⟨st, hst, hdropped⟩ := AlterCollection.exists_dropped_of_compile hcq hsteps hprimary
  have hbefore : ∀ target, .rename target ∉ before.map AlterStep.dropIndex := by simp
  rw [(AlterCollection.tables_of_unrenamed hbefore i.name _).2, hc] at hdropped
  exact ⟨st, hst, hdropped⟩

/-- A live index is dropped by its handle iff its physical name is the handle, an identifier, after
the table's name. -/
theorem dropsItself_iff {physical : String} {i : Index} (hi : i ∈ live.indexes)
    (hname : i.name = indexHandle live.collection physical) (hprimary : i.name ≠ primaryName) :
    DropsItself live physical i ↔
      ∃ handle, Identifier.misuse? handle = none ∧
        physical = indexName live.collection handle := by
  constructor
  · intro h
    obtain ⟨cq, hcq, hdropped⟩ := h.dropped []
    rw [← h.named] at hdropped
    exact ⟨i.name, (AlterCollection.exists_compile_dropIndex_iff hprimary).mp ⟨cq, hcq, hdropped⟩,
      h.named.symm⟩
  · rintro ⟨handle, hhandle, rfl⟩
    rw [indexHandle_indexName] at hname
    subst hname
    exact ⟨rfl, fun vars => (AlterCollection.exists_compile_dropIndex_iff hprimary).mpr hhandle,
      fun hs hc hbeyond h => batch_drops_beyond hs hc h hi hprimary hbeyond⟩

end Batch

namespace Catalog

/-- **Which indexes of a described collection are dropped by their handles**: those named by an
identifier after the table's name. Two of them with different names share a handle iff one is not
named after the table and the other has its name with the table's name before it. -/
theorem describe_dropsItself_iff {c : CollectionRef} {columnRows indexRows tableRows : List Row}
    {live : LiveCollection} (h : describe c columnRows indexRows tableRows = .ok live) :
    live.collection = c ∧ ∃ groups, readGroups c indexRows = .ok groups ∧
      live.indexes.filter (fun i => !i.isPrimary) = groups.filterMap (KeyGroup.index? c) ∧
      (∀ g ∈ groups, ∀ i ∈ g.index? c, DropsItself live g.physical i ↔
        ∃ handle, Identifier.misuse? handle = none ∧ g.physical = indexName c handle) ∧
      ∀ g ∈ groups, ∀ g' ∈ groups, g.physical ≠ g'.physical →
        ∀ i ∈ g.index? c, ∀ i' ∈ g'.index? c, i.name = i'.name ↔
          ((∀ handle, g.physical ≠ indexName c handle) ∧
              g'.physical = indexName c g.physical) ∨
            ((∀ handle, g'.physical ≠ indexName c handle) ∧
              g.physical = indexName c g'.physical) := by
  obtain ⟨rfl, groups, hgroups, hindexes⟩ := describe_groups h
  refine ⟨rfl, groups, hgroups, hindexes, ?_, ?_⟩
  · intro g hg i hi
    have hlive : i ∈ live.indexes := by
      have hmem : i ∈ groups.filterMap (KeyGroup.index? live.collection) :=
        List.mem_filterMap.mpr ⟨g, hg, hi⟩
      rw [← hindexes] at hmem
      exact List.mem_of_mem_filter hmem
    obtain ⟨hprimary, rfl⟩ := KeyGroup.index?_eq_some_iff.mp hi
    exact dropsItself_iff hlive rfl hprimary
  · intro g _ g' _ hne i hi i' hi'
    obtain ⟨-, rfl⟩ := KeyGroup.index?_eq_some_iff.mp hi
    obtain ⟨-, rfl⟩ := KeyGroup.index?_eq_some_iff.mp hi'
    exact indexHandle_eq_iff hne

end Catalog

/-! ## An example -/

namespace Posts

/-- The listing of the columns of posts that have a slug. -/
def slugColumns : List Row :=
  [[("name", .text "slug"), ("type", .text "TEXT"), ("dflt_value", .null), ("pk", .int 0)]]

/-- The row of an index over the slug. -/
def slugRow (physical : String) : Row :=
  [("name", .text physical), ("origin", .text "c"), ("is_unique", .int 0), ("field", .text "slug"),
    ("descending", .int 0)]

/-- The listing of two indexes over the slug, one of them not named after the table. -/
def slugRows : List Row := [slugRow "post_slug", slugRow "slug"]

/-- The group of an index over the slug. -/
def slugGroup (physical : String) : Catalog.KeyGroup :=
  ⟨physical, .plain, Index.ascending ["slug"]⟩

/-- An index over the slug under the handle of that name. -/
def slugIndex : Index := ⟨"slug", .plain, Index.ascending ["slug"]⟩

/-- Posts with a slug and two indexes over it that have the same handle. -/
def slugged : LiveCollection := ⟨collection, [.plain "slug" .text], [slugIndex, slugIndex]⟩

theorem describe_slugged :
    Catalog.describe collection slugColumns slugRows [] = .ok slugged := by
  cbv

theorem readGroups_slugRows :
    Catalog.readGroups collection slugRows = .ok [slugGroup "post_slug", slugGroup "slug"] := by
  rfl

end Posts

/-- Of two indexes over the slug the one that is named after the table is dropped by its handle. -/
theorem Catalog.describe_of_posts_dropsItself :
    Catalog.describe Posts.collection Posts.slugColumns Posts.slugRows [] = .ok Posts.slugged ∧
      DropsItself Posts.slugged "post_slug" Posts.slugIndex := by
  refine ⟨Posts.describe_slugged, ?_⟩
  obtain ⟨-, groups, hgroups, -, hdrops, -⟩ :=
    Catalog.describe_dropsItself_iff Posts.describe_slugged
  obtain rfl := Except.ok.inj (hgroups.symm.trans Posts.readGroups_slugRows)
  exact (hdrops (Posts.slugGroup "post_slug") List.mem_cons_self _ rfl).mpr ⟨"slug", rfl, rfl⟩

/-- An index that is not named after the table shares its handle with another one, and is not the
one that the handle drops. -/
theorem Catalog.describe_foreign_not_dropped :
    Catalog.describe Posts.collection Posts.slugColumns Posts.slugRows [] = .ok Posts.slugged ∧
      Catalog.readGroups Posts.collection Posts.slugRows =
        .ok [Posts.slugGroup "post_slug", Posts.slugGroup "slug"] ∧
      (Posts.slugGroup "post_slug").index? Posts.collection = some Posts.slugIndex ∧
      (Posts.slugGroup "slug").index? Posts.collection = some Posts.slugIndex ∧
      ¬ DropsItself Posts.slugged "slug" Posts.slugIndex := by
  refine ⟨Posts.describe_slugged, Posts.readGroups_slugRows, rfl, rfl, fun h => ?_⟩
  have hnamed : indexName Posts.collection "slug" = "slug" := h.named
  exact absurd hnamed (by decide)

end SchemaMigration
