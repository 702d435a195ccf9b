import SchemaMigration.Proofs.Migration.Alteration

/-!
# Which columns are still indexed when they change

Dropping its indexes first protects a column that is dropped or retyped. An alteration drops the
live indexes whose names are not declared, and builds the declared indexes over retyped columns
again; a live index is known by its name alone, whatever columns it covers.

About `batch` and `into_alter`.

* `protects_append_iff`: where all index drops come first, every index over a changing column has to
  be among them.
* `name_mem_drops_iff`: the live indexes that a batch drops.
* **`batch_protects_iff`**: a batch protects every changing column iff each live index over one is
  not declared any more, or is declared over a retyped column.
* **`batch_protects_of_same_fields`**: it does so where live indexes cover what they are declared to
  cover.
-/

namespace SchemaMigration

/-- The column that a step takes away or retypes. -/
def AlterStep.changed? : AlterStep → Option String
  | .alterColumn source _ => some source
  | .dropColumn name => some name
  | _ => none

/-- When a step takes away or retypes a column, every one of the indexes over it, the primary one
apart, was dropped by an earlier step. -/
def Protects (is : List Index) (steps : List AlterStep) : Prop :=
  ∀ before step after c, steps = before ++ step :: after → step.changed? = some c →
    ∀ i ∈ is, i.isPrimary = false → i.covers c = true → .dropIndex i.name ∈ before

/-- Where all index drops come first, every index over a changing column has to be among them. -/
theorem protects_append_iff {is : List Index} {drops : List String} {rest : List AlterStep}
    (hrest : ∀ name, .dropIndex name ∉ rest) :
    Protects is (drops.map .dropIndex ++ rest) ↔
      ∀ step ∈ rest, ∀ c, step.changed? = some c →
        ∀ i ∈ is, i.isPrimary = false → i.covers c = true → i.name ∈ drops := by
  have hdrops : ∀ name, .dropIndex name ∈ drops.map AlterStep.dropIndex → name ∈ drops :=
    fun name h => by
      obtain ⟨name', hname, e⟩ := List.mem_map.mp h
      cases e
      exact hname
  constructor
  · intro h step hstep c hc i hi hprimary hcovers
    obtain ⟨before, after, rfl⟩ := List.append_of_mem hstep
    have hmem := h (drops.map .dropIndex ++ before) step after c (List.append_assoc _ _ _).symm hc
      i hi hprimary hcovers
    rcases List.mem_append.mp hmem with hmem | hmem
    · exact hdrops i.name hmem
    · exact absurd (List.mem_append_left _ hmem) (hrest i.name)
  · intro h before step after c heq hc i hi hprimary hcovers
    have hne : step ∉ drops.map AlterStep.dropIndex := fun hm => by
      obtain ⟨name, -, rfl⟩ := List.mem_map.mp hm
      cases hc
    rcases List.append_eq_append_iff.mp heq with ⟨between, rfl, hr⟩ | ⟨between, hd, hr⟩
    · have hstep : step ∈ rest := hr ▸ List.mem_append_right _ List.mem_cons_self
      exact List.mem_append_left _ (List.mem_map_of_mem (h step hstep c hc i hi hprimary hcovers))
    · cases between with
      | nil =>
        have hstep : step ∈ rest := by
          rw [← List.nil_append rest, ← hr]
          exact List.mem_cons_self
        rw [List.append_nil] at hd
        rw [← hd]
        exact List.mem_map_of_mem (h step hstep c hc i hi hprimary hcovers)
      | cons step' r =>
        cases hr
        exact absurd (hd ▸ List.mem_append_right _ List.mem_cons_self) hne

namespace Description

variable {declared live : Description} {compare : ColumnType → ColumnType → Compatibility}

/-- The live columns that are dropped or retyped. -/
def changing (declared live : Description)
    (compare : ColumnType → ColumnType → Compatibility) : List String :=
  (live.columnsBeyond declared).map ColumnDescription.handle ++
    (declared.retyped live compare).map fun p => p.2.handle

/-- The steps of an alteration after its index drops. -/
def laterSteps (declared live : Description)
    (compare : ColumnType → ColumnType → Compatibility) (added : List AlterStep) :
    List AlterStep :=
  added ++ (declared.retyped live compare).map (fun p => .alterColumn p.2.handle p.1.column) ++
    (live.columnsBeyond declared).map (fun c => .dropColumn c.handle) ++
    (declared.plannedIndexes live compare).adds.map .addIndex

theorem steps_eq (added : List AlterStep) :
    declared.steps live compare added =
      (declared.plannedIndexes live compare).drops.map .dropIndex ++
        declared.laterSteps live compare added := by
  simp only [steps, laterSteps, List.append_assoc]

theorem mem_laterSteps {added : List AlterStep} (hadded : declared.AddsMissing live added)
    {step : AlterStep} (h : step ∈ declared.laterSteps live compare added) :
    (∃ c source, step = .addColumn c source) ∨
      (∃ p ∈ declared.retyped live compare, step = .alterColumn p.2.handle p.1.column) ∨
      (∃ c ∈ live.columnsBeyond declared, step = .dropColumn c.handle) ∨
      ∃ i, step = .addIndex i := by
  simp only [laterSteps, List.mem_append, List.mem_map] at h
  rcases h with ((h | ⟨p, hp, rfl⟩) | ⟨c, hc, rfl⟩) | ⟨i, -, rfl⟩
  · have hadds : ∀ step ∈ added, ∃ c source, step = AlterStep.addColumn c source := by
      have hflip : List.Forall₂ (fun step _ => (∃ c source, step = AlterStep.addColumn c source) ∧
          True) added (declared.columnsBeyond live) :=
        hadded.flip.imp fun step c hstep => by
          obtain ⟨source, rfl, -⟩ := hstep
          exact ⟨⟨_, source, rfl⟩, trivial⟩
      exact ((List.forall₂_and_left _ _).mp hflip).1
    exact Or.inl (hadds step h)
  · exact Or.inr (Or.inl ⟨p, hp, rfl⟩)
  · exact Or.inr (Or.inr (Or.inl ⟨c, hc, rfl⟩))
  · exact Or.inr (Or.inr (Or.inr ⟨i, rfl⟩))

/-- The later steps change the dropped and the retyped columns. -/
theorem changed_laterSteps {added : List AlterStep} (hadded : declared.AddsMissing live added)
    {name : String} :
    (∃ step ∈ declared.laterSteps live compare added, step.changed? = some name) ↔
      name ∈ declared.changing live compare := by
  simp only [changing, List.mem_append, List.mem_map]
  constructor
  · rintro ⟨step, hstep, hname⟩
    rcases mem_laterSteps hadded hstep with
      ⟨c, source, rfl⟩ | ⟨p, hp, rfl⟩ | ⟨c, hc, rfl⟩ | ⟨i, rfl⟩
    · cases hname
    · exact Or.inr ⟨p, hp, Option.some.inj hname⟩
    · exact Or.inl ⟨c, hc, Option.some.inj hname⟩
    · cases hname
  · simp only [laterSteps, List.mem_append, List.mem_map]
    rintro (⟨c, hc, rfl⟩ | ⟨p, hp, rfl⟩)
    · exact ⟨_, Or.inl (Or.inr ⟨c, hc, rfl⟩), rfl⟩
    · exact ⟨_, Or.inl (Or.inl (Or.inr ⟨p, hp, rfl⟩)), rfl⟩

/-- **A live index is dropped** iff its name is not declared, or is declared for an index over a
retyped column that is not the primary one. -/
theorem name_mem_drops_iff (hd : declared.WellFormed) {name : String}
    (hlive : name ∈ live.indexes.map IndexDescription.handle) :
    name ∈ (declared.plannedIndexes live compare).drops ↔
      ∀ j ∈ declared.indexes, j.handle = name → j.index.isPrimary = false ∧
        ∃ p ∈ declared.retyped live compare, j.index.covers p.1.handle = true := by
  obtain ⟨again, ha, hplan⟩ := plannedIndexes_eq live compare hd
  rw [hplan, List.mem_append, indexesBeyond, Keyed.mem_map_beyond]
  constructor
  · rintro (⟨-, hundeclared⟩ | hagain) j hj rfl
    · exact absurd (List.mem_map_of_mem hj) hundeclared
    · obtain ⟨i, hi, hname⟩ := List.mem_map.mp hagain
      obtain ⟨⟨j', hj', rfl⟩, hprimary, hretyped⟩ := mem_rebuilt.mp (ha.mem_rebuilt i hi)
      rw [hd.index_name j' hj'] at hname
      rw [← List.inj_on_of_nodup_map hd.indexes_nodup hj' hj hname]
      exact ⟨hprimary, hretyped⟩
  · intro h
    by_cases hdeclared : name ∈ declared.indexes.map IndexDescription.handle
    · obtain ⟨j, hj, rfl⟩ := List.mem_map.mp hdeclared
      obtain ⟨hprimary, hretyped⟩ := h j hj rfl
      rw [← hd.index_name j hj] at hlive ⊢
      exact Or.inr (ha.complete j.index (mem_rebuilt.mpr ⟨⟨j, hj, rfl⟩, hprimary, hretyped⟩) hlive)
    · exact Or.inl ⟨hlive, hdeclared⟩

theorem protects_steps_iff (hd : declared.WellFormed) {added : List AlterStep}
    (hadded : declared.AddsMissing live added) {is : List Index}
    (his : ∀ i ∈ is, i.name ∈ live.indexes.map IndexDescription.handle) :
    Protects is (declared.steps live compare added) ↔
      ∀ i ∈ is, i.isPrimary = false → ∀ c ∈ declared.changing live compare, i.covers c = true →
        ∀ j ∈ declared.indexes, j.handle = i.name → j.index.isPrimary = false ∧
          ∃ p ∈ declared.retyped live compare, j.index.covers p.1.handle = true := by
  have hrest : ∀ name, .dropIndex name ∉ declared.laterSteps live compare added := fun name h => by
    rcases mem_laterSteps hadded h with ⟨_, _, e⟩ | ⟨_, _, e⟩ | ⟨_, _, e⟩ | ⟨_, e⟩ <;> cases e
  rw [steps_eq, protects_append_iff hrest]
  constructor
  · intro h i hi hprimary c hc hcovers
    obtain ⟨step, hstep, hchanged⟩ := (changed_laterSteps hadded).mpr hc
    exact (name_mem_drops_iff hd (his i hi)).mp (h step hstep c hchanged i hi hprimary hcovers)
  · intro h step hstep c hchanged i hi hprimary hcovers
    have hc := (changed_laterSteps hadded).mp ⟨step, hstep, hchanged⟩
    exact (name_mem_drops_iff hd (his i hi)).mpr (h i hi hprimary c hc hcovers)

end Description

section Batch

variable {σ κ : Type} {m : Migrator σ κ} {s t : Situation σ κ} {schema : CollectionSchema}
  {locales found : List String} {declared : Description} {live : LiveCollection}
  {compare : ColumnType → ColumnType → Compatibility} {queries : List Query}

/-- A live index has a live handle. -/
theorem name_mem_ofLive {i : Index} (hi : i ∈ live.indexes) :
    i.name ∈ (Description.ofLive live found).indexes.map IndexDescription.handle := by
  show i.name ∈ (Description.ofLive live found).shape.indexes
  rw [Description.shape_ofLive]
  exact List.mem_map_of_mem hi

/-- **When a batch protects the columns that it drops or retypes.** The alteration that is batched
for the diff of a live collection drops every index over such a column first, iff each of these
indexes, by its name, is not declared any more, or is declared over a retyped column. -/
theorem batch_protects_iff (hs : Description.ofSchema schema locales = .ok declared)
    (h : (m.batch (declared.diff (some (.ofLive live found)) compare)).outcome s =
      (.ok queries, t)) :
    ∃ steps, queries = alteration declared.collection steps ∧
      (Protects live.indexes steps ↔
        ∀ i ∈ live.indexes, i.isPrimary = false →
          ∀ c ∈ declared.changing (.ofLive live found) compare, i.covers c = true →
            ∀ j ∈ declared.indexes, j.handle = i.name → j.index.isPrimary = false ∧
              ∃ p ∈ declared.retyped (.ofLive live found) compare,
                j.index.covers p.1.handle = true) := by
  obtain ⟨added, hadded, hqueries⟩ := Description.batch_diff_ok h
  exact ⟨_, hqueries, Description.protects_steps_iff (Description.wellFormed_of_ofSchema hs) hadded
    fun i hi => name_mem_ofLive hi⟩

/-- The index over the retyped views of the older posts is dropped first. -/
theorem batch_of_posts_protects :
    ∃ steps, [.alterCollection ⟨Posts.collection, Posts.steps⟩] =
        alteration Posts.declared.collection steps ∧ Protects Posts.live.indexes steps := by
  obtain ⟨steps, hsteps, hiff⟩ := batch_protects_iff Posts.ofSchema_schema Posts.batch_found
  exact ⟨steps, hsteps, hiff.mpr (by decide)⟩

/-- Posts whose index for the ranking covers a column that is not declared. -/
def Posts.stray : LiveCollection :=
  ⟨collection,
    [.plain "id" .int64, .plain "title__en" .text, .plain "title__fr" .text, .plain "views" .int32,
      .plain "legacy" .text],
    [⟨primaryName, .primary, Index.ascending ["id"]⟩,
      ⟨"titles__en", .unique, Index.ascending ["title__en"]⟩,
      ⟨"titles__fr", .unique, Index.ascending ["title__fr"]⟩,
      ⟨"ranking", .plain, Index.ascending ["legacy"]⟩]⟩

/-- A batch drops a column that is still indexed: the index has the name of a declared one, and so
it stays. -/
theorem batch_drops_indexed_column :
    Description.ofSchema Posts.schema ["en", "fr"] = .ok Posts.declared ∧
      (Posts.stray.columns.map Column.name).Nodup ∧ (Posts.stray.indexes.map Index.name).Nodup ∧
      ∃ steps,
        (Posts.migrator.batch (Posts.declared.diff (some (.ofLive Posts.stray ["en", "fr"]))
          ColumnType.compareTypes)).outcome ⟨(), (), []⟩ =
            (.ok [.alterCollection ⟨Posts.collection, steps⟩], ⟨(), (), []⟩) ∧
        ¬ Protects Posts.stray.indexes steps := by
  refine ⟨Posts.ofSchema_schema, by decide, by decide, [.dropColumn "legacy"], rfl, fun h => ?_⟩
  have hmem := h [] (.dropColumn "legacy") [] "legacy" rfl rfl
    ⟨"ranking", .plain, Index.ascending ["legacy"]⟩ (by decide) (by decide) (by decide)
  exact List.not_mem_nil hmem

/-- **A batch protects the columns of a collection whose indexes cover what they are declared to
cover.** -/
theorem batch_protects_of_same_fields (hs : Description.ofSchema schema locales = .ok declared)
    (h : (m.batch (declared.diff (some (.ofLive live found)) compare)).outcome s =
      (.ok queries, t))
    (hsame : ∀ i ∈ live.indexes, ∀ j ∈ declared.indexes, j.handle = i.name →
      j.index.isPrimary = i.isPrimary ∧ ∀ c, i.covers c = true → j.index.covers c = true) :
    ∃ steps, queries = alteration declared.collection steps ∧ Protects live.indexes steps := by
  have hd := Description.wellFormed_of_ofSchema hs
  obtain ⟨added, hadded, hqueries⟩ := Description.batch_diff_ok h
  refine ⟨_, hqueries, (Description.protects_steps_iff hd hadded fun i hi =>
    name_mem_ofLive hi).mpr fun i hi hprimary c hc hcovers j hj e => ?_⟩
  obtain ⟨hkind, hfields⟩ := hsame i hi j hj e
  refine ⟨hkind.trans hprimary, ?_⟩
  rcases List.mem_append.mp hc with hc | hc
  · -- a dropped column is covered by no declared index
    have hcolumn := hd.covered j hj c (List.contains_iff_mem.mp (hfields c hcovers))
    exact absurd hcolumn (Keyed.mem_map_beyond.mp hc).2
  · obtain ⟨p, hp, rfl⟩ := List.mem_map.mp hc
    refine ⟨p, hp, ?_⟩
    rw [Description.handle_of_mem_retyped hp]
    exact hfields _ hcovers

end Batch

end SchemaMigration
