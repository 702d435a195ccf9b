import SchemaMigration.Proofs.Description.Expansion
import SchemaMigration.Proofs.Migration.Decisions

/-!
# A batched alteration can be carried out by name

The steps of an alteration are read as changes of two lists of names. A step can only be carried out
when what it changes or drops is there, what it adds has a free name, the source of a new column is
there, and so are the columns of a new index.

About `batch` and `into_alter`, on what `diff_collection` plans.

* `afterAll?_dropIndexes` to `afterAll?_addIndexes`: the five blocks of an alteration, one by one.
* `afterAll?_steps`: the steps that are batched for a diff can be carried out in their order, and
  they lead from the live names to the declared ones.
* **`batch_reaches_declared`**: so does every batch, whoever decides.
-/

namespace SchemaMigration

/-- The names of the columns and of the indexes of a collection. -/
structure Shape where
  /-- The names of the columns. -/
  columns : List String
  /-- The names of the indexes. -/
  indexes : List String
deriving DecidableEq

namespace Shape

/-- The names in a live collection. -/
def of (live : LiveCollection) : Shape :=
  ⟨live.columns.map Column.name, live.indexes.map Index.name⟩

/-- The names with other columns. -/
def withColumns (s : Shape) (columns : List String) : Shape :=
  { s with columns := columns }

/-- The names with other indexes. -/
def withIndexes (s : Shape) (indexes : List String) : Shape :=
  { s with indexes := indexes }

/-- The names after a step, if the step can be carried out. Dropping a column leaves the indexes
alone. -/
def after? (s : Shape) : AlterStep → Option Shape
  | .addColumn c source =>
    if ∀ name ∈ source.toList, name ∈ s.columns then
      (Keyed.insert? id s.columns c.name).map s.withColumns
    else none
  | .alterColumn source c => (Keyed.replace? id s.columns source c.name).map s.withColumns
  | .dropColumn name => (Keyed.erase? id s.columns name).map s.withColumns
  | .addIndex i =>
    if ∀ name ∈ i.fields, name ∈ s.columns then
      (Keyed.insert? id s.indexes i.name).map s.withIndexes
    else none
  | .dropIndex name => (Keyed.erase? id s.indexes name).map s.withIndexes
  | .rename _ => some s

/-- The names after steps, one after the other, if they can all be carried out. -/
def afterAll? (s : Shape) (steps : List AlterStep) : Option Shape :=
  steps.foldlM after? s

/-! ## The blocks of an alteration -/

theorem afterAll?_append (s : Shape) (steps steps' : List AlterStep) :
    s.afterAll? (steps ++ steps') = (s.afterAll? steps).bind fun t => t.afterAll? steps' :=
  List.foldlM_append

theorem afterAll?_cons (s : Shape) (step : AlterStep) (steps : List AlterStep) :
    s.afterAll? (step :: steps) = (s.after? step).bind fun t => t.afterAll? steps :=
  List.foldlM_cons

variable {s : Shape}

theorem afterAll?_dropIndexes (s : Shape) {names : List String} (h : names.Nodup)
    (hmem : ∀ name ∈ names, name ∈ s.indexes) :
    s.afterAll? (names.map .dropIndex) =
      some (s.withIndexes (s.indexes.filter fun name => name ∉ names)) := by
  unfold afterAll?
  rw [List.foldlM_map]
  exact Keyed.foldlM_erase?_component indexes withIndexes (fun _ _ => rfl) (fun _ _ => rfl)
    (fun _ _ _ => rfl) (fun _ => rfl) h hmem

theorem afterAll?_dropColumns (s : Shape) {names : List String} (h : names.Nodup)
    (hmem : ∀ name ∈ names, name ∈ s.columns) :
    s.afterAll? (names.map .dropColumn) =
      some (s.withColumns (s.columns.filter fun name => name ∉ names)) := by
  unfold afterAll?
  rw [List.foldlM_map]
  exact Keyed.foldlM_erase?_component columns withColumns (fun _ _ => rfl) (fun _ _ => rfl)
    (fun _ _ _ => rfl) (fun _ => rfl) h hmem

/-- Columns with distinct free names can be added from columns that are there. -/
theorem afterAll?_addColumns {wanted : List (ColumnDescription × List String)}
    {added : List AlterStep} (h : List.Forall₂ AlterStep.Adds wanted added) :
    ∀ {s : Shape}, (wanted.map fun c => c.1.column.name).Nodup →
      (∀ c ∈ wanted, c.1.column.name ∉ s.columns ∧ ∀ name ∈ c.2, name ∈ s.columns) →
      s.afterAll? added =
        some (s.withColumns (s.columns ++ wanted.map fun c => c.1.column.name)) := by
  induction h with
  | nil =>
    intro s _ _
    rw [List.map_nil, List.append_nil]
    rfl
  | @cons c step wanted added hstep _ ih =>
    intro s hnodup hfree
    obtain ⟨source, rfl, hsource⟩ := hstep
    obtain ⟨hname, hcandidates⟩ := hfree c List.mem_cons_self
    rw [List.map_cons, List.nodup_cons] at hnodup
    have hthere : ∀ name ∈ source.toList, name ∈ s.columns := fun name hn =>
      hcandidates name (hsource name (Option.mem_toList.mp hn))
    have hfirst : s.after? (.addColumn c.1.column source) =
        some (s.withColumns (s.columns ++ [c.1.column.name])) := by
      show (if _ then _ else _) = _
      rw [if_pos hthere, Keyed.insert?_id hname]
      rfl
    have hrest : ∀ d ∈ wanted, d.1.column.name ∉ s.columns ++ [c.1.column.name] ∧
        ∀ name ∈ d.2, name ∈ s.columns ++ [c.1.column.name] := fun d hd => by
      obtain ⟨hname', hcandidates'⟩ := hfree d (List.mem_cons_of_mem c hd)
      refine ⟨fun hm => ?_, fun name hn => List.mem_append_left _ (hcandidates' name hn)⟩
      rcases List.mem_append.mp hm with hm | hm
      · exact hname' hm
      · exact hnodup.1 (List.mem_map.mpr ⟨d, hd, List.mem_singleton.mp hm⟩)
    rw [afterAll?_cons, hfirst, Option.bind_some, ih hnodup.2 hrest, List.map_cons]
    show some (s.withColumns (s.columns ++ [c.1.column.name] ++ _)) = _
    rw [List.append_assoc, List.singleton_append]

/-- Columns that are there can be retyped under their names. -/
theorem afterAll?_alterColumns : ∀ {steps : List AlterStep},
    (∀ step ∈ steps, ∃ c : Column, step = .alterColumn c.name c ∧ c.name ∈ s.columns) →
    s.afterAll? steps = some s
  | [], _ => rfl
  | step :: r, h => by
    obtain ⟨c, rfl, hc⟩ := h step List.mem_cons_self
    have hfirst : s.after? (.alterColumn c.name c) = some s := by
      show (Keyed.replace? id s.columns c.name c.name).map s.withColumns = some s
      rw [Keyed.replace?_id hc]
      rfl
    rw [afterAll?_cons, hfirst, Option.bind_some]
    exact afterAll?_alterColumns fun step hs => h step (List.mem_cons_of_mem _ hs)

/-- Indexes with distinct free names can be added over columns that are there. -/
theorem afterAll?_addIndexes : ∀ {is : List Index} {s : Shape}, (is.map Index.name).Nodup →
    (∀ i ∈ is, i.name ∉ s.indexes ∧ ∀ name ∈ i.fields, name ∈ s.columns) →
    s.afterAll? (is.map .addIndex) = some (s.withIndexes (s.indexes ++ is.map Index.name))
  | [], s, _, _ => by
    rw [List.map_nil, List.map_nil, List.append_nil]
    rfl
  | i :: is, s, hnodup, h => by
    obtain ⟨hname, hfields⟩ := h i List.mem_cons_self
    rw [List.map_cons, List.nodup_cons] at hnodup
    have hfirst : s.after? (.addIndex i) = some (s.withIndexes (s.indexes ++ [i.name])) := by
      show (if _ then _ else _) = _
      rw [if_pos hfields, Keyed.insert?_id hname]
      rfl
    have hrest : ∀ j ∈ is, j.name ∉ s.indexes ++ [i.name] ∧ ∀ name ∈ j.fields, name ∈ s.columns :=
      fun j hj => by
        obtain ⟨hname', hfields'⟩ := h j (List.mem_cons_of_mem i hj)
        refine ⟨fun hm => ?_, hfields'⟩
        rcases List.mem_append.mp hm with hm | hm
        · exact hname' hm
        · exact hnodup.1 (List.mem_map.mpr ⟨j, hj, List.mem_singleton.mp hm⟩)
    rw [List.map_cons, afterAll?_cons, hfirst, Option.bind_some,
      afterAll?_addIndexes (s := s.withIndexes _) hnodup.2 hrest, List.map_cons]
    show some (s.withIndexes (s.indexes ++ [i.name] ++ _)) = _
    rw [List.append_assoc, List.singleton_append]

end Shape

/-! ## The alteration of a diff -/

namespace Description

variable {declared live : Description} {compare : ColumnType → ColumnType → Compatibility}

/-- The names of the physical columns and indexes. -/
def shape (d : Description) : Shape :=
  ⟨d.columns.map ColumnDescription.handle, d.indexes.map IndexDescription.handle⟩

theorem WellFormed.shape_toLive (hd : declared.WellFormed) : Shape.of declared.toLive =
    declared.shape := by
  unfold Shape.of toLive shape
  rw [List.map_map, List.map_map]
  exact congrArg₂ Shape.mk (List.map_congr_left hd.column_name) (List.map_congr_left hd.index_name)

/-- What is known of a live collection keeps its names. -/
theorem shape_ofLive (live : LiveCollection) (locales : List String) :
    (ofLive live locales).shape = Shape.of live := by
  unfold shape ofLive Shape.of
  rw [List.map_map, List.map_map]
  rfl

/-- The columns that a new column may be filled from are live. -/
theorem mem_of_mem_copyCandidates {c : ColumnDescription} {name : String}
    (h : name ∈ copyCandidates c live) : name ∈ live.shape.columns := by
  obtain ⟨c', hc', rfl⟩ := List.mem_map.mp h
  exact List.mem_map_of_mem (List.mem_filter.mp hc').1

theorem afterAll?_added (hd : declared.WellFormed) {added : List AlterStep}
    (h : declared.AddsMissing live added) {s : Shape} (hs : s.columns = live.shape.columns) :
    s.afterAll? added = some (s.withColumns
      (s.columns ++ (declared.columnsBeyond live).map ColumnDescription.handle)) := by
  have hname : ((declared.columnsBeyond live).map fun c => (c, copyCandidates c live)).map
      (fun c => c.1.column.name) = (declared.columnsBeyond live).map ColumnDescription.handle := by
    rw [List.map_map]
    exact List.map_congr_left fun c hc => hd.column_name c (Keyed.mem_beyond.mp hc).1
  have hadds : List.Forall₂ AlterStep.Adds
      ((declared.columnsBeyond live).map fun c => (c, copyCandidates c live)) added :=
    List.forall₂_map_left_iff.mpr h
  rw [Shape.afterAll?_addColumns hadds, hname]
  · rw [hname]
    exact Keyed.nodup_map_beyond hd.columns_nodup live.columns
  · intro p hp
    obtain ⟨c, hc, rfl⟩ := List.mem_map.mp hp
    rw [hs, hd.column_name c (Keyed.mem_beyond.mp hc).1]
    exact ⟨(Keyed.mem_beyond.mp hc).2, fun name hn => mem_of_mem_copyCandidates hn⟩

theorem afterAll?_dropped (hc : (live.columns.map ColumnDescription.handle).Nodup) {s : Shape}
    (hs : ∀ name ∈ live.shape.columns, name ∈ s.columns) :
    s.afterAll? ((live.columnsBeyond declared).map fun c => .dropColumn c.handle) =
      some (s.withColumns (s.columns.filter
        fun name => name ∉ (live.columnsBeyond declared).map ColumnDescription.handle)) := by
  have h := s.afterAll?_dropColumns (Keyed.nodup_map_beyond hc declared.columns)
    fun name hn => hs name (Keyed.mem_map_beyond.mp hn).1
  rwa [List.map_map] at h

theorem afterAll?_altered (hd : declared.WellFormed) {s : Shape}
    (hs : ∀ name ∈ live.shape.columns, name ∈ s.columns) :
    s.afterAll? ((declared.retyped live compare).map
      fun p => .alterColumn p.2.handle p.1.column) = some s := by
  refine Shape.afterAll?_alterColumns fun step hstep => ?_
  obtain ⟨⟨wanted, c⟩, hp, rfl⟩ := List.mem_map.mp hstep
  obtain ⟨hc, hw, -⟩ := mem_retyped.mp hp
  have e : wanted.column.name = c.handle := by
    rw [hd.column_name wanted (List.mem_of_find?_eq_some hw)]
    exact handle_of_mem_retyped hp
  refine ⟨wanted.column, by rw [e], ?_⟩
  rw [e]
  exact hs _ (List.mem_map_of_mem hc)

section Indexes

variable {again : List Index} (ha : declared.BuiltAgain live compare again) {s : Shape}

include ha

theorem afterAll?_droppedIndexes (hd : declared.WellFormed)
    (hi : (live.indexes.map IndexDescription.handle).Nodup)
    (hs : s.indexes = live.shape.indexes) :
    s.afterAll? (((live.indexesBeyond declared).map IndexDescription.handle ++
        again.map Index.name).map .dropIndex) =
      some (s.withIndexes (s.indexes.filter fun name =>
        name ∉ (live.indexesBeyond declared).map IndexDescription.handle ++
          again.map Index.name)) := by
  refine s.afterAll?_dropIndexes ?_ fun name hn => ?_
  · exact (Keyed.nodup_map_beyond hi declared.indexes).append ha.nodup
      fun name hn hn' => (Keyed.mem_map_beyond.mp hn).2 (ha.mem_both hd name hn').2
  · rw [hs]
    rcases List.mem_append.mp hn with hn | hn
    · exact (Keyed.mem_map_beyond.mp hn).1
    · exact (ha.mem_both hd name hn).1

/-- The names of the added indexes are new to the collection, or were dropped at the start. -/
theorem afterAll?_addedIndexes (hd : declared.WellFormed)
    (hfree : ∀ name ∈ s.indexes, name ∈ live.shape.indexes ∧ name ∉ again.map Index.name)
    (hcolumns : ∀ name ∈ declared.shape.columns, name ∈ s.columns) :
    s.afterAll? (((declared.indexesBeyond live).map IndexDescription.index ++ again).map
        .addIndex) =
      some (s.withIndexes (s.indexes ++
        ((declared.indexesBeyond live).map IndexDescription.handle ++ again.map Index.name))) := by
  have hnames : ((declared.indexesBeyond live).map IndexDescription.index ++ again).map Index.name =
      (declared.indexesBeyond live).map IndexDescription.handle ++ again.map Index.name := by
    rw [List.map_append, names_indexesBeyond live hd]
  have hnodup := (Keyed.nodup_map_beyond hd.indexes_nodup live.indexes).append ha.nodup
    fun name hn hn' => (Keyed.mem_map_beyond.mp hn).2 (ha.mem_both hd name hn').1
  rw [← hnames]
  refine Shape.afterAll?_addIndexes (by rw [hnames]; exact hnodup) fun i hm => ⟨fun hn => ?_, ?_⟩
  · have hname := List.mem_map_of_mem (f := Index.name) hm
    rw [hnames] at hname
    rcases List.mem_append.mp hname with hname | hname
    · exact (Keyed.mem_map_beyond.mp hname).2 (hfree i.name hn).1
    · exact (hfree i.name hn).2 hname
  · intro name hn
    rcases List.mem_append.mp hm with hm | hm
    · obtain ⟨j, hj, rfl⟩ := List.mem_map.mp hm
      exact hcolumns name (hd.covered j (Keyed.mem_beyond.mp hj).1 name hn)
    · obtain ⟨⟨j, hj, rfl⟩, -⟩ := mem_rebuilt.mp (ha.mem_rebuilt i hm)
      exact hcolumns name (hd.covered j hj name hn)

end Indexes

/-- **The steps that are batched for a diff can be carried out** in their order, and lead from the
live names to the declared ones. -/
theorem afterAll?_steps (compare : ColumnType → ColumnType → Compatibility)
    (hd : declared.WellFormed) (hc : (live.columns.map ColumnDescription.handle).Nodup)
    (hi : (live.indexes.map IndexDescription.handle).Nodup) {added : List AlterStep}
    (hadded : declared.AddsMissing live added) :
    ∃ reached, live.shape.afterAll? (declared.steps live compare added) = some reached ∧
      reached.columns.Perm declared.shape.columns ∧
      reached.indexes.Perm declared.shape.indexes := by
  obtain ⟨again, ha, hplan⟩ := plannedIndexes_eq live compare hd
  have hkept : ∀ name ∈ live.shape.columns, name ∈ live.shape.columns ++
      (declared.columnsBeyond live).map ColumnDescription.handle :=
    fun name hn => List.mem_append_left _ hn
  refine ⟨⟨_, _⟩, ?_, Keyed.perm_settled hc hd.columns_nodup,
    Keyed.perm_settled_again hi hd.indexes_nodup ha.nodup (ha.mem_both hd)⟩
  unfold steps
  rw [hplan]
  simp only [Shape.afterAll?_append]
  rw [afterAll?_droppedIndexes ha hd hi rfl, Option.bind_some,
    afterAll?_added hd hadded, Option.bind_some,
    afterAll?_altered hd hkept, Option.bind_some, afterAll?_dropped hc hkept,
    Option.bind_some, afterAll?_addedIndexes ha hd]
  · rfl
  · intro name hn
    obtain ⟨hlive, hn⟩ := List.mem_filter.mp hn
    exact ⟨hlive, fun hm => of_decide_eq_true hn (List.mem_append_right _ hm)⟩
  · exact fun name hn => Keyed.mem_settled.mpr hn
  · rfl

end Description

/-- **A batch can be carried out by name and reaches the declared names.** The batch for the diff of
a live collection is one alteration, or nothing if the alteration has no step. Its steps can be
carried out on the live names, one after the other, and leave exactly the declared names. -/
theorem batch_reaches_declared {σ κ : Type} {m : Migrator σ κ} {s t : Situation σ κ}
    {schema : CollectionSchema} {locales found : List String} {declared : Description}
    {live : LiveCollection} {compare : ColumnType → ColumnType → Compatibility}
    {queries : List Query} (hs : Description.ofSchema schema locales = .ok declared)
    (hc : (live.columns.map Column.name).Nodup) (hi : (live.indexes.map Index.name).Nodup)
    (h : (m.batch (declared.diff (some (.ofLive live found)) compare)).outcome s =
      (.ok queries, t)) :
    ∃ steps reached, queries = alteration declared.collection steps ∧
      (Shape.of live).afterAll? steps = some reached ∧
      reached.columns.Perm (Shape.of declared.toLive).columns ∧
      reached.indexes.Perm (Shape.of declared.toLive).indexes := by
  have hd := Description.wellFormed_of_ofSchema hs
  obtain ⟨added, hadded, hqueries⟩ := Description.batch_diff_ok h
  have hshape := Description.shape_ofLive live found
  have hc' : ((Description.ofLive live found).shape.columns).Nodup := by
    rw [hshape]
    exact hc
  have hi' : ((Description.ofLive live found).shape.indexes).Nodup := by
    rw [hshape]
    exact hi
  obtain ⟨reached, hreached, hcolumns, hindexes⟩ :=
    Description.afterAll?_steps compare hd hc' hi' hadded
  rw [hshape] at hreached
  rw [hd.shape_toLive]
  exact ⟨_, reached, hqueries, hreached, hcolumns, hindexes⟩

/-- The alteration of the older posts can be carried out and reaches the declared names. -/
theorem batch_of_posts_reaches_declared :
    ∃ steps reached, [.alterCollection ⟨Posts.collection, Posts.steps⟩] =
        alteration Posts.declared.collection steps ∧
      (Shape.of Posts.live).afterAll? steps = some reached ∧
      reached.columns.Perm (Shape.of Posts.declared.toLive).columns ∧
      reached.indexes.Perm (Shape.of Posts.declared.toLive).indexes :=
  batch_reaches_declared Posts.ofSchema_schema (by decide) (by decide) Posts.batch_found

end SchemaMigration
