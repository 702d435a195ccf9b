import SchemaMigration.Proofs.Migration.Creation

/-!
# Names of indexes across a schema

A database has one space of names for the indexes of all its tables. A physical name joins a table
and a handle by an underscore, which both may contain, so where the one ends and the other begins is
not told by the name: an index `tag_slug` on `post` and an index `slug` on `post_tag` have the same.

About `index_name`, on what `compile_create` writes.

* `Overlaps`: one table's name goes on where the other's ends, into the handle of its index.
* `indexName_eq_indexName_iff`: two indexes share a name iff they are the same or overlap.
* `createdIndexes_of_compile`: the names that a creation gives to its indexes.
* **`LogicalSchema.nodup_createdIndexes_iff`**: the creations of several collections name no two
  indexes alike iff none of their indexes overlap.
-/

namespace SchemaMigration

/-! ## One name for two indexes -/

/-- The name of the second table is that of the first one and then, behind an underscore, the start
of the first handle; the rest of the first handle, behind another underscore, is the second one. -/
def Overlaps (a : CollectionRef) (handle : String) (b : CollectionRef) (handle' : String) : Prop :=
  ∃ middle, b.identity = a.identity ++ "_" ++ middle ∧ handle = middle ++ "_" ++ handle'

/-- Two texts around a mark are the same as two others iff they are those, or the mark is once more
in one of them, where the others are cut. -/
theorem append_mark_eq_iff {α : Type} {mark : α} {a b h k : List α} :
    a ++ mark :: h = b ++ mark :: k ↔ (a = b ∧ h = k) ∨
      (∃ middle, b = a ++ mark :: middle ∧ h = middle ++ mark :: k) ∨
      ∃ middle, a = b ++ mark :: middle ∧ k = middle ++ mark :: h := by
  rw [List.append_eq_append_iff]
  constructor
  · rintro (⟨rest, hb, hrest⟩ | ⟨rest, ha, hrest⟩)
    · cases rest with
      | nil => exact Or.inl ⟨by simpa using hb.symm, (List.cons.inj hrest).2⟩
      | cons x middle =>
        obtain ⟨rfl, hmiddle⟩ := List.cons.inj hrest
        exact Or.inr (Or.inl ⟨middle, hb, hmiddle⟩)
    · cases rest with
      | nil => exact Or.inl ⟨by simpa using ha, (List.cons.inj hrest).2.symm⟩
      | cons x middle =>
        obtain ⟨rfl, hmiddle⟩ := List.cons.inj hrest
        exact Or.inr (Or.inr ⟨middle, ha, hmiddle⟩)
  · rintro (⟨rfl, rfl⟩ | ⟨middle, rfl, rfl⟩ | ⟨middle, rfl, rfl⟩)
    · exact Or.inl ⟨[], by simp, rfl⟩
    · exact Or.inl ⟨mark :: middle, rfl, rfl⟩
    · exact Or.inr ⟨mark :: middle, rfl, rfl⟩

theorem overlaps_iff {a b : CollectionRef} {handle handle' : String} :
    Overlaps a handle b handle' ↔ ∃ middle : List Char,
      b.identity.toList = a.identity.toList ++ '_' :: middle ∧
        handle.toList = middle ++ '_' :: handle'.toList := by
  constructor
  · rintro ⟨middle, hb, rfl⟩
    exact ⟨middle.toList, by simp [hb], by simp⟩
  · rintro ⟨middle, hb, hhandle⟩
    refine ⟨String.ofList middle, ?_, ?_⟩
    · rw [← String.toList_inj, hb]
      simp
    · rw [← String.toList_inj, hhandle]
      simp

/-- **Two indexes share a name** iff they are one index of tables with one name, or overlap. -/
theorem indexName_eq_indexName_iff {a b : CollectionRef} {handle handle' : String} :
    indexName a handle = indexName b handle' ↔ (a.identity = b.identity ∧ handle = handle') ∨
      Overlaps a handle b handle' ∨ Overlaps b handle' a handle := by
  have hmark : ∀ (c : CollectionRef) (s : String),
      (indexName c s).toList = c.identity.toList ++ '_' :: s.toList := fun c s => by
    simp [toList_indexName]
  rw [← String.toList_inj, hmark, hmark, append_mark_eq_iff, overlaps_iff, overlaps_iff,
    String.toList_inj, String.toList_inj]

theorem Overlaps.identity_ne {a b : CollectionRef} {handle handle' : String}
    (h : Overlaps a handle b handle') : a.identity ≠ b.identity := by
  obtain ⟨middle, hb, -⟩ := h
  intro hsame
  have hlength := congrArg String.length (hsame.trans hb)
  rw [String.length_append, String.length_append, show "_".length = 1 from rfl] at hlength
  omega

/-! ## The names of a creation -/

namespace CreateCollection

/-- The physical names of the indexes that a creation makes by statements of their own. -/
def indexNames (q : CreateCollection) : List String :=
  q.secondaryIndexes.map fun i => indexName q.collection i.name

variable {q : CreateCollection} {d : Dialect} {vars : Variables} {cq : CompiledQuery}

/-- The statements of a compiled creation create its secondary indexes by their physical names. -/
theorem Made.createdIndexes_of_compile (hq : q.Made)
    (hcq : (Query.createCollection q).compile d vars = .ok cq) :
    cq.statements.filterMap Statement.createdIndex? = q.indexNames := by
  obtain ⟨ds, hds, rfl⟩ := compile_eq_ok_iff.mp hcq
  have hsafe := (ddl_ok hds).1
  rw [hq.ddl_eq] at hds
  split at hds
  · cases hds
  · obtain ⟨clauses, -, hds⟩ := bind_eq_ok_iff.mp hds
    cases hds
    have htext := List.filterMap_congr fun s hs => Ddl.createdIndex?_statement (d := d) (hsafe s hs)
    rw [List.filterMap_map]
    refine htext.trans ?_
    rw [List.filterMap_cons_none rfl, List.filterMap_map, indexNames, ← List.filterMap_eq_map]
    rfl

/-- A creation names its own indexes apart. -/
theorem Made.nodup_indexNames (hq : q.Made) : q.indexNames.Nodup := by
  have hnodup : (q.secondaryIndexes.map Index.name).Nodup :=
    (rebuild_eq_ok_iff.mp hq.rebuild).2.2.indexes_nodup.sublist (List.filter_sublist.map _)
  have := hnodup.map fun a b => (indexName_inj (c := q.collection)).mp
  rwa [List.map_map] at this

/-- Two creations of tables with different names name an index alike iff two of theirs overlap. -/
theorem disjoint_indexNames_iff {q' : CreateCollection}
    (hne : q.collection.identity ≠ q'.collection.identity) :
    q.indexNames.Disjoint q'.indexNames ↔ ∀ i ∈ q.secondaryIndexes, ∀ j ∈ q'.secondaryIndexes,
      ¬ Overlaps q.collection i.name q'.collection j.name ∧
        ¬ Overlaps q'.collection j.name q.collection i.name := by
  constructor
  · intro h i hi j hj
    refine not_or.mp fun hoverlap => ?_
    have hname := indexName_eq_indexName_iff.mpr (Or.inr hoverlap)
    exact h (List.mem_map_of_mem hi) (hname ▸ List.mem_map_of_mem hj)
  · intro h name hname hname'
    obtain ⟨i, hi, rfl⟩ := List.mem_map.mp hname
    obtain ⟨j, hj, hsame⟩ := List.mem_map.mp hname'
    rcases indexName_eq_indexName_iff.mp hsame.symm with ⟨he, -⟩ | hoverlap
    · exact hne he
    · exact (not_or.mpr (h i hi j hj)) hoverlap

end CreateCollection

/-! ## The names of a schema -/

/-- The declaration expands, and builds the creation. -/
def CollectionSchema.Creates (locales : List String) (s : CollectionSchema) (q : CreateCollection) :
    Prop :=
  ∃ declared, Description.ofSchema s locales = .ok declared ∧ declared.toCreate = .ok q

theorem CollectionSchema.Creates.made {locales : List String} {s : CollectionSchema}
    {q : CreateCollection} (h : s.Creates locales q) :
    q.Made ∧ q.collection = s.collection := by
  obtain ⟨declared, hdeclared, hq⟩ := h
  obtain ⟨hmade, rfl⟩ := Description.toCreate_eq_ok hq
  exact ⟨hmade, (Description.ofSchema_ok hdeclared).2.1⟩

namespace LogicalSchema

variable {schema : LogicalSchema} {qs : List CreateCollection} {cqs : List CompiledQuery}
  {d : Dialect} {vars : Variables}

theorem made_of_creates {cs : List CollectionSchema} {locales : List String}
    (hqs : List.Forall₂ (CollectionSchema.Creates locales) cs qs) :
    (∀ q ∈ qs, q.Made) ∧
      qs.map CreateCollection.collection = cs.map CollectionSchema.collection := by
  induction hqs with
  | nil => simp
  | cons hq _ ih =>
    obtain ⟨hmade, hcollection⟩ := hq.made
    rw [List.forall_mem_cons, List.map_cons, List.map_cons, hcollection, ih.2]
    exact ⟨⟨hmade, ih.1⟩, rfl⟩

/-- The statements of several compiled creations create their secondary indexes. -/
theorem createdIndexes_of_compile (hmade : ∀ q ∈ qs, q.Made)
    (hcqs : List.Forall₂ (fun q cq => (Query.createCollection q).compile d vars = .ok cq) qs cqs) :
    (cqs.flatMap CompiledQuery.statements).filterMap Statement.createdIndex? =
      qs.flatMap CreateCollection.indexNames := by
  induction hcqs with
  | nil => rfl
  | cons hcq _ ih =>
    obtain ⟨hq, hmade⟩ := List.forall_mem_cons.mp hmade
    rw [List.flatMap_cons, List.filterMap_append, hq.createdIndexes_of_compile hcq, ih hmade,
      List.flatMap_cons]

/-- **The physical names of indexes are unique across a schema** whose tables have different names
iff none of its indexes overlap: it is not the case that a table's name goes on, behind an
underscore, where another's ends, into the handle of an index there whose rest is the handle of its
own one. -/
theorem nodup_createdIndexes_iff
    (hdistinct : (schema.collections.map fun s => s.collection.identity).Nodup)
    (hqs : List.Forall₂ (CollectionSchema.Creates schema.locales) schema.collections qs)
    (hcqs : List.Forall₂ (fun q cq => (Query.createCollection q).compile d vars = .ok cq) qs cqs) :
    ((cqs.flatMap CompiledQuery.statements).filterMap Statement.createdIndex?).Nodup ↔
      ∀ q ∈ qs, ∀ i ∈ q.secondaryIndexes, ∀ q' ∈ qs, ∀ j ∈ q'.secondaryIndexes,
        ¬ Overlaps q.collection i.name q'.collection j.name := by
  obtain ⟨hmade, hcollections⟩ := made_of_creates hqs
  have hdifferent : qs.Pairwise fun q q' => q.collection.identity ≠ q'.collection.identity := by
    have hnames : qs.map (fun q => q.collection.identity) =
        schema.collections.map fun s => s.collection.identity := by
      have := congrArg (List.map CollectionRef.identity) hcollections
      rwa [List.map_map, List.map_map] at this
    rw [← hnames] at hdistinct
    exact List.pairwise_map.mp hdistinct
  rw [createdIndexes_of_compile hmade hcqs, List.nodup_flatMap]
  constructor
  · rintro ⟨-, hdisjoint⟩ q hq i hi q' hq' j hj hoverlap
    have hne : q ≠ q' := fun hsame => hoverlap.identity_ne (congrArg (·.collection.identity) hsame)
    have : Std.Symm (Function.onFun List.Disjoint CreateCollection.indexNames) :=
      ⟨fun _ _ h => h.symm⟩
    exact ((CreateCollection.disjoint_indexNames_iff hoverlap.identity_ne).mp
      (hdisjoint.forall hq hq' hne) i hi j hj).1 hoverlap
  · intro h
    refine ⟨fun q hq => (hmade q hq).nodup_indexNames, ?_⟩
    refine hdifferent.imp_of_mem fun hq hq' hne => ?_
    exact (CreateCollection.disjoint_indexNames_iff hne).mpr fun i hi j hj =>
      ⟨h _ hq i hi _ hq' j hj, h _ hq' j hj _ hq i hi⟩

end LogicalSchema

/-! ## An example -/

namespace Posts

/-- The tags of posts. -/
def tagCollection : CollectionRef := ⟨none, "post_tag", scope_valid, rfl⟩

/-- The declaration of a collection of slugs with an index over them. -/
def slugs (c : CollectionRef) (handle : String) : CollectionSchema :=
  ⟨c, [.column "slug" .text], [⟨handle, .plain, Index.ascending ["slug"]⟩]⟩

/-- The creation of a collection of slugs with an index over them. -/
def creatingSlugs (c : CollectionRef) (handle : String) : CreateCollection :=
  ⟨c, [.plain "slug" .text], [⟨handle, .plain, Index.ascending ["slug"]⟩]⟩

/-- The declarations of posts, with an index of this handle, and of their tags. -/
def tagged (handle : String) : LogicalSchema :=
  ⟨[slugs collection handle, slugs tagCollection "slug"], []⟩

/-- The creations of posts, with an index of this handle, and of their tags. -/
def creatingTagged (handle : String) : List CreateCollection :=
  [creatingSlugs collection handle, creatingSlugs tagCollection "slug"]

theorem nodup_tagged (handle : String) :
    ((tagged handle).collections.map fun s => s.collection.identity).Nodup := by
  show [collection.identity, tagCollection.identity].Nodup
  decide +kernel

theorem creates_tagged : List.Forall₂ (CollectionSchema.Creates (tagged "slug").locales)
    (tagged "slug").collections (creatingTagged "slug") :=
  .cons ⟨_, rfl, rfl⟩ (.cons ⟨_, rfl, rfl⟩ .nil)

theorem creates_entangled : List.Forall₂ (CollectionSchema.Creates (tagged "tag_slug").locales)
    (tagged "tag_slug").collections (creatingTagged "tag_slug") :=
  .cons ⟨_, rfl, rfl⟩ (.cons ⟨_, rfl, rfl⟩ .nil)

end Posts

/-- Posts and their tags have indexes of different names. -/
theorem LogicalSchema.nodup_createdIndexes_of_posts : ∃ cqs : List CompiledQuery,
    List.Forall₂ (fun q cq => (Query.createCollection q).compile .postgres [] = .ok cq)
        (Posts.creatingTagged "slug") cqs ∧
      ((cqs.flatMap CompiledQuery.statements).filterMap Statement.createdIndex?).Nodup := by
  have hcompile : ∃ cqs : List CompiledQuery, List.Forall₂
      (fun q cq => (Query.createCollection q).compile .postgres [] = .ok cq)
      (Posts.creatingTagged "slug") cqs := ⟨_, .cons rfl (.cons rfl .nil)⟩
  obtain ⟨cqs, hcqs⟩ := hcompile
  have hhandle : ∀ q ∈ Posts.creatingTagged "slug", ∀ i ∈ q.secondaryIndexes, i.name = "slug" := by
    decide +kernel
  refine ⟨cqs, hcqs, (LogicalSchema.nodup_createdIndexes_iff (Posts.nodup_tagged _)
    Posts.creates_tagged hcqs).mpr ?_⟩
  rintro q hq i hi q' hq' j hj ⟨middle, -, h⟩
  rw [hhandle q hq i hi, hhandle q' hq' j hj] at h
  have hlength := congrArg String.length h
  simp [String.length_append] at hlength

/-- The creations of two tables of one schema give the same name to an index each. -/
theorem LogicalSchema.createdIndexes_entangled :
    ((Posts.tagged "tag_slug").collections.map fun s => s.collection.identity).Nodup ∧
      List.Forall₂ (CollectionSchema.Creates (Posts.tagged "tag_slug").locales)
        (Posts.tagged "tag_slug").collections (Posts.creatingTagged "tag_slug") ∧
      ∃ cqs : List CompiledQuery,
        List.Forall₂ (fun q cq => (Query.createCollection q).compile .sqlite [] = .ok cq)
          (Posts.creatingTagged "tag_slug") cqs ∧
        (cqs.flatMap CompiledQuery.statements).filterMap Statement.createdIndex? =
          ["post_tag_slug", "post_tag_slug"] ∧
        ¬ ((cqs.flatMap CompiledQuery.statements).filterMap Statement.createdIndex?).Nodup := by
  have hmade := (LogicalSchema.made_of_creates Posts.creates_entangled).1
  have hcompile : ∃ cqs : List CompiledQuery, List.Forall₂
      (fun q cq => (Query.createCollection q).compile .sqlite [] = .ok cq)
      (Posts.creatingTagged "tag_slug") cqs := ⟨_, .cons rfl (.cons rfl .nil)⟩
  obtain ⟨cqs, hcqs⟩ := hcompile
  have hnames : (cqs.flatMap CompiledQuery.statements).filterMap Statement.createdIndex? =
      ["post_tag_slug", "post_tag_slug"] := by
    rw [LogicalSchema.createdIndexes_of_compile hmade hcqs]
    decide +kernel
  refine ⟨Posts.nodup_tagged _, Posts.creates_entangled, cqs, hcqs, hnames, ?_⟩
  rw [hnames]
  decide

end SchemaMigration
