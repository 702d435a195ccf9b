import SchemaMigration.Proofs.Description.Expansion
import SchemaMigration.Proofs.Diff.Changes

/-!
# A diff brings a description in line

A second reading of a diff: every change is carried out on the live description. Dropping and
altering need the handle to be there, adding needs it to be free; what is added or altered takes the
declared definition.

About `diff_collection`.

* `foldlM_columns`, `foldlM_indexes`: a series of changes of columns acts on the columns alone, and
  one of indexes on the indexes.
* `afterAll?_diff`: all operations of a diff can be carried out, and this is what they leave.
* `diff_aligned`: a diff of what they leave is empty.
* **`diff_exact_and_converges`**: a diff is empty exactly when there is nothing to do, and carrying
  it out leaves nothing to do.
-/

namespace SchemaMigration.Description

/-! ## Carrying out changes -/

/-- The description with other columns. -/
def withColumns (d : Description) (columns : List ColumnDescription) : Description :=
  { d with columns := columns }

/-- The description with other indexes. -/
def withIndexes (d : Description) (indexes : List IndexDescription) : Description :=
  { d with indexes := indexes }

@[simp]
theorem columns_withColumns (d : Description) (columns : List ColumnDescription) :
    (d.withColumns columns).columns = columns := rfl

@[simp]
theorem indexes_withColumns (d : Description) (columns : List ColumnDescription) :
    (d.withColumns columns).indexes = d.indexes := rfl

@[simp]
theorem withColumns_withColumns (d : Description) (columns columns' : List ColumnDescription) :
    (d.withColumns columns).withColumns columns' = d.withColumns columns' := rfl

/-- The description after a change, if the change can be carried out. -/
def after? (d : Description) : Change → Option Description
  | .addCollection => none
  | .addColumn c _ => (Keyed.insert? ColumnDescription.handle d.columns c).map d.withColumns
  | .dropColumn c => (Keyed.erase? ColumnDescription.handle d.columns c.handle).map d.withColumns
  | .alterColumn wanted c =>
    (Keyed.replace? ColumnDescription.handle d.columns c.handle wanted).map d.withColumns
  | .addIndex i => (Keyed.insert? IndexDescription.handle d.indexes i).map d.withIndexes
  | .dropIndex i => (Keyed.erase? IndexDescription.handle d.indexes i.handle).map d.withIndexes

/-- The description after operations, one after the other, if they can all be carried out. -/
def afterAll? (d : Description) (ops : List DiffOperation) : Option Description :=
  ops.foldlM (fun d op => d.after? op.change) d

section Series

variable {β : Type} {change : β → Change}

/-- Changes that only concern columns act on the list of columns. -/
theorem foldlM_columns {f : List ColumnDescription → β → Option (List ColumnDescription)}
    (hf : ∀ (d : Description) b, d.after? (change b) = (f d.columns b).map d.withColumns)
    (bs : List β) (d : Description) :
    (bs.map change).foldlM after? d = (bs.foldlM f d.columns).map d.withColumns := by
  rw [List.foldlM_map]
  exact Keyed.foldlM_component columns withColumns hf (fun _ _ => rfl) (fun _ _ _ => rfl)
    (fun _ => rfl) bs d

/-- Changes that only concern indexes act on the list of indexes. -/
theorem foldlM_indexes {f : List IndexDescription → β → Option (List IndexDescription)}
    (hf : ∀ (d : Description) b, d.after? (change b) = (f d.indexes b).map d.withIndexes)
    (bs : List β) (d : Description) :
    (bs.map change).foldlM after? d = (bs.foldlM f d.indexes).map d.withIndexes := by
  rw [List.foldlM_map]
  exact Keyed.foldlM_component indexes withIndexes hf (fun _ _ => rfl) (fun _ _ _ => rfl)
    (fun _ => rfl) bs d

end Series

/-! ## What a diff leaves -/

variable {declared live : Description} {compare : ColumnType → ColumnType → Compatibility}

/-- The live columns that are declared. -/
def keptColumns (declared live : Description) : List ColumnDescription :=
  live.columns.filter fun c =>
    c.handle ∉ (live.columnsBeyond declared).map ColumnDescription.handle

/-- The live indexes that are declared. -/
def keptIndexes (declared live : Description) : List IndexDescription :=
  live.indexes.filter fun i =>
    i.handle ∉ (live.indexesBeyond declared).map IndexDescription.handle

/-- The live column, or its declaration if it is retyped. -/
def settleColumn (declared live : Description) (compare : ColumnType → ColumnType → Compatibility) :
    ColumnDescription → ColumnDescription :=
  Keyed.replacement ColumnDescription.handle ((declared.retyped live compare).map Prod.fst)

/-- The live description brought in line with its declaration: what is declared is kept, retyped
where it has to be, and what was missing comes after it. -/
def aligned (declared live : Description) (compare : ColumnType → ColumnType → Compatibility) :
    Description :=
  ⟨live.collection,
    (declared.keptColumns live).map (declared.settleColumn live compare) ++
      declared.columnsBeyond live,
    declared.keptIndexes live ++ declared.indexesBeyond live⟩

theorem mem_map_keptColumns {h : String} :
    h ∈ (declared.keptColumns live).map ColumnDescription.handle ↔
      h ∈ live.columns.map ColumnDescription.handle ∧
        h ∈ declared.columns.map ColumnDescription.handle :=
  Keyed.mem_map_shared

theorem mem_map_keptIndexes {h : String} :
    h ∈ (declared.keptIndexes live).map IndexDescription.handle ↔
      h ∈ live.indexes.map IndexDescription.handle ∧
        h ∈ declared.indexes.map IndexDescription.handle :=
  Keyed.mem_map_shared

theorem handle_settleColumn (c : ColumnDescription) :
    (declared.settleColumn live compare c).handle = c.handle :=
  Keyed.key_replacement _ c

theorem map_handle_settleColumn (cs : List ColumnDescription) :
    (cs.map (declared.settleColumn live compare)).map ColumnDescription.handle =
      cs.map ColumnDescription.handle := by
  rw [List.map_map]
  exact List.map_congr_left fun c _ => handle_settleColumn c

theorem retyped_sublist : ((declared.retyped live compare).map Prod.snd).Sublist live.columns := by
  unfold retyped
  induction live.columns with
  | nil => exact List.Sublist.refl _
  | cons c r ih =>
    rw [List.filterMap_cons]
    split
    · exact ih.cons c
    · rename_i p hp
      obtain ⟨wanted, -, hp⟩ := Option.bind_eq_some_iff.mp hp
      split at hp
      · cases hp
      · cases hp
        exact ih.cons_cons c

/-- Retyped columns have distinct handles where live columns have. -/
theorem nodup_retyped (hc : (live.columns.map ColumnDescription.handle).Nodup) :
    ((declared.retyped live compare).map fun p => p.1.handle).Nodup := by
  have e : ((declared.retyped live compare).map fun p => p.1.handle) =
      ((declared.retyped live compare).map Prod.snd).map ColumnDescription.handle := by
    rw [List.map_map]
    exact List.map_congr_left fun p hp => handle_of_mem_retyped hp
  rw [e]
  exact hc.sublist (retyped_sublist.map _)

/-! ### One lemma for every kind of change -/

theorem apply_droppedColumns (hc : (live.columns.map ColumnDescription.handle).Nodup) :
    ((live.columnsBeyond declared).map Change.dropColumn).foldlM after? live =
      some (live.withColumns (declared.keptColumns live)) := by
  have h := Keyed.foldlM_erase? (Keyed.nodup_map_beyond hc declared.columns)
    fun k hk => (Keyed.mem_map_beyond.mp hk).1
  rw [List.foldlM_map] at h
  rw [foldlM_columns (f := fun l c => Keyed.erase? ColumnDescription.handle l c.handle)
    (fun _ _ => rfl), columnsBeyond, h]
  rfl

theorem apply_alteredColumns (hc : (live.columns.map ColumnDescription.handle).Nodup)
    {d : Description} (hd : d.columns = declared.keptColumns live) :
    ((declared.retyped live compare).map fun p => Change.alterColumn p.1 p.2).foldlM after? d =
      some (d.withColumns
        ((declared.keptColumns live).map (declared.settleColumn live compare))) := by
  have hkept : ∀ p ∈ declared.retyped live compare, p.1.handle = p.2.handle ∧
      p.2.handle ∈ (declared.keptColumns live).map ColumnDescription.handle := fun p hp => by
    obtain ⟨hmem, hw, -⟩ := mem_retyped.mp hp
    have e := handle_of_mem_retyped hp
    refine ⟨e, mem_map_keptColumns.mpr ⟨List.mem_map_of_mem hmem, ?_⟩⟩
    rw [← e]
    exact List.mem_map_of_mem (List.mem_of_find?_eq_some hw)
  rw [foldlM_columns
    (f := fun l p => Keyed.replace? ColumnDescription.handle l p.2.handle p.1) (fun _ _ => rfl),
    hd, Keyed.foldlM_replace? (nodup_retyped hc) hkept]
  rfl

theorem apply_addedColumns (hd : (declared.columns.map ColumnDescription.handle).Nodup)
    {d : Description}
    (hsub : ∀ c ∈ d.columns, c.handle ∈ live.columns.map ColumnDescription.handle) :
    ((declared.columnsBeyond live).map
        fun c => Change.addColumn c (copyCandidates c live)).foldlM after? d =
      some (d.withColumns (d.columns ++ declared.columnsBeyond live)) := by
  have hfree : ∀ c ∈ declared.columnsBeyond live,
      c.handle ∉ d.columns.map ColumnDescription.handle := fun c hc hmem => by
    obtain ⟨c', hc', e⟩ := List.mem_map.mp hmem
    refine (Keyed.mem_beyond.mp hc).2 ?_
    rw [← e]
    exact hsub c' hc'
  rw [foldlM_columns (f := Keyed.insert? ColumnDescription.handle) (fun _ _ => rfl), columnsBeyond,
    Keyed.foldlM_insert? ⟨Keyed.nodup_map_beyond hd live.columns, hfree⟩]
  rfl

theorem apply_droppedIndexes (hi : (live.indexes.map IndexDescription.handle).Nodup)
    {d : Description} (hd : d.indexes = live.indexes) :
    ((live.indexesBeyond declared).map Change.dropIndex).foldlM after? d =
      some (d.withIndexes (declared.keptIndexes live)) := by
  have h := Keyed.foldlM_erase? (Keyed.nodup_map_beyond hi declared.indexes)
    fun k hk => (Keyed.mem_map_beyond.mp hk).1
  rw [List.foldlM_map] at h
  rw [foldlM_indexes (f := fun l i => Keyed.erase? IndexDescription.handle l i.handle)
    (fun _ _ => rfl), hd, indexesBeyond, h]
  rfl

theorem apply_addedIndexes (hd : (declared.indexes.map IndexDescription.handle).Nodup)
    {d : Description}
    (hsub : ∀ i ∈ d.indexes, i.handle ∈ live.indexes.map IndexDescription.handle) :
    ((declared.indexesBeyond live).map Change.addIndex).foldlM after? d =
      some (d.withIndexes (d.indexes ++ declared.indexesBeyond live)) := by
  have hfree : ∀ i ∈ declared.indexesBeyond live,
      i.handle ∉ d.indexes.map IndexDescription.handle := fun i hi hmem => by
    obtain ⟨i', hi', e⟩ := List.mem_map.mp hmem
    refine (Keyed.mem_beyond.mp hi).2 ?_
    rw [← e]
    exact hsub i' hi'
  rw [foldlM_indexes (f := Keyed.insert? IndexDescription.handle) (fun _ _ => rfl), indexesBeyond,
    Keyed.foldlM_insert? ⟨Keyed.nodup_map_beyond hd live.indexes, hfree⟩]
  rfl

/-- Every operation of a diff can be carried out, in their order. -/
theorem afterAll?_diff (hd : declared.WellFormed)
    (hc : (live.columns.map ColumnDescription.handle).Nodup)
    (hi : (live.indexes.map IndexDescription.handle).Nodup) :
    live.afterAll? (declared.diff (some live) compare) = some (declared.aligned live compare) := by
  have hkept : ∀ c ∈ (declared.keptColumns live).map (declared.settleColumn live compare),
      c.handle ∈ live.columns.map ColumnDescription.handle := fun c hmem => by
    have hmem' := List.mem_map_of_mem (f := ColumnDescription.handle) hmem
    rw [map_handle_settleColumn] at hmem'
    exact (mem_map_keptColumns.mp hmem').1
  have hkept' : ∀ i ∈ declared.keptIndexes live,
      i.handle ∈ live.indexes.map IndexDescription.handle :=
    fun i hmem => List.mem_map_of_mem (List.mem_filter.mp hmem).1
  unfold afterAll? diff
  rw [List.foldlM_map]
  show (declared.changes (some live) compare).foldlM after? live = _
  rw [changes_some]
  simp only [List.foldlM_append, Option.bind_eq_bind]
  rw [apply_droppedColumns hc, Option.bind_some,
    apply_alteredColumns hc (columns_withColumns live _), Option.bind_some,
    withColumns_withColumns, apply_addedColumns hd.columns_nodup hkept, Option.bind_some,
    withColumns_withColumns, apply_droppedIndexes hi (indexes_withColumns live _),
    Option.bind_some, apply_addedIndexes hd.indexes_nodup hkept']
  rfl

/-! ## Nothing is left to do -/

theorem mem_map_aligned_columns {h : String} :
    h ∈ (declared.aligned live compare).columns.map ColumnDescription.handle ↔
      h ∈ declared.columns.map ColumnDescription.handle := by
  show h ∈ ((declared.keptColumns live).map (declared.settleColumn live compare) ++
    declared.columnsBeyond live).map ColumnDescription.handle ↔ _
  rw [List.map_append, map_handle_settleColumn, List.mem_append, mem_map_keptColumns,
    columnsBeyond, Keyed.mem_map_beyond]
  tauto

theorem mem_map_aligned_indexes {h : String} :
    h ∈ (declared.aligned live compare).indexes.map IndexDescription.handle ↔
      h ∈ declared.indexes.map IndexDescription.handle := by
  show h ∈ (declared.keptIndexes live ++
    declared.indexesBeyond live).map IndexDescription.handle ↔ _
  rw [List.map_append, List.mem_append, mem_map_keptIndexes, indexesBeyond, Keyed.mem_map_beyond]
  tauto

/-- A column of the declaration is found under its handle. -/
theorem column?_of_mem (hd : (declared.columns.map ColumnDescription.handle).Nodup)
    {c : ColumnDescription} (hc : c ∈ declared.columns) : declared.column? c.handle = some c :=
  (Keyed.find?_eq_some_iff hd).mpr ⟨hc, rfl⟩

/-- A column that was brought in line is declared as it is, or is a live column that converts. -/
theorem mem_aligned_columns (hd : (declared.columns.map ColumnDescription.handle).Nodup)
    {c : ColumnDescription} (hc : c ∈ (declared.aligned live compare).columns) :
    declared.column? c.handle = some c ∨ c ∈ live.columns ∧ ∀ wanted,
      declared.column? c.handle = some wanted →
        (compare wanted.column.type c.column.type).castable = true := by
  rcases List.mem_append.mp hc with hc | hc
  · obtain ⟨c', hc', rfl⟩ := List.mem_map.mp hc
    have hlive : c' ∈ live.columns := (List.mem_filter.mp hc').1
    unfold settleColumn Keyed.replacement
    cases hfind : ((declared.retyped live compare).map Prod.fst).find?
        fun w => w.handle == c'.handle with
    | some w =>
      -- the declaration of a retyped column stands in its place
      left
      obtain ⟨p, hp, rfl⟩ := List.mem_map.mp (List.mem_of_find?_eq_some hfind)
      exact column?_of_mem hd (List.mem_of_find?_eq_some (mem_retyped.mp hp).2.1)
    | none =>
      right
      refine ⟨hlive, fun wanted hw => ?_⟩
      by_contra hcast
      have hmem : (wanted, c') ∈ declared.retyped live compare :=
        mem_retyped.mpr ⟨hlive, hw, by simpa using hcast⟩
      refine Keyed.find?_eq_none_iff.mp hfind (List.mem_map.mpr ⟨wanted, ?_, ?_⟩)
      · exact List.mem_map.mpr ⟨_, hmem, rfl⟩
      · exact handle_of_mem_retyped hmem
  · exact Or.inl (column?_of_mem hd (Keyed.mem_beyond.mp hc).1)

/-- Nothing changes once a description was brought in line. -/
theorem diff_aligned (hd : (declared.columns.map ColumnDescription.handle).Nodup)
    (hcompare : ∀ type, (compare type type).castable = true) :
    declared.diff (some (declared.aligned live compare)) compare = [] := by
  refine List.map_eq_nil_iff.mpr (changes_eq_nil_iff.mpr
    ⟨fun h => mem_map_aligned_columns.symm, fun h => mem_map_aligned_indexes.symm,
      fun c hc wanted hw => ?_⟩)
  rcases mem_aligned_columns hd hc with hself | ⟨-, hcast⟩
  · rw [hself] at hw
    cases hw
    exact hcompare _
  · exact hcast wanted hw

/-- **A diff is exact and brings a description in line.** It is empty iff both sides have the same
handles and every shared column converts to its declared type. Its operations can be carried out in
their order, and a diff of what they leave is empty. -/
theorem diff_exact_and_converges {s : CollectionSchema} {locales : List String}
    (hs : ofSchema s locales = .ok declared)
    (hc : (live.columns.map ColumnDescription.handle).Nodup)
    (hi : (live.indexes.map IndexDescription.handle).Nodup)
    (hcompare : ∀ type, (compare type type).castable = true) :
    (declared.diff (some live) compare = [] ↔
      (∀ h, h ∈ declared.columns.map ColumnDescription.handle ↔
        h ∈ live.columns.map ColumnDescription.handle) ∧
      (∀ h, h ∈ declared.indexes.map IndexDescription.handle ↔
        h ∈ live.indexes.map IndexDescription.handle) ∧
      ∀ wanted ∈ declared.columns, ∀ c ∈ live.columns, wanted.handle = c.handle →
        (compare wanted.column.type c.column.type).castable = true) ∧
    ∃ d, live.afterAll? (declared.diff (some live) compare) = some d ∧
      declared.diff (some d) compare = [] := by
  have hd := wellFormed_of_ofSchema hs
  refine ⟨?_, declared.aligned live compare, afterAll?_diff hd hc hi,
    diff_aligned hd.columns_nodup hcompare⟩
  have hshared : (∀ c ∈ live.columns, ∀ wanted, declared.column? c.handle = some wanted →
        (compare wanted.column.type c.column.type).castable = true) ↔
      ∀ wanted ∈ declared.columns, ∀ c ∈ live.columns, wanted.handle = c.handle →
        (compare wanted.column.type c.column.type).castable = true := by
    constructor
    · intro h wanted hw c hc e
      exact h c hc wanted ((Keyed.find?_eq_some_iff hd.columns_nodup).mpr ⟨hw, e⟩)
    · intro h c hc wanted hw
      obtain ⟨hw, e⟩ := (Keyed.find?_eq_some_iff hd.columns_nodup).mp hw
      exact h wanted hw c hc e
  rw [diff, List.map_eq_nil_iff, changes_eq_nil_iff, hshared]

/-- The older posts need changes, and the changes bring them in line. -/
theorem diff_of_posts_converges :
    Posts.declared.diff (some Posts.found) ColumnType.compareTypes ≠ [] ∧
      ∃ d, Posts.found.afterAll? (Posts.declared.diff (some Posts.found) ColumnType.compareTypes) =
          some d ∧ Posts.declared.diff (some d) ColumnType.compareTypes = [] :=
  ⟨by decide, (diff_exact_and_converges Posts.ofSchema_schema (by decide) (by decide)
    fun type => by rw [ColumnType.compareTypes_self]; rfl).2⟩

end SchemaMigration.Description
