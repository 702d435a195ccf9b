import SchemaMigration.Proofs.Description.Recognition
import SchemaMigration.Proofs.Diff.Changes

/-!
# A diff does not depend on what is taken for localized

A live collection is described for a list of locales. A column or an index that is taken for a
localized one is marked with its base and its locale, and the marks depend on the list. A diff shows
them in what it drops and alters, and goes by them nowhere else.

About `diff_collection` and `copy_candidates`, on what `from_live` makes.

* `Change.unmarked`, `DiffOperation.unmarked`: a change without the marks of what is live in it.
* `ColumnDescription.Spelled`: the mark of a column is spelled in its handle, as it is in every live
  description.
* `isSibling_unmarked`, `copyCandidates_unmarked`: such marks make no candidate that the handle
  alone does not make.
* `changes_unmarked`: the changes without marks are those of the description without marks.
* **`diff_ofLive_unmarked`**: for any two lists of locales the diffs are equal but for the marks.
-/

namespace SchemaMigration

/-! ## Without marks -/

/-- The column with its own handle for a base. -/
def ColumnDescription.unmarked (c : ColumnDescription) : ColumnDescription :=
  { c with base := c.handle, locale := none }

/-- The index with its own handle for a base. -/
def IndexDescription.unmarked (i : IndexDescription) : IndexDescription :=
  { i with base := i.handle, locale := none }

/-- The change without the marks of a live column or index. What is declared keeps its marks. -/
def Change.unmarked : Change → Change
  | .dropColumn column => .dropColumn column.unmarked
  | .alterColumn declared live => .alterColumn declared live.unmarked
  | .dropIndex index => .dropIndex index.unmarked
  | .addCollection => .addCollection
  | .addColumn column candidates => .addColumn column candidates
  | .addIndex index => .addIndex index

/-- The operation without the marks of a live column or index. -/
def DiffOperation.unmarked (op : DiffOperation) : DiffOperation :=
  { op with change := op.change.unmarked }

/-- The description without marks. -/
def Description.unmarked (d : Description) : Description :=
  ⟨d.collection, d.columns.map ColumnDescription.unmarked, d.indexes.map IndexDescription.unmarked⟩

/-- Without marks, a live description is the same for all locales. -/
theorem Description.unmarked_ofLive (live : LiveCollection) (locales : List String) :
    (ofLive live locales).unmarked =
      ⟨live.collection, live.columns.map fun c => ⟨c.name, c.name, none, c⟩,
        live.indexes.map fun i => ⟨i.name, i.name, none, i⟩⟩ := by
  unfold unmarked ofLive
  rw [List.map_map, List.map_map]
  rfl

/-! ## Spelled marks -/

/-- The base of the column is its handle, or what its handle is cut into. -/
def ColumnDescription.Spelled (c : ColumnDescription) : Prop :=
  c.base = c.handle ∨ ∃ code, Locale.splitLocalized? c.handle = some (c.base, code)

theorem spelled_groupOf (groups : List String) (handle : String) :
    (groupOf groups handle).1 = handle ∨
      ∃ code, Locale.splitLocalized? handle = some ((groupOf groups handle).1, code) := by
  cases hcut : Locale.splitLocalized? handle with
  | none =>
    rw [groupOf_of_not_mem (by simp [hcut])]
    exact Or.inl rfl
  | some cut =>
    obtain ⟨base, code⟩ := cut
    by_cases hmem : base ∈ groups
    · rw [groupOf_of_mem hcut hmem]
      exact Or.inr ⟨code, rfl⟩
    · rw [groupOf_of_not_mem (by simp [hcut, hmem])]
      exact Or.inl rfl

namespace Description

theorem spelled_ofLive (live : LiveCollection) (locales : List String) :
    ∀ c ∈ (ofLive live locales).columns, c.Spelled := by
  intro c hc
  obtain ⟨column, -, rfl⟩ := List.mem_map.mp hc
  exact spelled_groupOf (live.columnGroups locales) column.name

/-- A spelled mark makes no sibling: the handle is the base or is cut into it all the same. -/
theorem isSibling_unmarked {c : ColumnDescription} (h : c.Spelled) (column : ColumnDescription) :
    isSibling column c.unmarked = isSibling column c := by
  unfold isSibling ColumnDescription.unmarked
  rcases h with h | ⟨code, h⟩
  · rw [h]
  · -- the base occurs once more, as what the handle is cut into
    simp only [h, Bool.or_self]
    cases c.base == column.base <;> cases c.handle == column.base <;> rfl

variable {declared live : Description} {compare : ColumnType → ColumnType → Compatibility}

theorem copyCandidates_unmarked (h : ∀ c ∈ live.columns, c.Spelled) (column : ColumnDescription) :
    copyCandidates column live.unmarked = copyCandidates column live := by
  unfold copyCandidates
  show ((live.columns.map ColumnDescription.unmarked).filter _).map _ = _
  rw [List.filter_map, List.map_map]
  refine congrArg (List.map ColumnDescription.handle) (List.filter_congr fun c hc => ?_)
  rw [Function.comp_apply, isSibling_unmarked (h c hc)]

theorem handles_unmarked (d : Description) :
    d.unmarked.columns.map ColumnDescription.handle = d.columns.map ColumnDescription.handle ∧
      d.unmarked.indexes.map IndexDescription.handle = d.indexes.map IndexDescription.handle := by
  unfold unmarked
  rw [List.map_map, List.map_map]
  exact ⟨rfl, rfl⟩

theorem retyped_unmarked : declared.retyped live.unmarked compare =
    (declared.retyped live compare).map fun p => (p.1, p.2.unmarked) := by
  unfold retyped
  show (live.columns.map ColumnDescription.unmarked).filterMap _ = _
  rw [List.filterMap_map, List.map_filterMap]
  refine List.filterMap_congr fun c _ => ?_
  have hhandle : c.unmarked.handle = c.handle := rfl
  rw [Function.comp_apply, hhandle]
  cases declared.column? c.handle with
  | none => rfl
  | some wanted =>
    rw [Option.bind_some, Option.bind_some]
    cases hcast : (compare wanted.column.type c.column.type).castable <;>
      simp [ColumnDescription.unmarked, hcast]

/-- **The changes without marks** are the changes for the description without marks, list by list:
marks are carried along by what is dropped and retyped, and whatever decides goes by handles. -/
theorem changes_unmarked (h : ∀ c ∈ live.columns, c.Spelled) :
    (declared.changes (some live) compare).map Change.unmarked =
      declared.changes (some live.unmarked) compare := by
  obtain ⟨hcolumns, hindexes⟩ := handles_unmarked live
  have hdropped : live.unmarked.columnsBeyond declared =
      (live.columnsBeyond declared).map ColumnDescription.unmarked :=
    Keyed.beyond_map (f := ColumnDescription.unmarked) (fun _ _ => rfl) _
  have hadded : declared.columnsBeyond live.unmarked = declared.columnsBeyond live :=
    Keyed.beyond_congr_right hcolumns _
  have hdropped' : live.unmarked.indexesBeyond declared =
      (live.indexesBeyond declared).map IndexDescription.unmarked :=
    Keyed.beyond_map (f := IndexDescription.unmarked) (fun _ _ => rfl) _
  have hadded' : declared.indexesBeyond live.unmarked = declared.indexesBeyond live :=
    Keyed.beyond_congr_right hindexes _
  have hcandidates : ∀ c, copyCandidates c live.unmarked = copyCandidates c live :=
    copyCandidates_unmarked h
  rw [changes_some, changes_some, hdropped, retyped_unmarked, hadded, hdropped', hadded']
  simp only [hcandidates, List.map_append, List.map_map, Function.comp_def, Change.unmarked]

/-- **A diff does not depend on what is taken for localized.** For any two lists of locales it has
the same operations in the same order, with the same handles, definitions and candidates; only the
marks of live columns and indexes inside of them may differ. -/
theorem diff_ofLive_unmarked (declared : Description) (live : LiveCollection)
    (locales₁ locales₂ : List String) (compare : ColumnType → ColumnType → Compatibility) :
    (declared.diff (some (ofLive live locales₁)) compare).map DiffOperation.unmarked =
      (declared.diff (some (ofLive live locales₂)) compare).map DiffOperation.unmarked := by
  have hunmarked : ∀ locales,
      (declared.diff (some (ofLive live locales)) compare).map DiffOperation.unmarked =
        declared.diff (some (ofLive live locales).unmarked) compare := by
    intro locales
    unfold diff
    rw [← changes_unmarked (spelled_ofLive live locales), List.map_map, List.map_map]
    rfl
  rw [hunmarked, hunmarked, unmarked_ofLive, unmarked_ofLive]

/-- The marks do differ: a title that goes is marked as an English one where English is known. -/
example :
    let nothing : Description := ⟨Posts.collection, [], []⟩
    nothing.diff (some (ofLive Posts.live ["en"])) ColumnType.compareTypes ≠
      nothing.diff (some (ofLive Posts.live [])) ColumnType.compareTypes := by
  decide

end Description

end SchemaMigration
