import SchemaMigration.Diff
import SchemaMigration.Proofs.Keyed

/-!
# The changes of a diff

A diff of two descriptions consists of five lists of changes, which are told here by what is missing
on either side.

* `changes_some`: drops of the live columns beyond the declared ones, alterations of the retyped
  ones, additions of the declared columns beyond the live ones, and drops and additions of indexes
  in the same way.
* `mem_retyped`: which columns are retyped.
* `added_changes`, `altered_changes` and the lemmas beside them: the changes of one kind.
* **`changes_eq_nil_iff`**: nothing changes iff both sides have the same handles and every shared
  column converts.
-/

namespace SchemaMigration

/-! ## Changes of one kind -/

namespace Change

/-- The added column, with the columns that it may be filled from. -/
def addedColumn? : Change → Option (ColumnDescription × List String)
  | .addColumn column candidates => some (column, candidates)
  | _ => none

/-- The altered column, behind its declaration. -/
def alteredColumn? : Change → Option (ColumnDescription × ColumnDescription)
  | .alterColumn declared live => some (declared, live)
  | _ => none

/-- The dropped column. -/
def droppedColumn? : Change → Option ColumnDescription
  | .dropColumn column => some column
  | _ => none

/-- The added index. -/
def addedIndex? : Change → Option IndexDescription
  | .addIndex index => some index
  | _ => none

/-- The dropped index. -/
def droppedIndex? : Change → Option IndexDescription
  | .dropIndex index => some index
  | _ => none

end Change

namespace Description

/-! ## The five lists -/

variable {declared live : Description} {compare : ColumnType → ColumnType → Compatibility}

/-- The columns whose handles another description lacks. -/
def columnsBeyond (d other : Description) : List ColumnDescription :=
  Keyed.beyond ColumnDescription.handle d.columns other.columns

/-- The indexes whose handles another description lacks. -/
def indexesBeyond (d other : Description) : List IndexDescription :=
  Keyed.beyond IndexDescription.handle d.indexes other.indexes

/-- The live columns that do not convert to their declared types, each behind its declaration. -/
def retyped (declared live : Description) (compare : ColumnType → ColumnType → Compatibility) :
    List (ColumnDescription × ColumnDescription) :=
  live.columns.filterMap fun c =>
    (declared.column? c.handle).bind fun wanted =>
      if (compare wanted.column.type c.column.type).castable then none else some (wanted, c)

theorem mem_retyped {wanted c : ColumnDescription} :
    (wanted, c) ∈ declared.retyped live compare ↔
      c ∈ live.columns ∧ declared.column? c.handle = some wanted ∧
        (compare wanted.column.type c.column.type).castable = false := by
  simp only [retyped, List.mem_filterMap, Option.bind_eq_some_iff]
  constructor
  · rintro ⟨c', hc', wanted', hw', h⟩
    split at h
    · cases h
    · rename_i hcast
      cases h
      exact ⟨hc', hw', by simpa using hcast⟩
  · rintro ⟨hc, hw, hcast⟩
    exact ⟨c, hc, wanted, hw, by rw [hcast]; rfl⟩

/-- A retyped column has the handle of its declaration. -/
theorem handle_of_mem_retyped {p : ColumnDescription × ColumnDescription}
    (h : p ∈ declared.retyped live compare) : p.1.handle = p.2.handle := by
  have := List.find?_some (mem_retyped.mp h).2.1
  simpa using this

theorem alteredColumns_eq :
    declared.alteredColumns live compare =
      (declared.retyped live compare).map fun p => .alterColumn p.1 p.2 := by
  rw [alteredColumns, retyped, List.map_filterMap]
  refine List.filterMap_congr fun c _ => ?_
  cases declared.column? c.handle with
  | none => rfl
  | some wanted =>
    cases h : (compare wanted.column.type c.column.type).castable <;> simp [h]

/-- The changes between a declaration and a live collection that is there. -/
theorem changes_some :
    declared.changes (some live) compare =
      (live.columnsBeyond declared).map Change.dropColumn ++
        (declared.retyped live compare).map (fun p => Change.alterColumn p.1 p.2) ++
        (declared.columnsBeyond live).map (fun c => Change.addColumn c (copyCandidates c live)) ++
        (live.indexesBeyond declared).map Change.dropIndex ++
        (declared.indexesBeyond live).map Change.addIndex := by
  rw [← alteredColumns_eq]
  rfl

/-- What is picked from the changes is picked from the five lists. -/
theorem filterMap_changes {β : Type} (f : Change → Option β) :
    (declared.changes (some live) compare).filterMap f =
      (live.columnsBeyond declared).filterMap (fun c => f (.dropColumn c)) ++
        (declared.retyped live compare).filterMap (fun p => f (.alterColumn p.1 p.2)) ++
        (declared.columnsBeyond live).filterMap
          (fun c => f (.addColumn c (copyCandidates c live))) ++
        (live.indexesBeyond declared).filterMap (fun i => f (.dropIndex i)) ++
        (declared.indexesBeyond live).filterMap (fun i => f (.addIndex i)) := by
  simp only [changes_some, List.filterMap_append, List.filterMap_map, Function.comp_def]

theorem added_changes :
    (declared.changes (some live) compare).filterMap Change.addedColumn? =
      (declared.columnsBeyond live).map fun c => (c, copyCandidates c live) := by
  simp [filterMap_changes, Change.addedColumn?]

theorem altered_changes :
    (declared.changes (some live) compare).filterMap Change.alteredColumn? =
      declared.retyped live compare := by
  simp [filterMap_changes, Change.alteredColumn?]

theorem dropped_changes :
    (declared.changes (some live) compare).filterMap Change.droppedColumn? =
      live.columnsBeyond declared := by
  simp [filterMap_changes, Change.droppedColumn?]

theorem addedIndex_changes :
    (declared.changes (some live) compare).filterMap Change.addedIndex? =
      declared.indexesBeyond live := by
  simp [filterMap_changes, Change.addedIndex?]

theorem droppedIndex_changes :
    (declared.changes (some live) compare).filterMap Change.droppedIndex? =
      live.indexesBeyond declared := by
  simp [filterMap_changes, Change.droppedIndex?]

theorem retyped_eq_nil_iff :
    declared.retyped live compare = [] ↔
      ∀ c ∈ live.columns, ∀ wanted, declared.column? c.handle = some wanted →
        (compare wanted.column.type c.column.type).castable = true := by
  constructor
  · intro h c hc wanted hw
    by_contra hcast
    have hmem : (wanted, c) ∈ declared.retyped live compare :=
      mem_retyped.mpr ⟨hc, hw, by simpa using hcast⟩
    rw [h] at hmem
    exact List.not_mem_nil hmem
  · intro h
    refine List.eq_nil_iff_forall_not_mem.mpr fun p hp => ?_
    obtain ⟨hc, hw, hcast⟩ := mem_retyped.mp hp
    rw [h p.2 hc p.1 hw] at hcast
    exact Bool.false_ne_true hcast.symm

/-- **Nothing changes** iff both sides have the same column handles and the same index handles, and
the live columns convert to the declared types. -/
theorem changes_eq_nil_iff :
    declared.changes (some live) compare = [] ↔
      (∀ h, h ∈ declared.columns.map ColumnDescription.handle ↔
        h ∈ live.columns.map ColumnDescription.handle) ∧
      (∀ h, h ∈ declared.indexes.map IndexDescription.handle ↔
        h ∈ live.indexes.map IndexDescription.handle) ∧
      ∀ c ∈ live.columns, ∀ wanted, declared.column? c.handle = some wanted →
        (compare wanted.column.type c.column.type).castable = true := by
  simp only [changes_some, List.append_eq_nil_iff, List.map_eq_nil_iff, retyped_eq_nil_iff,
    columnsBeyond, indexesBeyond, Keyed.beyond_eq_nil_iff]
  constructor
  · rintro ⟨⟨⟨⟨hdrop, hcast⟩, hadd⟩, hdrop'⟩, hadd'⟩
    exact ⟨fun h => ⟨hadd h, hdrop h⟩, fun h => ⟨hadd' h, hdrop' h⟩, hcast⟩
  · rintro ⟨hcolumns, hindexes, hcast⟩
    exact ⟨⟨⟨⟨fun h => (hcolumns h).mpr, hcast⟩, fun h => (hcolumns h).mp⟩,
      fun h => (hindexes h).mpr⟩, fun h => (hindexes h).mp⟩

end Description

end SchemaMigration
