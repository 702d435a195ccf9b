import SchemaMigration.Proofs.Description.Spreading
import SchemaMigration.Proofs.Diff.Marks

/-!
# Another list of locales

A declaration is expanded for one list of locales, created, and later compared with its expansion
for another list. What differs are the columns and indexes of localized fields for the codes that
only one of the lists has; everything else is the same on both sides, in definition too.

About `diff_collection`, on what `from_schema` and `from_live` make.

* `columns_ofLive_toLive`, `indexes_ofLive_toLive`: an expansion that is read back is the expansion,
  marked as it is recognized.
* `columnsBeyond_expanded`, `indexesBeyond_expanded`: what one expansion has beyond the other one.
* `retyped_expanded`: a column that both expansions have is the same one, so it is not retyped.
* **`diff_relocalized`**: the operations between the two expansions, one by one.
-/

namespace SchemaMigration

/-- The columns of the localized fields for some codes; relations have none. -/
def CollectionSchema.localizedColumns (s : CollectionSchema) (codes : List String) :
    List ColumnDescription :=
  s.fields.flatMap fun f =>
    if f.localized then codes.filterMap fun code => f.column? (some code) else []

/-- The indexes over localized fields for some codes. -/
def CollectionSchema.localizedIndexes (s : CollectionSchema) (codes : List String) :
    List IndexDescription :=
  s.indexes.flatMap fun i =>
    if i.isLocalized s then codes.map fun code => i.describe (some code) else []

theorem CollectionSchema.localizedColumns_nil (s : CollectionSchema) :
    s.localizedColumns [] = [] := by
  simp [localizedColumns]

theorem CollectionSchema.localizedIndexes_nil (s : CollectionSchema) :
    s.localizedIndexes [] = [] := by
  simp [localizedIndexes]

namespace Description

variable {s : CollectionSchema} {locales locales₁ locales₂ : List String}
  {d d₁ d₂ declared : Description} {compare : ColumnType → ColumnType → Compatibility}

/-! ## An expansion that is read back -/

/-- The columns are those of the expansion, described as live ones. -/
theorem columns_ofLive_toLive (d : Description) (found : List String) :
    (ofLive d.toLive found).columns =
      d.columns.map fun c => d.toLive.describeColumn found c.column := by
  unfold ofLive
  show (d.columns.map ColumnDescription.column).map _ = _
  rw [List.map_map]
  rfl

/-- The indexes are those of the expansion, described as live ones. -/
theorem indexes_ofLive_toLive (d : Description) (found : List String) :
    (ofLive d.toLive found).indexes =
      d.indexes.map fun i => d.toLive.describeIndex found i.index := by
  unfold ofLive
  show (d.indexes.map IndexDescription.index).map _ = _
  rw [List.map_map]
  rfl

theorem handle_describeColumn (hd : d.WellFormed) (found : List String) :
    ∀ c ∈ d.columns, (d.toLive.describeColumn found c.column).handle = c.handle :=
  hd.column_name

theorem handle_describeIndex (hd : d.WellFormed) (found : List String) :
    ∀ i ∈ d.indexes, (d.toLive.describeIndex found i.index).handle = i.handle :=
  hd.index_name

theorem handles_ofLive_toLive (hd : d.WellFormed) (found : List String) :
    (ofLive d.toLive found).columns.map ColumnDescription.handle =
        d.columns.map ColumnDescription.handle ∧
      (ofLive d.toLive found).indexes.map IndexDescription.handle =
        d.indexes.map IndexDescription.handle := by
  rw [columns_ofLive_toLive, indexes_ofLive_toLive, List.map_map, List.map_map]
  exact ⟨List.map_congr_left (handle_describeColumn hd found),
    List.map_congr_left (handle_describeIndex hd found)⟩

/-- What a well-formed description that is read back has beyond another one. -/
theorem beyond_ofLive_toLive (hd : d.WellFormed) (found : List String) (other : Description) :
    (ofLive d.toLive found).columnsBeyond other =
        (d.columnsBeyond other).map (fun c => d.toLive.describeColumn found c.column) ∧
      (ofLive d.toLive found).indexesBeyond other =
        (d.indexesBeyond other).map fun i => d.toLive.describeIndex found i.index := by
  unfold columnsBeyond indexesBeyond
  rw [columns_ofLive_toLive, indexes_ofLive_toLive]
  exact ⟨Keyed.beyond_map (handle_describeColumn hd found) _,
    Keyed.beyond_map (handle_describeIndex hd found) _⟩

/-- What another description has beyond one that is read back. -/
theorem beyond_of_ofLive_toLive (hd : d.WellFormed) (found : List String) (other : Description) :
    other.columnsBeyond (ofLive d.toLive found) = other.columnsBeyond d ∧
      other.indexesBeyond (ofLive d.toLive found) = other.indexesBeyond d := by
  obtain ⟨hcolumns, hindexes⟩ := handles_ofLive_toLive hd found
  exact ⟨Keyed.beyond_congr_right hcolumns _, Keyed.beyond_congr_right hindexes _⟩

/-! ## Two expansions -/

/-- The columns of one expansion beyond another one are those of the localized fields for the codes
that the other one lacks. -/
theorem columnsBeyond_expanded (h₁ : ofSchema s locales₁ = .ok d₁)
    (h₂ : ofSchema s locales₂ = .ok d₂) :
    d₁.columnsBeyond d₂ = s.localizedColumns (locales₁.filter fun code => code ∉ locales₂) := by
  unfold columnsBeyond
  rw [columns_ofSchema h₁, columns_ofSchema h₂]
  exact (distinct_columns h₁).beyond_members (distinct_columns h₂)

/-- The indexes of one expansion beyond another one are those over localized fields for the codes
that the other one lacks. -/
theorem indexesBeyond_expanded (h₁ : ofSchema s locales₁ = .ok d₁)
    (h₂ : ofSchema s locales₂ = .ok d₂) :
    d₁.indexesBeyond d₂ = s.localizedIndexes (locales₁.filter fun code => code ∉ locales₂) := by
  have hbeyond := (distinct_indexes h₁).beyond_members (distinct_indexes h₂)
  unfold indexesBeyond
  rw [indexes_ofSchema h₁, indexes_ofSchema h₂]
  refine hbeyond.trans (List.flatMap_congr fun i _ => ?_)
  exact congrArg (ite _ · _) (congrFun List.filterMap_eq_map _)

/-- Nothing that both expansions have is retyped: it is the same column. -/
theorem retyped_expanded (h₁ : ofSchema s locales₁ = .ok d₁) (h₂ : ofSchema s locales₂ = .ok d₂)
    (hcompare : ∀ type, (compare type type).castable = true) (found : List String) :
    d₂.retyped (ofLive d₁.toLive found) compare = [] := by
  rw [retyped_eq_nil_iff, columns_ofLive_toLive, List.forall_mem_map]
  intro c hc wanted hwanted
  rw [handle_describeColumn (wellFormed_of_ofSchema h₁) found c hc] at hwanted
  obtain ⟨hmem, hhandle⟩ :=
    (Keyed.find?_eq_some_iff (wellFormed_of_ofSchema h₂).columns_nodup).mp hwanted
  have hsame : wanted = c := by
    rw [columns_ofSchema h₂] at hmem
    rw [columns_ofSchema h₁] at hc
    exact (distinct_columns h₂).eq_of_handle (distinct_columns h₁) hmem hc hhandle
  rw [hsame]
  exact hcompare c.column.type

/-- **Another list of locales changes what it has to.** A declaration that is accepted for two lists
of locales is compared with its own expansion for the first list, read back in any way. Between them
are drops of the columns of the localized fields for every code that only the first list has,
additions of such columns for every code that only the second one has, the same for the indexes over
localized fields, and nothing else. So nothing changes if the locales come in another order. -/
theorem diff_relocalized (h₁ : ofSchema s locales₁ = .ok d₁) (h₂ : ofSchema s locales₂ = .ok d₂)
    (hcompare : ∀ type, (compare type type).castable = true) (found : List String) :
    d₂.diff (some (ofLive d₁.toLive found)) compare =
      ((s.localizedColumns (locales₁.filter fun code => code ∉ locales₂)).map
            (fun c => Change.dropColumn (d₁.toLive.describeColumn found c.column)) ++
          (s.localizedColumns (locales₂.filter fun code => code ∉ locales₁)).map
            (fun c => Change.addColumn c (copyCandidates c (ofLive d₁.toLive found))) ++
          (s.localizedIndexes (locales₁.filter fun code => code ∉ locales₂)).map
            (fun i => Change.dropIndex (d₁.toLive.describeIndex found i.index)) ++
          (s.localizedIndexes (locales₂.filter fun code => code ∉ locales₁)).map
            Change.addIndex).map (DiffOperation.mk d₂) ∧
      (locales₁.Perm locales₂ → d₂.diff (some (ofLive d₁.toLive found)) compare = []) := by
  have hd₁ := wellFormed_of_ofSchema h₁
  obtain ⟨hdropped, hdropped'⟩ := beyond_ofLive_toLive hd₁ found d₂
  obtain ⟨hadded, hadded'⟩ := beyond_of_ofLive_toLive hd₁ found d₂
  have hdiff : d₂.diff (some (ofLive d₁.toLive found)) compare = _ :=
    congrArg (List.map (DiffOperation.mk d₂)) changes_some
  rw [hdropped, hdropped', hadded, hadded', retyped_expanded h₁ h₂ hcompare,
    columnsBeyond_expanded h₁ h₂, columnsBeyond_expanded h₂ h₁, indexesBeyond_expanded h₁ h₂,
    indexesBeyond_expanded h₂ h₁, List.map_nil, List.append_nil, List.map_map, List.map_map]
    at hdiff
  refine ⟨hdiff, fun hperm => ?_⟩
  have hnone₁ : (locales₁.filter fun code => code ∉ locales₂) = [] := by
    simpa using fun code => hperm.mem_iff.mp
  have hnone₂ : (locales₂.filter fun code => code ∉ locales₁) = [] := by
    simpa using fun code => hperm.mem_iff.mpr
  refine hdiff.trans ?_
  rw [hnone₁, hnone₂, s.localizedColumns_nil, s.localizedIndexes_nil]
  rfl

end Description

/-! ## An example -/

namespace Posts

/-- The column of the titles in a language. -/
def title (code : String) : ColumnDescription :=
  ⟨Locale.localize "title" code, "title", some code, .plain (Locale.localize "title" code) .text⟩

/-- The index of the titles in a language. -/
def titles (code : String) : IndexDescription :=
  ⟨Locale.localize "titles" code, "titles", some code,
    ⟨Locale.localize "titles" code, .unique, Index.ascending [Locale.localize "title" code]⟩⟩

/-- Posts as they are declared in two languages. -/
def declaredIn (first second : String) : Description :=
  ⟨collection,
    [⟨"id", "id", none, .plain "id" .int64⟩, title first, title second,
      ⟨"views", "views", none, .plain "views" .int32⟩],
    [⟨primaryName, primaryName, none, ⟨primaryName, .primary, Index.ascending ["id"]⟩⟩,
      titles first, titles second,
      ⟨"ranking", "ranking", none, ⟨"ranking", .plain, Index.ascending ["views", "id"]⟩⟩]⟩

theorem ofSchema_abroad :
    Description.ofSchema schema ["fr", "de"] = .ok (declaredIn "fr" "de") := by
  rfl

theorem ofSchema_turned :
    Description.ofSchema schema ["fr", "en"] = .ok (declaredIn "fr" "en") := by
  rfl

/-- The changes that bring posts from English and French to French and German. -/
def changesAbroad : List Change :=
  [.dropColumn (title "en").unmarked, .addColumn (title "de") ["title__en", "title__fr"],
    .dropIndex (titles "en").unmarked, .addIndex (titles "de")]

end Posts

/-- English titles go, German ones come, and French ones stay. In French and English nothing
changes. -/
theorem Description.diff_of_posts_relocalized :
    (Posts.declaredIn "fr" "de").diff (some (.ofLive Posts.declared.toLive ["fr", "de"]))
        ColumnType.compareTypes =
      Posts.changesAbroad.map (DiffOperation.mk (Posts.declaredIn "fr" "de")) ∧
    (Posts.declaredIn "fr" "en").diff (some (.ofLive Posts.declared.toLive ["fr", "en"]))
      ColumnType.compareTypes = [] := by
  have hcompare : ∀ type, (ColumnType.compareTypes type type).castable = true := fun type => by
    rw [ColumnType.compareTypes_self]
    rfl
  exact ⟨(Description.diff_relocalized Posts.ofSchema_schema Posts.ofSchema_abroad hcompare _).1,
    (Description.diff_relocalized Posts.ofSchema_schema Posts.ofSchema_turned hcompare _).2
      (List.Perm.swap "fr" "en" [])⟩

end SchemaMigration
