import SchemaMigration.Proofs.Description.Lossless
import SchemaMigration.Proofs.Description.Spreading
import SchemaMigration.Proofs.Query.Completeness
import SchemaMigration.Proofs.Statement.IndexNames

/-!
# What is declared can be created

The checks of an expansion imply those that the builder of a creation makes: every column and index
is well formed under its physical name, no name occurs twice, and indexes cover columns that are
there. So an accepted declaration can be created, and its creation compiles unless there is no
column or SQLite cannot count a column up.

About `from_schema` and `to_create`, and what `compile_create` makes of them.

* `Identifier.misuse?_localize`, `Index.misuse?_inLocale`: a name stays an identifier in a locale,
  and so an index over localized fields stays well formed.
* `misuse?_columns`, `misuse?_indexes`: the columns and indexes of an expansion are well formed.
* `toCreate_eq_creation`: so the expansion can be created.
* `CreateCollection.Made.exists_compile_iff`: when a creation compiles, told by its columns and
  indexes.
* **`toCreate_ofSchema`**: an accepted declaration can be created as it was expanded, and this is
  when the creation compiles.
-/

namespace SchemaMigration

/-! ## Names in a locale -/

theorem Locale.isRest_of_isSmall {c : Char} (h : isSmall c = true) :
    Identifier.isRest c = true := by
  have hlower : c.isLower = true := by
    simpa [isSmall, Char.isLower, Char.le_def] using h
  simp [Identifier.isRest, Char.isAlphanum, Char.isAlpha, hlower]

theorem Locale.isRest_of_isCapital {c : Char} (h : isCapital c = true) :
    Identifier.isRest c = true := by
  have hupper : c.isUpper = true := by
    simpa [isCapital, Char.isUpper, Char.le_def] using h
  simp [Identifier.isRest, Char.isAlphanum, Char.isAlpha, hupper]

/-- A locale code may stand inside an identifier. -/
theorem Locale.isRest_of_isCode {code : List Char} (h : isCode code = true) :
    ∀ c ∈ code, Identifier.isRest c = true := by
  unfold isCode at h
  split at h
  · simp only [Bool.and_eq_true] at h
    simp [isRest_of_isSmall h.1, isRest_of_isSmall h.2]
  · simp only [Bool.and_eq_true] at h
    obtain ⟨⟨⟨ha, hb⟩, hc⟩, hd⟩ := h
    have hhyphen : Identifier.isRest '-' = true := rfl
    simp [isRest_of_isSmall ha, isRest_of_isSmall hb, isRest_of_isCapital hc,
      isRest_of_isCapital hd, hhyphen]
  · cases h

/-- An identifier is one in every locale. -/
theorem Identifier.misuse?_localize {name code : String} (h : misuse? name = none)
    (hcode : Locale.isValid code = true) : misuse? (Locale.localize name code) = none := by
  rw [misuse?_eq_none_iff] at h ⊢
  rw [Locale.toList_localize]
  cases hname : name.toList with
  | nil =>
    rw [hname] at h
    exact h.elim
  | cons c r =>
    rw [hname] at h
    refine ⟨h.1, List.forall_mem_append.mpr ⟨h.2, ?_⟩⟩
    simpa [isRest] using Locale.isRest_of_isCode hcode

theorem Locale.localize_ne_primaryName (name code : String) :
    localize name code ≠ primaryName := by
  intro h
  have hmem : '_' ∈ (localize name code).toList := by simp [toList_localize]
  rw [h] at hmem
  exact absurd hmem (by decide)

namespace Index

/-- A secondary index stays well formed in a locale. -/
theorem misuse?_inLocale {i : Index} (h : i.misuse? = none) (hkind : i.isPrimary = false)
    {code : String} (hcode : Locale.isValid code = true) : (i.inLocale code).misuse? = none := by
  obtain ⟨hname, -, hcolumns, hfields⟩ := misuse?_eq_none_iff.mp h
  refine misuse?_eq_none_iff.mpr ⟨Identifier.misuse?_localize hname hcode, ?_, ?_, ?_⟩
  · exact hkind.trans (decide_eq_false (Locale.localize_ne_primaryName i.name code)).symm
  · simpa [inLocale] using hcolumns
  · rw [fields_inLocale, List.forall_mem_map]
    exact fun f hf => Identifier.misuse?_localize (hfields f hf) hcode

end Index

/-! ## Creations that compile -/

namespace CreateCollection

variable {q : CreateCollection} {d : Dialect}

/-- The primary index is the only one of its kind. -/
theorem Made.primaryIndex?_eq_some_iff (h : q.Made) {i : Index} :
    q.primaryIndex? = some i ↔ i ∈ q.indexes ∧ i.isPrimary = true := by
  obtain ⟨-, hindexes, hconsistent⟩ := rebuild_eq_ok_iff.mp h.rebuild
  constructor
  · intro hfind
    exact ⟨List.mem_of_find?_eq_some hfind, List.find?_some hfind⟩
  · rintro ⟨hi, hprimary⟩
    obtain ⟨j, hfind⟩ := Option.isSome_iff_exists.mp (List.find?_isSome.mpr ⟨i, hi, hprimary⟩)
    have hj := List.mem_of_find?_eq_some hfind
    have hname := Index.name_eq_of_isPrimary (hindexes j hj) (List.find?_some hfind)
    have hsame : j = i := List.inj_on_of_nodup_map hconsistent.indexes_nodup hj hi
      (hname.trans (Index.name_eq_of_isPrimary (hindexes i hi) hprimary).symm)
    rw [primaryIndex?, hfind, hsame]

/-- Every column that counts up is the only column of the primary index. -/
def CountsInKey (columns : List Column) (indexes : List Index) : Prop :=
  ∀ c ∈ columns, c.autoIncrement = true → ∃ i ∈ indexes, i.isPrimary = true ∧ i.fields = [c.name]

theorem Made.not_countsOutsideKey_iff (h : q.Made) :
    ¬q.CountsOutsideKey ↔ CountsInKey q.columns q.indexes := by
  unfold CountsOutsideKey CountsInKey
  simp only [not_exists, not_and, not_not, Option.map_eq_some_iff, h.primaryIndex?_eq_some_iff,
    and_assoc]

/-- **When a creation compiles**: it has a column, and on SQLite every column that counts up is the
only column of the primary index. -/
theorem Made.exists_compile_iff (h : q.Made) (vars : Variables) :
    (∃ cq, (Query.createCollection q).compile d vars = .ok cq) ↔
      q.columns ≠ [] ∧ (d = .sqlite → CountsInKey q.columns q.indexes) := by
  have hmade : (Query.createCollection q).Made := h
  cases hcolumns : q.columns with
  | nil =>
    have hmissing : (Query.createCollection q).missing? =
        some (.createWithoutColumns q.collection.identity) := by
      rw [Query.missing?, hcolumns]
      rfl
    rw [hmade.compile_of_missing hmissing]
    simp
  | cons c r =>
    have hmissing : (Query.createCollection q).missing? = none := by
      rw [Query.missing?, hcolumns]
      rfl
    have hlimited : Limited d (d = .sqlite ∧ q.CountsOutsideKey)
        ((Query.createCollection q).compile d vars) :=
      hmade.limited (List.forall_mem_nil _) hmissing
    rw [hlimited.exists_ok_iff, not_and, h.not_countsOutsideKey_iff, hcolumns]
    simp

end CreateCollection

/-! ## Expansions -/

namespace Description

variable {s : CollectionSchema} {locales : List String} {d : Description}

theorem misuse?_columns (h : ofSchema s locales = .ok d) :
    ∀ c ∈ d.columns, c.column.misuse? = none := by
  intro c hc
  obtain ⟨f, -, cs, hcs, hmem⟩ := mem_of_concatMapM (ofSchema_ok h).2.2.1 hc
  exact Column.check_eq_ok_iff.mp (FieldDefinition.mem_expand hcs hmem).2.1

theorem misuse?_indexes (h : ofSchema s locales = .ok d) :
    ∀ i ∈ d.indexes, i.index.misuse? = none := by
  intro j hj
  rw [indexes_ofSchema h] at hj
  obtain ⟨i, hi, slot, hslot, hdescribe⟩ := Spreading.mem_members.mp hj
  obtain rfl : i.describe slot = j := Option.some.inj hdescribe
  obtain ⟨is, his, -⟩ := ok_of_concatMapM (ofSchema_ok h).2.2.2.1 hi
  have hmisuse := Index.check_eq_ok_iff.mp (Index.expand_ok his).1
  cases slot with
  | none => exact hmisuse
  | some code =>
    obtain ⟨hlocalized, hcode⟩ := Spreading.some_mem_slots.mp hslot
    have hkind := Index.not_primary_of_localized his (List.all_eq_true.mp hlocalized)
    exact Index.misuse?_inLocale hmisuse (decide_eq_false hkind)
      (isValid_of_checkAll (ofSchema_ok h).1 code hcode)

/-- The creation of a description, in one piece. -/
def creation (d : Description) : CreateCollection :=
  ⟨d.collection, d.toLive.columns, d.toLive.indexes⟩

/-- **Every check of the builder** is one that the expansion has passed. -/
theorem toCreate_eq_creation (h : ofSchema s locales = .ok d) : d.toCreate = .ok d.creation := by
  have hd := wellFormed_of_ofSchema h
  have hcolumns : d.toLive.columns.map Column.name = d.columns.map ColumnDescription.handle :=
    names_toLive h
  have hindexes : d.toLive.indexes.map Index.name = d.indexes.map IndexDescription.handle := by
    rw [toLive, List.map_map]
    exact List.map_congr_left hd.index_name
  show d.creation.rebuild = .ok d.creation
  refine CreateCollection.rebuild_eq_ok_iff.mpr ⟨?_, ?_, ?_, ?_, ?_⟩
  · exact List.forall_mem_map.mpr (misuse?_columns h)
  · exact List.forall_mem_map.mpr (misuse?_indexes h)
  · exact hcolumns.symm ▸ hd.columns_nodup
  · exact hindexes.symm ▸ hd.indexes_nodup
  · refine List.forall_mem_map.mpr fun i hi f hf => ?_
    rw [show d.creation.columns = d.toLive.columns from rfl, hcolumns]
    exact hd.covered i hi f hf

/-- **An accepted declaration can be created.** Its creation has the columns and indexes of the
expansion, in their order. It compiles on PostgreSQL iff there is a column, and on SQLite iff
moreover every column that counts up is the only column of the primary index. -/
theorem toCreate_ofSchema (h : ofSchema s locales = .ok d) :
    ∃ q, d.toCreate = .ok q ∧ q.collection = d.collection ∧
      q.columns = d.columns.map ColumnDescription.column ∧
      q.indexes = d.indexes.map IndexDescription.index ∧
      ∀ vars,
        ((∃ cq, (Query.createCollection q).compile .postgres vars = .ok cq) ↔ d.columns ≠ []) ∧
        ((∃ cq, (Query.createCollection q).compile .sqlite vars = .ok cq) ↔
          d.columns ≠ [] ∧ ∀ c ∈ d.columns, c.column.autoIncrement = true →
            ∃ i ∈ d.indexes, i.index.isPrimary = true ∧ i.index.fields = [c.handle]) := by
  have hcreate := toCreate_eq_creation h
  have hmade : d.creation.Made := CreateCollection.made_iff_rebuild.mpr hcreate
  have hsome : d.creation.columns ≠ [] ↔ d.columns ≠ [] := not_congr List.map_eq_nil_iff
  have hcounts : CreateCollection.CountsInKey d.creation.columns d.creation.indexes ↔
      ∀ c ∈ d.columns, c.column.autoIncrement = true →
        ∃ i ∈ d.indexes, i.index.isPrimary = true ∧ i.index.fields = [c.handle] := by
    have hname := (wellFormed_of_ofSchema h).column_name
    refine List.forall_mem_map.trans (forall₂_congr fun c hc => ?_)
    rw [hname c hc]
    simp only [creation, toLive, List.mem_map, exists_exists_and_eq_and]
  refine ⟨d.creation, hcreate, rfl, rfl, rfl, fun vars => ⟨?_, ?_⟩⟩
  · rw [hmade.exists_compile_iff, hsome]
    simp
  · rw [hmade.exists_compile_iff, hsome, hcounts]
    simp

end Description

/-! ## An example -/

namespace Posts

/-- Posts with a number in the primary index, and with another one outside of it. -/
def twiceNumbered : CollectionSchema :=
  ⟨collection,
    [(FieldDefinition.column "id" .int64).counting,
      (FieldDefinition.column "serial" .int32).counting,
      (FieldDefinition.column "title" .text).asLocalized],
    [⟨primaryName, .primary, Index.ascending ["id"]⟩,
      ⟨"titles", .unique, Index.ascending ["title"]⟩]⟩

/-- The expansion of these posts in English. -/
def twiceNumberedDeclared : Description :=
  ⟨collection,
    [⟨"id", "id", none, ⟨"id", .int64, none, none, true⟩⟩,
      ⟨"serial", "serial", none, ⟨"serial", .int32, none, none, true⟩⟩,
      ⟨"title__en", "title", some "en", .plain "title__en" .text⟩],
    [⟨primaryName, primaryName, none, ⟨primaryName, .primary, Index.ascending ["id"]⟩⟩,
      ⟨"titles__en", "titles", some "en", ⟨"titles__en", .unique, Index.ascending ["title__en"]⟩⟩]⟩

theorem ofSchema_twiceNumbered :
    Description.ofSchema twiceNumbered ["en"] = .ok twiceNumberedDeclared := by
  rfl

end Posts

/-- Posts without numbers are created everywhere, and twice numbered ones on PostgreSQL only. -/
theorem Description.toCreate_of_posts :
    (∃ q, Posts.declared.toCreate = .ok q ∧
      ∃ cq, (Query.createCollection q).compile .sqlite [] = .ok cq) ∧
    ∃ q, Posts.twiceNumberedDeclared.toCreate = .ok q ∧
      (∃ cq, (Query.createCollection q).compile .postgres [] = .ok cq) ∧
      ¬∃ cq, (Query.createCollection q).compile .sqlite [] = .ok cq := by
  obtain ⟨q, hq, -, -, -, hcompile⟩ := Description.toCreate_ofSchema Posts.ofSchema_schema
  obtain ⟨q', hq', -, -, -, hcompile'⟩ := Description.toCreate_ofSchema Posts.ofSchema_twiceNumbered
  refine ⟨⟨q, hq, (hcompile []).2.mpr ⟨by decide, by decide⟩⟩,
    q', hq', (hcompile' []).1.mpr (by decide), fun hsqlite => ?_⟩
  exact absurd ((hcompile' []).2.mp hsqlite).2 (by decide)

end SchemaMigration
