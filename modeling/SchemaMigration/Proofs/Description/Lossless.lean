import SchemaMigration.Proofs.Description.Folding

/-!
# What folding keeps

A live collection is folded into a declaration, and the declaration is expanded again. What comes
back is the live collection exactly when the members of every group agree.

About `collapse`, on what `from_live` recognizes.

* `Uniform`: localized columns agree with the first of their base, localized indexes too, and plain
  indexes stay away from the bases of groups.
* `localizes_iff`: which fields of the folded declaration are localized.
* `localizes_foldedIndex`: a localized index that is folded covers localized fields only.
* `inLocale_foldedIndex`: when a localized index is the one of its locale again.
* **`collapse_lossless_iff`**: the columns and indexes of an accepted folding are the live ones iff
  the description is uniform.
-/

namespace SchemaMigration

/-- A declared index over localized fields is not the primary one. -/
theorem Index.not_primary_of_localized {i : Index} {s : CollectionSchema} {locales : List String}
    {is : List IndexDescription} (h : i.expand s locales = .ok is)
    (hall : ∀ name ∈ i.fields, s.localizes name = true) : i.kind ≠ .primary := by
  obtain ⟨⟨⟩, hcheck, h⟩ := bind_eq_ok_iff.mp h
  obtain ⟨localized, hloc, h⟩ := bind_eq_ok_iff.mp h
  obtain ⟨rfl, -⟩ := localizedFields_ok hloc
  rw [List.filter_eq_self.mpr hall] at h
  have hne : i.fields.isEmpty = false := by
    simpa [fields] using (Index.misuse?_names_of_check hcheck).2.1
  rw [hne] at h
  simp only [Bool.false_eq_true, if_false] at h
  split at h
  · cases h
  · split at h
    · cases h
    · rename_i hkind
      simpa [isPrimary] using hkind

namespace Description

variable {live : LiveCollection} {locales : List String} {s : CollectionSchema} {d : Description}

/-- Every member of a group is of a configured locale and agrees with the first member, which is
localized itself, and no plain index covers the base of a group. -/
structure Uniform (d : Description) (locales : List String) : Prop where
  /-- Localized columns agree. -/
  columns : d.UniformColumns locales
  /-- A localized index is of the kind of the first index of its base and covers the same fields in
  the same directions. -/
  indexes : ∀ i ∈ d.indexes, ∀ code ∈ i.locale, code ∈ locales ∧
    ∀ first ∈ d.indexes.find? (fun k => k.base == i.base),
      first.locale.isSome = true ∧ i.index.kind = first.index.kind ∧
        i.index.columns.map d.baseColumn = first.index.columns.map d.baseColumn
  /-- A plain index covers no base of a group. -/
  plain : ∀ i ∈ d.indexes, i.locale = none →
    ∀ c ∈ d.columns, c.isLocalized = true → c.base ∉ i.index.fields

/-- The indexes of an expansion are the declared ones over plain fields, and those over localized
fields for every locale. -/
theorem mem_indexes_expanded (hd : ofSchema s locales = .ok d) {x : Index} :
    x ∈ d.toLive.indexes ↔ ∃ j ∈ s.indexes,
      (∀ name ∈ j.fields, s.localizes name = false) ∧ x = j ∨
        (∀ name ∈ j.fields, s.localizes name = true) ∧ ∃ l ∈ locales, x = j.inLocale l := by
  have hindexes := (ofSchema_ok hd).2.2.2.1
  constructor
  · intro hx
    obtain ⟨e, he, rfl⟩ := List.mem_map.mp hx
    obtain ⟨j, hj, is, his, hmem⟩ := mem_of_concatMapM hindexes he
    refine ⟨j, hj, ?_⟩
    cases (Index.expand_ok his).2.1 with
    | plain h =>
      rw [List.mem_singleton.mp hmem]
      exact Or.inl ⟨h, rfl⟩
    | localized h =>
      obtain ⟨l, hl, rfl⟩ := List.mem_map.mp hmem
      exact Or.inr ⟨h, l, hl, rfl⟩
  · rintro ⟨j, hj, hx⟩
    obtain ⟨is, his, hsub⟩ := ok_of_concatMapM hindexes hj
    obtain ⟨hcheck, hexp, -⟩ := Index.expand_ok his
    -- an index covers something, which is either plain or localized
    obtain ⟨k, hk⟩ := List.exists_mem_of_ne_nil _ (Index.misuse?_names_of_check hcheck).2.1
    have hfield : k.field ∈ j.fields := List.mem_map_of_mem hk
    rcases hx with ⟨hplain, rfl⟩ | ⟨hlocalized, l, hl, rfl⟩
    · cases hexp with
      | plain h => exact List.mem_map_of_mem (hsub _ (List.mem_singleton.mpr rfl))
      | localized h => exact absurd (h _ hfield) (by simp [hplain _ hfield])
    · cases hexp with
      | plain h => exact absurd (h _ hfield) (by simp [hlocalized _ hfield])
      | localized h => exact List.mem_map_of_mem (hsub _ (List.mem_map_of_mem hl))

theorem nodup_indexes_expanded (hd : ofSchema s locales = .ok d) :
    (d.toLive.indexes.map Index.name).Nodup := by
  have hnames : d.toLive.indexes.map Index.name = d.indexes.map IndexDescription.handle := by
    simp only [toLive, List.map_map]
    exact List.map_congr_left (wellFormed_of_ofSchema hd).index_name
  rw [hnames]
  exact (wellFormed_of_ofSchema hd).indexes_nodup

/-! ## Localized fields -/

section Folded

variable (hc : (live.columns.map Column.name).Nodup) (hs : (ofLive live locales).collapse = .ok s)
  (hd : ofSchema s locales = .ok d) (hcols : (ofLive live locales).UniformColumns locales)

include hs hcols in
/-- The localized fields are the bases of localized columns. -/
theorem localizes_iff {name : String} : s.localizes name = true ↔
    ∃ c ∈ (ofLive live locales).columns, c.isLocalized = true ∧ c.base = name := by
  unfold CollectionSchema.localizes
  rw [field?_collapse hs]
  constructor
  · intro h
    cases hfind : (ofLive live locales).columns.find? (fun c => c.base == name) with
    | none => simp [hfind] at h
    | some c =>
      rw [hfind, Option.map_some, Option.any_some, localized_fieldOf] at h
      exact ⟨c, List.mem_of_find?_eq_some hfind, h, by simpa using List.find?_some hfind⟩
  · rintro ⟨c, hmem, hloc, rfl⟩
    obtain ⟨code, hcode⟩ := isLocalized_iff.mp hloc
    obtain ⟨first, hfirst, -⟩ := exists_first ColumnDescription.base hmem
    rw [hfirst]
    simpa [localized_fieldOf] using ((hcols c hmem code hcode).2 first hfirst).1

include hs hcols in
theorem mem_columnGroups_of_localizes {name : String} (h : s.localizes name = true) :
    name ∈ live.columnGroups locales := by
  obtain ⟨c, hmem, hloc, rfl⟩ := (localizes_iff hs hcols).mp h
  obtain ⟨code, hcode⟩ := isLocalized_iff.mp hloc
  exact (localized_of_locale hmem hcode).2.2

include hc in
/-- A key column of a group stands for the base of the group. -/
theorem baseColumn_of_group (hvalid : ∀ code ∈ locales, Locale.isValid code = true)
    {base code : String} (hbase : base ∈ live.columnGroups locales) (hcode : code ∈ locales)
    (direction : Direction) :
    (ofLive live locales).baseColumn ⟨Locale.localize base code, direction⟩ =
      ⟨base, direction⟩ := by
  obtain ⟨e, he, hhandle, hebase, -⟩ := column_of_group hvalid hbase hcode
  obtain ⟨c, hfind, hmem, hsame⟩ := exists_first ColumnDescription.handle he
  have hcolumn : (ofLive live locales).column? (Locale.localize base code) = some e := by
    rw [← column_ext hc hmem he hsame, ← hfind, ← hhandle]
    rfl
  simp [baseColumn, hcolumn, hebase]

include hs hd hcols in
/-- A localized index that stands for its base covers localized fields only, so that it is not the
primary one. -/
theorem localizes_foldedIndex {i : IndexDescription} (hi : i ∈ (ofLive live locales).indexes)
    {code : String} (hcode : i.locale = some code)
    (hfolded : (ofLive live locales).foldedIndex i ∈ s.indexes) :
    (∀ name ∈ ((ofLive live locales).foldedIndex i).fields, s.localizes name = true) ∧
      i.index.kind ≠ .primary := by
  obtain ⟨is, his, -⟩ := ok_of_concatMapM (ofSchema_ok hd).2.2.2.1 hfolded
  have hall : ∀ name ∈ ((ofLive live locales).foldedIndex i).fields, s.localizes name = true := by
    intro name hn
    obtain ⟨field, hfield, -⟩ := (Index.expand_ok his).2.2 name hn
    rw [Index.fields, columns_foldedIndex, List.map_map] at hn
    obtain ⟨k, hk, rfl⟩ := List.mem_map.mp hn
    obtain ⟨b, hb, hcut⟩ := (covered_of_locale hi hcode).2 k hk
    rw [localizes_iff hs hcols]
    cases hcolumn : (ofLive live locales).column? k.field with
    | some c =>
      have hmem := List.mem_of_find?_eq_some hcolumn
      have hhandle : c.handle = k.field := by simpa using List.find?_some hcolumn
      obtain ⟨hbase, hlocale⟩ := localized_of_spelled hmem (hhandle ▸ hcut) hb
      exact ⟨c, hmem, isLocalized_iff.mpr ⟨code, hlocale⟩, by simp [baseColumn, hcolumn]⟩
    | none =>
      -- the field is declared all the same, by a column that is not named so
      have hname : ((ofLive live locales).baseColumn k).field = k.field := by
        simp [baseColumn, hcolumn]
      simp only [Function.comp_apply] at hfield ⊢
      rw [hname, field?_collapse hs] at hfield
      rw [hname]
      obtain ⟨c, hfind, -⟩ := Option.map_eq_some_iff.mp hfield
      have hmem := List.mem_of_find?_eq_some hfind
      have hbase : c.base = k.field := by simpa using List.find?_some hfind
      refine ⟨c, hmem, ?_, hbase⟩
      by_contra hplain
      rw [Bool.not_eq_true] at hplain
      have hother := List.find?_eq_none.mp hcolumn c hmem
      rw [← base_of_plain hmem hplain, hbase] at hother
      exact hother (beq_self_eq_true _)
  refine ⟨hall, ?_⟩
  rw [← kind_foldedIndex (ofLive live locales) i]
  exact Index.not_primary_of_localized his hall

/-! ## Indexes of a locale -/

include hc in
/-- An index for a locale stands for the index it was made from. -/
theorem map_baseColumn_inLocale (hvalid : ∀ code ∈ locales, Locale.isValid code = true)
    {j : Index} (hj : ∀ name ∈ j.fields, name ∈ live.columnGroups locales) {code : String}
    (hcode : code ∈ locales) :
    (j.inLocale code).columns.map (ofLive live locales).baseColumn = j.columns := by
  have hmap : ∀ k ∈ j.columns, (ofLive live locales).baseColumn
      { k with field := Locale.localize k.field code } = k := fun k hk =>
    baseColumn_of_group hc hvalid (hj _ (List.mem_map_of_mem hk)) hcode k.direction
  rw [Index.inLocale, List.map_map]
  exact (List.map_congr_left hmap).trans (List.map_id _)

include hc in
/-- A localized index is the one of its locale again, if the index that stands for its base agrees
with it. -/
theorem inLocale_foldedIndex (hvalid : ∀ code ∈ locales, Locale.isValid code = true)
    {i k : IndexDescription} (hi : i ∈ (ofLive live locales).indexes) {code : String}
    (hlocale : i.locale = some code) (hcode : code ∈ locales) (hkind : k.index.kind ≠ .primary)
    (hbase : k.base = i.base) (hsame : k.index.kind = i.index.kind)
    (hcolumns : k.index.columns.map (ofLive live locales).baseColumn =
      i.index.columns.map (ofLive live locales).baseColumn) :
    ((ofLive live locales).foldedIndex k).inLocale code = i.index := by
  have hname : Locale.localize ((ofLive live locales).foldedIndex k).name code = i.index.name := by
    rw [name_foldedIndex hkind, hbase, (index_ofLive hi).2.1]
    exact (Locale.splitLocalized?_eq_some_iff.mp (localized_index hi hlocale).1).1.symm
  have hback : ∀ c ∈ i.index.columns,
      IndexColumn.mk (Locale.localize ((ofLive live locales).baseColumn c).field code)
        ((ofLive live locales).baseColumn c).direction = c := by
    intro c hmem
    obtain ⟨b, hb, hcut⟩ := (covered_of_locale hi hlocale).2 c hmem
    obtain ⟨hfield, -, -⟩ := Locale.splitLocalized?_eq_some_iff.mp hcut
    obtain ⟨field, direction⟩ := c
    simp only at hfield
    rw [hfield, baseColumn_of_group hc hvalid hb hcode]
  have hmap := (List.map_congr_left hback).trans (List.map_id i.index.columns)
  unfold Index.inLocale
  rw [hname, kind_foldedIndex, columns_foldedIndex, hsame, hcolumns, List.map_map]
  exact congrArg (Index.mk i.index.name i.index.kind) hmap

/-! ## Indexes that come back -/

theorem name_of_plain {i : IndexDescription} (hi : i ∈ (ofLive live locales).indexes)
    (h : i.locale = none) : i.index.name = i.base :=
  (index_ofLive hi).2.1.trans (handle_of_plain_index hi h).symm

include hs in
/-- Every declared index is a plain live one, or stands for a localized one. -/
theorem index_collapse {j : Index} (hj : j ∈ s.indexes) :
    (∃ i ∈ (ofLive live locales).indexes, i.locale = none ∧ j = i.index) ∨
      ∃ i ∈ (ofLive live locales).indexes, ∃ code, i.locale = some code ∧
        j = (ofLive live locales).foldedIndex i ∧
        ∀ first, (ofLive live locales).indexes.find? (fun k => k.base == i.base) = some first →
          first.locale.isSome = true := by
  rw [(collapse_ok hs).2] at hj
  rcases (mem_foldIndexes _ fun i hi h => name_of_plain hi h).1 j hj with
    h | ⟨i, hi, hsome, hj, hfirst⟩
  · exact Or.inl h
  · obtain ⟨code, hcode⟩ := Option.isSome_iff_exists.mp hsome
    exact Or.inr ⟨i, hi, code, hcode, hj, hfirst⟩

include hs in
theorem plain_mem_collapse {i : IndexDescription} (hi : i ∈ (ofLive live locales).indexes)
    (h : i.locale = none) : i.index ∈ s.indexes := by
  rw [(collapse_ok hs).2]
  exact (mem_foldIndexes _ fun i hi h => name_of_plain hi h).2 i hi h

include hs hd hcols in
theorem first_mem_collapse {base : String} {first : IndexDescription}
    (hfirst : (ofLive live locales).indexes.find? (fun k => k.base == base) = some first)
    (hsome : first.locale.isSome = true) :
    (ofLive live locales).foldedIndex first ∈ s.indexes := by
  have hkind : ∀ i ∈ (ofLive live locales).indexes, i.locale.isSome = true →
      (ofLive live locales).foldedIndex i ∈ s.indexes → i.index.kind ≠ .primary := by
    intro i hi hlocale hfolded
    obtain ⟨code, hcode⟩ := Option.isSome_iff_exists.mp hlocale
    exact (localizes_foldedIndex hs hd hcols hi hcode hfolded).2
  rw [(collapse_ok hs).2] at hkind ⊢
  exact first_mem_foldIndexes _ (fun i hi h => name_of_plain hi h) hkind hfirst hsome

include hd in
/-- A declared index covers a field. -/
theorem exists_field {j : Index} (hj : j ∈ s.indexes) : ∃ name, name ∈ j.fields := by
  obtain ⟨is, his, -⟩ := ok_of_concatMapM (ofSchema_ok hd).2.2.2.1 hj
  have hne := (Index.misuse?_names_of_check (Index.expand_ok his).1).2.1
  obtain ⟨k, hk⟩ := List.exists_mem_of_ne_nil _ hne
  exact ⟨k.field, List.mem_map_of_mem hk⟩

include hc hs hd in
/-- If the members of groups agree, the live indexes are expanded again. -/
theorem mem_indexes_of_uniform (hu : (ofLive live locales).Uniform locales) {x : Index} :
    x ∈ d.toLive.indexes ↔ x ∈ live.indexes := by
  have hvalid := isValid_of_checkAll (ofSchema_ok hd).1
  have hcols := hu.columns
  rw [mem_indexes_expanded hd]
  constructor
  · rintro ⟨j, hj, hx⟩
    obtain ⟨name, hname⟩ := exists_field hd hj
    rcases index_collapse hs hj with ⟨i, hi, hplain, rfl⟩ | ⟨k, hk, code, hcode, rfl, -⟩
    · rcases hx with ⟨-, rfl⟩ | ⟨hall, -⟩
      · exact (index_ofLive hi).1
      · -- a plain index covers no base of a group
        obtain ⟨c, hmem, hloc, rfl⟩ := (localizes_iff hs hcols).mp (hall name hname)
        exact absurd hname (hu.plain i hi hplain c hmem hloc)
    · obtain ⟨hall, hkind⟩ := localizes_foldedIndex hs hd hcols hk hcode hj
      rcases hx with ⟨hnone, -⟩ | ⟨-, l, hl, rfl⟩
      · exact absurd (hall name hname) (by simp [hnone name hname])
      · obtain ⟨i, hi, hbase, hlocale⟩ := index_of_group hvalid (localized_index hk hcode).2.1 hl
        obtain ⟨first, hfirst, -⟩ := exists_first IndexDescription.base hk
        obtain ⟨-, hkindk, hcolsk⟩ := (hu.indexes k hk code hcode).2 first hfirst
        obtain ⟨-, hkindi, hcolsi⟩ := (hu.indexes i hi l hlocale).2 first (hbase ▸ hfirst)
        rw [inLocale_foldedIndex hc hvalid hi hlocale hl hkind hbase.symm
          (hkindk.trans hkindi.symm) (hcolsk.trans hcolsi.symm)]
        exact (index_ofLive hi).1
  · intro hx
    have hi : live.describeIndex locales x ∈ (ofLive live locales).indexes :=
      List.mem_map_of_mem hx
    cases hlocale : (live.describeIndex locales x).locale with
    | none =>
      refine ⟨x, plain_mem_collapse hs hi hlocale, Or.inl ⟨fun name hname => ?_, rfl⟩⟩
      rw [← Bool.not_eq_true, localizes_iff hs hcols]
      rintro ⟨c, hmem, hloc, rfl⟩
      exact hu.plain _ hi hlocale c hmem hloc hname
    | some code =>
      obtain ⟨hl, hagrees⟩ := hu.indexes _ hi code hlocale
      obtain ⟨first, hfirst, hfmem, hbase⟩ := exists_first IndexDescription.base hi
      obtain ⟨hsome, hkind, hcolumns⟩ := hagrees first hfirst
      obtain ⟨own, hown⟩ := Option.isSome_iff_exists.mp hsome
      have hfolded := first_mem_collapse hs hd hcols hfirst hsome
      obtain ⟨hall, hprimary⟩ := localizes_foldedIndex hs hd hcols hfmem hown hfolded
      refine ⟨_, hfolded, Or.inr ⟨hall, code, hl, ?_⟩⟩
      exact (inLocale_foldedIndex hc hvalid hi hlocale hl hprimary hbase hkind.symm
        hcolumns.symm).symm

section Back

variable (hback : ∀ x, x ∈ d.toLive.indexes ↔ x ∈ live.indexes)
include hd hs hcols hback

/-- If the live indexes are expanded again, the index for a locale of a declared one is recognized
as such. -/
theorem locale_of_back {j : Index} (hj : j ∈ s.indexes)
    (hall : ∀ name ∈ j.fields, s.localizes name = true) {i : IndexDescription}
    (hi : i ∈ (ofLive live locales).indexes) {code : String} (hcode : code ∈ locales)
    (hindex : i.index = j.inLocale code) : i.base = j.name ∧ i.locale = some code := by
  have hvalid := isValid_of_checkAll (ofSchema_ok hd).1
  obtain ⟨is, his, -⟩ := ok_of_concatMapM (ofSchema_ok hd).2.2.2.1 hj
  have hcheck := (Index.expand_ok his).1
  have hhandle := isHandle_of_misuse?_eq_none (Index.misuse?_names_of_check hcheck).1
  have hcovers : ∀ l ∈ locales,
      (j.inLocale l).coversOwnLocale (live.columnGroups locales) = true := fun l hl =>
    coversOwnLocale_inLocale (hvalid l hl) hcheck fun name hname =>
      mem_columnGroups_of_localizes hs hcols (hall name hname)
  have hgroup : j.name ∈ live.indexGroups locales := by
    refine (mem_completeGroups hvalid).mpr ⟨hhandle, List.ne_nil_of_mem hcode, fun l hl => ?_⟩
    refine List.mem_map.mpr ⟨j.inLocale l, List.mem_filter.mpr ⟨?_, hcovers l hl⟩, rfl⟩
    exact (hback _).mp ((mem_indexes_expanded hd).mpr ⟨j, hj, Or.inr ⟨hall, l, hl, rfl⟩⟩)
  have hcut : Locale.splitLocalized? i.index.name = some (j.name, code) := by
    rw [hindex]
    exact Locale.splitLocalized?_eq_some_iff.mpr ⟨rfl, hhandle, hvalid code hcode⟩
  exact locale_of_index hi (hindex ▸ hcovers code hcode) hcut hgroup

/-- If the live indexes are expanded again, a plain one covers plain fields. -/
theorem plain_of_back {i : IndexDescription} (hi : i ∈ (ofLive live locales).indexes)
    (hplain : i.locale = none) : ∀ name ∈ i.index.fields, s.localizes name = false := by
  obtain ⟨j, hj, ⟨hnone, e⟩ | ⟨hall, l, hl, e⟩⟩ :=
    (mem_indexes_expanded hd).mp ((hback _).mpr (index_ofLive hi).1)
  · rw [e]
    exact hnone
  · have hlocale := (locale_of_back hs hd hcols hback hj hall hi hl e).2
    rw [hplain] at hlocale
    cases hlocale

include hc in
/-- If the live indexes are expanded again, the localized ones agree with the first of their
base. -/
theorem indexes_of_back (hnames : (live.indexes.map Index.name).Nodup) {i : IndexDescription}
    (hi : i ∈ (ofLive live locales).indexes) {code : String} (hcode : i.locale = some code) :
    code ∈ locales ∧ ∀ first,
      (ofLive live locales).indexes.find? (fun k => k.base == i.base) = some first →
        first.locale.isSome = true ∧ i.index.kind = first.index.kind ∧
          i.index.columns.map (ofLive live locales).baseColumn =
            first.index.columns.map (ofLive live locales).baseColumn := by
  have hvalid := isValid_of_checkAll (ofSchema_ok hd).1
  obtain ⟨j, hj, hexp⟩ := (mem_indexes_expanded hd).mp ((hback _).mpr (index_ofLive hi).1)
  obtain ⟨name, hname⟩ := exists_field hd hj
  rcases index_collapse hs hj with ⟨k, hk, hplain, rfl⟩ | ⟨k, hk, own, hown, rfl, hfirst⟩
  · -- a declared index that is a plain live one expands to itself
    rcases hexp with ⟨-, e⟩ | ⟨hall, -⟩
    · have hsame : i = k := index_ext hnames hi hk (by
        rw [← (index_ofLive hi).2.1, e, (index_ofLive hk).2.1])
      rw [hsame, hplain] at hcode
      cases hcode
    · have hnone := plain_of_back hs hd hcols hback hk hplain name hname
      exact absurd (hall name hname) (by simp [hnone])
  · obtain ⟨hall, hkind⟩ := localizes_foldedIndex hs hd hcols hk hown hj
    rcases hexp with ⟨hnone, -⟩ | ⟨-, l, hl, e⟩
    · exact absurd (hall name hname) (by simp [hnone name hname])
    · obtain ⟨hbase, hlocale⟩ := locale_of_back hs hd hcols hback hj hall hi hl e
      rw [hcode] at hlocale
      cases hlocale
      rw [name_foldedIndex hkind] at hbase
      refine ⟨hl, fun first hfind => ?_⟩
      rw [hbase] at hfind
      have hsome := hfirst first hfind
      obtain ⟨own', hown'⟩ := Option.isSome_iff_exists.mp hsome
      have hfmem := List.mem_of_find?_eq_some hfind
      have hfbase : first.base = k.base := by simpa using List.find?_some hfind
      have hfolded := first_mem_collapse hs hd hcols hfind hsome
      obtain ⟨hallf, hkindf⟩ := localizes_foldedIndex hs hd hcols hfmem hown' hfolded
      -- the one that the first member gives has the same name, so it is the same
      have hlive : ((ofLive live locales).foldedIndex first).inLocale code ∈ live.indexes :=
        (hback _).mp ((mem_indexes_expanded hd).mpr
          ⟨_, hfolded, Or.inr ⟨hallf, code, hl, rfl⟩⟩)
      have hsame : i.index = ((ofLive live locales).foldedIndex first).inLocale code := by
        refine List.inj_on_of_nodup_map hnames (index_ofLive hi).1 hlive ?_
        rw [e]
        show Locale.localize _ code = Locale.localize _ code
        rw [name_foldedIndex hkind, name_foldedIndex hkindf, hfbase]
      refine ⟨hsome, ?_, ?_⟩
      · rw [hsame]
        exact kind_foldedIndex _ first
      · rw [hsame, map_baseColumn_inLocale hc hvalid
          (fun name hname => mem_columnGroups_of_localizes hs hcols (hallf name hname)) hl,
          columns_foldedIndex]

end Back

/-- **Folding is lossless iff the members of every group agree.** The declaration that a live
collection is folded into, if it is accepted, expands to exactly the live columns and indexes iff
every localized member is of a configured locale and agrees with the first one of its base, and no
plain index covers the base of a group. -/
theorem collapse_lossless_iff (hc : (live.columns.map Column.name).Nodup)
    (hi : (live.indexes.map Index.name).Nodup) (hs : (ofLive live locales).collapse = .ok s)
    (hd : ofSchema s locales = .ok d) :
    d.toLive.columns.Perm live.columns ∧ d.toLive.indexes.Perm live.indexes ↔
      (ofLive live locales).Uniform locales := by
  rw [columns_perm_iff hs hd hc,
    List.perm_ext_iff_of_nodup (nodup_indexes_expanded hd).of_map hi.of_map]
  constructor
  · rintro ⟨hcols, hback⟩
    refine ⟨hcols, fun i hmem code hcode => indexes_of_back hc hs hd hcols hback hi hmem hcode,
      fun i hmem hplain c hcmem hloc hfield => ?_⟩
    have hnone := plain_of_back hs hd hcols hback hmem hplain _ hfield
    exact absurd ((localizes_iff hs hcols).mpr ⟨c, hcmem, hloc, rfl⟩) (by simp [hnone])
  · intro hu
    exact ⟨hu.columns, fun x => mem_indexes_of_uniform hc hs hd hu⟩

end Folded

end Description

/-! ## Two orders -/

namespace Posts

/-- Counted posts as a backend has them, in an order of its own. -/
def shuffled : LiveCollection :=
  ⟨collection,
    [.plain "title__fr" .text, .plain "views__en" .int32, .plain "title__en" .text],
    [⟨"titles__fr", .unique, Index.ascending ["title__fr"]⟩,
      ⟨"titles__en", .unique, Index.ascending ["title__en"]⟩,
      ⟨"ranking__en", .plain, Index.ascending ["views__en"]⟩]⟩

theorem collapse_shuffled :
    (Description.ofLive shuffled ["en", "fr"]).collapse = .ok counted := by
  rfl

theorem uniform_shuffled : (Description.ofLive shuffled ["en", "fr"]).Uniform ["en", "fr"] := by
  exact ⟨by decide, by decide, by decide⟩

/-- Posts with a plain title beside the titles of every locale. -/
def doubled : LiveCollection :=
  ⟨collection, [.plain "title" .text, .plain "title__en" .text, .plain "title__fr" .text], []⟩

/-- The declaration that these posts are folded into. -/
def single : CollectionSchema :=
  ⟨collection, [.column "title" .text], []⟩

/-- The expansion of that declaration. -/
def singleDeclared : Description :=
  ⟨collection, [⟨"title", "title", none, .plain "title" .text⟩], []⟩

end Posts

/-- Posts in another order come back, in the order of their declaration. -/
theorem Description.collapse_lossless_of_posts :
    Posts.countedDeclared.toLive.columns.Perm Posts.shuffled.columns ∧
      Posts.countedDeclared.toLive.indexes.Perm Posts.shuffled.indexes :=
  (Description.collapse_lossless_iff (by decide) (by decide) Posts.collapse_shuffled
    Posts.ofSchema_counted).mpr Posts.uniform_shuffled

/-- A plain column that comes before the localized ones of its base takes their place. -/
theorem Description.collapse_doubled_lossy :
    (Posts.doubled.columns.map Column.name).Nodup ∧ (Posts.doubled.indexes.map Index.name).Nodup ∧
      (∀ code ∈ ["en", "fr"], Locale.isValid code = true) ∧
      (Description.ofLive Posts.doubled ["en", "fr"]).collapse = .ok Posts.single ∧
      Description.ofSchema Posts.single ["en", "fr"] = .ok Posts.singleDeclared ∧
      ¬ Posts.singleDeclared.toLive.columns.Perm Posts.doubled.columns :=
  ⟨by decide, by decide, by decide, rfl, rfl, by decide⟩

end SchemaMigration
