import SchemaMigration.Proofs.Description.Lossless

/-!
# What is marked as localized

A live collection is described for a list of locales. A column belongs to a group if its base has a
column for every locale of the list, and an index if its base has an index for every locale that
covers columns of that locale, of groups, and nothing else. By the rule the members of a group for
the locales of the list are marked, and nothing else is.

About `from_live`, with `complete_groups`, `group_of` and `covers_own_locale`.

* `LocalizedColumn`, `LocalizedIndex`: the members of groups, by what the live collection holds.
* `MarksExactly`: a description marks the members and leaves the rest alone.
* `marked_column_iff`, `marked_index_iff`: what is marked. A column that is spelled with a group's
  base and any code is, also if the code is not in the list.
* `StrayColumn`, `StrayIndex`: what is spelled like that for another locale.
* **`ofLive_marksExactly_iff`**: a live collection is marked by the rule iff it has no strays, and
  so it is if every code that is spelled in it is in the list.
-/

namespace SchemaMigration

/-- The marks are those of the rule: a base and a code are marked iff the rule has them, and where
it has none the name stands for itself. -/
structure Labelled (rule : String → String → Prop) (name base : String) (locale : Option String) :
    Prop where
  /-- What is marked is what the rule has. -/
  marked : ∀ b code, base = b ∧ locale = some code ↔ rule b code
  /-- The rest keeps its name and has no locale. -/
  unmarked : (∀ b code, ¬ rule b code) → base = name ∧ locale = none

/-- Marks are those of a rule that asks for a code in the list, besides what is always marked, iff
no other code is marked. -/
theorem labelled_iff {rule actual : String → String → Prop} {locales : List String}
    {name base : String} {locale : Option String}
    (hactual : ∀ b code, base = b ∧ locale = some code ↔ actual b code)
    (hrest : locale = none → base = name)
    (hrule : ∀ b code, rule b code ↔ actual b code ∧ code ∈ locales) :
    Labelled rule name base locale ↔ ∀ b code, actual b code → code ∈ locales := by
  constructor
  · intro h b code hmarked
    exact ((hrule b code).mp ((h.marked b code).mp ((hactual b code).mpr hmarked))).2
  · intro h
    refine ⟨fun b code => ?_, fun hnone => ?_⟩
    · rw [hactual, hrule, iff_self_and]
      exact h b code
    · cases locale with
      | none => exact ⟨hrest rfl, rfl⟩
      | some code =>
        have hmarked := (hactual base code).mp ⟨rfl, rfl⟩
        exact absurd ((hrule base code).mpr ⟨hmarked, h base code hmarked⟩) (hnone base code)

/-! ## Members of groups -/

namespace LiveCollection

variable (live : LiveCollection) (locales : List String)

/-- The base is spelled as a handle, and there is a column of it for every locale. -/
structure ColumnGroup (base : String) : Prop where
  /-- The base is not empty and has letters, digits, underscores and hyphens only. -/
  handle : Locale.IsHandle base.toList
  /-- No locale misses a column. -/
  each : ∀ code ∈ locales, Locale.localize base code ∈ live.columns.map Column.name

/-- A column of this name is the one of a group for a locale of the list. -/
structure LocalizedColumn (name base code : String) : Prop where
  /-- The base has a column for every locale. -/
  group : live.ColumnGroup locales base
  /-- The name is made of the base and the code. -/
  spelled : name = Locale.localize base code
  /-- The code is in the list. -/
  configured : code ∈ locales

/-- The index covers at least one column, and nothing but localized columns of the code. -/
structure CoversLocalized (i : Index) (code : String) : Prop where
  /-- Something is covered. -/
  nonempty : i.columns ≠ []
  /-- Whatever is covered is localized for the code. -/
  each : ∀ name ∈ i.fields, ∃ base, live.LocalizedColumn locales name base code

/-- The base is spelled as a handle, and there is an index of it for every locale that covers
localized columns of that locale. -/
structure IndexGroup (base : String) : Prop where
  /-- The base is not empty and has letters, digits, underscores and hyphens only. -/
  handle : Locale.IsHandle base.toList
  /-- No locale misses an index. -/
  each : ∀ code ∈ locales, ∃ i ∈ live.indexes,
    i.name = Locale.localize base code ∧ live.CoversLocalized locales i code

/-- The index is the one of a group for a locale of the list. -/
structure LocalizedIndex (i : Index) (base code : String) : Prop where
  /-- The base has an index for every locale. -/
  group : live.IndexGroup locales base
  /-- The name is made of the base and the code. -/
  spelled : i.name = Locale.localize base code
  /-- The code is in the list. -/
  configured : code ∈ locales
  /-- This index covers localized columns of the code, too. -/
  covers : live.CoversLocalized locales i code

/-- A column of this name is spelled as one of a group, for a locale that is not in the list. -/
def StrayColumn (name : String) : Prop :=
  ∃ base code, live.ColumnGroup locales base ∧ name = Locale.localize base code ∧
    Locale.isValid code = true ∧ code ∉ locales

/-- The index is spelled as one of a group, for a locale that is not in the list, and so is what it
covers. -/
def StrayIndex (i : Index) : Prop :=
  ∃ base code, live.IndexGroup locales base ∧ i.name = Locale.localize base code ∧
    Locale.isValid code = true ∧ code ∉ locales ∧ i.columns ≠ [] ∧
    ∀ name ∈ i.fields, ∃ b, live.ColumnGroup locales b ∧ name = Locale.localize b code

/-- Where there are locales at all, nothing is spelled for another one in a group. -/
structure NoStrays : Prop where
  /-- No column is stray. -/
  columns : locales ≠ [] → ∀ c ∈ live.columns, ¬ live.StrayColumn locales c.name
  /-- No index is stray. -/
  indexes : locales ≠ [] → ∀ i ∈ live.indexes, ¬ live.StrayIndex locales i

/-- Where every code that is spelled in a name is in the list, there are no strays. -/
theorem noStrays_of_configured
    (hcolumns : ∀ c ∈ live.columns, ∀ cut ∈ Locale.splitLocalized? c.name, cut.2 ∈ locales)
    (hindexes : ∀ i ∈ live.indexes, ∀ cut ∈ Locale.splitLocalized? i.name, cut.2 ∈ locales) :
    live.NoStrays locales := by
  refine ⟨fun _ c hc => ?_, fun _ i hi => ?_⟩
  · rintro ⟨base, code, hgroup, hname, hvalid, hother⟩
    exact hother (hcolumns c hc _
      (Locale.splitLocalized?_eq_some_iff.mpr ⟨hname, hgroup.handle, hvalid⟩))
  · rintro ⟨base, code, hgroup, hname, hvalid, hother, -⟩
    exact hother (hindexes i hi _
      (Locale.splitLocalized?_eq_some_iff.mpr ⟨hname, hgroup.handle, hvalid⟩))

end LiveCollection

/-- The description has the columns and indexes of the live collection in their order. Localized
ones are marked with their base and code, and the rest is not marked. -/
structure Description.MarksExactly (d : Description) (live : LiveCollection)
    (locales : List String) : Prop where
  /-- Columns are marked by the rule. -/
  columns : List.Forall₂ (fun c k => k.handle = c.name ∧ k.column = c ∧
    Labelled (live.LocalizedColumn locales c.name) k.handle k.base k.locale) live.columns d.columns
  /-- Indexes are marked by the rule. -/
  indexes : List.Forall₂ (fun i k => k.handle = i.name ∧ k.index = i ∧
    Labelled (live.LocalizedIndex locales i) k.handle k.base k.locale) live.indexes d.indexes

/-! ## What is marked -/

namespace Description

variable {live : LiveCollection} {locales : List String}

section Marks

variable (hvalid : ∀ code ∈ locales, Locale.isValid code = true)

include hvalid

theorem mem_columnGroups_iff {base : String} :
    base ∈ live.columnGroups locales ↔ locales ≠ [] ∧ live.ColumnGroup locales base := by
  unfold LiveCollection.columnGroups
  rw [mem_completeGroups hvalid]
  constructor
  · rintro ⟨hhandle, hne, heach⟩
    exact ⟨hne, hhandle, heach⟩
  · rintro ⟨hne, hhandle, heach⟩
    exact ⟨hhandle, hne, heach⟩

/-- A column is marked iff it is spelled with the base of a group and some code. -/
theorem marked_column_iff {k : ColumnDescription} (hk : k ∈ (ofLive live locales).columns)
    {base code : String} : k.base = base ∧ k.locale = some code ↔
      locales ≠ [] ∧ live.ColumnGroup locales base ∧ k.handle = Locale.localize base code ∧
        Locale.isValid code = true := by
  constructor
  · rintro ⟨rfl, hcode⟩
    obtain ⟨hspelled, hcodevalid, hgroup⟩ := localized_of_locale hk hcode
    obtain ⟨hne, hgroup⟩ := (mem_columnGroups_iff hvalid).mp hgroup
    exact ⟨hne, hgroup, hspelled, hcodevalid⟩
  · rintro ⟨hne, hgroup, hspelled, hcodevalid⟩
    exact localized_of_spelled hk
      (Locale.splitLocalized?_eq_some_iff.mpr ⟨hspelled, hgroup.handle, hcodevalid⟩)
      ((mem_columnGroups_iff hvalid).mpr ⟨hne, hgroup⟩)

/-- An index counts for the groups iff it is spelled with a code and covers columns that are spelled
with the same code and the bases of groups. -/
theorem coversOwnLocale_iff {i : Index} {base code : String}
    (hcut : Locale.splitLocalized? i.name = some (base, code)) (hne : locales ≠ []) :
    i.coversOwnLocale (live.columnGroups locales) = true ↔ i.columns ≠ [] ∧
      ∀ name ∈ i.fields, ∃ b, live.ColumnGroup locales b ∧ name = Locale.localize b code := by
  have hcodevalid := (Locale.splitLocalized?_eq_some_iff.mp hcut).2.2
  simp only [Index.coversOwnLocale, hcut, Bool.and_eq_true, Bool.not_eq_true',
    List.isEmpty_eq_false_iff, List.all_eq_true, Index.fields, List.forall_mem_map]
  refine and_congr_right fun _ => forall₂_congr fun k _ => ?_
  -- a covered column counts iff its cut gives the code of the index and the base of a group
  have hspelled : (∃ b, live.ColumnGroup locales b ∧ k.field = Locale.localize b code) ↔
      ∃ b ∈ live.columnGroups locales, Locale.splitLocalized? k.field = some (b, code) := by
    refine exists_congr fun b => ?_
    rw [mem_columnGroups_iff hvalid, Locale.splitLocalized?_eq_some_iff]
    exact ⟨fun h => ⟨⟨hne, h.1⟩, h.2, h.1.handle, hcodevalid⟩, fun h => ⟨h.1.2, h.2.1⟩⟩
  rw [hspelled]
  cases Locale.splitLocalized? k.field with
  | none => simp
  | some cut =>
    obtain ⟨b, own⟩ := cut
    simp [and_comm]

/-- For a locale of the list, what counts for the groups covers localized columns. -/
theorem coversOwnLocale_iff_coversLocalized {i : Index} {base code : String}
    (hcut : Locale.splitLocalized? i.name = some (base, code)) (hcode : code ∈ locales) :
    i.coversOwnLocale (live.columnGroups locales) = true ↔ live.CoversLocalized locales i code := by
  rw [coversOwnLocale_iff hvalid hcut (List.ne_nil_of_mem hcode)]
  constructor
  · rintro ⟨hne, heach⟩
    refine ⟨hne, fun name hname => ?_⟩
    obtain ⟨b, hb, hspelled⟩ := heach name hname
    exact ⟨b, hb, hspelled, hcode⟩
  · rintro ⟨hne, heach⟩
    refine ⟨hne, fun name hname => ?_⟩
    obtain ⟨b, hb⟩ := heach name hname
    exact ⟨b, hb.group, hb.spelled⟩

theorem mem_indexGroups_iff {base : String} :
    base ∈ live.indexGroups locales ↔ locales ≠ [] ∧ live.IndexGroup locales base := by
  unfold LiveCollection.indexGroups
  rw [mem_completeGroups hvalid]
  -- an index of the base for a code of the list counts iff it covers localized columns
  have heach : ∀ code ∈ locales, Locale.IsHandle base.toList →
      (Locale.localize base code ∈ (live.indexes.filter fun i =>
          i.coversOwnLocale (live.columnGroups locales)).map Index.name ↔
        ∃ i ∈ live.indexes, i.name = Locale.localize base code ∧
          live.CoversLocalized locales i code) := by
    intro code hcode hhandle
    simp only [List.mem_map, List.mem_filter, and_assoc]
    refine exists_congr fun i => and_congr_right fun _ => ?_
    rw [and_comm]
    refine and_congr_right fun hname => coversOwnLocale_iff_coversLocalized hvalid
      (Locale.splitLocalized?_eq_some_iff.mpr ⟨hname, hhandle, hvalid code hcode⟩) hcode
  constructor
  · rintro ⟨hhandle, hne, hall⟩
    exact ⟨hne, hhandle, fun code hcode => (heach code hcode hhandle).mp (hall code hcode)⟩
  · rintro ⟨hne, hhandle, hall⟩
    exact ⟨hhandle, hne, fun code hcode => (heach code hcode hhandle).mpr (hall code hcode)⟩

/-- An index is marked iff it is spelled with the base of a group and some code, and covers columns
that are spelled with the bases of groups and the same code. -/
theorem marked_index_iff {k : IndexDescription} (hk : k ∈ (ofLive live locales).indexes)
    {base code : String} : k.base = base ∧ k.locale = some code ↔
      locales ≠ [] ∧ live.IndexGroup locales base ∧ k.index.name = Locale.localize base code ∧
        Locale.isValid code = true ∧ k.index.columns ≠ [] ∧
          ∀ name ∈ k.index.fields, ∃ b, live.ColumnGroup locales b ∧
            name = Locale.localize b code := by
  have hname := (index_ofLive hk).2.1
  constructor
  · rintro ⟨rfl, hcode⟩
    obtain ⟨hcut, hgroup, hcovers⟩ := localized_index hk hcode
    rw [← hname] at hcut
    obtain ⟨hspelled, -, hcodevalid⟩ := Locale.splitLocalized?_eq_some_iff.mp hcut
    obtain ⟨hne, hgroup⟩ := (mem_indexGroups_iff hvalid).mp hgroup
    exact ⟨hne, hgroup, hspelled, hcodevalid, (coversOwnLocale_iff hvalid hcut hne).mp hcovers⟩
  · rintro ⟨hne, hgroup, hspelled, hcodevalid, hcovers⟩
    have hcut := Locale.splitLocalized?_eq_some_iff.mpr ⟨hspelled, hgroup.handle, hcodevalid⟩
    exact locale_of_index hk ((coversOwnLocale_iff hvalid hcut hne).mpr hcovers) hcut
      ((mem_indexGroups_iff hvalid).mpr ⟨hne, hgroup⟩)

/-- A column is marked by the rule iff it is not stray. -/
theorem labelled_column_iff {k : ColumnDescription} (hk : k ∈ (ofLive live locales).columns) :
    Labelled (live.LocalizedColumn locales k.column.name) k.handle k.base k.locale ↔
      (locales ≠ [] → ¬ live.StrayColumn locales k.column.name) := by
  have hname := (column_ofLive hk).1
  rw [labelled_iff (fun b code => marked_column_iff hvalid hk)
    (fun hplain => base_of_plain hk (isLocalized_eq_false_iff.mpr hplain)) fun b code => ?_]
  · constructor
    · rintro h hne ⟨b, code, hgroup, hspelled, hcodevalid, hother⟩
      exact hother (h b code ⟨hne, hgroup, hname ▸ hspelled, hcodevalid⟩)
    · rintro h b code ⟨hne, hgroup, hspelled, hcodevalid⟩
      by_contra hother
      exact h hne ⟨b, code, hgroup, hname ▸ hspelled, hcodevalid, hother⟩
  · rw [← hname]
    constructor
    · rintro ⟨hgroup, hspelled, hcode⟩
      exact ⟨⟨List.ne_nil_of_mem hcode, hgroup, hspelled, hvalid code hcode⟩, hcode⟩
    · rintro ⟨⟨-, hgroup, hspelled, -⟩, hcode⟩
      exact ⟨hgroup, hspelled, hcode⟩

/-- An index is marked by the rule iff it is not stray. -/
theorem labelled_index_iff {k : IndexDescription} (hk : k ∈ (ofLive live locales).indexes) :
    Labelled (live.LocalizedIndex locales k.index) k.handle k.base k.locale ↔
      (locales ≠ [] → ¬ live.StrayIndex locales k.index) := by
  rw [labelled_iff (fun b code => marked_index_iff hvalid hk)
    (fun hplain => handle_of_plain_index hk hplain) fun b code => ?_]
  · constructor
    · rintro h hne ⟨b, code, hgroup, hspelled, hcodevalid, hother, hcovers⟩
      exact hother (h b code ⟨hne, hgroup, hspelled, hcodevalid, hcovers⟩)
    · rintro h b code ⟨hne, hgroup, hspelled, hcodevalid, hcovers⟩
      by_contra hother
      exact h hne ⟨b, code, hgroup, hspelled, hcodevalid, hother, hcovers⟩
  · constructor
    · rintro ⟨hgroup, hspelled, hcode, hne, heach⟩
      refine ⟨⟨List.ne_nil_of_mem hcode, hgroup, hspelled, hvalid code hcode, hne,
        fun name hname => ?_⟩, hcode⟩
      obtain ⟨b, hb⟩ := heach name hname
      exact ⟨b, hb.group, hb.spelled⟩
    · rintro ⟨⟨-, hgroup, hspelled, -, hne, heach⟩, hcode⟩
      refine ⟨hgroup, hspelled, hcode, hne, fun name hname => ?_⟩
      obtain ⟨b, hb, hspelled⟩ := heach name hname
      exact ⟨b, hb, hspelled, hcode⟩

/-- **Live columns and indexes are marked by the rule iff none is stray.** A description for a list
of locale codes marks the members of complete groups for the locales of the list, and what is
spelled as a member for any other locale. -/
theorem ofLive_marksExactly_iff :
    (ofLive live locales).MarksExactly live locales ↔ live.NoStrays locales := by
  have hcolumn : ∀ c ∈ live.columns,
      live.describeColumn locales c ∈ (ofLive live locales).columns :=
    fun _ hc => List.mem_map_of_mem hc
  have hindex : ∀ i ∈ live.indexes,
      live.describeIndex locales i ∈ (ofLive live locales).indexes :=
    fun _ hi => List.mem_map_of_mem hi
  constructor
  · intro h
    have hcolumns := List.forall₂_same.mp (List.forall₂_map_right_iff.mp h.columns)
    have hindexes := List.forall₂_same.mp (List.forall₂_map_right_iff.mp h.indexes)
    exact ⟨fun hne c hc => (labelled_column_iff hvalid (hcolumn c hc)).mp (hcolumns c hc).2.2 hne,
      fun hne i hi => (labelled_index_iff hvalid (hindex i hi)).mp (hindexes i hi).2.2 hne⟩
  · intro h
    refine ⟨List.forall₂_map_right_iff.mpr (List.forall₂_same.mpr fun c hc => ⟨rfl, rfl, ?_⟩),
      List.forall₂_map_right_iff.mpr (List.forall₂_same.mpr fun i hi => ⟨rfl, rfl, ?_⟩)⟩
    · exact (labelled_column_iff hvalid (hcolumn c hc)).mpr fun hne => h.columns hne c hc
    · exact (labelled_index_iff hvalid (hindex i hi)).mpr fun hne => h.indexes hne i hi

end Marks

end Description

/-! ## Titles in two locales and in a third one -/

namespace Posts

/-- Posts with a title in English, French and German, and an index over each. -/
def translated : LiveCollection :=
  ⟨collection, [.plain "title__en" .text, .plain "title__fr" .text, .plain "title__de" .text],
    [⟨"titles__en", .unique, Index.ascending ["title__en"]⟩,
      ⟨"titles__fr", .unique, Index.ascending ["title__fr"]⟩,
      ⟨"titles__de", .unique, Index.ascending ["title__de"]⟩]⟩

end Posts

/-- The older posts are marked by the rule in English and French. -/
theorem Description.ofLive_marksExactly_of_posts :
    (∀ code ∈ ["en", "fr"], Locale.isValid code = true) ∧
      (Description.ofLive Posts.shuffled ["en", "fr"]).MarksExactly Posts.shuffled ["en", "fr"] :=
  ⟨by decide, (Description.ofLive_marksExactly_iff (by decide)).mpr
    (Posts.shuffled.noStrays_of_configured _ (by decide) (by decide))⟩

/-- Where English and French are the locales, the German title and its index are marked as well. -/
theorem Description.ofLive_translated_marks :
    (∀ code ∈ ["en", "fr"], Locale.isValid code = true) ∧
      (Description.ofLive Posts.translated ["en", "fr"]).columns.map (fun k => (k.base, k.locale)) =
        [("title", some "en"), ("title", some "fr"), ("title", some "de")] ∧
      (Description.ofLive Posts.translated ["en", "fr"]).indexes.map (fun k => (k.base, k.locale)) =
        [("titles", some "en"), ("titles", some "fr"), ("titles", some "de")] ∧
      ¬ (Description.ofLive Posts.translated ["en", "fr"]).MarksExactly Posts.translated
        ["en", "fr"] := by
  refine ⟨by decide, by rfl, by rfl, fun h => ?_⟩
  -- the third column is the German title, and its mark is no mark of the rule
  obtain ⟨-, h⟩ := List.forall₂_cons.mp h.columns
  obtain ⟨-, h⟩ := List.forall₂_cons.mp h
  obtain ⟨⟨-, -, hgerman⟩, -⟩ := List.forall₂_cons.mp h
  have hrule := (hgerman.marked "title" "de").mp (by decide)
  exact absurd hrule.configured (by decide)

end SchemaMigration
