import SchemaMigration.Proofs.Checks
import SchemaMigration.Proofs.Description.Expansion
import SchemaMigration.Proofs.Locale

/-!
# Reading an expansion back

The physical columns and indexes of an accepted declaration are looked at as those of a live
collection, of which nothing is known but the names. Localization is then recognized by spelling.

About `from_live`, on what `from_schema` makes.

* `mem_completeGroups`: a base is a group iff it has a handle for every locale.
* `column_expanded`, `index_expanded`: what the columns and indexes of an expansion are named.
* `describeColumn_expanded`, `describeIndex_expanded`: each of them is recognized as it was.
* **`ofLive_toLive`**: the description comes back as it was, unless a plain column is spelled as one
  of a complete group, or a base is empty. Such a plain column is taken for a localized one.
-/

namespace SchemaMigration

/-! ## Groups -/

/-- A base is a group iff there is a handle for every locale. -/
theorem mem_completeGroups {handles locales : List String}
    (hvalid : ∀ code ∈ locales, Locale.isValid code = true) {base : String} :
    base ∈ completeGroups handles locales ↔
      Locale.IsHandle base.toList ∧ locales ≠ [] ∧
        ∀ code ∈ locales, Locale.localize base code ∈ handles := by
  -- a cut into the base and a configured code stands for one handle
  have hcut : ∀ code, (base, code) ∈ (handles.filterMap Locale.splitLocalized?).filter
      (fun cut => locales.contains cut.2) ↔
        code ∈ locales ∧ Locale.localize base code ∈ handles ∧ Locale.IsHandle base.toList := by
    intro code
    simp only [List.mem_filter, List.mem_filterMap, Locale.splitLocalized?_eq_some_iff,
      List.contains_iff_mem]
    constructor
    · rintro ⟨⟨handle, hmem, rfl, hbase, -⟩, hcode⟩
      exact ⟨hcode, hmem, hbase⟩
    · rintro ⟨hcode, hmem, hbase⟩
      exact ⟨⟨_, hmem, rfl, hbase, hvalid code hcode⟩, hcode⟩
  simp only [completeGroups]
  generalize (handles.filterMap Locale.splitLocalized?).filter
    (fun cut => locales.contains cut.2) = cuts at hcut ⊢
  simp only [List.mem_filter, List.mem_map, List.all_eq_true, List.contains_iff_mem, Prod.exists,
    exists_and_right, exists_eq_right, hcut]
  constructor
  · rintro ⟨⟨code, hcode, -, hbase⟩, hall⟩
    exact ⟨hbase, List.ne_nil_of_mem hcode, fun code hcode => (hall code hcode).2.1⟩
  · rintro ⟨hbase, hne, hall⟩
    obtain ⟨code, hcode⟩ := List.exists_mem_of_ne_nil locales hne
    exact ⟨⟨code, hcode, hall code hcode, hbase⟩,
      fun code hcode => ⟨hcode, hall code hcode, hbase⟩⟩

theorem groupOf_of_mem {groups : List String} {handle base code : String}
    (hcut : Locale.splitLocalized? handle = some (base, code)) (hmem : base ∈ groups) :
    groupOf groups handle = (base, some code) := by
  simp [groupOf, hcut, hmem]

theorem groupOf_of_not_mem {groups : List String} {handle : String}
    (h : ∀ base code, Locale.splitLocalized? handle = some (base, code) → base ∉ groups) :
    groupOf groups handle = (handle, none) := by
  unfold groupOf
  cases hcut : Locale.splitLocalized? handle with
  | none => rfl
  | some cut => simp [h cut.1 cut.2 hcut]

theorem isValid_of_checkAll {locales : List String} (h : Locale.checkAll locales = .ok ()) :
    ∀ code ∈ locales, Locale.isValid code = true := by
  intro code hcode
  unfold Locale.checkAll at h
  split at h
  · cases h
  · rename_i hnone
    simpa using List.find?_eq_none.mp hnone code hcode

/-! ## Names of an expansion -/

/-- An identifier is a handle. -/
theorem isHandle_of_misuse?_eq_none {name : String} (h : Identifier.misuse? name = none) :
    Locale.IsHandle name.toList := by
  have hspelled := (Identifier.misuse?_eq_none_iff name).mp h
  cases hname : name.toList with
  | nil =>
    rw [hname] at hspelled
    exact hspelled.elim
  | cons c r =>
    rw [hname] at hspelled
    refine ⟨by simp, fun d hd => ?_⟩
    rcases List.mem_cons.mp hd with rfl | hd
    · exact Identifier.isRest_of_isStart hspelled.1
    · exact hspelled.2 d hd

/-- The base of a localized handle is a handle, unless it is empty. -/
theorem isHandle_base {base code : String}
    (h : Locale.IsHandle (Locale.localize base code).toList) (hne : base ≠ "") :
    Locale.IsHandle base.toList := by
  rw [Locale.toList_localize] at h
  exact ⟨by simpa using hne, fun c hc => h.2 c (List.mem_append_left _ hc)⟩

theorem Column.misuse?_name_of_check {c : Column} (h : c.check = .ok ()) :
    Identifier.misuse? c.name = none :=
  misuse?_name (check_eq_ok_iff.mp h)

/-- A well-formed index has a well-formed name and covers something, and what it covers is well
formed. -/
theorem Index.misuse?_names_of_check {i : Index} (h : i.check = .ok ()) :
    Identifier.misuse? i.name = none ∧ i.columns ≠ [] ∧
      ∀ f ∈ i.fields, Identifier.misuse? f = none := by
  have hmisuse := check_eq_ok_iff.mp h
  exact ⟨misuse?_name hmisuse, columns_ne_nil hmisuse, misuse?_fields hmisuse⟩

namespace FieldDefinition

/-- A column of a field has its own name and the field as its base. It is the only one, or the one
of a locale. -/
theorem mem_expand {f : FieldDefinition} {c : CollectionRef} {locales : List String}
    {cs : List ColumnDescription} (h : f.expand c locales = .ok cs) {d : ColumnDescription}
    (hd : d ∈ cs) :
    f.isRelation = false ∧ d.column.check = .ok () ∧ d.column.name = d.handle ∧
      d.base = f.handle ∧ (f.localized = false ∧ d.locale = none ∧ d.handle = f.handle ∨
        f.localized = true ∧ ∃ code ∈ locales, d.locale = some code ∧
          d.handle = Locale.localize f.handle code) := by
  cases hf : f.isRelation with
  | true =>
    simp only [expand, hf, if_true] at h
    cases h
    exact absurd hd List.not_mem_nil
  | false =>
    cases hl : f.localized with
    | false =>
      rw [expand_plain hf hl] at h
      obtain ⟨column, -, hcheck, -, rfl, hname⟩ := columnIn_ok h hf
      rw [List.mem_singleton.mp hd]
      exact ⟨rfl, hcheck, hname, rfl, Or.inl ⟨rfl, rfl, rfl⟩⟩
    | true =>
      obtain ⟨code, hcode, ds, hds, hd⟩ := mem_of_concatMapM (expand_localized h hf hl).2 hd
      obtain ⟨column, -, hcheck, -, rfl, hname⟩ := columnIn_ok hds hf
      rw [List.mem_singleton.mp hd]
      exact ⟨rfl, hcheck, hname, rfl, Or.inr ⟨rfl, code, hcode, rfl, rfl⟩⟩

end FieldDefinition

namespace Description

variable {s : CollectionSchema} {locales : List String} {d : Description}

/-- How a column of an expansion is named: a plain one by its base, a localized one by base and
code, and then there is one for every locale. -/
theorem column_expanded (h : ofSchema s locales = .ok d) {c : ColumnDescription}
    (hc : c ∈ d.columns) :
    Locale.IsHandle c.handle.toList ∧ c.column.name = c.handle ∧
      (c.locale = none ∧ c.base = c.handle ∨ ∃ code ∈ locales, c.locale = some code ∧
        c.handle = Locale.localize c.base code ∧
          ∀ l ∈ locales, Locale.localize c.base l ∈ d.columns.map ColumnDescription.handle) := by
  obtain ⟨f, hf, cs, hcs, hmem⟩ := mem_of_concatMapM (ofSchema_ok h).2.2.1 hc
  obtain ⟨hrel, hcheck, hname, hbase, hlocale⟩ := FieldDefinition.mem_expand hcs hmem
  refine ⟨?_, hname, ?_⟩
  · rw [← hname]
    exact isHandle_of_misuse?_eq_none (Column.misuse?_name_of_check hcheck)
  · rcases hlocale with ⟨-, hnone, hhandle⟩ | ⟨hl, code, hcode, hsome, hhandle⟩
    · exact Or.inl ⟨hnone, hbase.trans hhandle.symm⟩
    · rw [hbase]
      exact Or.inr ⟨code, hcode, hsome, hhandle,
        fun l hl' => mem_handles_of_localized h hf hrel hl hl'⟩

/-- How an index of an expansion comes about: as declared, over plain columns; or for a locale, over
the columns of that locale, which are there in every other locale too. -/
theorem index_expanded (h : ofSchema s locales = .ok d) {j : IndexDescription}
    (hj : j ∈ d.indexes) :
    ∃ i ∈ s.indexes, i.check = .ok () ∧
      (j = ⟨i.name, i.name, none, i⟩ ∧
          (∀ name ∈ i.fields, ∃ c ∈ d.columns, c.handle = name ∧ c.locale = none) ∨
        ∃ code ∈ locales,
          j = ⟨Locale.localize i.name code, i.name, some code, i.inLocale code⟩ ∧
          ∀ l ∈ locales,
            ⟨Locale.localize i.name l, i.name, some l, i.inLocale l⟩ ∈ d.indexes ∧
            ∀ name ∈ i.fields,
              Locale.localize name l ∈ d.columns.map ColumnDescription.handle) := by
  obtain ⟨i, hi, is, his, hmem⟩ := mem_of_concatMapM (ofSchema_ok h).2.2.2.1 hj
  obtain ⟨hcheck, hexp, hfields⟩ := Index.expand_ok his
  obtain ⟨is', his', hsub⟩ := ok_of_concatMapM (ofSchema_ok h).2.2.2.1 hi
  rw [his] at his'
  cases his'
  refine ⟨i, hi, hcheck, ?_⟩
  have hcovered := covered_of_expands h hexp hfields
  cases hexp with
  | plain hplain =>
    refine Or.inl ⟨List.mem_singleton.mp hmem, fun name hn => ?_⟩
    obtain ⟨f, hf, hr⟩ := hfields name hn
    have hl : f.localized = false := by simpa [CollectionSchema.localizes, hf] using hplain name hn
    obtain ⟨cs, hcs, hsub⟩ :=
      ok_of_concatMapM (ofSchema_ok h).2.2.1 (List.mem_of_find?_eq_some hf)
    rw [FieldDefinition.expand_plain hr hl] at hcs
    obtain ⟨c, -, -, -, rfl, -⟩ := FieldDefinition.columnIn_ok hcs hr
    have hname : f.handle = name := by simpa using List.find?_some hf
    exact ⟨_, hsub _ (List.mem_singleton.mpr rfl), hname, rfl⟩
  | localized hlocalized =>
    obtain ⟨code, hcode, rfl⟩ := List.mem_map.mp hmem
    refine Or.inr ⟨code, hcode, rfl, fun l hl => ?_⟩
    have hmem' := List.mem_map_of_mem (f := fun code => (⟨Locale.localize i.name code, i.name,
      some code, i.inLocale code⟩ : IndexDescription)) hl
    refine ⟨hsub _ hmem', fun name hn => hcovered _ hmem' _ ?_⟩
    rw [Index.fields_inLocale]
    exact List.mem_map_of_mem hn

/-! ## What is recognized -/

/-- No plain column is spelled as a column of a group that has one for every locale, and no
localized column has an empty base. -/
structure Recognizable (d : Description) (locales : List String) : Prop where
  /-- A plain column that is spelled as a base and a code misses a sibling. -/
  plain : ∀ c ∈ d.columns, c.locale = none → ∀ base code, base ≠ "" →
    Locale.isValid code = true → c.handle = Locale.localize base code → locales ≠ [] →
      ∃ l ∈ locales, Locale.localize base l ∉ d.columns.map ColumnDescription.handle
  /-- A localized column has a base that can be spelled. -/
  based : ∀ c ∈ d.columns, c.isLocalized = true → c.base ≠ ""

theorem names_toLive (h : ofSchema s locales = .ok d) :
    d.toLive.columns.map Column.name = d.columns.map ColumnDescription.handle := by
  simp only [toLive, List.map_map]
  exact List.map_congr_left fun c hc => (column_expanded h hc).2.1

theorem mem_columnGroups_toLive (h : ofSchema s locales = .ok d) {base : String} :
    base ∈ d.toLive.columnGroups locales ↔ Locale.IsHandle base.toList ∧ locales ≠ [] ∧
      ∀ code ∈ locales, Locale.localize base code ∈ d.columns.map ColumnDescription.handle := by
  unfold LiveCollection.columnGroups
  rw [mem_completeGroups (isValid_of_checkAll (ofSchema_ok h).1), names_toLive h]

theorem describeColumn_eq {live : LiveCollection} {c : Column} {base : String}
    {locale : Option String} (h : groupOf (live.columnGroups locales) c.name = (base, locale)) :
    live.describeColumn locales c = ⟨c.name, base, locale, c⟩ := by
  simp only [LiveCollection.describeColumn, h]

/-- A column that is spelled as one of a complete group is taken for one. -/
theorem describeColumn_of_spelled (h : ofSchema s locales = .ok d) {c : ColumnDescription}
    (hc : c ∈ d.columns) {base code : String} (hne : base ≠ "") (hcode : code ∈ locales)
    (hspelled : c.handle = Locale.localize base code)
    (hall : ∀ l ∈ locales, Locale.localize base l ∈ d.columns.map ColumnDescription.handle) :
    d.toLive.describeColumn locales c.column = ⟨c.handle, base, some code, c.column⟩ := by
  obtain ⟨hhandle, hname, -⟩ := column_expanded h hc
  have hbase : Locale.IsHandle base.toList := isHandle_base (hspelled ▸ hhandle) hne
  have hvalid := isValid_of_checkAll (ofSchema_ok h).1 code hcode
  have hcut : Locale.splitLocalized? c.column.name = some (base, code) :=
    Locale.splitLocalized?_eq_some_iff.mpr ⟨hname.trans hspelled, hbase, hvalid⟩
  have hgroup : base ∈ d.toLive.columnGroups locales :=
    (mem_columnGroups_toLive h).mpr ⟨hbase, List.ne_nil_of_mem hcode, hall⟩
  rw [describeColumn_eq (groupOf_of_mem hcut hgroup), hname]

/-- A plain column is in no group. -/
theorem not_mem_columnGroups_of_plain (hr : d.Recognizable locales)
    (h : ofSchema s locales = .ok d) {c : ColumnDescription} (hc : c ∈ d.columns)
    (hplain : c.locale = none) {base code : String}
    (hcut : Locale.splitLocalized? c.handle = some (base, code)) :
    base ∉ d.toLive.columnGroups locales := by
  intro hgroup
  obtain ⟨hspelled, hbase, hvalid⟩ := Locale.splitLocalized?_eq_some_iff.mp hcut
  obtain ⟨-, hne, hall⟩ := (mem_columnGroups_toLive h).mp hgroup
  obtain ⟨l, hl, hmissing⟩ :=
    hr.plain c hc hplain base code (by simpa using hbase.1) hvalid hspelled hne
  exact hmissing (hall l hl)

theorem describeColumn_expanded (hr : d.Recognizable locales) (h : ofSchema s locales = .ok d)
    {c : ColumnDescription} (hc : c ∈ d.columns) :
    d.toLive.describeColumn locales c.column = c := by
  obtain ⟨-, hname, ⟨hnone, hbase⟩ | ⟨code, hcode, hsome, hspelled, hall⟩⟩ := column_expanded h hc
  · have hgroup : groupOf (d.toLive.columnGroups locales) c.column.name = (c.column.name, none) :=
      groupOf_of_not_mem fun base code hcut =>
        not_mem_columnGroups_of_plain hr h hc hnone (hname ▸ hcut)
    rw [describeColumn_eq hgroup, hname]
    obtain ⟨handle, base, locale, column⟩ := c
    simp only at hnone hbase
    rw [hnone, hbase]
  · have hne : c.base ≠ "" := hr.based c hc (by simp [ColumnDescription.isLocalized, hsome])
    rw [describeColumn_of_spelled h hc hne hcode hspelled hall, ← hsome]

/-- An index for a locale covers the columns of its own locale. -/
theorem coversOwnLocale_inLocale {groups : List String} {i : Index} {code : String}
    (hcode : Locale.isValid code = true) (hcheck : i.check = .ok ())
    (hgroups : ∀ name ∈ i.fields, name ∈ groups) :
    (i.inLocale code).coversOwnLocale groups = true := by
  obtain ⟨hname, hne, hfields⟩ := Index.misuse?_names_of_check hcheck
  have hcut : Locale.splitLocalized? (i.inLocale code).name = some (i.name, code) :=
    Locale.splitLocalized?_eq_some_iff.mpr ⟨rfl, isHandle_of_misuse?_eq_none hname, hcode⟩
  have hne' : (i.inLocale code).columns.isEmpty = false := by
    simpa [Index.inLocale] using hne
  simp only [Index.coversOwnLocale, hcut, hne', Bool.not_false, Bool.true_and, List.all_eq_true]
  intro k hk
  obtain ⟨declared, hdeclared, rfl⟩ := List.mem_map.mp hk
  have hmem : declared.field ∈ i.fields := List.mem_map_of_mem hdeclared
  have hsplit : Locale.splitLocalized? (Locale.localize declared.field code) =
      some (declared.field, code) :=
    Locale.splitLocalized?_eq_some_iff.mpr
      ⟨rfl, isHandle_of_misuse?_eq_none (hfields _ hmem), hcode⟩
  simp [hsplit, hgroups _ hmem]

/-- An index over plain columns does not cover columns of a locale. -/
theorem coversOwnLocale_plain (hr : d.Recognizable locales) (h : ofSchema s locales = .ok d)
    {i : Index} (hcheck : i.check = .ok ())
    (hplain : ∀ name ∈ i.fields, ∃ c ∈ d.columns, c.handle = name ∧ c.locale = none) :
    i.coversOwnLocale (d.toLive.columnGroups locales) = false := by
  obtain ⟨-, hne, -⟩ := Index.misuse?_names_of_check hcheck
  obtain ⟨k, hk⟩ := List.exists_mem_of_ne_nil i.columns hne
  obtain ⟨c, hc, hname, hnone⟩ := hplain k.field (List.mem_map_of_mem hk)
  unfold Index.coversOwnLocale
  split
  · rfl
  · rename_i base code hcut
    rw [Bool.and_eq_false_iff]
    refine Or.inr (List.all_eq_false.mpr ⟨k, hk, ?_⟩)
    cases hsplit : Locale.splitLocalized? k.field with
    | none => simp
    | some cut =>
      have := not_mem_columnGroups_of_plain hr h hc hnone (hname ▸ hsplit)
      simp [this]

theorem describeIndex_expanded (hr : d.Recognizable locales) (h : ofSchema s locales = .ok d)
    {j : IndexDescription} (hj : j ∈ d.indexes) : d.toLive.describeIndex locales j.index = j := by
  obtain ⟨i, -, hcheck, ⟨rfl, hplain⟩ | ⟨code, hcode, rfl, hall⟩⟩ := index_expanded h hj
  · simp only [LiveCollection.describeIndex, coversOwnLocale_plain hr h hcheck hplain,
      Bool.false_eq_true, if_false]
  · have hvalid := isValid_of_checkAll (ofSchema_ok h).1
    have hcovers : ∀ l ∈ locales,
        (i.inLocale l).coversOwnLocale (d.toLive.columnGroups locales) = true := by
      refine fun l hl => coversOwnLocale_inLocale (hvalid l hl) hcheck fun name hname => ?_
      have hfield := (Index.misuse?_names_of_check hcheck).2.2 name hname
      exact (mem_columnGroups_toLive h).mpr ⟨isHandle_of_misuse?_eq_none hfield,
        List.ne_nil_of_mem hcode, fun l hl => (hall l hl).2 name hname⟩
    have hhandle := isHandle_of_misuse?_eq_none (Index.misuse?_names_of_check hcheck).1
    have hgroup : i.name ∈ d.toLive.indexGroups locales := by
      refine (mem_completeGroups hvalid).mpr ⟨hhandle, List.ne_nil_of_mem hcode, fun l hl => ?_⟩
      refine List.mem_map.mpr ⟨i.inLocale l, List.mem_filter.mpr ⟨?_, hcovers l hl⟩, rfl⟩
      exact List.mem_map.mpr ⟨_, (hall l hl).1, rfl⟩
    have hcut : Locale.splitLocalized? (i.inLocale code).name = some (i.name, code) :=
      Locale.splitLocalized?_eq_some_iff.mpr ⟨rfl, hhandle, hvalid code hcode⟩
    simp only [LiveCollection.describeIndex, hcovers code hcode, if_true,
      groupOf_of_mem hcut hgroup]
    rfl

/-- **An expansion is read back as it was**, if no plain column is spelled as one of a complete
group and no base is empty. Recognition goes by spelling alone: a plain column that is spelled as a
column of a configured locale, in a group that has one for every locale, is read back as that
column. -/
theorem ofLive_toLive (h : ofSchema s locales = .ok d) :
    (d.Recognizable locales → ofLive d.toLive locales = d) ∧
      ∀ c ∈ d.columns, c.locale = none → ∀ base, base ≠ "" → ∀ code ∈ locales,
        c.handle = Locale.localize base code →
          (∀ l ∈ locales, Locale.localize base l ∈ d.columns.map ColumnDescription.handle) →
            ⟨c.handle, base, some code, c.column⟩ ∈ (ofLive d.toLive locales).columns := by
  constructor
  · intro hr
    have hcolumns : d.toLive.columns.map (d.toLive.describeColumn locales) = d.columns := by
      show (d.columns.map ColumnDescription.column).map _ = _
      rw [List.map_map]
      conv_rhs => rw [← List.map_id d.columns]
      exact List.map_congr_left fun c hc => describeColumn_expanded hr h hc
    have hindexes : d.toLive.indexes.map (d.toLive.describeIndex locales) = d.indexes := by
      show (d.indexes.map IndexDescription.index).map _ = _
      rw [List.map_map]
      conv_rhs => rw [← List.map_id d.indexes]
      exact List.map_congr_left fun i hi => describeIndex_expanded hr h hi
    unfold ofLive
    rw [hcolumns, hindexes]
    rfl
  · intro c hc _ base hne code hcode hspelled hall
    rw [← describeColumn_of_spelled h hc hne hcode hspelled hall]
    exact List.mem_map_of_mem (List.mem_map_of_mem hc)

end Description

/-! ## Two spellings -/

namespace Posts

/-- Posts with a title in every locale, and with views that are counted for one locale only. -/
def counted : CollectionSchema :=
  ⟨collection,
    [(FieldDefinition.column "title" .text).asLocalized, .column "views__en" .int32],
    [⟨"titles", .unique, Index.ascending ["title"]⟩,
      ⟨"ranking__en", .plain, Index.ascending ["views__en"]⟩]⟩

/-- The expansion of these posts in English and French. -/
def countedDeclared : Description :=
  ⟨collection,
    [⟨"title__en", "title", some "en", .plain "title__en" .text⟩,
      ⟨"title__fr", "title", some "fr", .plain "title__fr" .text⟩,
      ⟨"views__en", "views__en", none, .plain "views__en" .int32⟩],
    [⟨"titles__en", "titles", some "en", ⟨"titles__en", .unique, Index.ascending ["title__en"]⟩⟩,
      ⟨"titles__fr", "titles", some "fr", ⟨"titles__fr", .unique, Index.ascending ["title__fr"]⟩⟩,
      ⟨"ranking__en", "ranking__en", none,
        ⟨"ranking__en", .plain, Index.ascending ["views__en"]⟩⟩]⟩

theorem ofSchema_counted : Description.ofSchema counted ["en", "fr"] = .ok countedDeclared := by
  rfl

/-- Of the group of the views only one member is there, so the English views are plain. -/
theorem recognizable_counted : countedDeclared.Recognizable ["en", "fr"] := by
  refine ⟨fun c hc hnone base code _ hvalid hspelled _ => ⟨"fr", by simp, ?_⟩, by decide⟩
  have hviews : ∀ c ∈ countedDeclared.columns, c.locale = none →
      c.handle = Locale.localize "views" "en" := by
    decide
  have hsame := hspelled.symm.trans (hviews c hc hnone)
  obtain ⟨rfl, -⟩ := (Locale.localize_inj hvalid (by decide)).mp hsame
  decide

/-- Posts with two plain titles that are spelled as one localized title. -/
def spelled : CollectionSchema :=
  ⟨collection, [.column "title__en" .text, .column "title__fr" .text], []⟩

/-- The expansion of these posts. -/
def spelledDeclared : Description :=
  ⟨collection,
    [⟨"title__en", "title__en", none, .plain "title__en" .text⟩,
      ⟨"title__fr", "title__fr", none, .plain "title__fr" .text⟩], []⟩

theorem ofSchema_spelled : Description.ofSchema spelled ["en", "fr"] = .ok spelledDeclared := by
  rfl

end Posts

/-- Both sides of recognition: counted posts come back, spelled posts have a localized title. -/
theorem Description.ofLive_of_posts :
    Description.ofLive Posts.countedDeclared.toLive ["en", "fr"] = Posts.countedDeclared ∧
      ⟨"title__fr", "title", some "fr", .plain "title__fr" .text⟩ ∈
        (Description.ofLive Posts.spelledDeclared.toLive ["en", "fr"]).columns :=
  ⟨(Description.ofLive_toLive Posts.ofSchema_counted).1 Posts.recognizable_counted,
    (Description.ofLive_toLive Posts.ofSchema_spelled).2
      ⟨"title__fr", "title__fr", none, .plain "title__fr" .text⟩ (by simp [Posts.spelledDeclared])
      rfl "title" (by decide) "fr" (by decide) (by decide) (by decide)⟩

/-- The expansion of two plain titles is not what is read back. -/
theorem Description.ofLive_spelled_differs :
    Description.ofSchema Posts.spelled ["en", "fr"] = .ok Posts.spelledDeclared ∧
      Description.ofLive Posts.spelledDeclared.toLive ["en", "fr"] ≠ Posts.spelledDeclared :=
  ⟨Posts.ofSchema_spelled, by decide⟩

end SchemaMigration
