import SchemaMigration.Description.Collapse
import SchemaMigration.Proofs.Description.Recognition
import SchemaMigration.Proofs.Keyed
import Mathlib.Data.List.Induction

/-!
# Folding a live collection

A live collection is folded into a declaration. The first member of a group stands for all of them,
and the declaration is expanded to what the first members stand for.

* `UniformColumns`: every localized column is for a configured locale and agrees with the first one.
* `column_ofLive`, `index_ofLive`: what is recognized of a live column or index.
* `foldColumns_ok`, `mem_fields_collapse`: the fields that columns are folded into.
* `mem_foldIndexes`, `first_mem_foldIndexes`: the indexes that indexes are folded into.
* **`columns_perm_iff`**: the live columns come back iff they are uniform.
-/

namespace SchemaMigration.Description

variable {d : Description} {live : LiveCollection} {locales : List String} {s : CollectionSchema}

/-- Every localized column is of a configured locale, and is the first column of its base, which is
localized too, under another name. -/
def UniformColumns (d : Description) (locales : List String) : Prop :=
  ∀ c ∈ d.columns, ∀ code ∈ c.locale, code ∈ locales ∧
    ∀ first ∈ d.columns.find? (fun k => k.base == c.base),
      first.isLocalized = true ∧ c.column = first.column.renamed c.handle

instance : Decidable (d.UniformColumns locales) :=
  inferInstanceAs (Decidable (∀ c ∈ d.columns, ∀ code ∈ c.locale, code ∈ locales ∧
    ∀ first ∈ d.columns.find? (fun k => k.base == c.base),
      first.isLocalized = true ∧ c.column = first.column.renamed c.handle))

/-- The members of a key have a first one. -/
theorem exists_first {α : Type} (key : α → String) {l : List α} {a : α} (h : a ∈ l) :
    ∃ first, l.find? (fun b => key b == key a) = some first ∧ first ∈ l ∧ key first = key a := by
  have hsome : (l.find? fun b => key b == key a).isSome := by
    rw [List.find?_isSome]
    exact ⟨a, h, by simp⟩
  obtain ⟨first, hfirst⟩ := Option.isSome_iff_exists.mp hsome
  exact ⟨first, hfirst, List.mem_of_find?_eq_some hfirst, by simpa using List.find?_some hfirst⟩

/-! ## A live description -/

theorem mem_columns_ofLive {c : ColumnDescription} (hc : c ∈ (ofLive live locales).columns) :
    c.column ∈ live.columns ∧ c = live.describeColumn locales c.column := by
  obtain ⟨column, hcolumn, rfl⟩ := List.mem_map.mp hc
  exact ⟨hcolumn, rfl⟩

/-- A described column is plain, or its name is cut into the base of a group and a code. -/
theorem column_ofLive {c : ColumnDescription} (hc : c ∈ (ofLive live locales).columns) :
    c.column.name = c.handle ∧ (c.locale = none ∧ c.base = c.handle ∨
      ∃ code, c.locale = some code ∧ c.handle = Locale.localize c.base code ∧
        Locale.isValid code = true ∧ c.base ∈ live.columnGroups locales) := by
  obtain ⟨-, e⟩ := mem_columns_ofLive hc
  generalize c.column = column at e
  subst e
  refine ⟨rfl, ?_⟩
  cases hcut : Locale.splitLocalized? column.name with
  | none =>
    rw [describeColumn_eq (groupOf_of_not_mem (by simp [hcut]))]
    exact Or.inl ⟨rfl, rfl⟩
  | some cut =>
    obtain ⟨base, code⟩ := cut
    by_cases hgroup : base ∈ live.columnGroups locales
    · rw [describeColumn_eq (groupOf_of_mem hcut hgroup)]
      obtain ⟨hname, -, hvalid⟩ := Locale.splitLocalized?_eq_some_iff.mp hcut
      exact Or.inr ⟨code, rfl, hname, hvalid, hgroup⟩
    · rw [describeColumn_eq (groupOf_of_not_mem (by simp [hcut, hgroup]))]
      exact Or.inl ⟨rfl, rfl⟩

theorem isLocalized_iff {c : ColumnDescription} :
    c.isLocalized = true ↔ ∃ code, c.locale = some code :=
  Option.isSome_iff_exists

theorem isLocalized_eq_false_iff {c : ColumnDescription} :
    c.isLocalized = false ↔ c.locale = none := by
  simp [ColumnDescription.isLocalized]

theorem base_of_plain {c : ColumnDescription} (hc : c ∈ (ofLive live locales).columns)
    (h : c.isLocalized = false) : c.base = c.handle := by
  rcases (column_ofLive hc).2 with ⟨-, hbase⟩ | ⟨code, hcode, -⟩
  · exact hbase
  · rw [isLocalized_eq_false_iff, hcode] at h
    cases h

theorem localized_of_locale {c : ColumnDescription} (hc : c ∈ (ofLive live locales).columns)
    {code : String} (h : c.locale = some code) :
    c.handle = Locale.localize c.base code ∧ Locale.isValid code = true ∧
      c.base ∈ live.columnGroups locales := by
  rcases (column_ofLive hc).2 with ⟨hnone, -⟩ | ⟨code', hcode, hlocal⟩
  · rw [hnone] at h
    cases h
  · rw [hcode] at h
    cases h
    exact hlocal

/-- A column that is named as one of a group belongs to the group. -/
theorem localized_of_spelled {c : ColumnDescription} (hc : c ∈ (ofLive live locales).columns)
    {base code : String} (hcut : Locale.splitLocalized? c.handle = some (base, code))
    (hgroup : base ∈ live.columnGroups locales) : c.base = base ∧ c.locale = some code := by
  obtain ⟨column, -, rfl⟩ := List.mem_map.mp hc
  rw [describeColumn_eq (c := column) (groupOf_of_mem hcut hgroup)]
  exact ⟨rfl, rfl⟩

/-- A group has a column for every locale, which is described as such. -/
theorem column_of_group (hvalid : ∀ code ∈ locales, Locale.isValid code = true) {base : String}
    (hbase : base ∈ live.columnGroups locales) {code : String} (hcode : code ∈ locales) :
    ∃ c ∈ (ofLive live locales).columns,
      c.handle = Locale.localize base code ∧ c.base = base ∧ c.locale = some code := by
  obtain ⟨hhandle, -, hall⟩ := (mem_completeGroups hvalid).mp hbase
  obtain ⟨column, hmem, hname⟩ := List.mem_map.mp (hall code hcode)
  have hcut : Locale.splitLocalized? column.name = some (base, code) :=
    Locale.splitLocalized?_eq_some_iff.mpr ⟨hname, hhandle, hvalid code hcode⟩
  have hmem := List.mem_map_of_mem (f := live.describeColumn locales) hmem
  exact ⟨_, hmem, hname, localized_of_spelled hmem hcut hbase⟩

/-- Columns with distinct names are told apart by their handles. -/
theorem column_ext (hc : (live.columns.map Column.name).Nodup) {c c' : ColumnDescription}
    (hmem : c ∈ (ofLive live locales).columns) (hmem' : c' ∈ (ofLive live locales).columns)
    (h : c.handle = c'.handle) : c = c' := by
  obtain ⟨hcolumn, e⟩ := mem_columns_ofLive hmem
  obtain ⟨hcolumn', e'⟩ := mem_columns_ofLive hmem'
  have hname : c.column.name = c'.column.name := by
    rw [(column_ofLive hmem).1, (column_ofLive hmem').1, h]
  rw [e, e', List.inj_on_of_nodup_map hc hcolumn hcolumn' hname]

/-! ## Fields -/

theorem handle_fieldOf (c : ColumnDescription) : (fieldOf c).handle = c.base := by
  unfold fieldOf
  split <;> rfl

theorem localized_fieldOf (c : ColumnDescription) : (fieldOf c).localized = c.isLocalized := by
  unfold fieldOf
  cases h : c.isLocalized <;> rfl

theorem isRelation_fieldOf (c : ColumnDescription) : (fieldOf c).isRelation = false := by
  unfold fieldOf
  split <;> rfl

theorem toColumn?_fieldOf (c : ColumnDescription) (name : String) :
    (fieldOf c).toColumn? name = some (c.column.renamed name) := by
  unfold fieldOf
  split <;> rfl

/-- The first column of a base becomes the field of that handle. No field is lost, and no plain
column. -/
theorem foldColumns_ok {collection : CollectionRef} :
    ∀ {cs : List ColumnDescription} {folded fields : List FieldDefinition},
      foldColumns collection folded cs = .ok fields →
        (∀ base, fields.find? (fun f => f.handle == base) =
          (folded.find? fun f => f.handle == base).or
            ((cs.find? fun c => c.base == base).map fieldOf)) ∧
        ((folded.map FieldDefinition.handle).Nodup → (fields.map FieldDefinition.handle).Nodup) ∧
        (∀ f ∈ folded, f ∈ fields) ∧
        ∀ c ∈ cs, c.isLocalized = false → fieldOf c ∈ fields
  | [], folded, fields, h => by
    cases h
    simp
  | c :: r, folded, fields, h => by
    unfold foldColumns at h
    split at h
    · rename_i hthere
      split at h
      · rename_i hloc
        obtain ⟨hfind, hnodup, hkept, hplain⟩ := foldColumns_ok h
        refine ⟨fun base => ?_, hnodup, hkept, fun k hk hkl => ?_⟩
        · rw [hfind]
          by_cases hb : c.base = base
          · -- a field of this base is there already
            obtain ⟨f, hf, he⟩ := List.any_eq_true.mp hthere
            have hsome : (folded.find? fun f => f.handle == base).isSome := by
              rw [List.find?_isSome]
              exact ⟨f, hf, hb ▸ he⟩
            obtain ⟨f', hf'⟩ := Option.isSome_iff_exists.mp hsome
            simp [hf']
          · rw [List.find?_cons_of_neg (by simpa using hb)]
        · rcases List.mem_cons.mp hk with rfl | hk
          · rw [hloc] at hkl
            cases hkl
          · exact hplain k hk hkl
      · cases h
    · rename_i hfree
      obtain ⟨hfind, hnodup, hkept, hplain⟩ := foldColumns_ok h
      have hnone : ∀ f ∈ folded, f.handle ≠ c.base := by simpa using hfree
      refine ⟨fun base => ?_, fun hn => hnodup ?_, fun f hf => hkept f (by simp [hf]),
        fun k hk hkl => ?_⟩
      · rw [hfind, List.find?_append, Option.or_assoc]
        by_cases hb : c.base = base
        · simp [handle_fieldOf, hb]
        · rw [List.find?_cons_of_neg (a := c) (by simpa using hb)]
          simp [handle_fieldOf, hb]
      · rw [List.map_append, List.nodup_append]
        refine ⟨hn, by simp, ?_⟩
        simpa [handle_fieldOf] using hnone
      · rcases List.mem_cons.mp hk with rfl | hk
        · exact hkept _ (by simp)
        · exact hplain k hk hkl

theorem collapse_ok (h : d.collapse = .ok s) :
    foldColumns d.collection [] d.columns = .ok s.fields ∧
      s.indexes = d.indexes.foldl d.foldIndex [] := by
  obtain ⟨fields, hfields, h⟩ := bind_eq_ok_iff.mp h
  cases h
  exact ⟨hfields, rfl⟩

/-- The field of a handle is the one that the first column of that base is folded into. -/
theorem field?_collapse (h : d.collapse = .ok s) (base : String) :
    s.field? base = (d.columns.find? fun c => c.base == base).map fieldOf := by
  exact (foldColumns_ok (collapse_ok h).1).1 base

/-- Every field is the one that the first column of its base is folded into. -/
theorem mem_fields_collapse (h : d.collapse = .ok s) {f : FieldDefinition} :
    f ∈ s.fields ↔ ∃ c, d.columns.find? (fun k => k.base == c.base) = some c ∧ f = fieldOf c := by
  have hfield := field?_collapse h
  have hnodup := (foldColumns_ok (collapse_ok h).1).2.1 List.nodup_nil
  constructor
  · intro hf
    have hfind : s.field? f.handle = some f := (Keyed.find?_eq_some_iff hnodup).mpr ⟨hf, rfl⟩
    rw [hfield] at hfind
    obtain ⟨c, hc, rfl⟩ := Option.map_eq_some_iff.mp hfind
    rw [handle_fieldOf] at hc
    exact ⟨c, hc, rfl⟩
  · rintro ⟨c, hc, rfl⟩
    have hfind : s.field? c.base = some (fieldOf c) := by rw [hfield, hc, Option.map_some]
    exact List.mem_of_find?_eq_some hfind

/-! ## Columns that come back -/

theorem map_concatMapM {α β γ : Type} {f : α → Except Misuse (List β)} {g : β → γ} {k : α → γ}
    (hf : ∀ a bs, f a = .ok bs → bs.map g = [k a]) :
    ∀ {l : List α} {bs : List β}, concatMapM f l = .ok bs → bs.map g = l.map k
  | [], _, h => by
    cases h
    rfl
  | a :: r, _, h => by
    obtain ⟨first, rest, hfirst, hrest, rfl⟩ := concatMapM_cons_eq_ok h
    rw [List.map_append, hf a first hfirst, map_concatMapM hf hrest]
    rfl

/-- A folded column is expanded to itself under the name of its base, or to a column of that kind
for every locale. -/
theorem expand_fieldOf {c : ColumnDescription} {collection : CollectionRef}
    {cs : List ColumnDescription} (h : (fieldOf c).expand collection locales = .ok cs) :
    cs.map ColumnDescription.column =
      if c.isLocalized then
        locales.map fun code => c.column.renamed (Locale.localize c.base code)
      else [c.column.renamed c.base] := by
  have hin : ∀ locale cs, (fieldOf c).columnIn locale = .ok cs →
      cs.map ColumnDescription.column = [c.column.renamed ((fieldOf c).columnName locale)] := by
    intro locale cs h
    obtain ⟨column, hcolumn, -, -, rfl, -⟩ :=
      FieldDefinition.columnIn_ok h (isRelation_fieldOf c)
    rw [toColumn?_fieldOf] at hcolumn
    cases hcolumn
    rfl
  have hname : ∀ code, (fieldOf c).columnName (some code) = Locale.localize c.base code := by
    intro code
    simp [FieldDefinition.columnName, handle_fieldOf]
  cases hl : c.isLocalized with
  | false =>
    rw [FieldDefinition.expand_plain (isRelation_fieldOf c) (by rw [localized_fieldOf, hl])] at h
    rw [hin none cs h]
    simp [FieldDefinition.columnName, handle_fieldOf]
  | true =>
    have h := (FieldDefinition.expand_localized h (isRelation_fieldOf c)
      (by rw [localized_fieldOf, hl])).2
    rw [map_concatMapM (fun code cs => hin (some code) cs) h]
    simp [hname]

section Expansion

variable (hs : d.collapse = .ok s) {d' : Description} (hd : ofSchema s locales = .ok d')
include hs hd

/-- The columns of an expanded folding are those that the first columns of the bases stand for. -/
theorem mem_columns_expanded {x : Column} :
    x ∈ d'.toLive.columns ↔ ∃ c, d.columns.find? (fun k => k.base == c.base) = some c ∧
      (c.isLocalized = false ∧ x = c.column.renamed c.base ∨ c.isLocalized = true ∧
        ∃ code ∈ locales, x = c.column.renamed (Locale.localize c.base code)) := by
  have hcolumns := (ofSchema_ok hd).2.2.1
  have hmem : ∀ {c cs}, (fieldOf c).expand s.collection locales = .ok cs →
      (x ∈ cs.map ColumnDescription.column ↔
        c.isLocalized = false ∧ x = c.column.renamed c.base ∨ c.isLocalized = true ∧
          ∃ code ∈ locales, x = c.column.renamed (Locale.localize c.base code)) := by
    intro c cs h
    rw [expand_fieldOf h]
    cases c.isLocalized <;> simp [eq_comm]
  constructor
  · intro hx
    obtain ⟨e, he, rfl⟩ := List.mem_map.mp hx
    obtain ⟨f, hf, cs, hcs, hmem'⟩ := mem_of_concatMapM hcolumns he
    obtain ⟨c, hc, rfl⟩ := (mem_fields_collapse hs).mp hf
    exact ⟨c, hc, (hmem hcs).mp (List.mem_map_of_mem hmem')⟩
  · rintro ⟨c, hc, hx⟩
    obtain ⟨cs, hcs, hsub⟩ :=
      ok_of_concatMapM hcolumns ((mem_fields_collapse hs).mpr ⟨c, hc, rfl⟩)
    obtain ⟨e, he, rfl⟩ := List.mem_map.mp ((hmem hcs).mpr hx)
    exact List.mem_map_of_mem (hsub e he)

omit hs in
theorem nodup_columns_expanded : (d'.toLive.columns.map Column.name).Nodup := by
  rw [names_toLive hd]
  exact (wellFormed_of_ofSchema hd).columns_nodup

end Expansion

section Columns

variable (hs : (ofLive live locales).collapse = .ok s) {d' : Description}
  (hd : ofSchema s locales = .ok d')
include hs hd

/-- Where every live column is expanded again, every localized one is of a configured locale and is
the first column of its base under another name. -/
theorem uniformColumns_of_expanded (hc : (live.columns.map Column.name).Nodup)
    (hback : ∀ x ∈ live.columns, x ∈ d'.toLive.columns) :
    (ofLive live locales).UniformColumns locales := by
  have hvalid := isValid_of_checkAll (ofSchema_ok hd).1
  intro c hmem code hcode
  obtain ⟨hname, hlocal⟩ := column_ofLive hmem
  obtain ⟨hcolumn, -⟩ := mem_columns_ofLive hmem
  obtain ⟨k, hk, ⟨hplain, e⟩ | ⟨hloc, l, hl, e⟩⟩ :=
    (mem_columns_expanded hs hd).mp (hback _ hcolumn)
  · -- a plain column is expanded to itself, and no localized column has its name
    have hkmem := List.mem_of_find?_eq_some hk
    have hbase := base_of_plain hkmem hplain
    have hsame : c = k := column_ext hc hmem hkmem (by rw [← hname, e, ← hbase]; rfl)
    rw [hsame, isLocalized_eq_false_iff.mp hplain] at hcode
    cases hcode
  · obtain ⟨hhandle, hvalid', -⟩ := localized_of_locale hmem hcode
    have hnames : Locale.localize k.base l = Locale.localize c.base code := by
      rw [← hhandle, ← hname, e]
      rfl
    obtain ⟨hbase, rfl⟩ := (Locale.localize_inj (hvalid l hl) hvalid').mp hnames
    refine ⟨hl, fun first hfirst => ?_⟩
    rw [← hbase, hk] at hfirst
    cases hfirst
    exact ⟨hloc, by rw [hhandle, ← hbase]; exact e⟩

/-- Where the localized columns agree, whatever is expanded again is live. -/
theorem mem_columns_of_expanded (huniform : (ofLive live locales).UniformColumns locales)
    {x : Column} (hx : x ∈ d'.toLive.columns) : x ∈ live.columns := by
  have hvalid := isValid_of_checkAll (ofSchema_ok hd).1
  obtain ⟨k, hk, ⟨hplain, rfl⟩ | ⟨hloc, l, hl, rfl⟩⟩ := (mem_columns_expanded hs hd).mp hx
  · have hkmem := List.mem_of_find?_eq_some hk
    rw [base_of_plain hkmem hplain, ← (column_ofLive hkmem).1]
    exact (mem_columns_ofLive hkmem).1
  · have hkmem := List.mem_of_find?_eq_some hk
    obtain ⟨code, hcode⟩ := isLocalized_iff.mp hloc
    obtain ⟨e, he, hhandle, hbase, hlocale⟩ :=
      column_of_group hvalid (localized_of_locale hkmem hcode).2.2 hl
    obtain ⟨-, hagrees⟩ := huniform e he l hlocale
    rw [← hhandle, ← (hagrees k (hbase ▸ hk)).2]
    exact (mem_columns_ofLive he).1

/-- Where the localized columns agree, whatever is live is expanded again. -/
theorem mem_columns_of_uniform (hc : (live.columns.map Column.name).Nodup)
    (huniform : (ofLive live locales).UniformColumns locales) {x : Column}
    (hx : x ∈ live.columns) : x ∈ d'.toLive.columns := by
  rw [mem_columns_expanded hs hd]
  have hmem : live.describeColumn locales x ∈ (ofLive live locales).columns :=
    List.mem_map_of_mem hx
  cases hloc : (live.describeColumn locales x).isLocalized with
  | false =>
    obtain ⟨k, hk, hfield⟩ := (mem_fields_collapse hs).mp
      ((foldColumns_ok (collapse_ok hs).1).2.2.2 _ hmem hloc)
    have hkmem := List.mem_of_find?_eq_some hk
    have hkplain : k.isLocalized = false := by
      rw [← localized_fieldOf, ← hfield, localized_fieldOf, hloc]
    have hkbase : k.base = (live.describeColumn locales x).base := by
      rw [← handle_fieldOf, ← hfield, handle_fieldOf]
    have hsame : live.describeColumn locales x = k :=
      column_ext hc hmem hkmem (by
        rw [← base_of_plain hmem hloc, ← base_of_plain hkmem hkplain, hkbase])
    refine ⟨k, hk, Or.inl ⟨hkplain, ?_⟩⟩
    rw [base_of_plain hkmem hkplain, ← (column_ofLive hkmem).1, ← hsame]
    rfl
  | true =>
    obtain ⟨code, hcode⟩ := isLocalized_iff.mp hloc
    obtain ⟨hconfigured, hagrees⟩ := huniform _ hmem code hcode
    obtain ⟨first, hfirst, -, hbase⟩ := exists_first ColumnDescription.base hmem
    obtain ⟨hfirstloc, e⟩ := hagrees first hfirst
    refine ⟨first, hbase ▸ hfirst, Or.inr ⟨hfirstloc, code, hconfigured, ?_⟩⟩
    rw [hbase, ← (localized_of_locale hmem hcode).1]
    exact e

/-- The columns of a folding that is expanded again are the live ones iff every localized column is
of a configured locale and is the first column of its base under another name. -/
theorem columns_perm_iff (hc : (live.columns.map Column.name).Nodup) :
    d'.toLive.columns.Perm live.columns ↔ (ofLive live locales).UniformColumns locales := by
  rw [List.perm_ext_iff_of_nodup (nodup_columns_expanded hd).of_map hc.of_map]
  constructor
  · exact fun hperm => uniformColumns_of_expanded hs hd hc fun x => (hperm x).mpr
  · exact fun huniform x =>
      ⟨mem_columns_of_expanded hs hd huniform, mem_columns_of_uniform hs hd hc huniform⟩

end Columns

/-! ## Live indexes -/

theorem describeIndex_eq {i : Index} {base : String} {locale : Option String}
    (hcovers : i.coversOwnLocale (live.columnGroups locales) = true)
    (h : groupOf (live.indexGroups locales) i.name = (base, locale)) :
    live.describeIndex locales i = ⟨i.name, base, locale, i⟩ := by
  simp only [LiveCollection.describeIndex, hcovers, if_true, h]

theorem describeIndex_of_not_covers {i : Index}
    (h : i.coversOwnLocale (live.columnGroups locales) = false) :
    live.describeIndex locales i = ⟨i.name, i.name, none, i⟩ := by
  simp only [LiveCollection.describeIndex, h, Bool.false_eq_true, if_false]

/-- A described index is plain, or its name is cut into the base of a group and a code, and it
covers columns of that code that are in groups. -/
theorem index_ofLive {i : IndexDescription} (hi : i ∈ (ofLive live locales).indexes) :
    i.index ∈ live.indexes ∧ i.index.name = i.handle ∧
      (i.locale = none ∧ i.base = i.handle ∨
        ∃ code, i.locale = some code ∧ Locale.splitLocalized? i.handle = some (i.base, code) ∧
          i.base ∈ live.indexGroups locales ∧
          i.index.coversOwnLocale (live.columnGroups locales) = true) := by
  obtain ⟨index, hindex, rfl⟩ := List.mem_map.mp hi
  refine ⟨hindex, rfl, ?_⟩
  by_cases hcovers : index.coversOwnLocale (live.columnGroups locales) = true
  · cases hcut : Locale.splitLocalized? index.name with
    | none =>
      rw [describeIndex_eq hcovers (groupOf_of_not_mem (by simp [hcut]))]
      exact Or.inl ⟨rfl, rfl⟩
    | some cut =>
      obtain ⟨base, code⟩ := cut
      by_cases hgroup : base ∈ live.indexGroups locales
      · rw [describeIndex_eq hcovers (groupOf_of_mem hcut hgroup)]
        exact Or.inr ⟨code, rfl, hcut, hgroup, hcovers⟩
      · rw [describeIndex_eq hcovers (groupOf_of_not_mem (by simp [hcut, hgroup]))]
        exact Or.inl ⟨rfl, rfl⟩
  · rw [describeIndex_of_not_covers (by simpa using hcovers)]
    exact Or.inl ⟨rfl, rfl⟩

theorem handle_of_plain_index {i : IndexDescription} (hi : i ∈ (ofLive live locales).indexes)
    (h : i.locale = none) : i.base = i.handle := by
  rcases (index_ofLive hi).2.2 with ⟨-, hbase⟩ | ⟨code, hcode, -⟩
  · exact hbase
  · rw [h] at hcode
    cases hcode

theorem localized_index {i : IndexDescription} (hi : i ∈ (ofLive live locales).indexes)
    {code : String} (h : i.locale = some code) :
    Locale.splitLocalized? i.handle = some (i.base, code) ∧ i.base ∈ live.indexGroups locales ∧
      i.index.coversOwnLocale (live.columnGroups locales) = true := by
  rcases (index_ofLive hi).2.2 with ⟨hnone, -⟩ | ⟨code', hcode, hlocal⟩
  · rw [hnone] at h
    cases h
  · rw [hcode] at h
    cases h
    exact hlocal

/-- An index is taken for a member of a group by its name and by what it covers. -/
theorem locale_of_index {base code : String} {i : IndexDescription}
    (hi : i ∈ (ofLive live locales).indexes)
    (hcovers : i.index.coversOwnLocale (live.columnGroups locales) = true)
    (hcut : Locale.splitLocalized? i.index.name = some (base, code))
    (hgroup : base ∈ live.indexGroups locales) : i.base = base ∧ i.locale = some code := by
  obtain ⟨index, -, rfl⟩ := List.mem_map.mp hi
  rw [describeIndex_eq (i := index) hcovers (groupOf_of_mem hcut hgroup)]
  exact ⟨rfl, rfl⟩

/-- A group has an index for every locale, which is described as such. -/
theorem index_of_group (hvalid : ∀ code ∈ locales, Locale.isValid code = true) {base : String}
    (hbase : base ∈ live.indexGroups locales) {code : String} (hcode : code ∈ locales) :
    ∃ i ∈ (ofLive live locales).indexes, i.base = base ∧ i.locale = some code := by
  obtain ⟨hhandle, -, hall⟩ := (mem_completeGroups hvalid).mp hbase
  obtain ⟨index, hmem, hname⟩ := List.mem_map.mp (hall code hcode)
  obtain ⟨hmem, hcovers⟩ := List.mem_filter.mp hmem
  have hcut : Locale.splitLocalized? index.name = some (base, code) :=
    Locale.splitLocalized?_eq_some_iff.mpr ⟨hname, hhandle, hvalid code hcode⟩
  have hmem := List.mem_map_of_mem (f := live.describeIndex locales) hmem
  exact ⟨_, hmem, locale_of_index hmem hcovers hcut hbase⟩

/-- Indexes with distinct names are told apart by their handles. -/
theorem index_ext (hi : (live.indexes.map Index.name).Nodup) {i i' : IndexDescription}
    (hmem : i ∈ (ofLive live locales).indexes) (hmem' : i' ∈ (ofLive live locales).indexes)
    (h : i.handle = i'.handle) : i = i' := by
  obtain ⟨index, hindex, rfl⟩ := List.mem_map.mp hmem
  obtain ⟨index', hindex', rfl⟩ := List.mem_map.mp hmem'
  rw [List.inj_on_of_nodup_map hi hindex hindex' h]

/-- What a localized index covers are columns of its locale, of groups. -/
theorem covered_of_locale {i : IndexDescription} (hi : i ∈ (ofLive live locales).indexes)
    {code : String} (h : i.locale = some code) :
    i.index.columns ≠ [] ∧ ∀ k ∈ i.index.columns,
      ∃ b ∈ live.columnGroups locales, Locale.splitLocalized? k.field = some (b, code) := by
  obtain ⟨hcut, -, hcovers⟩ := localized_index hi h
  rw [← (index_ofLive hi).2.1] at hcut
  simp only [Index.coversOwnLocale, hcut, Bool.and_eq_true, List.all_eq_true] at hcovers
  obtain ⟨hne, hall⟩ := hcovers
  refine ⟨by simpa using hne, fun k hk => ?_⟩
  have hk := hall k hk
  split at hk
  · rename_i b own hfield
    simp only [Bool.and_eq_true, beq_iff_eq, List.contains_iff_mem] at hk
    obtain ⟨rfl, hb⟩ := hk
    exact ⟨b, hb, hfield⟩
  · cases hk

/-! ## Folded indexes -/

/-- The declared index that a localized index folds into. -/
def foldedIndex (d : Description) (i : IndexDescription) : Index :=
  .make i.base i.index.kind (i.index.columns.map d.baseColumn)

theorem kind_foldedIndex (d : Description) (i : IndexDescription) :
    (d.foldedIndex i).kind = i.index.kind := by
  unfold foldedIndex Index.make
  split <;> simp_all

theorem columns_foldedIndex (d : Description) (i : IndexDescription) :
    (d.foldedIndex i).columns = i.index.columns.map d.baseColumn := by
  unfold foldedIndex Index.make
  split <;> rfl

theorem name_foldedIndex {i : IndexDescription} (h : i.index.kind ≠ .primary) :
    (d.foldedIndex i).name = i.base := by
  unfold foldedIndex Index.make
  split
  · rename_i hkind
    exact absurd hkind h
  · rfl

section FoldIndexes

variable (d)

/-- A declared index is a plain live one, or stands for a localized one whose base has a localized
first member. Every plain index is there. -/
theorem mem_foldIndexes {is : List IndexDescription}
    (hname : ∀ i ∈ is, i.locale = none → i.index.name = i.base) :
    (∀ j ∈ is.foldl d.foldIndex [], (∃ i ∈ is, i.locale = none ∧ j = i.index) ∨
      ∃ i ∈ is, i.locale.isSome = true ∧ j = d.foldedIndex i ∧
        ∀ first, is.find? (fun k => k.base == i.base) = some first → first.locale.isSome = true) ∧
      ∀ i ∈ is, i.locale = none → i.index ∈ is.foldl d.foldIndex [] := by
  induction is using List.reverseRecOn with
  | nil => simp
  | append_singleton is i ih =>
    obtain ⟨hfrom, hplain⟩ := ih fun k hk => hname k (List.mem_append_left _ hk)
    rw [List.foldl_append, List.foldl_cons, List.foldl_nil]
    generalize hjs : is.foldl d.foldIndex [] = js at hfrom hplain
    -- what was folded before comes from the same members, with the same first ones
    have hbefore : ∀ j ∈ js, (∃ k ∈ is ++ [i], k.locale = none ∧ j = k.index) ∨
        ∃ k ∈ is ++ [i], k.locale.isSome = true ∧ j = d.foldedIndex k ∧
          ∀ first, (is ++ [i]).find? (fun l => l.base == k.base) = some first →
            first.locale.isSome = true := by
      intro j hj
      rcases hfrom j hj with ⟨k, hk, hnone, e⟩ | ⟨k, hk, hsome, e, hfirst⟩
      · exact Or.inl ⟨k, List.mem_append_left _ hk, hnone, e⟩
      · refine Or.inr ⟨k, List.mem_append_left _ hk, hsome, e, fun first h => hfirst first ?_⟩
        obtain ⟨f, hf, -, -⟩ := exists_first IndexDescription.base hk
        rw [List.find?_append, hf, Option.some_or] at h
        rw [hf, h]
    unfold foldIndex
    split
    · rename_i hsome
      have hnotplain : i.locale ≠ none := Option.isSome_iff_ne_none.mp hsome
      have hkeep : ∀ k ∈ is ++ [i], k.locale = none → k ∈ is := by
        intro k hk hnone
        rcases List.mem_append.mp hk with hk | hk
        · exact hk
        · rw [List.mem_singleton.mp hk] at hnone
          exact absurd hnone hnotplain
      split
      · exact ⟨hbefore, fun k hk hnone => hplain k (hkeep k hk hnone) hnone⟩
      · rename_i hfree
        refine ⟨fun j hj => ?_, fun k hk hnone =>
          List.mem_append_left _ (hplain k (hkeep k hk hnone) hnone)⟩
        rcases List.mem_append.mp hj with hj | hj
        · exact hbefore j hj
        · refine Or.inr ⟨i, by simp, hsome, List.mem_singleton.mp hj, fun first hfirst => ?_⟩
          rw [List.find?_append] at hfirst
          cases hfind : is.find? fun l => l.base == i.base with
          | none =>
            rw [hfind, Option.none_or] at hfirst
            rw [List.mem_singleton.mp (List.mem_of_find?_eq_some hfirst)]
            exact hsome
          | some f =>
            rw [hfind, Option.some_or] at hfirst
            cases hfirst
            -- a plain first member would have been folded under this base
            by_contra hnone
            have hnone : first.locale = none := by simpa using hnone
            have hfirst := List.mem_of_find?_eq_some hfind
            have hbase : first.base = i.base := by simpa using List.find?_some hfind
            refine hfree (List.any_eq_true.mpr ⟨first.index, hplain first hfirst hnone, ?_⟩)
            rw [hname first (List.mem_append_left _ hfirst) hnone, hbase, beq_self_eq_true]
    · rename_i hnone
      have hnone : i.locale = none := by simpa using hnone
      constructor
      · intro j hj
        rcases List.mem_append.mp hj with hj | hj
        · exact hbefore j hj
        · exact Or.inl ⟨i, by simp, hnone, List.mem_singleton.mp hj⟩
      · intro k hk hk'
        rcases List.mem_append.mp hk with hk | hk
        · exact List.mem_append_left _ (hplain k hk hk')
        · rw [List.mem_singleton.mp hk]
          simp

/-- Nothing that was folded is taken away again. -/
theorem subset_foldIndex (js : List Index) (i : IndexDescription) :
    ∀ j ∈ js, j ∈ d.foldIndex js i := by
  intro j hj
  unfold foldIndex
  split
  · split
    · exact hj
    · exact List.mem_append_left _ hj
  · exact List.mem_append_left _ hj

/-- The first member of a base stands for it, if it is localized; a primary index must not take the
reserved name away. -/
theorem first_mem_foldIndexes {is : List IndexDescription}
    (hname : ∀ i ∈ is, i.locale = none → i.index.name = i.base)
    (hkind : ∀ i ∈ is, i.locale.isSome = true → d.foldedIndex i ∈ is.foldl d.foldIndex [] →
      i.index.kind ≠ .primary) {base : String} {first : IndexDescription}
    (hfirst : is.find? (fun k => k.base == base) = some first)
    (hsome : first.locale.isSome = true) : d.foldedIndex first ∈ is.foldl d.foldIndex [] := by
  induction is using List.reverseRecOn with
  | nil => simp at hfirst
  | append_singleton is i ih =>
    have hname' : ∀ k ∈ is, k.locale = none → k.index.name = k.base :=
      fun k hk => hname k (List.mem_append_left _ hk)
    rw [List.foldl_append, List.foldl_cons, List.foldl_nil] at hkind ⊢
    have hkind' : ∀ k ∈ is, k.locale.isSome = true →
        d.foldedIndex k ∈ is.foldl d.foldIndex [] → k.index.kind ≠ .primary :=
      fun k hk hsome hmem =>
        hkind k (List.mem_append_left _ hk) hsome (subset_foldIndex d _ i _ hmem)
    rw [List.find?_append] at hfirst
    cases hfind : is.find? fun k => k.base == base with
    | some f =>
      rw [hfind, Option.some_or] at hfirst
      cases hfirst
      exact subset_foldIndex d _ i _ (ih hname' hkind' hfind)
    | none =>
      rw [hfind, Option.none_or] at hfirst
      have hmem := List.mem_of_find?_eq_some hfirst
      have hbase : first.base = base := by simpa using List.find?_some hfirst
      rw [List.mem_singleton] at hmem
      subst hmem
      -- whatever was folded before belongs to another base
      have hfree : ∀ j ∈ is.foldl d.foldIndex [], j.name ≠ first.base := by
        intro j hj e
        have hnone := List.find?_eq_none.mp hfind
        rcases (mem_foldIndexes d hname').1 j hj with ⟨k, hk, hplain, rfl⟩ | ⟨k, hk, hk', rfl, -⟩
        · exact hnone k hk (by simp [← hname' k hk hplain, e, hbase])
        · rw [name_foldedIndex (hkind' k hk hk' hj)] at e
          exact hnone k hk (by simp [e, hbase])
      generalize is.foldl d.foldIndex [] = js at hfree
      unfold foldIndex
      rw [if_pos hsome, if_neg (by simpa using hfree)]
      exact List.mem_append_right _ (List.mem_singleton.mpr rfl)

end FoldIndexes

end SchemaMigration.Description
