import SchemaMigration.Description.Expand
import SchemaMigration.Description.Live
import SchemaMigration.Proofs.Outcome

/-!
# What an accepted declaration expands to

A declaration that is not refused expands to a well-formed description: its handles are unique and
name what they stand for, and its indexes cover columns that it has.

* `mem_of_concatMapM`, `ok_of_concatMapM`: what a chain of expansions collects is what the single
  expansions give, and none of them is refused.
* `expand_plain`, `expand_localized`: the columns of a field, one or one for every locale.
* `expand_ok`: the indexes of a declared index; the fields of its key are all localized or none.
* **`wellFormed_of_ofSchema`**: the description of an accepted declaration is well formed.
-/

namespace SchemaMigration

/-- Handles are unique and name what they stand for, and indexes cover columns that are there. -/
structure Description.WellFormed (d : Description) : Prop where
  /-- Columns have distinct handles. -/
  columns_nodup : (d.columns.map ColumnDescription.handle).Nodup
  /-- Indexes have distinct handles. -/
  indexes_nodup : (d.indexes.map IndexDescription.handle).Nodup
  /-- The handle of a column is its name. -/
  column_name : ∀ c ∈ d.columns, c.column.name = c.handle
  /-- The handle of an index is its name. -/
  index_name : ∀ i ∈ d.indexes, i.index.name = i.handle
  /-- Every field of an index is the handle of a column. -/
  covered : ∀ i ∈ d.indexes, ∀ f ∈ i.index.fields, f ∈ d.columns.map ColumnDescription.handle

/-! ## Collecting expansions -/

section Collecting

variable {α β : Type} {f : α → Except Misuse (List β)}

theorem concatMapM_cons_eq_ok {a : α} {r : List α} {bs : List β}
    (h : concatMapM f (a :: r) = .ok bs) :
    ∃ first rest, f a = .ok first ∧ concatMapM f r = .ok rest ∧ bs = first ++ rest := by
  obtain ⟨first, hfirst, h⟩ := bind_eq_ok_iff.mp h
  obtain ⟨rest, hrest, h⟩ := bind_eq_ok_iff.mp h
  exact ⟨first, rest, hfirst, hrest, (Except.ok.inj h).symm⟩

/-- Whatever is collected comes from one of the members. -/
theorem mem_of_concatMapM {b : β} :
    ∀ {l : List α} {bs : List β}, concatMapM f l = .ok bs → b ∈ bs →
      ∃ a ∈ l, ∃ as, f a = .ok as ∧ b ∈ as
  | [], _, h, hb => by
    cases h
    exact absurd hb List.not_mem_nil
  | a :: r, _, h, hb => by
    obtain ⟨first, rest, hfirst, hrest, rfl⟩ := concatMapM_cons_eq_ok h
    rcases List.mem_append.mp hb with hb | hb
    · exact ⟨a, List.mem_cons_self, first, hfirst, hb⟩
    · obtain ⟨a', ha', as, has, hb⟩ := mem_of_concatMapM hrest hb
      exact ⟨a', List.mem_cons_of_mem a ha', as, has, hb⟩

/-- No member is refused, and what each of them gives is collected. -/
theorem ok_of_concatMapM {a : α} :
    ∀ {l : List α} {bs : List β}, concatMapM f l = .ok bs → a ∈ l →
      ∃ as, f a = .ok as ∧ ∀ b ∈ as, b ∈ bs
  | [], _, _, ha => absurd ha List.not_mem_nil
  | a' :: r, _, h, ha => by
    obtain ⟨first, rest, hfirst, hrest, rfl⟩ := concatMapM_cons_eq_ok h
    rcases List.mem_cons.mp ha with rfl | ha
    · exact ⟨first, hfirst, fun b hb => List.mem_append_left rest hb⟩
    · obtain ⟨as, has, hsub⟩ := ok_of_concatMapM hrest ha
      exact ⟨as, has, fun b hb => List.mem_append_right first (hsub b hb)⟩

end Collecting

/-- No text repeats iff the texts are distinct and differ from those seen before. -/
theorem firstRepeated?_eq_none_iff :
    ∀ (seen l : List String), firstRepeated? seen l = none ↔ l.Nodup ∧ ∀ s ∈ l, s ∉ seen
  | _, [] => by simp [firstRepeated?]
  | seen, s :: r => by
    unfold firstRepeated?
    by_cases h : s ∈ seen
    · simp [h]
    · rw [if_neg (by simpa using h), firstRepeated?_eq_none_iff (s :: seen) r]
      simp only [List.nodup_cons, List.mem_cons, not_or, forall_eq_or_imp]
      constructor
      · rintro ⟨hr, hs⟩
        exact ⟨⟨fun hm => (hs s hm).1 rfl, hr⟩, h, fun t ht => (hs t ht).2⟩
      · rintro ⟨⟨hs, hr⟩, -, hsub⟩
        exact ⟨hr, fun t ht => ⟨fun e => hs (e ▸ ht), hsub t ht⟩⟩

/-! ## Columns -/

namespace FieldDefinition

/-- The name of a field's column in a locale, or of its only column. -/
def columnName (f : FieldDefinition) : Option String → String
  | some code => Locale.localize f.handle code
  | none => f.handle

theorem describe_ok {f : FieldDefinition} {c : Column} {locale : Option String}
    {cs : List ColumnDescription} (h : f.describe c locale = .ok cs) :
    c.check = .ok () ∧ (c.autoIncrement && locale.isSome) = false ∧
      cs = [⟨c.name, f.handle, locale, c⟩] := by
  obtain ⟨⟨⟩, hcheck, h⟩ := bind_eq_ok_iff.mp h
  split at h
  · cases h
  · rename_i hauto
    exact ⟨hcheck, by simpa using hauto, (Except.ok.inj h).symm⟩

/-- A field that is no relation has one column in a locale, or one column altogether. -/
theorem columnIn_ok {f : FieldDefinition} {locale : Option String} {cs : List ColumnDescription}
    (h : f.columnIn locale = .ok cs) (hf : f.isRelation = false) :
    ∃ c, f.toColumn? (f.columnName locale) = some c ∧ c.check = .ok () ∧
      (c.autoIncrement && locale.isSome) = false ∧
      cs = [⟨f.columnName locale, f.handle, locale, c⟩] ∧ c.name = f.columnName locale := by
  obtain ⟨handle, kind, localized⟩ := f
  cases kind with
  | relation target => exact absurd hf (by simp [isRelation])
  | column type size default auto =>
    obtain ⟨hcheck, hauto, hcs⟩ := describe_ok h
    cases locale <;> exact ⟨_, rfl, hcheck, hauto, hcs, rfl⟩

theorem expand_plain {f : FieldDefinition} {c : CollectionRef} {locales : List String}
    (hf : f.isRelation = false) (hl : f.localized = false) :
    f.expand c locales = f.columnIn none := by
  simp [expand, hf, hl]

theorem expand_localized {f : FieldDefinition} {c : CollectionRef} {locales : List String}
    {cs : List ColumnDescription} (h : f.expand c locales = .ok cs) (hf : f.isRelation = false)
    (hl : f.localized = true) :
    locales ≠ [] ∧ concatMapM (fun code => f.columnIn (some code)) locales = .ok cs := by
  unfold expand at h
  rw [hf, hl] at h
  cases locales with
  | nil => cases h
  | cons code r => exact ⟨List.cons_ne_nil code r, h⟩

/-- Every column of a field has its handle as its name. -/
theorem name_of_mem_expand {f : FieldDefinition} {c : CollectionRef} {locales : List String}
    {cs : List ColumnDescription} (h : f.expand c locales = .ok cs) :
    ∀ d ∈ cs, d.column.name = d.handle := by
  intro d hd
  cases hf : f.isRelation with
  | true =>
    simp only [expand, hf, if_true] at h
    cases h
    exact absurd hd List.not_mem_nil
  | false =>
    cases hl : f.localized with
    | false =>
      rw [expand_plain hf hl] at h
      obtain ⟨column, -, -, -, rfl, hname⟩ := columnIn_ok h hf
      rw [List.mem_singleton.mp hd]
      exact hname
    | true =>
      obtain ⟨code, -, ds, hds, hd⟩ := mem_of_concatMapM (expand_localized h hf hl).2 hd
      obtain ⟨column, -, -, -, rfl, hname⟩ := columnIn_ok hds hf
      rw [List.mem_singleton.mp hd]
      exact hname

end FieldDefinition

/-! ## Indexes -/

/-- The field that a key of an index names is localized. -/
def CollectionSchema.localizes (s : CollectionSchema) (name : String) : Bool :=
  (s.field? name).any FieldDefinition.localized

namespace Index

/-- Keys that no index refuses name fields that are no relations. -/
theorem localizedFields_ok {i : Index} {s : CollectionSchema} :
    ∀ {names localized : List String}, i.localizedFields s names = .ok localized →
      localized = names.filter s.localizes ∧
        ∀ name ∈ names, ∃ f, s.field? name = some f ∧ f.isRelation = false
  | [], _, h => by
    cases h
    exact ⟨rfl, fun name hn => absurd hn List.not_mem_nil⟩
  | name :: r, localized, h => by
    unfold localizedFields at h
    cases hf : s.field? name with
    | none =>
      rw [hf] at h
      cases h
    | some f =>
      rw [hf] at h
      simp only at h
      split at h
      · cases h
      · rename_i hrel
        obtain ⟨rest, hrest, h⟩ := bind_eq_ok_iff.mp h
        obtain ⟨rfl, hall⟩ := localizedFields_ok hrest
        constructor
        · have hl : s.localizes name = f.localized := by simp [CollectionSchema.localizes, hf]
          rw [List.filter_cons, hl]
          exact (Except.ok.inj h).symm
        · intro n hn
          rcases List.mem_cons.mp hn with rfl | hn
          · exact ⟨f, hf, by simpa using hrel⟩
          · exact hall n hn

/-- What an index expands to: itself over fields that are not localized, or one index for every
locale over fields that all are. -/
inductive Expands (i : Index) (s : CollectionSchema) (locales : List String) :
    List IndexDescription → Prop
  | plain (h : ∀ name ∈ i.fields, s.localizes name = false) :
      Expands i s locales [⟨i.name, i.name, none, i⟩]
  | localized (h : ∀ name ∈ i.fields, s.localizes name = true) :
      Expands i s locales (locales.map fun code =>
        ⟨Locale.localize i.name code, i.name, some code, i.inLocale code⟩)

theorem length_fields (i : Index) : i.fields.length = i.columns.length :=
  List.length_map _

theorem fields_inLocale (i : Index) (code : String) :
    (i.inLocale code).fields = i.fields.map fun name => Locale.localize name code := by
  simp [fields, inLocale, Function.comp_def]

/-- An index that is not refused covers declared fields that are no relations. -/
theorem expand_ok {i : Index} {s : CollectionSchema} {locales : List String}
    {is : List IndexDescription} (h : i.expand s locales = .ok is) :
    i.check = .ok () ∧ i.Expands s locales is ∧
      ∀ name ∈ i.fields, ∃ f, s.field? name = some f ∧ f.isRelation = false := by
  obtain ⟨⟨⟩, hcheck, h⟩ := bind_eq_ok_iff.mp h
  obtain ⟨localized, hloc, h⟩ := bind_eq_ok_iff.mp h
  obtain ⟨rfl, hall⟩ := localizedFields_ok hloc
  refine ⟨hcheck, ?_, hall⟩
  split at h
  · rename_i hempty
    cases h
    refine Expands.plain fun name hn => ?_
    have := List.filter_eq_nil_iff.mp (List.isEmpty_iff.mp hempty) name hn
    simpa using this
  · split at h
    · cases h
    · split at h
      · cases h
      · rename_i hlt _
        cases h
        refine Expands.localized (List.length_filter_eq_length_iff.mp ?_)
        have hle := List.length_filter_le s.localizes i.fields
        rw [length_fields] at hle ⊢
        omega

end Index

/-! ## Descriptions -/

namespace Description

variable {s : CollectionSchema} {locales : List String} {d : Description}

/-- An accepted declaration passes every check of its expansion. -/
theorem ofSchema_ok (h : ofSchema s locales = .ok d) :
    Locale.checkAll locales = .ok () ∧ d.collection = s.collection ∧
      concatMapM (fun f => f.expand s.collection locales) s.fields = .ok d.columns ∧
      concatMapM (fun i => i.expand s locales) s.indexes = .ok d.indexes ∧
      checkColumns s.collection d.columns = .ok () ∧
      checkIndexes s.collection d.indexes = .ok () ∧
      (s.indexes.filter Index.isPrimary).length ≤ 1 := by
  obtain ⟨⟨⟩, hlocales, h⟩ := bind_eq_ok_iff.mp h
  obtain ⟨columns, hcolumns, h⟩ := bind_eq_ok_iff.mp h
  obtain ⟨⟨⟩, hcheck, h⟩ := bind_eq_ok_iff.mp h
  split at h
  · cases h
  · rename_i hone
    obtain ⟨indexes, hindexes, h⟩ := bind_eq_ok_iff.mp h
    obtain ⟨⟨⟩, hcheck', h⟩ := bind_eq_ok_iff.mp h
    cases h
    exact ⟨hlocales, rfl, hcolumns, hindexes, hcheck, hcheck', by omega⟩

theorem nodup_of_checkColumns {c : CollectionRef} {columns : List ColumnDescription}
    (h : checkColumns c columns = .ok ()) : (columns.map ColumnDescription.handle).Nodup := by
  unfold checkColumns at h
  split at h
  · cases h
  · rename_i hnone
    exact ((firstRepeated?_eq_none_iff _ _).mp hnone).1

theorem nodup_of_checkIndexes {c : CollectionRef} {indexes : List IndexDescription}
    (h : checkIndexes c indexes = .ok ()) : (indexes.map IndexDescription.handle).Nodup := by
  unfold checkIndexes at h
  split at h
  · cases h
  · rename_i hnone
    exact ((firstRepeated?_eq_none_iff _ _).mp hnone).1

/-- A declared field that is no relation and not localized has a column of its own handle. -/
theorem mem_handles_of_plain (h : ofSchema s locales = .ok d) {f : FieldDefinition}
    (hf : f ∈ s.fields) (hr : f.isRelation = false) (hl : f.localized = false) :
    f.handle ∈ d.columns.map ColumnDescription.handle := by
  obtain ⟨cs, hcs, hsub⟩ := ok_of_concatMapM (ofSchema_ok h).2.2.1 hf
  rw [FieldDefinition.expand_plain hr hl] at hcs
  obtain ⟨c, -, -, -, rfl, -⟩ := FieldDefinition.columnIn_ok hcs hr
  exact List.mem_map.mpr ⟨_, hsub _ (List.mem_singleton.mpr rfl), rfl⟩

/-- A localized field has a column for every locale. -/
theorem mem_handles_of_localized (h : ofSchema s locales = .ok d) {f : FieldDefinition}
    (hf : f ∈ s.fields) (hr : f.isRelation = false) (hl : f.localized = true) {code : String}
    (hcode : code ∈ locales) :
    Locale.localize f.handle code ∈ d.columns.map ColumnDescription.handle := by
  obtain ⟨cs, hcs, hsub⟩ := ok_of_concatMapM (ofSchema_ok h).2.2.1 hf
  obtain ⟨ds, hds, hsub'⟩ :=
    ok_of_concatMapM (FieldDefinition.expand_localized hcs hr hl).2 hcode
  obtain ⟨c, -, -, -, rfl, -⟩ := FieldDefinition.columnIn_ok hds hr
  exact List.mem_map.mpr ⟨_, hsub _ (hsub' _ (List.mem_singleton.mpr rfl)), rfl⟩

/-- Every field of an expanded index is the handle of a column. -/
theorem covered_of_expands (h : ofSchema s locales = .ok d) {i : Index}
    {is : List IndexDescription} (hi : i.Expands s locales is)
    (hfields : ∀ name ∈ i.fields, ∃ f, s.field? name = some f ∧ f.isRelation = false) :
    ∀ j ∈ is, ∀ name ∈ j.index.fields, name ∈ d.columns.map ColumnDescription.handle := by
  have hfield : ∀ name ∈ i.fields, ∃ f ∈ s.fields, f.handle = name ∧ f.isRelation = false ∧
      f.localized = s.localizes name := fun name hn => by
    obtain ⟨f, hf, hr⟩ := hfields name hn
    exact ⟨f, List.mem_of_find?_eq_some hf, by simpa using List.find?_some hf, hr,
      by simp [CollectionSchema.localizes, hf]⟩
  intro j hj name hn
  cases hi with
  | plain hplain =>
    rw [List.mem_singleton.mp hj] at hn
    obtain ⟨f, hf, rfl, hr, hl⟩ := hfield name hn
    exact mem_handles_of_plain h hf hr (hl.trans (hplain _ hn))
  | localized hlocalized =>
    obtain ⟨code, hcode, rfl⟩ := List.mem_map.mp hj
    rw [Index.fields_inLocale] at hn
    obtain ⟨base, hbase, rfl⟩ := List.mem_map.mp hn
    obtain ⟨f, hf, rfl, hr, hl⟩ := hfield base hbase
    exact mem_handles_of_localized h hf hr (hl.trans (hlocalized _ hbase)) hcode

/-- **The description of an accepted declaration is well formed.** -/
theorem wellFormed_of_ofSchema (h : ofSchema s locales = .ok d) : d.WellFormed := by
  obtain ⟨-, -, hcolumns, hindexes, hcheck, hcheck', -⟩ := ofSchema_ok h
  refine ⟨nodup_of_checkColumns hcheck, nodup_of_checkIndexes hcheck', fun c hc => ?_,
    fun j hj => ?_, fun j hj => ?_⟩
  · obtain ⟨f, -, cs, hcs, hc⟩ := mem_of_concatMapM hcolumns hc
    exact FieldDefinition.name_of_mem_expand hcs c hc
  · obtain ⟨i, -, is, his, hj⟩ := mem_of_concatMapM hindexes hj
    cases (Index.expand_ok his).2.1 with
    | plain _ =>
      rw [List.mem_singleton.mp hj]
    | localized _ =>
      obtain ⟨code, -, rfl⟩ := List.mem_map.mp hj
      rfl
  · obtain ⟨i, -, is, his, hj⟩ := mem_of_concatMapM hindexes hj
    obtain ⟨-, hexp, hfields⟩ := Index.expand_ok his
    exact covered_of_expands h hexp hfields j hj

end Description

/-! ## An example -/

namespace Posts

theorem scope_valid (s : String) (h : none = some s) : partMisuse? s = none := nomatch h

/-- A collection of posts. -/
def collection : CollectionRef := ⟨none, "post", scope_valid, rfl⟩

/-- Posts with a title in every locale and a number of views. -/
def schema : CollectionSchema :=
  ⟨collection,
    [.column "id" .int64, (FieldDefinition.column "title" .text).asLocalized,
      .column "views" .int32],
    [⟨primaryName, .primary, Index.ascending ["id"]⟩,
      ⟨"titles", .unique, Index.ascending ["title"]⟩,
      ⟨"ranking", .plain, Index.ascending ["views", "id"]⟩]⟩

/-- Posts as they are declared in English and French. -/
def declared : Description :=
  ⟨collection,
    [⟨"id", "id", none, .plain "id" .int64⟩,
      ⟨"title__en", "title", some "en", .plain "title__en" .text⟩,
      ⟨"title__fr", "title", some "fr", .plain "title__fr" .text⟩,
      ⟨"views", "views", none, .plain "views" .int32⟩],
    [⟨primaryName, primaryName, none, ⟨primaryName, .primary, Index.ascending ["id"]⟩⟩,
      ⟨"titles__en", "titles", some "en", ⟨"titles__en", .unique, Index.ascending ["title__en"]⟩⟩,
      ⟨"titles__fr", "titles", some "fr", ⟨"titles__fr", .unique, Index.ascending ["title__fr"]⟩⟩,
      ⟨"ranking", "ranking", none, ⟨"ranking", .plain, Index.ascending ["views", "id"]⟩⟩]⟩

theorem ofSchema_schema : Description.ofSchema schema ["en", "fr"] = .ok declared := by
  rfl

/-- Posts as a backend has them from an older declaration: no French title, the views as a text, and
a column and an index that are not declared any more. -/
def live : LiveCollection :=
  ⟨collection,
    [.plain "id" .int64, .plain "title__en" .text, .plain "views" .text, .plain "legacy" .text],
    [⟨primaryName, .primary, Index.ascending ["id"]⟩,
      ⟨"titles__en", .unique, Index.ascending ["title__en"]⟩,
      ⟨"ranking", .plain, Index.ascending ["views", "id"]⟩,
      ⟨"stale", .plain, Index.ascending ["legacy"]⟩]⟩

/-- The description of the older posts. -/
def found : Description :=
  .ofLive live ["en", "fr"]

end Posts

end SchemaMigration
